import CampusMesh.Library.ByteBuffer
import Mathlib.Data.List.DropRight
import Mathlib.Tactic.IntervalCases

/-!
# What the program uses of its JavaScript host

Thrown errors, the string methods `trim` and `toLowerCase`, hexadecimal output of byte arrays, and
the text codec of the wire protocol. Strings are sequences of Unicode scalar values, which are the
strings without lone surrogates; `TextEncoder` turns exactly these into UTF-8 without replacing
anything.
-/

set_option autoImplicit false
set_option relaxedAutoImplicit false

namespace CampusMesh.Shared

open Library

/-- A thrown error object. -/
structure JsError where
  name : String
  message : String
  deriving DecidableEq

/-- `new Error(message)`. -/
def JsError.error (message : String) : JsError := ⟨"Error", message⟩

/-- `new RangeError(message)`. -/
def JsError.rangeError (message : String) : JsError := ⟨"RangeError", message⟩

/-- `String(err)`. -/
def JsError.toText (error : JsError) : String := error.name ++ ": " ++ error.message

/-- Two computations after one another return exactly when both do. -/
theorem bind_eq_ok_iff {ε α β : Type} {first : Except ε α} {next : α → Except ε β} {result : β} :
    (first >>= next) = .ok result ↔ ∃ value, first = .ok value ∧ next value = .ok result := by
  cases first with
  | error error => simp [bind, Except.bind]
  | ok value => simp [bind, Except.bind]

/-! ### Strings -/

/-- The characters that `String.prototype.trim` removes: white space and line terminators. -/
def isTrimmed (char : Char) : Bool :=
  let code := char.toNat
  (9 ≤ code && code ≤ 13) || code = 0x20 || code = 0xA0 || code = 0x1680 ||
    (0x2000 ≤ code && code ≤ 0x200A) || code = 0x2028 || code = 0x2029 || code = 0x202F ||
    code = 0x205F || code = 0x3000 || code = 0xFEFF

/-- `text.trim()`. -/
def trim (text : String) : String :=
  String.ofList ((text.toList.dropWhile isTrimmed).rdropWhile isTrimmed)

/-- A digit is not white space. -/
theorem isTrimmed_of_isDigit {char : Char} (hdigit : char.isDigit = true) :
    isTrimmed char = false := by
  have hbounds : 48 ≤ char.toNat ∧ char.toNat ≤ 57 := by
    simpa [Char.isDigit, UInt32.le_iff_toNat_le] using hdigit
  unfold isTrimmed
  simp
  omega

/-- The UTF-16 code units of a character. -/
def codeUnits (char : Char) : List ℕ :=
  if char.toNat < 0x10000 then [char.toNat]
  else [0xD800 + (char.toNat - 0x10000) / 0x400, 0xDC00 + (char.toNat - 0x10000) % 0x400]

/-- `first < second` on strings, which compares code units. -/
def precedes (first second : String) : Bool :=
  decide (first.toList.flatMap codeUnits < second.toList.flatMap codeUnits)

/-- `text.toLowerCase()` on the letters that have a lower case in ASCII. The program lowers only
hash texts, and compares them with text whose characters are all hexadecimal digits; no letter
outside ASCII has a hexadecimal digit in its lower case. -/
def toLowerCase (text : String) : String := String.ofList (text.toList.map Char.toLower)

/-- The lower-case hexadecimal digit of a number below sixteen. -/
def hexDigit (value : ℕ) : Char :=
  if value < 10 then Char.ofNat (48 + value) else Char.ofNat (87 + value)

/-- The two characters of `byte.toString(16).padStart(2, '0')`. -/
def hexByte (byte : UInt8) : List Char := [hexDigit (byte.toNat / 16), hexDigit (byte.toNat % 16)]

/-- The lower-case hexadecimal text of a byte array. -/
def hexText (bytes : Bytes) : String := String.ofList (bytes.flatMap hexByte)

/-- A hexadecimal digit is neither removed by `trim` nor changed by `toLowerCase`. -/
theorem hexDigit_plain (value : ℕ) (hvalue : value < 16) :
    isTrimmed (hexDigit value) = false ∧ (hexDigit value).toLower = hexDigit value := by
  interval_cases value <;> decide

/-- Hexadecimal digits below sixteen are distinct. -/
theorem hexDigit_injective {first second : ℕ} (hfirst : first < 16) (hsecond : second < 16)
    (heq : hexDigit first = hexDigit second) : first = second := by
  revert heq
  interval_cases first <;> interval_cases second <;> decide

theorem mem_hexByte_plain {byte : UInt8} {char : Char} (hmem : char ∈ hexByte byte) :
    isTrimmed char = false ∧ char.toLower = char := by
  have hbound := byte.toNat_lt
  simp only [hexByte, List.mem_cons, List.not_mem_nil, or_false] at hmem
  rcases hmem with rfl | rfl
  · exact hexDigit_plain _ (by omega)
  · exact hexDigit_plain _ (by omega)

/-- A text without white space is not trimmed. -/
theorem trim_eq_self {text : String} (hplain : ∀ char ∈ text.toList, isTrimmed char = false) :
    trim text = text := by
  have hkeep : text.toList.dropWhile isTrimmed = text.toList := by
    rw [List.dropWhile_eq_self_iff]
    intro hpositive
    simp [hplain _ (List.getElem_mem hpositive)]
  have hkeepEnd : text.toList.rdropWhile isTrimmed = text.toList := by
    rw [List.rdropWhile_eq_self_iff]
    intro hne
    simp [hplain _ (List.getLast_mem hne)]
  rw [trim, hkeep, hkeepEnd, String.ofList_toList]

/-- Trimming and lowering leave a hexadecimal text as it is. -/
theorem toLowerCase_trim_hexText (bytes : Bytes) :
    toLowerCase (trim (hexText bytes)) = hexText bytes := by
  have hplain : ∀ char ∈ bytes.flatMap hexByte, isTrimmed char = false ∧ char.toLower = char := by
    intro char hmem
    obtain ⟨byte, _, hchar⟩ := List.mem_flatMap.mp hmem
    exact mem_hexByte_plain hchar
  have htrim : trim (hexText bytes) = hexText bytes := by
    refine trim_eq_self fun char hmem ↦ (hplain char ?_).1
    rwa [hexText, String.toList_ofList] at hmem
  rw [htrim, toLowerCase, hexText, String.toList_ofList]
  congr 1
  exact (List.map_congr_left fun char hmem ↦ (hplain char hmem).2).trans (List.map_id _)

theorem hexByte_injective {first second : UInt8} (heq : hexByte first = hexByte second) :
    first = second := by
  have hfirst := first.toNat_lt
  have hsecond := second.toNat_lt
  simp only [hexByte, List.cons.injEq, and_true] at heq
  have hhigh := hexDigit_injective (by omega) (by omega) heq.1
  have hlow := hexDigit_injective (by omega) (by omega) heq.2
  exact UInt8.toNat_inj.mp (by omega)

/-- Different byte arrays have different hexadecimal texts. -/
theorem hexText_injective {first second : Bytes} (heq : hexText first = hexText second) :
    first = second := by
  have hchars : first.flatMap hexByte = second.flatMap hexByte := by
    have hlist := congrArg String.toList heq
    rwa [hexText, hexText, String.toList_ofList, String.toList_ofList] at hlist
  induction first generalizing second with
  | nil =>
    cases second with
    | nil => rfl
    | cons byte rest => simp [hexByte] at hchars
  | cons byte rest ih =>
    cases second with
    | nil => simp [hexByte] at hchars
    | cons other others =>
      rw [List.flatMap_cons, List.flatMap_cons] at hchars
      obtain ⟨hhead, htail⟩ := List.append_inj hchars rfl
      rw [hexByte_injective hhead, ih (by rw [hexText, hexText, htail]) htail]

/-! ### Text codec -/

/-- `textEncoder.encode(text)`: the UTF-8 bytes of a string. -/
def textEncode (text : String) : Bytes := text.toList.flatMap String.utf8EncodeChar

/-- The registers of the streaming UTF-8 decoder: continuation bytes still needed, the bits seen so
far, and the bounds for the next continuation byte. -/
structure Utf8Registers where
  needed : ℕ
  codePoint : ℕ
  lower : ℕ
  upper : ℕ

/-- The registers between two characters. -/
def Utf8Registers.fresh : Utf8Registers := ⟨0, 0, 0x80, 0xBF⟩

/-- The character that stands for bytes that are not UTF-8. -/
def replacementChar : Char := Char.ofNat 0xFFFD

/-- Decodes a byte where a new character starts. -/
def decodeLeadByte (byte : ℕ) : List Char × Utf8Registers :=
  if byte ≤ 0x7F then ([Char.ofNat byte], .fresh)
  else if 0xC2 ≤ byte ∧ byte ≤ 0xDF then ([], ⟨1, byte % 0x20, 0x80, 0xBF⟩)
  else if 0xE0 ≤ byte ∧ byte ≤ 0xEF then
    ([], ⟨2, byte % 0x10, if byte = 0xE0 then 0xA0 else 0x80, if byte = 0xED then 0x9F else 0xBF⟩)
  else if 0xF0 ≤ byte ∧ byte ≤ 0xF4 then
    ([], ⟨3, byte % 0x08, if byte = 0xF0 then 0x90 else 0x80, if byte = 0xF4 then 0x8F else 0xBF⟩)
  else ([replacementChar], .fresh)

/-- Decodes one byte. A byte that does not continue the character ends it with a replacement
character and is then read again as the start of a new one. -/
def decodeByte (registers : Utf8Registers) (byte : ℕ) : List Char × Utf8Registers :=
  if registers.needed = 0 then decodeLeadByte byte
  else if registers.lower ≤ byte ∧ byte ≤ registers.upper then
    let codePoint := registers.codePoint * 0x40 + byte % 0x40
    if registers.needed = 1 then ([Char.ofNat codePoint], .fresh)
    else ([], ⟨registers.needed - 1, codePoint, 0x80, 0xBF⟩)
  else
    let (chars, after) := decodeLeadByte byte
    (replacementChar :: chars, after)

/-- Decodes the rest of a byte sequence; an unfinished character at its end is replaced. -/
def decodeFrom : Utf8Registers → Bytes → List Char
  | registers, [] => if registers.needed = 0 then [] else [replacementChar]
  | registers, byte :: rest =>
    let (chars, after) := decodeByte registers byte.toNat
    chars ++ decodeFrom after rest

/-- `textDecoder.decode(bytes)`: a leading byte order mark is dropped, malformed bytes are
replaced. -/
def textDecode (bytes : Bytes) : String :=
  let body := if bytes.take 3 = [0xEF, 0xBB, 0xBF] then bytes.drop 3 else bytes
  String.ofList (decodeFrom .fresh body)

example : textDecode (textEncode "r\u00e9s_\u20ac") = "r\u00e9s_\u20ac" := by decide

end CampusMesh.Shared
