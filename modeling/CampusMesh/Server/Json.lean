import Mathlib.Data.Nat.Notation
import Mathlib.Tactic.SplitIfs

/-!
# JSON values

The values that `JSON.parse` yields and `JSON.stringify` takes, with the ways in which the signaling
hub reads and writes them. Numbers are of some type: what the hub needs of parsing, of writing and
of arithmetic is a `Host`. A value that is not there (`undefined`) is `none`.

An operand of an arithmetic operator is converted to a primitive value first. That throws for an
object with a field `toString` of its own, since no JSON value can be called (`convertible`), and
for arrays that are nested deeper than the call stack allows. The latter makes `JSON.stringify`
throw as well, and so does a text that gets too long. Where these limits are depends on the machine:
a host says of each value whether it can be converted and written, and all that is assumed is that
bare records, such as metrics without reports, can be written.
-/

set_option autoImplicit false
set_option relaxedAutoImplicit false

namespace CampusMesh.Server

/-- A JSON value. -/
inductive Json (ν : Type)
  | null
  | bool (value : Bool)
  | number (value : ν)
  | string (text : String)
  | array (items : List (Json ν))
  | object (fields : List (String × Json ν))

namespace Json

variable {ν : Type}

/-- A value of at most so many levels of records, with nothing in its lists. -/
def isBare : ℕ → Json ν → Bool
  | levels + 1, object fields => fields.all fun field ↦ isBare levels field.2
  | 0, object _ => false
  | _, array items => items.isEmpty
  | _, _ => true

/-- The fields of a record. -/
abbrev Fields (ν : Type) := List (String × Json ν)

/-- `fields[key]`. -/
def getField (key : String) (fields : Fields ν) : Option (Json ν) :=
  (fields.find? fun field ↦ field.1 = key).map Prod.snd

/-- `fields[key] = value`: in place when the field is there, and at the end when it is not. -/
def setField (key : String) (value : Json ν) : Fields ν → Fields ν
  | [] => [(key, value)]
  | field :: rest =>
    if field.1 = key then (key, value) :: rest else field :: setField key value rest

/-- `value[key]` for a key that only records have. -/
def get? (key : String) : Json ν → Option (Json ν)
  | object fields => getField key fields
  | _ => none

/-- The properties to which others can be added: those of a record, or of an array by their indices.
Adding a property to a primitive value throws. -/
def asFields : Json ν → Option (Fields ν)
  | object fields => some fields
  | array items => some ((items.zipIdx).map fun item ↦ (toString item.2, item.1))
  | _ => none

mutual

/-- No field keeps the value from being converted to a primitive one; an array is converted by
joining its items. -/
def convertible : Json ν → Bool
  | object fields => (getField "toString" fields).isNone
  | array items => allConvertible items
  | _ => true

def allConvertible : List (Json ν) → Bool
  | [] => true
  | item :: rest => convertible item && allConvertible rest

end

end Json

/-- What the hub uses of JavaScript on such values: `JSON.parse`, whether `JSON.stringify` succeeds,
numbers that come from counting or from the clock, and arithmetic. Of `+` with an operand that is
not a number, and of the conversion of such an operand to a number, the result is nothing when it
throws. -/
structure Host (ν : Type) where
  parse : String → Option (Json ν)
  serializes : Json ν → Bool
  serializes_of_bare : ∀ value : Json ν, value.isBare 2 = true → serializes value = true
  ofNat : ℕ → ν
  isTruthyNumber : ν → Bool
  add : ν → ν → ν
  concat : Json ν → Json ν → Option (Json ν)
  convert : Json ν → Option ν
  times : ν → ν → ν
  dividedBy : ν → ν → ν
  isGreater : ν → ν → Bool
  round : ν → ν
  max : ν → ν → ν

namespace Host

variable {ν : Type}

/-- The truth of a value that may be missing. -/
def truthy (host : Host ν) : Option (Json ν) → Bool
  | none | some .null | some (.bool false) => false
  | some (.number value) => host.isTruthyNumber value
  | some (.string text) => text ≠ ""
  | _ => true

/-- `value || fallback`. -/
def orElse (host : Host ν) (value : Option (Json ν)) (fallback : Json ν) : Json ν :=
  if host.truthy value then value.getD fallback else fallback

/-- A natural number as a value. -/
def natural (host : Host ν) (value : ℕ) : Json ν := .number (host.ofNat value)

/-- `first + second`; nothing if it throws. -/
def plus (host : Host ν) : Json ν → Json ν → Option (Json ν)
  | .number first, .number second => some (.number (host.add first second))
  | first, second => host.concat first second

/-- The value as a number; nothing if the conversion throws. -/
def toNumber (host : Host ν) : Json ν → Option ν
  | .number value => some value
  | value => host.convert value

@[simp]
theorem plus_number (host : Host ν) (first second : ν) :
    host.plus (.number first) (.number second) = some (.number (host.add first second)) := rfl

@[simp]
theorem toNumber_number (host : Host ν) (value : ν) : host.toNumber (.number value) = some value :=
  rfl

end Host

/-- A host for texts of which it is given what they parse to. It is for counters that are integers
below `2 ^ 53`, whose sums doubles give exactly: its arithmetic is exact, any operand that is not a
number makes it throw, and it can write everything. -/
def tableHost (table : List (String × Json Rat)) : Host Rat where
  parse text := (table.find? fun entry ↦ entry.1 = text).map Prod.snd
  serializes _ := true
  serializes_of_bare _ _ := rfl
  ofNat value := value
  isTruthyNumber value := value ≠ 0
  add first second := first + second
  concat _ _ := none
  convert _ := none
  times first second := first * second
  dividedBy first second := first / second
  isGreater first second := second < first
  round value := (value + 1 / 2).floor
  max first second := if first ≤ second then second else first

section Fields

variable {ν : Type} {key other : String} {value : Json ν}

theorem getField_setField_self (fields : Json.Fields ν) :
    Json.getField key (Json.setField key value fields) = some value := by
  induction fields with
  | nil => simp [Json.setField, Json.getField]
  | cons field rest ih =>
    unfold Json.setField
    split_ifs with hkey
    · simp [Json.getField]
    · rw [Json.getField, List.find?_cons_of_neg (by simpa using hkey)]
      exact ih

theorem getField_setField_of_ne (hne : other ≠ key) (fields : Json.Fields ν) :
    Json.getField other (Json.setField key value fields) = Json.getField other fields := by
  induction fields with
  | nil => simp [Json.setField, Json.getField, hne.symm]
  | cons field rest ih =>
    unfold Json.setField
    split_ifs with hkey
    · have hfield : ¬ field.1 = other := fun h ↦ hne (h.symm.trans hkey)
      rw [Json.getField, Json.getField, List.find?_cons_of_neg (by simpa using hne.symm),
        List.find?_cons_of_neg (by simpa using hfield)]
    · by_cases hfield : field.1 = other
      · rw [Json.getField, Json.getField, List.find?_cons_of_pos (by simpa using hfield),
          List.find?_cons_of_pos (by simpa using hfield)]
      · rw [Json.getField, Json.getField, List.find?_cons_of_neg (by simpa using hfield),
          List.find?_cons_of_neg (by simpa using hfield)]
        exact ih

end Fields

end CampusMesh.Server
