import CampusMesh.Library.Stripping
import CampusMesh.Server.ResourceUpload
import Mathlib.Data.Bool.AllAny

/-!
# Names of uploaded files

`sanitizeFilename` drops NULs, turns backslashes into slashes, takes the last component of the path
and trims it. What comes out is never empty, has no separators and no white space at its ends, and
is not changed by a second pass (`sanitizeFilename_tidy`). It need not be a plain name: the last
component of a path may be `.` or `..`, and nothing takes that away. `sanitizeFilename_plain_iff`
says for which inputs it does not happen.
-/

set_option autoImplicit false
set_option relaxedAutoImplicit false

namespace CampusMesh.Server

open Library Shared

/-! ### Names -/

/-- A name that is not empty, has no separators and no NULs, and is trimmed. -/
structure TidyName (name : String) : Prop where
  nonempty : name ≠ ""
  separators : ∀ char ∈ name.toList, char ≠ '/' ∧ char ≠ '\\' ∧ char ≠ Char.ofNat 0
  trimmed : Stripped isTrimmed name.toList

/-- A tidy name that is not that of a directory on every path. -/
structure PlainName (name : String) : Prop extends TidyName name where
  dots : name ≠ "." ∧ name ≠ ".."

/-- The characters of a path without NULs and with slashes in place of backslashes. -/
def slashed (original : String) : List Char :=
  (original.toList.filter fun char ↦ char ≠ Char.ofNat 0).map fun char ↦
    if char = '\\' then '/' else char

/-- The last component of a path is `.` or `..`, up to white space around it and slashes behind
it. -/
def NamesDirectory (original : String) : Prop :=
  ∃ front lead trail slashes, ∃ dots ∈ [".", ".."],
    slashed original = front ++ (lead ++ dots.toList ++ trail) ++ slashes ∧
      (∀ last ∈ front.getLast?, last = '/') ∧ (∀ char ∈ lead, isTrimmed char = true) ∧
      (∀ char ∈ trail, isTrimmed char = true) ∧ ∀ char ∈ slashes, char = '/'

/-! ### The result -/

/-- What is left of a path before the default takes its place. -/
def coreOf (original : String) : List Char :=
  strip isTrimmed (lastComponent (fun char ↦ decide (char = '/')) (slashed original))

theorem sanitizeFilename_eq (original : String) :
    sanitizeFilename original =
      if coreOf original = [] then "unnamed_resource.bin" else String.ofList (coreOf original) := by
  have hcleaned : trim (basename (String.ofList (slashed original))) =
      String.ofList (coreOf original) := by
    rw [trim, basename, String.toList_ofList, String.toList_ofList, coreOf, strip, lastComponent]
    simp only [ne_eq, decide_not]
  by_cases hempty : original = ""
  · subst hempty
    rfl
  · unfold sanitizeFilename
    rw [if_neg hempty]
    change (if trim (basename (String.ofList (slashed original))) = "" then "unnamed_resource.bin"
      else trim (basename (String.ofList (slashed original)))) = _
    simp only [hcleaned, String.ofList_eq_empty_iff]

theorem mem_slashed {original : String} {char : Char} (hmem : char ∈ slashed original) :
    char ≠ '\\' ∧ char ≠ Char.ofNat 0 := by
  obtain ⟨before, hbefore, rfl⟩ := List.mem_map.mp hmem
  have hnul : before ≠ Char.ofNat 0 := by simpa using (List.mem_filter.mp hbefore).2
  split_ifs with hbackslash
  · decide
  · exact ⟨hbackslash, hnul⟩

theorem coreOf_tidy {original : String} (hcore : coreOf original ≠ []) :
    TidyName (String.ofList (coreOf original)) where
  nonempty heq := hcore (String.ofList_eq_empty_iff.mp heq)
  separators char hmem := by
    rw [String.toList_ofList] at hmem
    have hcomponent := mem_of_mem_strip hmem
    have hslash : char ≠ '/' := by simpa using kind_of_mem_lastComponent hcomponent
    exact ⟨hslash, mem_slashed (mem_of_mem_lastComponent hcomponent)⟩
  trimmed := by
    rw [String.toList_ofList]
    exact stripped_strip isTrimmed _

/-- A tidy name is left as it is. -/
theorem sanitizeFilename_eq_self {name : String} (htidy : TidyName name) :
    sanitizeFilename name = name := by
  have hname : name.toList ≠ [] := by simpa using htidy.nonempty
  have hslashed : slashed name = name.toList := by
    have hfilter : (name.toList.filter fun char ↦ char ≠ Char.ofNat 0) = name.toList :=
      List.filter_eq_self.mpr fun char hmem ↦ decide_eq_true (htidy.separators char hmem).2.2
    have hmap : (name.toList.map fun char ↦ if char = '\\' then '/' else char) = name.toList := by
      refine (List.map_congr_left fun char hmem ↦ ?_).trans (List.map_id _)
      exact if_neg (htidy.separators char hmem).2.1
    rw [slashed, hfilter, hmap]
  have hcomponent : lastComponent (fun char ↦ decide (char = '/')) name.toList = name.toList := by
    have hplain : ∀ char ∈ name.toList, decide (char = '/') = false := fun char hmem ↦
      decide_eq_false (htidy.separators char hmem).1
    have hwhole := @lastComponent_append _ (fun char ↦ decide (char = '/')) [] name.toList [] hname
      (by simp) hplain (by simp)
    rwa [List.nil_append, List.append_nil] at hwhole
  have hcore : coreOf name = name.toList := by
    rw [coreOf, hslashed, hcomponent, strip_eq_self htidy.trimmed]
  rw [sanitizeFilename_eq, hcore, if_neg hname, String.ofList_toList]

/-- **Sanitizing a file name.** The result is never empty, has no separators and no NULs, is
trimmed, and stays as it is under another pass. -/
theorem sanitizeFilename_tidy (original : String) :
    TidyName (sanitizeFilename original) ∧
      sanitizeFilename (sanitizeFilename original) = sanitizeFilename original := by
  have hdefault : TidyName "unnamed_resource.bin" :=
    ⟨by decide, List.all_iff_forall_prop.mp (by decide), by decide⟩
  have htidy : TidyName (sanitizeFilename original) := by
    rw [sanitizeFilename_eq]
    split_ifs with hcore
    · exact hdefault
    · exact coreOf_tidy hcore
  exact ⟨htidy, sanitizeFilename_eq_self htidy⟩

/-- What is left is a name of dots exactly if the path ends in one. -/
theorem coreOf_eq_dots_iff {original : String} :
    (∃ dots ∈ [".", ".."], coreOf original = dots.toList) ↔ NamesDirectory original := by
  constructor
  · rintro ⟨dots, hdots, hcore⟩
    obtain ⟨front, slashes, hpath, hfront, hslashes⟩ :=
      exists_lastComponent (fun char ↦ decide (char = '/')) (slashed original)
    obtain ⟨lead, trail, hcomponent, hlead, htrail⟩ :=
      exists_strip isTrimmed (lastComponent (fun char ↦ decide (char = '/')) (slashed original))
    rw [coreOf] at hcore
    rw [hcore] at hcomponent
    refine ⟨front, lead, trail, slashes, dots, hdots, ?_, fun last hlast ↦ ?_, hlead, htrail,
      fun char hmem ↦ ?_⟩
    · rw [← hcomponent]
      exact hpath
    · exact of_decide_eq_true (hfront last hlast)
    · exact of_decide_eq_true (hslashes char hmem)
  · rintro ⟨front, lead, trail, slashes, dots, hdots, hpath, hfront, hlead, htrail, hslashes⟩
    have hall : ∀ dots ∈ [".", ".."], dots.toList ≠ [] ∧ Stripped isTrimmed dots.toList ∧
        ∀ char ∈ dots.toList, char ≠ '/' := by
      simp only [← List.all_iff_forall_prop]
      decide
    have hdot := hall dots hdots
    have hblank : ∀ char, isTrimmed char = true → char ≠ '/' := by
      rintro char hchar rfl
      exact absurd hchar (by decide)
    refine ⟨dots, hdots, ?_⟩
    rw [coreOf, hpath, lastComponent_append (by simp [hdot.1])
      (fun last hlast ↦ decide_eq_true (hfront last hlast)) (fun char hmem ↦ decide_eq_false ?_)
      (fun char hmem ↦ decide_eq_true (hslashes char hmem))]
    · exact strip_append hdot.1 hdot.2.1 hlead htrail
    · simp only [List.mem_append] at hmem
      rcases hmem with (hmem | hmem) | hmem
      · exact hblank char (hlead char hmem)
      · exact hdot.2.2 char hmem
      · exact hblank char (htrail char hmem)

/-- **When a sanitized file name is a plain name.** The result is a plain name that stays as it is
under another pass exactly if the last component of the path is neither `.` nor `..`. -/
theorem sanitizeFilename_plain_iff (original : String) :
    PlainName (sanitizeFilename original) ∧
        sanitizeFilename (sanitizeFilename original) = sanitizeFilename original ↔
      ¬ NamesDirectory original := by
  obtain ⟨htidy, hagain⟩ := sanitizeFilename_tidy original
  have hdots : sanitizeFilename original ∈ [".", ".."] ↔ NamesDirectory original := by
    rw [← coreOf_eq_dots_iff, sanitizeFilename_eq]
    by_cases hcore : coreOf original = []
    · rw [if_pos hcore, hcore]
      decide
    · rw [if_neg hcore]
      constructor
      · exact fun hmem ↦ ⟨_, hmem, (String.toList_ofList).symm⟩
      · rintro ⟨dots, hmem, heq⟩
        rwa [heq, String.ofList_toList]
  rw [← hdots, List.mem_cons, List.mem_singleton, not_or]
  exact ⟨fun hboth ↦ hboth.1.dots, fun hother ↦ ⟨⟨htidy, hother⟩, hagain⟩⟩

/-- Paths that end in a directory above or in the one they are in. -/
theorem sanitizeFilename_dots :
    sanitizeFilename ".." = ".." ∧ ¬ PlainName (sanitizeFilename "..") ∧
      sanitizeFilename "etc\\ . /" = "." ∧ ¬ PlainName (sanitizeFilename "etc\\ . /") := by
  have hparent : sanitizeFilename ".." = ".." := by decide
  have hhere : sanitizeFilename "etc\\ . /" = "." := by decide
  refine ⟨hparent, fun hplain ↦ ?_, hhere, fun hplain ↦ ?_⟩
  · exact hplain.dots.2 hparent
  · exact hplain.dots.1 hhere

end CampusMesh.Server
