import EditorScheme.Scheme
import Mathlib

/-!
The form of option names in a scheme. Upper case is final: a letter that an upper case is made of has no other upper
case. The letters of the table are collected as the bits of two numbers, so that all of them are compared at once.
Names are brought into the form character by character, those that have it stay as they are, and nothing else does.
-/
namespace EditorScheme

namespace Text

variable {c d : Char} {code : Nat} {list other : List Nat} {run : CaseRun}

def CaseRun.codes (run : CaseRun) : List Nat :=
  (List.range ((run.last - run.first) / run.step + 1)).map fun k => run.first + run.step * k

theorem CaseRun.mem_codes (inside : run.contains code = true) : code ∈ run.codes := by
  simp only [contains, Bool.and_eq_true, decide_eq_true_eq, beq_iff_eq] at inside
  obtain ⟨⟨lower, upper⟩, steps⟩ := inside
  have distance : run.step * ((code - run.first) / run.step) = code - run.first :=
    Nat.mul_div_cancel' (Nat.dvd_of_mod_eq_zero steps)
  refine List.mem_map.mpr ⟨(code - run.first) / run.step, List.mem_range.mpr ?_, ?_⟩
  · exact Nat.lt_succ_of_le (Nat.div_le_div_right (by omega))
  · omega

def changedCodes : List Nat := caseRuns.flatMap CaseRun.codes ++ caseExpansions.map Prod.fst

/-- The letters that upper cases are made of. -/
def upperCodes : List Nat :=
  caseRuns.flatMap (fun run => run.codes.map fun code : Nat => (code + run.offset).toNat) ++
    caseExpansions.flatMap Prod.snd

/-- Code points as the bits of a number. -/
def codeBits : List Nat → Nat
  | [] => 0
  | code :: codes => 1 <<< code ||| codeBits codes

theorem testBit_codeBits : (codeBits list).testBit code = true ↔ code ∈ list := by
  induction list with
  | nil => simp [codeBits]
  | cons first list ih =>
    rw [codeBits, Nat.testBit_or, Bool.or_eq_true, ih, Nat.one_shiftLeft, Nat.testBit_two_pow, decide_eq_true_eq,
      List.mem_cons]
    exact or_congr_left eq_comm

theorem notMem_of_land (apart : codeBits list &&& codeBits other = 0) (inside : code ∈ other) : code ∉ list := by
  intro both
  have bit : (codeBits list &&& codeBits other).testBit code = true := by
    rw [Nat.testBit_and, testBit_codeBits.mpr both, testBit_codeBits.mpr inside]
    rfl
  rw [apart, Nat.zero_testBit] at bit
  cases bit

/-- No upper case is made of letters with an upper case, nor of hyphens. -/
theorem upperCodes_apart : codeBits ('-'.toNat :: changedCodes) &&& codeBits upperCodes = 0 := by decide +kernel

theorem upperChar_of_notMem (unchanged : c.toNat ∉ changedCodes) : upperChar c = [c] := by
  have noRun : caseRuns.find? (·.contains c.toNat) = none := by
    refine List.find?_eq_none.mpr fun run listed inside => unchanged (List.mem_append_left _ ?_)
    exact List.mem_flatMap.mpr ⟨run, listed, CaseRun.mem_codes inside⟩
  have noExpansion : caseExpansions.find? (fun entry => entry.1 == c.toNat) = none := by
    refine List.find?_eq_none.mpr fun entry listed same => unchanged (List.mem_append_right _ ?_)
    exact List.mem_map.mpr ⟨entry, listed, beq_iff_eq.mp same⟩
  simp only [upperChar, noRun, noExpansion]

/-- A character of an upper case is the character itself, which has no other, or one of the listed letters. -/
theorem cases_of_mem_upperChar (member : c ∈ upperChar d) :
    c = d ∧ upperChar c = [c] ∨ ∃ code ∈ upperCodes, c = Char.ofNat code := by
  unfold upperChar at member
  split at member
  case h_1 run found =>
    have inside : run.contains d.toNat = true := by simpa using List.find?_some found
    refine .inr ⟨_, List.mem_append_left _ ?_, List.mem_singleton.mp member⟩
    exact List.mem_flatMap.mpr ⟨run, List.mem_of_find?_eq_some found,
      List.mem_map.mpr ⟨d.toNat, CaseRun.mem_codes inside, rfl⟩⟩
  case h_2 noRun =>
    split at member
    case h_1 letters found =>
      obtain ⟨letter, inside, rfl⟩ := List.mem_map.mp member
      refine .inr ⟨letter, List.mem_append_right _ ?_, rfl⟩
      exact List.mem_flatMap.mpr ⟨_, List.mem_of_find?_eq_some found, inside⟩
    case h_2 noExpansion =>
      obtain rfl := List.mem_singleton.mp member
      exact .inl ⟨rfl, by simp only [upperChar, noRun, noExpansion]⟩

theorem notMem_of_upper {code : Nat} (upper : code ∈ upperCodes) :
    (Char.ofNat code).toNat ∉ '-'.toNat :: changedCodes := by
  rw [Char.toNat_ofNat code]
  split
  · exact notMem_of_land upperCodes_apart upper
  · decide +kernel

theorem upperChar_of_mem (member : c ∈ upperChar d) : upperChar c = [c] := by
  rcases cases_of_mem_upperChar member with ⟨-, unchanged⟩ | ⟨code, upper, rfl⟩
  · exact unchanged
  · exact upperChar_of_notMem fun changed => notMem_of_upper upper (List.mem_cons_of_mem _ changed)

theorem eq_of_hyphen_mem_upperChar (member : '-' ∈ upperChar d) : d = '-' := by
  rcases cases_of_mem_upperChar member with ⟨same, -⟩ | ⟨code, upper, hyphen⟩
  · exact same.symm
  · refine absurd ?_ (notMem_of_upper upper)
    rw [← hyphen]
    exact List.mem_cons_self

end Text

def schemeLetters (c : Char) : List Char := Text.upperChar (if c = '-' then '_' else c)

theorem toList_schemeOptionName (name : String) :
    (schemeOptionName name).toList = name.toList.flatMap schemeLetters := by
  rw [schemeOptionName, Text.upper, String.toList_ofList, String.toList_map, List.flatMap_map]
  rfl

/-- A character that option names in a scheme can have: no hyphen, and none with an upper case of its own. -/
def StandsInScheme (c : Char) : Prop := c ≠ '-' ∧ Text.upperChar c = [c]

def InSchemeForm (name : String) : Prop := ∀ c ∈ name.toList, StandsInScheme c

theorem standsInScheme_of_mem {c d : Char} (member : c ∈ schemeLetters d) : StandsInScheme c := by
  refine ⟨?_, Text.upperChar_of_mem member⟩
  rintro rfl
  have hyphen := Text.eq_of_hyphen_mem_upperChar member
  split at hyphen
  · cases hyphen
  · next other => exact other hyphen

theorem schemeLetters_of_stands {c : Char} (stands : StandsInScheme c) : schemeLetters c = [c] := by
  rw [schemeLetters, if_neg stands.1, stands.2]

theorem inSchemeForm_schemeOptionName (name : String) : InSchemeForm (schemeOptionName name) := by
  intro c member
  rw [toList_schemeOptionName] at member
  obtain ⟨d, -, letter⟩ := List.mem_flatMap.mp member
  exact standsInScheme_of_mem letter

theorem schemeOptionName_of_form {name : String} (form : InSchemeForm name) : schemeOptionName name = name := by
  apply String.toList_inj.mp
  rw [toList_schemeOptionName]
  calc name.toList.flatMap schemeLetters
      = name.toList.flatMap (fun c => [c]) := by
        rw [List.flatMap_def, List.flatMap_def, List.map_congr_left fun c member => schemeLetters_of_stands (form c member)]
    _ = name.toList := List.flatMap_singleton' _

/-- Option names in a scheme are a normal form: a name is brought into it part by part and once for all, it then has neither
a hyphen nor a character with another upper case, and the names that have neither are those that stay what they are. -/
theorem schemeOptionName_normal_form (s t : String) :
    schemeOptionName (schemeOptionName s) = schemeOptionName s ∧
    schemeOptionName (s ++ t) = schemeOptionName s ++ schemeOptionName t ∧
    (∀ c ∈ (schemeOptionName s).toList, c ≠ '-' ∧ Text.upperChar c = [c]) ∧
    (schemeOptionName s = s ↔ ∀ c ∈ s.toList, c ≠ '-' ∧ Text.upperChar c = [c]) := by
  have form := inSchemeForm_schemeOptionName s
  refine ⟨schemeOptionName_of_form form, ?_, form, fun fixed => ?_, schemeOptionName_of_form⟩
  · apply String.toList_inj.mp
    simp only [toList_schemeOptionName, String.toList_append, List.flatMap_append]
  · rw [fixed] at form
    exact form

example : schemeOptionName "effect-straße" = "EFFECT_STRASSE" := by decide +kernel

end EditorScheme
