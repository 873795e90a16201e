import Mathlib

/-!
The order of texts. Texts are compared character by character, and so are their code points. The bytes of their
encoding in UTF-8 have the same order: the first byte of a character grows with the number of bytes that follow, and
those are digits of its code point.
-/
namespace EditorScheme.Text

/-- How many bytes follow the first one of a character. -/
def trailSize (n : Nat) : Nat := if n ≤ 127 then 0 else if n ≤ 2047 then 1 else if n ≤ 65535 then 2 else 3

/-- The first byte of a character. -/
def lead (n : Nat) : Nat :=
  if n ≤ 127 then n else if n ≤ 2047 then n / 64 + 192 else if n ≤ 65535 then n / 4096 + 224 else n / 262144 + 240

/-- The last digits of a number to the base 64, each with the mark of a byte that is not the first. -/
def trail : (size : Nat) → Nat → List UInt8
  | 0, _ => []
  | size + 1, n => UInt8.ofNat (n / 64 ^ size % 64 + 128) :: trail size n

theorem lead_lt {n : Nat} (small : n ≤ 0x10ffff) : lead n < 245 := by
  unfold lead
  split_ifs <;> omega

theorem utf8EncodeChar_eq (c : Char) :
    String.utf8EncodeChar c = UInt8.ofNat (lead c.toNat) :: trail (trailSize c.toNat) c.toNat := by
  have small : c.toNat ≤ 0x10ffff := Char.toNat_le_max c
  have number : c.val.toNat = c.toNat := rfl
  simp only [String.utf8EncodeChar, number, lead, trailSize]
  generalize c.toNat = n at small
  split_ifs with one two three
  · rfl
  · have digit : n / 64 % 32 = n / 64 := by omega
    simp [trail, digit]
  · have digit : n / 4096 % 16 = n / 4096 := by omega
    simp [trail, digit]
  · have digit : n / 262144 % 8 = n / 262144 := by omega
    simp [trail, digit]

theorem ofNat_lt_ofNat {a b : Nat} (bound : b < 256) (less : a < b) : UInt8.ofNat a < UInt8.ofNat b := by
  rw [UInt8.lt_iff_toNat_lt, UInt8.toNat_ofNat', UInt8.toNat_ofNat']
  omega

/-- Numbers of as many digits have the order of their digits, whatever follows. -/
theorem trail_lt_trail {size m n : Nat} (less : m % 64 ^ size < n % 64 ^ size) (x y : List UInt8) :
    trail size m ++ x < trail size n ++ y := by
  induction size with
  | zero => simp [Nat.mod_one] at less
  | succ size ih =>
    rw [Nat.mod_pow_succ, Nat.mod_pow_succ] at less
    have restM : m % 64 ^ size < 64 ^ size := Nat.mod_lt _ (Nat.pow_pos (by decide))
    have restN : n % 64 ^ size < 64 ^ size := Nat.mod_lt _ (Nat.pow_pos (by decide))
    simp only [trail, List.cons_append, List.cons_lt_cons_iff]
    -- The first digit decides, or the digits after it.
    rcases Nat.lt_trichotomy (m / 64 ^ size % 64) (n / 64 ^ size % 64) with below | same | above
    · exact .inl (ofNat_lt_ofNat (by omega) (by omega))
    · rw [same] at less ⊢
      exact .inr ⟨rfl, ih (by omega)⟩
    · have apart := Nat.mul_le_mul_left (64 ^ size) (Nat.succ_le_of_lt above)
      rw [Nat.mul_succ] at apart
      omega

theorem lead_cases {m n : Nat} (less : m < n) : lead m < lead n ∨
    lead m = lead n ∧ trailSize m = trailSize n ∧ m % 64 ^ trailSize n < n % 64 ^ trailSize n := by
  unfold lead trailSize
  split_ifs <;> omega

theorem utf8EncodeChar_lt {c d : Char} (less : c < d) (x y : List UInt8) :
    String.utf8EncodeChar c ++ x < String.utf8EncodeChar d ++ y := by
  have less : c.toNat < d.toNat := less
  have bound := lead_lt (Char.toNat_le_max d)
  rw [utf8EncodeChar_eq, utf8EncodeChar_eq, List.cons_append, List.cons_append, List.cons_lt_cons_iff]
  rcases lead_cases less with first | ⟨same, size, rest⟩
  · exact .inl (ofNat_lt_ofNat (by omega) first)
  · rw [same, size]
    exact .inr ⟨rfl, trail_lt_trail rest x y⟩

theorem flatMap_utf8EncodeChar_lt {a b : List Char} (less : a < b) :
    a.flatMap String.utf8EncodeChar < b.flatMap String.utf8EncodeChar := by
  induction less with
  | @nil c rest =>
    obtain ⟨first, others, split⟩ := List.exists_cons_of_ne_nil (String.utf8EncodeChar_ne_nil (c := c))
    rw [List.flatMap_cons, split]
    exact .nil
  | rel first => exact utf8EncodeChar_lt first _ _
  | cons _ ih => exact List.append_left_lt ih

def bytes (text : String) : List UInt8 := text.toUTF8.data.toList

theorem bytes_eq (text : String) : bytes text = text.toList.flatMap String.utf8EncodeChar := by
  rw [bytes, String.toUTF8, ← String.utf8Encode_toList, List.utf8Encode, List.data_toByteArray]

theorem bytes_lt {a b : String} (less : a < b) : bytes a < bytes b := by
  rw [bytes_eq, bytes_eq]
  exact flatMap_utf8EncodeChar_lt less

def codePoints (text : String) : List Nat := text.toList.map Char.toNat

theorem codePoints_lt {a b : String} (less : a < b) : codePoints a < codePoints b :=
  List.map_lt (fun _ _ first => first) less

/-- What grows with a text has the order of texts. -/
theorem lt_iff_of_lt {α : Type} [LT α] [@Std.Asymm α (· < ·)] {view : String → List α}
    (grows : ∀ {a b}, a < b → view a < view b) (a b : String) : view a < view b ↔ a < b := by
  refine ⟨fun less => ?_, grows⟩
  by_contra other
  rcases eq_or_ne a b with rfl | apart
  · exact List.lt_irrefl _ less
  · exact List.lt_asymm less (grows (Std.lt_iff_le_and_ne.mpr ⟨String.not_lt.mp other, apart.symm⟩))

@[simp] theorem bytes_lt_iff (a b : String) : bytes a < bytes b ↔ a < b := lt_iff_of_lt bytes_lt a b

@[simp] theorem bytes_le_iff (a b : String) : bytes a ≤ bytes b ↔ a ≤ b := by
  rw [← List.not_lt, ← String.not_lt, bytes_lt_iff]

@[simp] theorem codePoints_lt_iff (a b : String) : codePoints a < codePoints b ↔ a < b := lt_iff_of_lt codePoints_lt a b

end EditorScheme.Text
