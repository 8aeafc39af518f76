import Mathlib.Data.List.Induction
import Mathlib.Data.Nat.Digits.Defs
import TensorBridge.Text.DecimalDigit

/-!
# Numerals

A numeral is a row of decimal digits of any script. Its number is the sum of its digits with their powers of ten, and a
numeral of `n` digits writes a number below the `n`-th power. A numeral without leading zero starts with an ASCII digit
from one to nine, so its number is not zero. A number is printed in ASCII digits, as a numeral that writes it.
-/

namespace TensorBridge

/-! ## Digits -/

/-- The value of a digit is less than ten. -/
theorem digitValue?_lt (c : Char) : (digitValue? c).getD 0 < 10 := by
  unfold digitValue?
  cases hzero : decimalZeros.find? fun z => z ≤ c.toNat && c.toNat ≤ z + 9 with
  | none => exact Nat.zero_lt_succ 9
  | some z =>
    have hz := List.find?_some hzero
    rw [Bool.and_eq_true, decide_eq_true_eq, decide_eq_true_eq] at hz
    change c.toNat - z < 10
    omega

/-- The value of an ASCII digit is its distance from zero. -/
theorem digitValue?_ascii {c : Char} (hzero : '0' ≤ c) (hnine : c ≤ '9') : digitValue? c = some (c.toNat - 48) := by
  have hlow : 48 ≤ c.toNat := hzero
  have hhigh : c.toNat ≤ 57 := hnine
  have hfound : (decimalZeros.find? fun z => z ≤ c.toNat && c.toNat ≤ z + 9) = some 48 := by
    rw [decimalZeros, List.find?_cons_of_pos]
    rw [Bool.and_eq_true, decide_eq_true_eq, decide_eq_true_eq]
    omega
  rw [digitValue?, hfound]
  rfl

/-- An ASCII digit is a decimal digit. -/
theorem isDecimalDigit_of_isDigit {c : Char} (hc : c.isDigit = true) : isDecimalDigit c = true := by
  rw [Char.isDigit, Bool.and_eq_true, decide_eq_true_eq, decide_eq_true_eq] at hc
  rw [isDecimalDigit, digitValue?_ascii hc.1 hc.2]
  rfl

/-- A digit that is printed has its value. -/
theorem digitValue?_digitChar {d : Nat} (hd : d < 10) : digitValue? d.digitChar = some d := by
  revert d
  decide

/-- The first digit of a numeral without leading zero is not zero. -/
theorem digitValue?_pos {c : Char} (hone : '1' ≤ c) (hnine : c ≤ '9') : 0 < (digitValue? c).getD 0 := by
  have hlow : 49 ≤ c.toNat := hone
  rw [digitValue?_ascii (Nat.le_of_succ_le hlow) hnine]
  exact Nat.sub_pos_of_lt hlow

/-! ## Numbers -/

/-- The value of one more digit. -/
theorem numeralValue_concat (digits : List Char) (c : Char) :
    numeralValue (digits ++ [c]) = 10 * numeralValue digits + (digitValue? c).getD 0 := by
  simp [numeralValue]

/-- The number of a numeral is the one of its digits in base ten, the last digit counting ones. -/
theorem numeralValue_eq_ofDigits (digits : List Char) :
    numeralValue digits = Nat.ofDigits 10 (digits.reverse.map fun c => (digitValue? c).getD 0) := by
  induction digits using List.reverseRecOn with
  | nil => rfl
  | append_singleton digits c ih =>
    rw [numeralValue_concat, ih, List.reverse_append, List.reverse_singleton, List.singleton_append, List.map_cons,
      Nat.ofDigits_cons, Nat.add_comm]

/-- A numeral has enough digits for its number. -/
theorem numeralValue_lt (digits : List Char) : numeralValue digits < 10 ^ digits.length := by
  induction digits using List.reverseRecOn with
  | nil => exact Nat.zero_lt_succ 0
  | append_singleton digits c ih =>
    have hc := digitValue?_lt c
    rw [numeralValue_concat, List.length_append, List.length_singleton, Nat.pow_succ]
    omega

/-- A numeral of at most so many digits writes a number below that power of ten. -/
theorem numeralValue_lt_of_length_le {digits : List Char} {k : Nat} (h : digits.length ≤ k) :
    numeralValue digits < 10 ^ k :=
  Nat.lt_of_lt_of_le (numeralValue_lt digits) (Nat.pow_le_pow_right (Nat.zero_lt_succ 9) h)

/-- A printed number is read back. -/
theorem numeralValue_toDigits (n : Nat) : numeralValue (Nat.toDigits 10 n) = n := by
  induction n using Nat.strongRecOn with
  | ind n ih =>
    by_cases hn : n < 10
    · rw [Nat.toDigits_of_lt_base hn]
      simp [numeralValue, digitValue?_digitChar hn]
    · have hlast : n % 10 < 10 := Nat.mod_lt n (by omega)
      rw [Nat.toDigits_of_base_le (by omega) (by omega), numeralValue_concat, ih (n / 10) (by omega),
        digitValue?_digitChar hlast]
      simp only [Option.getD_some]
      omega

/-- The numbers below a power of ten are printed in at most so many digits. -/
theorem length_toDigits_le_iff {n k : Nat} (hk : 0 < k) : (Nat.toDigits 10 n).length ≤ k ↔ n < 10 ^ k := by
  constructor
  · intro hlength
    have hlt := numeralValue_lt_of_length_le hlength
    rwa [numeralValue_toDigits] at hlt
  · exact Nat.toDigits_length 10 n k hk

/-- The printed digits of a number are ASCII digits. -/
theorem isDigit_of_mem_toString {n : Nat} {c : Char} (hc : c ∈ (toString n).toList) : c.isDigit = true := by
  change c ∈ (Nat.repr n).toList at hc
  rw [Nat.toList_repr] at hc
  exact Nat.isDigit_of_mem_toDigits (by omega) (by omega) hc

/-! ## Numerals without leading zero -/

/-- An ASCII digit from one to nine with decimal digits of any script behind it. -/
def IsNumeral (digits : List Char) : Prop :=
  ∃ first rest, digits = first :: rest ∧ '1' ≤ first ∧ first ≤ '9' ∧ ∀ c ∈ rest, isDecimalDigit c = true

/-- The reader tests for numerals without leading zero. -/
theorem isPositiveNumeral_iff {digits : List Char} : isPositiveNumeral digits = true ↔ IsNumeral digits := by
  cases digits with
  | nil => exact iff_of_false (fun h => nomatch h) fun ⟨_, _, h, _⟩ => nomatch h
  | cons first rest =>
    rw [isPositiveNumeral, Bool.and_eq_true, Bool.and_eq_true, decide_eq_true_eq, decide_eq_true_eq, List.all_eq_true]
    constructor
    · rintro ⟨⟨hone, hnine⟩, hrest⟩
      exact ⟨first, rest, rfl, hone, hnine, hrest⟩
    · rintro ⟨_, _, h, hone, hnine, hrest⟩
      cases h
      exact ⟨⟨hone, hnine⟩, hrest⟩

/-- A numeral consists of digits. -/
theorem isDecimalDigit_of_mem_numeral {digits : List Char} (h : isPositiveNumeral digits = true) :
    ∀ c ∈ digits, isDecimalDigit c = true := by
  obtain ⟨first, rest, rfl, hone, hnine, hrest⟩ := isPositiveNumeral_iff.mp h
  refine List.forall_mem_cons.mpr ⟨?_, hrest⟩
  have hlow : 49 ≤ first.toNat := hone
  rw [isDecimalDigit, digitValue?_ascii (Nat.le_of_succ_le hlow) hnine]
  rfl

/-- A numeral without leading zero is one still with another digit at its end. -/
theorem isPositiveNumeral_concat {digits : List Char} {c : Char} (h : isPositiveNumeral digits = true)
    (hc : isDecimalDigit c = true) : isPositiveNumeral (digits ++ [c]) = true := by
  cases digits with
  | nil => cases h
  | cons d digits =>
    rw [isPositiveNumeral, Bool.and_eq_true] at h
    rw [List.cons_append, isPositiveNumeral, h.1, List.all_append, h.2, List.all_cons, hc]
    rfl

/-- The number of a numeral without leading zero is not zero. -/
theorem numeralValue_pos {digits : List Char} (h : isPositiveNumeral digits = true) : 0 < numeralValue digits := by
  induction digits using List.reverseRecOn with
  | nil => cases h
  | append_singleton digits c ih =>
    rw [numeralValue_concat]
    cases digits with
    | nil =>
      rw [List.nil_append, isPositiveNumeral, Bool.and_eq_true, Bool.and_eq_true, decide_eq_true_eq,
        decide_eq_true_eq] at h
      exact Nat.add_pos_right _ (digitValue?_pos h.1.1 h.1.2)
    | cons d digits =>
      rw [List.cons_append, isPositiveNumeral, List.all_append, ← Bool.and_assoc, Bool.and_eq_true] at h
      exact Nat.add_pos_left (Nat.mul_pos (Nat.zero_lt_succ 9) (ih h.1)) _

/-- A positive number is printed without leading zero. -/
theorem isPositiveNumeral_toDigits {n : Nat} (hn : 0 < n) : isPositiveNumeral (Nat.toDigits 10 n) = true := by
  induction n using Nat.strongRecOn with
  | ind n ih =>
    by_cases hlt : n < 10
    · have hdigits : ∀ n < 10, 0 < n → isPositiveNumeral [n.digitChar] = true := by decide
      rw [Nat.toDigits_of_lt_base hlt]
      exact hdigits n hlt hn
    · have hdigit := digitValue?_digitChar (Nat.mod_lt n (by omega : 10 > 0))
      rw [Nat.toDigits_of_base_le (by omega) (by omega)]
      exact isPositiveNumeral_concat (ih (n / 10) (by omega) (by omega)) (by rw [isDecimalDigit, hdigit]; rfl)

/-- Numerals without leading zero for numbers below ten are the printed numbers. -/
theorem eq_toDigits_of_lt_ten {digits : List Char} (h : isPositiveNumeral digits = true)
    (hlt : numeralValue digits < 10) : digits = Nat.toDigits 10 (numeralValue digits) := by
  have hone : digits.length = 1 := by
    cases digits using List.reverseRecOn with
    | nil => cases h
    | append_singleton front c =>
      cases front with
      | nil => rfl
      | cons first rest =>
        -- with two digits or more, the first of them counts ten at least
        have hfront : isPositiveNumeral (first :: rest) = true := by
          rw [List.cons_append, isPositiveNumeral, List.all_append, ← Bool.and_assoc, Bool.and_eq_true] at h
          exact h.1
        have hpos := numeralValue_pos hfront
        rw [numeralValue_concat] at hlt
        omega
  obtain ⟨c, rfl⟩ := List.length_eq_one_iff.mp hone
  rw [isPositiveNumeral, Bool.and_eq_true, Bool.and_eq_true, decide_eq_true_eq, decide_eq_true_eq] at h
  have hlow : 49 ≤ c.toNat := h.1.1
  have hhigh : c.toNat ≤ 57 := h.1.2
  have hdigits : ∀ n < 58, 49 ≤ n → [Char.ofNat n] = Nat.toDigits 10 (numeralValue [Char.ofNat n]) := by decide
  have hc := hdigits c.toNat (Nat.lt_succ_of_le hhigh) hlow
  rwa [Char.ofNat_toNat] at hc

end TensorBridge
