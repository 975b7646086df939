import Mathlib.Algebra.GroupWithZero.Nat
import RingTape.Text.Number

/-!
# Texts that are numerals

Bounded numbers are read from texts by one rule.  `Numeral` states it without saying how a
text is read: one or more ASCII digits, before which there may be a single plus sign.  How
many digits there are does not matter, since leading zeros add nothing to the value, and
whether a numeral fits a bound is a matter of its value alone (`numeral?_eq_some_iff`).

The decimal numeral of a number is one of these texts, and two strings of digits written
one after the other make a third, in which the value of the first is moved to the left by
the digits of the second (`Digits.append`).
-/

namespace RingTape.Text

/-- One or more ASCII digits, and their decimal value. -/
structure Digits (value : Nat) (digits : List Char) : Prop where
  ne_nil : digits ≠ []
  isDigit : ∀ c ∈ digits, c.isDigit = true
  value_eq : Nat.ofDigitChars 10 digits 0 = value

/-- **A numeral**: digits, with at most one plus sign before them. -/
inductive Numeral (value : Nat) : List Char → Prop where
  | plain {digits : List Char} (h : Digits value digits) : Numeral value digits
  | signed {digits : List Char} (h : Digits value digits) : Numeral value ('+' :: digits)

variable {bound value : Nat} {digits text : List Char}

theorem digitsValue_eq_ofDigitChars (digits : List Char) :
    digitsValue digits = Nat.ofDigitChars 10 digits 0 :=
  Nat.ofDigitChars_eq_foldl.symm

/-- A plus sign is no digit. -/
theorem Digits.numeralDigits_eq (h : Digits value digits) : numeralDigits digits = digits := by
  obtain ⟨c, rest, rfl⟩ := List.exists_cons_of_ne_nil h.ne_nil
  have hplus : c ≠ '+' := by
    rintro rfl
    exact absurd (h.isDigit '+' List.mem_cons_self) (by decide)
  unfold numeralDigits
  split
  · rename_i hsign
    exact absurd (List.cons.inj hsign).1 hplus
  · rfl

/-- A numeral is told by what follows its plus sign, if it has one. -/
theorem numeral_iff_digits : Numeral value text ↔ Digits value (numeralDigits text) := by
  constructor
  · intro h
    cases h with
    | plain h => rwa [h.numeralDigits_eq]
    | signed h => exact h
  · intro h
    unfold numeralDigits at h
    split at h
    · exact .signed h
    · exact .plain h

/-- A text is the numeral of one number. -/
theorem Numeral.unique {other : Nat} (h : Numeral value text) (hother : Numeral other text) :
    value = other := by
  rw [numeral_iff_digits] at h hother
  rw [← h.value_eq, hother.value_eq]

theorem digits_iff : Digits value digits ↔
    (digits ≠ [] ∧ digits.all Char.isDigit = true) ∧ digitsValue digits = value := by
  rw [digitsValue_eq_ofDigitChars, List.all_eq_true]
  constructor
  · intro h
    exact ⟨⟨h.ne_nil, h.isDigit⟩, h.value_eq⟩
  · rintro ⟨⟨hne, hdigit⟩, hvalue⟩
    exact ⟨hne, hdigit, hvalue⟩

/-- **A text is read as the numeral that it is**, if the value is within the bound. -/
theorem numeral?_eq_some_iff {text : String} :
    numeral? bound text = some value ↔ Numeral value text.toList ∧ value ≤ bound := by
  rw [numeral_iff_digits, digits_iff, numeral?]
  constructor
  · intro h
    split at h
    · rename_i haccepted
      obtain ⟨hne, hdigit, hle⟩ := haccepted
      obtain rfl := Option.some.inj h
      exact ⟨⟨⟨hne, hdigit⟩, rfl⟩, hle⟩
    · contradiction
  · rintro ⟨⟨⟨hne, hdigit⟩, rfl⟩, hle⟩
    exact if_pos ⟨hne, hdigit, hle⟩

theorem numeral?_eq_none_iff {text : String} :
    numeral? bound text = none ↔ ¬ ∃ value, Numeral value text.toList ∧ value ≤ bound := by
  rw [Option.eq_none_iff_forall_ne_some]
  constructor
  · rintro hnone ⟨value, h⟩
    exact hnone value (numeral?_eq_some_iff.mpr h)
  · intro hnone value hsome
    exact hnone ⟨value, numeral?_eq_some_iff.mp hsome⟩

/-! ## Decimal numerals one after the other -/

/-- A number is written in digits of its value. -/
theorem digits_toDigits (n : Nat) : Digits n (Nat.toDigits 10 n) where
  ne_nil := Nat.toDigits_ne_nil
  isDigit := fun _ hc => Nat.isDigit_of_mem_toDigits (by decide) (by decide) hc
  value_eq := Nat.ofDigitChars_ten_toDigits

theorem not_mem_toDigits {c : Char} (hc : c.isDigit = false) (n : Nat) :
    c ∉ Nat.toDigits 10 n := by
  intro hmem
  rw [(digits_toDigits n).isDigit c hmem] at hc
  contradiction

/-- **Digits written after others** move these to the left. -/
theorem Digits.append {front back : Nat} {others : List Char} (h : Digits front digits)
    (hothers : Digits back others) :
    Digits (front * 10 ^ others.length + back) (digits ++ others) where
  ne_nil := List.append_ne_nil_of_left_ne_nil h.ne_nil others
  isDigit := by
    intro c hc
    rcases List.mem_append.mp hc with hc | hc
    · exact h.isDigit c hc
    · exact hothers.isDigit c hc
  value_eq := by
    rw [Nat.ofDigitChars_append, Nat.ofDigitChars_eq_ofDigitChars_zero, h.value_eq,
      hothers.value_eq, Nat.mul_comm]

end RingTape.Text
