import RasterIrq.Text.Numeral
import Mathlib.Data.List.TakeWhile

/-!
# Which texts are numerals

Digits are read from left to right, and each one that leads past the bound stops the reading. Since
more digits never make a number smaller, this comes to looking at all digits in front at once: a
text is refused as too large if they spell too much, whatever follows them, and otherwise for the
first character that is no digit.

Results:
1. `Numeral.digits_eq`: the digits in front decide what is read.
2. `Numeral.read_of_proper`, `Numeral.read_of_refused`: which texts are read, and why others are
   not.
3. `Numeral.proper_or_refused`: there are no other texts.
-/

namespace RasterIrq.Numeral

/-- A numeral without the plus sign in front. -/
def unsigned : List Char → List Char
  | '+' :: cs => cs
  | cs => cs

/-- The number that the digits in front spell. -/
def value (text : String) : Nat :=
  Nat.ofDigitChars 10 ((unsigned text.toList).takeWhile Char.isDigit) 0

/-- Digits, and at least one of them, behind a plus sign or none, that spell a number below the
bound. -/
structure Proper (bound : Nat) (text : String) : Prop where
  digits : ∀ c ∈ unsigned text.toList, c.isDigit = true
  nonempty : unsigned text.toList ≠ []
  value_lt : value text < bound

instance (bound : Nat) (text : String) : Decidable (Proper bound text) :=
  decidable_of_iff
    ((unsigned text.toList).all Char.isDigit = true ∧ unsigned text.toList ≠ [] ∧
      value text < bound)
    ⟨fun ⟨hdigits, hne, hlt⟩ => ⟨List.all_eq_true.mp hdigits, hne, hlt⟩,
      fun h => ⟨List.all_eq_true.mpr h.digits, h.nonempty, h.value_lt⟩⟩

/-- Why a text is no numeral below the bound. -/
inductive Refused (bound : Nat) (text : String) : NumeralError → Prop where
  | empty : text = "" → Refused bound text .empty
  | sign : text = "+" → Refused bound text .invalidDigit
  | character {c : Char} : c ∈ unsigned text.toList → c.isDigit = false → value text < bound →
      Refused bound text .invalidDigit
  | tooLarge : bound ≤ value text → Refused bound text .tooLarge

/-! ## Digits -/

theorem le_ofDigitChars (cs : List Char) (n : Nat) : n ≤ Nat.ofDigitChars 10 cs n := by
  rw [Nat.ofDigitChars_eq_ofDigitChars_zero]
  exact Nat.le_add_right_of_le (Nat.le_mul_of_pos_left n (Nat.pow_pos (by decide)))

/-- The digits in front decide: the number that they spell is too large, or it is the number that is
read, or a character behind them is no digit. -/
theorem digits_eq {bound n : Nat} (hn : n < bound) (cs : List Char) :
    let front := cs.takeWhile Char.isDigit
    digits bound n cs =
      if bound ≤ Nat.ofDigitChars 10 front n then .error .tooLarge
      else if front = cs then .ok (Nat.ofDigitChars 10 front n)
      else .error .invalidDigit := by
  induction cs generalizing n with
  | nil => simp [digits, hn]
  | cons c cs ih =>
    dsimp only at ih ⊢
    unfold digits
    by_cases hc : c.isDigit = true
    · rw [if_pos hc, List.takeWhile_cons_of_pos hc, Nat.ofDigitChars_cons]
      dsimp only
      by_cases hnext : 10 * n + (c.toNat - '0'.toNat) < bound
      · rw [if_pos hnext, ih hnext]
        simp only [List.cons.injEq, true_and]
      · -- The digits that follow are not read, and cannot make the number smaller.
        rw [if_neg hnext, if_pos (Nat.le_trans (Nat.not_lt.mp hnext) (le_ofDigitChars _ _))]
    · rw [if_neg hc, List.takeWhile_cons_of_neg hc, Nat.ofDigitChars_nil,
        if_neg (Nat.not_le.mpr hn), if_neg (List.cons_ne_nil c cs).symm]

/-! ## Signs -/

/-- Nothing stands behind the sign if nothing stands there at all, or a sign alone. -/
theorem unsigned_eq_nil_iff {cs : List Char} : unsigned cs = [] ↔ cs = [] ∨ cs = ['+'] := by
  unfold unsigned
  split
  · simp
  · next hplus => simpa using fun h => absurd h (hplus [])

/-- Where something stands behind the sign, digits are read there. -/
theorem read_of_unsigned_ne_nil {cs : List Char} (h : unsigned cs ≠ []) (bound : Nat) :
    read bound cs = digits bound 0 (unsigned cs) := by
  unfold unsigned at h ⊢
  split at h
  · exact read.eq_3 bound _ h
  · next hplus => exact read.eq_4 bound cs h (hplus []) hplus

/-! ## Numerals -/

variable {bound : Nat} {text : String}

theorem read_eq (hpos : 0 < bound) (hne : unsigned text.toList ≠ []) :
    read bound text.toList =
      if bound ≤ value text then .error .tooLarge
      else if (unsigned text.toList).all Char.isDigit then .ok (value text)
      else .error .invalidDigit := by
  rw [read_of_unsigned_ne_nil hne, digits_eq hpos]
  simp only [List.takeWhile_eq_self_iff, List.all_eq_true]
  rfl

theorem read_of_proper (h : Proper bound text) : read bound text.toList = .ok (value text) := by
  have hpos : 0 < bound := Nat.zero_lt_of_lt h.value_lt
  rw [read_eq hpos h.nonempty, if_neg (Nat.not_le.mpr h.value_lt),
    if_pos (List.all_eq_true.mpr h.digits)]

theorem read_of_refused (hpos : 0 < bound) {cause : NumeralError} (h : Refused bound text cause) :
    read bound text.toList = .error cause := by
  cases h with
  | empty htext => rw [htext]; rfl
  | sign htext => rw [htext]; rfl
  | character hmem hdigit hvalue =>
    have hother : ¬ (unsigned text.toList).all Char.isDigit = true := by
      intro hall
      have hc := List.all_eq_true.mp hall _ hmem
      rw [hdigit] at hc
      cases hc
    rw [read_eq hpos (List.ne_nil_of_mem hmem), if_neg (Nat.not_le.mpr hvalue), if_neg hother]
  | tooLarge hvalue =>
    have hne : unsigned text.toList ≠ [] := by
      intro hnil
      have hzero : value text = 0 := by rw [value, hnil]; rfl
      omega
    rw [read_eq hpos hne, if_pos hvalue]

theorem proper_or_refused (bound : Nat) (text : String) :
    Proper bound text ∨ ∃ cause, Refused bound text cause := by
  by_cases hvalue : bound ≤ value text
  · exact .inr ⟨_, .tooLarge hvalue⟩
  have hlt : value text < bound := Nat.not_le.mp hvalue
  by_cases hdigits : ∀ c ∈ unsigned text.toList, c.isDigit = true
  · by_cases hnil : unsigned text.toList = []
    · obtain hempty | hsign := unsigned_eq_nil_iff.mp hnil
      · exact .inr ⟨_, .empty (String.toList_inj.mp hempty)⟩
      · exact .inr ⟨_, .sign (String.toList_inj.mp hsign)⟩
    · exact .inl ⟨hdigits, hnil, hlt⟩
  · obtain ⟨c, hmem, hc⟩ : ∃ c ∈ unsigned text.toList, c.isDigit = false := by
      simpa using hdigits
    exact .inr ⟨_, .character hmem hc hlt⟩

end RasterIrq.Numeral
