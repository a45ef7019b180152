import Mathlib
import SarkariWorld.Lib.Text

/-!
# Numbers of a fixed width

A number in a fixed number of decimal digits, read back (`readDigits_digits`) and compared
as text (`digits_lt`). Texts of fields of fixed width are in the order of their fields
(`append_lt_append`, `digits_append_lt`).

`digits` writes exactly as many digits as it is told, from the last one, and `readDigits`
takes as many and hands back the rest of the text, so that fields can be read one after
the other. A number that has more digits than its field loses the leading ones, which is
why the lemmas about reading back ask that it fits.
-/

namespace SarkariWorld.Lib

/-- The last `width` digits of a number. -/
def digits : Nat → Nat → Text
  | 0, _ => []
  | width + 1, n => digits width (n / 10) ++ [Nat.digitChar (n % 10)]

/-- The number that the first `width` digits write behind those of `acc`, and what follows
them. -/
def readDigits : Nat → Nat → Text → Option (Nat × Text)
  | 0, acc, t => some (acc, t)
  | _ + 1, _, [] => none
  | width + 1, acc, c :: t =>
    if c.isDigit then readDigits width (acc * 10 + (c.toNat - 48)) t else none

variable {width m n acc : Nat} {s t : Text}

@[simp] theorem length_digits (width n : Nat) : (digits width n).length = width := by
  induction width generalizing n with
  | zero => rfl
  | succ width ih => rw [digits, List.length_append, ih, List.length_singleton]

theorem digits_zero (width : Nat) : digits width 0 = List.replicate width '0' := by
  induction width with
  | zero => rfl
  | succ width ih =>
    rw [digits, Nat.zero_div, ih, List.replicate_succ']
    rfl

/-- `str(n)`, with zeros in front up to the width. -/
theorem pad_toDigits (hwidth : 0 < width) (h : n < 10 ^ width) :
    List.replicate (width - (Nat.toDigits 10 n).length) '0' ++ Nat.toDigits 10 n =
      digits width n := by
  induction width generalizing n with
  | zero => cases hwidth
  | succ width ih =>
    rw [digits]
    rcases Nat.lt_or_ge n 10 with hsmall | hlarge
    · rw [Nat.toDigits_of_lt_base hsmall, Nat.div_eq_of_lt hsmall, digits_zero,
        Nat.mod_eq_of_lt hsmall]
      rfl
    · have hquotient : n / 10 < 10 ^ width := by
        rw [Nat.pow_succ] at h
        omega
      have hpositive : 0 < width := by
        refine Nat.pos_of_ne_zero fun hzero => ?_
        rw [hzero, Nat.pow_zero] at hquotient
        omega
      rw [Nat.toDigits_of_base_le (by decide) hlarge, List.length_append, List.length_singleton,
        Nat.add_sub_add_right, ← List.append_assoc, ih hpositive hquotient]

/-! ## Reading -/

theorem digitChar_digit (h : n < 10) :
    n.digitChar.isDigit = true ∧ n.digitChar.toNat - 48 = n := by
  have hall : ∀ k < 10, k.digitChar.isDigit = true ∧ k.digitChar.toNat - 48 = k := by decide
  exact hall n h

/-- One digit more. -/
theorem readDigits_succ (width acc : Nat) (t : Text) :
    readDigits (width + 1) acc t = (readDigits width acc t).bind fun r => readDigits 1 r.1 r.2 := by
  induction width generalizing acc t with
  | zero => rfl
  | succ width ih =>
    cases t with
    | nil => rfl
    | cons c t =>
      show (if c.isDigit then readDigits (width + 1) _ t else none) =
        (if c.isDigit then readDigits width _ t else none).bind _
      split
      next => exact ih _ t
      next => rfl

/-- **A number is read back from its digits.** -/
theorem readDigits_digits (h : n < 10 ^ width) (acc : Nat) (t : Text) :
    readDigits width acc (digits width n ++ t) = some (acc * 10 ^ width + n, t) := by
  induction width generalizing n acc t with
  | zero =>
    have hzero : n = 0 := by
      rw [Nat.pow_zero] at h
      omega
    rw [hzero, Nat.pow_zero, Nat.mul_one, Nat.add_zero]
    rfl
  | succ width ih =>
    have hquotient : n / 10 < 10 ^ width := by
      rw [Nat.pow_succ] at h
      omega
    -- All digits but the last are read by induction, and then the last.
    obtain ⟨hdigit, hvalue⟩ := digitChar_digit (Nat.mod_lt n (by decide : 0 < 10))
    rw [readDigits_succ, digits, List.append_assoc, ih hquotient, Option.bind_some]
    show (if (n % 10).digitChar.isDigit then some (_, t) else none) = _
    rw [if_pos hdigit, hvalue, Nat.pow_succ]
    have hsum : (acc * 10 ^ width + n / 10) * 10 + n % 10 = acc * (10 ^ width * 10) + n := by
      rw [Nat.add_mul, Nat.mul_assoc]
      omega
    rw [hsum]

/-! ## Comparing -/

/-- Texts of one length that differ are in the order of their beginnings. -/
theorem append_lt_append {a b : Text} (hlength : a.length = b.length) (h : a < b) (s t : Text) :
    a ++ s < b ++ t := by
  induction a generalizing b with
  | nil =>
    cases b with
    | nil => exact absurd h (List.not_lt_nil [])
    | cons d b => cases hlength
  | cons c a ih =>
    cases b with
    | nil => cases hlength
    | cons d b =>
      rw [List.cons_append, List.cons_append, List.cons_lt_cons_iff]
      rw [List.cons_lt_cons_iff] at h
      exact h.imp_right fun hrest => ⟨hrest.1, ih (Nat.succ.inj hlength) hrest.2⟩

theorem digitChar_lt (h : m < n) (hn : n < 10) : m.digitChar < n.digitChar := by
  have hall : ∀ k < 10, ∀ j < k, j.digitChar < k.digitChar := by decide
  exact hall n hn m h

/-- **Numbers of one width are in the order of their digits.** -/
theorem digits_lt (h : m < n) (hn : n < 10 ^ width) : digits width m < digits width n := by
  induction width generalizing m n with
  | zero =>
    rw [Nat.pow_zero] at hn
    omega
  | succ width ih =>
    rw [Nat.pow_succ] at hn
    rw [digits, digits]
    -- The last digit decides only where the others are the same.
    rcases Nat.lt_or_ge (m / 10) (n / 10) with hfront | hback
    · refine append_lt_append ?_ (ih hfront (by omega)) _ _
      rw [length_digits, length_digits]
    · have hsame : m / 10 = n / 10 := by omega
      rw [hsame]
      refine List.append_left_lt ?_
      rw [List.cons_lt_cons_iff]
      exact .inl (digitChar_lt (by omega) (by omega))

/-- A field decides, unless it is the same. -/
theorem digits_append_lt (hn : n < 10 ^ width) (h : m < n ∨ m = n ∧ s < t) :
    digits width m ++ s < digits width n ++ t := by
  rcases h with hlt | ⟨rfl, hrest⟩
  · exact append_lt_append (by rw [length_digits, length_digits]) (digits_lt hlt hn) _ _
  · exact List.append_left_lt hrest

/-- After the same character, the order is that of what follows. -/
theorem cons_lt_cons (c : Char) (h : s < t) : c :: s < c :: t :=
  List.cons_lt_cons_iff.mpr (.inr ⟨rfl, h⟩)

end SarkariWorld.Lib
