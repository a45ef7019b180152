/-!
# Python text

Strings are lists of Unicode code points, as Python's `str` is. Only what the
service calls is here: `str.isspace`, `str.strip`, the UTF-8 length of
`str.encode()`, and `str` / `int` on whole numbers.

The results are about trimming, since most of what is normalised in this service is
trimmed first: a trimmed text has no blank at its ends (`Stripped`), a text that has none
is not changed, and padding makes no difference.
-/

namespace SarkariWorld.Lib

/-- A Python string. -/
abbrev Text := List Char

instance : LawfulBEq Text := inferInstance

/-- `str.isspace` on one character, which is also what `\s` matches in a
Unicode regular expression. -/
def isSpace (c : Char) : Bool :=
  let n := c.toNat
  (0x09 ≤ n && n ≤ 0x0D) || (0x1C ≤ n && n ≤ 0x20) || n == 0x85 || n == 0xA0 || n == 0x1680
    || (0x2000 ≤ n && n ≤ 0x200A) || n == 0x2028 || n == 0x2029 || n == 0x202F || n == 0x205F
    || n == 0x3000

/-- The text without the characters of `p` at its ends. -/
def trim (p : Char → Bool) (t : Text) : Text := ((t.dropWhile p).reverse.dropWhile p).reverse

/-- `str.strip()`. -/
def strip (t : Text) : Text :=
  ((t.dropWhile isSpace).reverse.dropWhile isSpace).reverse

/-- Neither the first character nor the last is white space. -/
def Stripped (t : Text) : Prop :=
  (∀ c ∈ t.head?, isSpace c = false) ∧ ∀ c ∈ t.getLast?, isSpace c = false

section Trim

variable {p : Char → Bool} {t : Text}

/-- What is left begins with a character that is not to be dropped. -/
theorem head_dropWhile : ∀ c ∈ (t.dropWhile p).head?, p c = false := by
  intro c hc
  have hhead := List.head?_dropWhile_not p t
  rw [hc] at hhead
  exact hhead

/-- What `trim` leaves is a stretch of the text. -/
theorem trim_parts (p : Char → Bool) (t : Text) : ∃ before after, t = before ++ trim p t ++ after ∧
    (∀ c ∈ before ++ after, p c = true) := by
  have htaken : ∀ u : Text, ∀ c ∈ u.takeWhile p, p c = true := fun u c hc =>
    List.all_eq_true.mp List.all_takeWhile c hc
  refine ⟨t.takeWhile p, ((t.dropWhile p).reverse.takeWhile p).reverse, ?_, ?_⟩
  · rw [trim, List.append_assoc, ← List.reverse_append, List.takeWhile_append_dropWhile,
      List.reverse_reverse, List.takeWhile_append_dropWhile]
  · intro c hc
    obtain hc | hc := List.mem_append.mp hc
    · exact htaken _ c hc
    · exact htaken _ c (List.mem_reverse.mp hc)

/-- A trimmed text does not begin with what was trimmed. -/
theorem trim_head : ∀ c ∈ (trim p t).head?, p c = false := by
  intro c hc
  refine head_dropWhile (t := t) c ?_
  -- The end that is taken off is not the head, if there is one left.
  obtain ⟨rest, hrest⟩ := List.dropWhile_suffix p (l := (t.dropWhile p).reverse)
  have hjoin : t.dropWhile p = trim p t ++ rest.reverse := by
    rw [trim, ← List.reverse_append, hrest, List.reverse_reverse]
  rw [hjoin, List.head?_append, hc, Option.some_or]
  rfl

theorem trim_last : ∀ c ∈ (trim p t).getLast?, p c = false := by
  intro c hc
  rw [trim, List.getLast?_reverse] at hc
  exact head_dropWhile c hc

theorem dropWhile_of_head (h : ∀ c ∈ t.head?, p c = false) : t.dropWhile p = t := by
  cases t with
  | nil => rfl
  | cons c cs => exact List.dropWhile_cons_of_neg (Bool.eq_false_iff.mp (h c rfl))

theorem trim_of_ends (hhead : ∀ c ∈ t.head?, p c = false) (hlast : ∀ c ∈ t.getLast?, p c = false) :
    trim p t = t := by
  rw [← List.head?_reverse] at hlast
  rw [trim, dropWhile_of_head hhead, dropWhile_of_head hlast, List.reverse_reverse]

theorem trim_padded {before after : Text} (h : ∀ c ∈ before ++ after, p c = true) :
    trim p (before ++ t ++ after) = trim p t := by
  have hbefore : ∀ c ∈ before, p c = true := fun c hc => h c (List.mem_append_left _ hc)
  have hafter : ∀ c ∈ after, p c = true := fun c hc => h c (List.mem_append_right _ hc)
  rw [trim, List.append_assoc, List.dropWhile_append_of_pos hbefore, List.dropWhile_append]
  split
  next hempty =>
    have hnone : (after ++ []).dropWhile p = [] := List.dropWhile_append_of_pos hafter
    rw [List.append_nil] at hnone
    rw [hnone, trim, List.isEmpty_iff.mp hempty]
  next =>
    rw [List.reverse_append, List.dropWhile_append_of_pos fun c hc =>
      hafter c (List.mem_reverse.mp hc)]
    rfl

end Trim

/-- What `strip` leaves is a stretch of the text. -/
theorem strip_parts (t : Text) : ∃ before after, t = before ++ strip t ++ after ∧
    (∀ c ∈ before ++ after, isSpace c = true) := trim_parts isSpace t

theorem mem_of_mem_strip {t : Text} {c : Char} (h : c ∈ strip t) : c ∈ t := by
  obtain ⟨before, after, ht, -⟩ := strip_parts t
  rw [ht]
  exact List.mem_append_left _ (List.mem_append_right _ h)

theorem mem_strip {t : Text} {c : Char} (hc : isSpace c = false) : c ∈ strip t ↔ c ∈ t := by
  refine ⟨mem_of_mem_strip, fun h => ?_⟩
  obtain ⟨before, after, ht, hspace⟩ := strip_parts t
  have hedge : c ∉ before ++ after := by
    intro hedge
    rw [hspace c hedge] at hc
    cases hc
  rw [List.mem_append, not_or] at hedge
  rw [ht, List.append_assoc, List.mem_append, List.mem_append] at h
  exact (h.resolve_left hedge.1).resolve_right hedge.2

theorem strip_length_le (t : Text) : (strip t).length ≤ t.length := by
  obtain ⟨before, after, ht, -⟩ := strip_parts t
  conv => rhs; rw [ht]
  rw [List.length_append, List.length_append]
  omega

/-- Where `strip` takes something off, the text gets shorter. -/
theorem strip_length_lt {t : Text} (h : strip t ≠ t) : (strip t).length < t.length := by
  refine Nat.lt_of_le_of_ne (strip_length_le t) fun hlength => h ?_
  obtain ⟨before, after, ht, -⟩ := strip_parts t
  have hsum := congrArg List.length ht
  rw [List.length_append, List.length_append] at hsum
  have hbefore : before = [] := List.eq_nil_of_length_eq_zero (by omega)
  have hafter : after = [] := List.eq_nil_of_length_eq_zero (by omega)
  rw [hbefore, hafter, List.nil_append, List.append_nil] at ht
  exact ht.symm

theorem strip_stripped (t : Text) : Stripped (strip t) := ⟨trim_head, trim_last⟩

theorem strip_of_stripped {t : Text} (h : Stripped t) : strip t = t := trim_of_ends h.1 h.2

theorem strip_eq_self {t : Text} : strip t = t ↔ Stripped t :=
  ⟨fun h => h ▸ strip_stripped t, strip_of_stripped⟩

/-- Of a text that begins with a character, `strip` leaves a beginning. -/
theorem strip_eq_take {t : Text} (h : ∀ c ∈ t.head?, isSpace c = false) :
    strip t = t.take (strip t).length := by
  obtain ⟨before, after, ht, hspace⟩ := strip_parts t
  cases before with
  | nil =>
    have hjoin : t = strip t ++ after := ht
    conv => rhs; arg 2; rw [hjoin]
    rw [List.take_left]
  | cons c before =>
    have hc : isSpace c = true := hspace c (List.mem_append_left _ List.mem_cons_self)
    rw [h c (by rw [ht]; rfl)] at hc
    cases hc

/-- `len(t.encode())`. -/
def utf8Len : Text → Nat
  | [] => 0
  | c :: cs => c.utf8Size + utf8Len cs

/-- `str(n)`. -/
def strInt (n : Int) : Text :=
  if n < 0 then '-' :: Nat.toDigits 10 n.natAbs else Nat.toDigits 10 n.natAbs

private def parseNat (ds : Text) : Option Nat :=
  if ds ≠ [] ∧ ds.all Char.isDigit then some (Nat.ofDigitChars 10 ds 0) else none

/-- `int(t)`, `none` where it raises `ValueError`. The service only calls it on
strings `str` produced, so the digit separators and non-ASCII digits `int` also
reads are left out. -/
def parseInt : Text → Option Int
  | '-' :: ds => (parseNat ds).map fun (n : Nat) => -(n : Int)
  | ds => (parseNat ds).map fun (n : Nat) => (n : Int)

private theorem parseNat_toDigits (n : Nat) : parseNat (Nat.toDigits 10 n) = some n := by
  have hall : (Nat.toDigits 10 n).all Char.isDigit = true :=
    List.all_eq_true.mpr fun c hc => Nat.isDigit_of_mem_toDigits (by omega) (by omega) hc
  rw [parseNat, if_pos ⟨Nat.toDigits_ne_nil, hall⟩,
    Nat.ofDigitChars_toDigits (by omega) (by omega)]

/-- `int` reads back what `str` wrote. -/
theorem parseInt_strInt (n : Int) : parseInt (strInt n) = some n := by
  unfold strInt
  split
  next hneg =>
    rw [parseInt, parseNat_toDigits, Option.map_some]
    exact congrArg some (by omega)
  next hpos =>
    have hhead : ∀ ds, Nat.toDigits 10 n.natAbs ≠ '-' :: ds := by
      intro ds he
      have hd := Nat.isDigit_of_mem_toDigits (b := 10) (n := n.natAbs) (c := '-')
        (by omega) (by omega) (by rw [he]; exact List.mem_cons_self ..)
      exact absurd hd (by decide)
    unfold parseInt
    split
    next ds he => exact absurd he (hhead ds)
    next =>
      rw [parseNat_toDigits, Option.map_some]
      exact congrArg some (by omega)

theorem strInt_ne_nil (n : Int) : strInt n ≠ [] := by
  unfold strInt
  split
  · simp
  · exact Nat.toDigits_ne_nil

end SarkariWorld.Lib
