import Mathlib

/-!
# `LIKE`

A pattern is a text in which `%` matches any string, `_` any character, and a
backslash takes the next character literally (`likeItems`). The pattern everyone writes
is `%` on either side of a text (`around`). If none of the three is in the text it finds
what contains the text (`like_around_plain`), and if one is, there is a text no longer
than that (`shortestAround`) which it finds and which does not contain it.

A pattern is read into items once, and matching is structural on them. Folding case, as
`ILIKE` does, applies to both sides before they are matched, so the facts about `ILIKE`
follow from those about `LIKE` once it is known that folding turns nothing else into one
of the three special characters.
-/

namespace SarkariWorld.Lib

/-- The characters a pattern does not take literally. -/
def isMeta (c : Char) : Bool := c == '%' || c == '_' || c == '\\'

/-- What a pattern asks for next: anything, one character, or this one. -/
inductive LikeItem where
  | any
  | one
  | literal (c : Char)
  deriving DecidableEq, Repr

/-- A single character of a pattern. -/
def LikeItem.of (c : Char) : LikeItem :=
  if c = '%' then .any else if c = '_' then .one else .literal c

/-- A pattern, read. Postgres refuses one that ends in its escape character; here the
last backslash stands for itself. -/
def likeItems : List Char → List LikeItem
  | [] => []
  | c :: pattern =>
    if c = '\\' then
      match pattern with
      | [] => [.literal c]
      | escaped :: pattern => .literal escaped :: likeItems pattern
    else .of c :: likeItems pattern

/-- The text matches the items. -/
def matchItems : List LikeItem → List Char → Bool
  | [], text => text.isEmpty
  | .any :: items, text => text.tails.any (matchItems items)
  | .one :: items, text =>
    match text with
    | [] => false
    | _ :: text => matchItems items text
  | .literal c :: items, text =>
    match text with
    | [] => false
    | d :: text => c == d && matchItems items text

/-- `text LIKE pattern`. -/
def like (pattern text : List Char) : Bool := matchItems (likeItems pattern) text

/-- The characters an item stands for in the shortest texts; `filler` is any character,
for `_`. -/
def LikeItem.shortest (filler : Char) : LikeItem → List Char
  | .any => []
  | .one => [filler]
  | .literal c => [c]

/-- A shortest text that matches. -/
def shortest (filler : Char) (items : List LikeItem) : List Char :=
  items.flatMap (LikeItem.shortest filler)

variable {items : List LikeItem} {pattern text s : List Char} {c filler : Char}

theorem matchItems_any : matchItems (.any :: items) text = true ↔
    ∃ rest, rest <:+ text ∧ matchItems items rest = true := by
  simp only [matchItems, List.any_eq_true, List.mem_tails]

/-- Literal characters must be the beginning of the text. -/
theorem matchItems_literals : matchItems (s.map .literal ++ items) text = true ↔
    ∃ rest, text = s ++ rest ∧ matchItems items rest = true := by
  induction s generalizing text with
  | nil => exact ⟨fun h => ⟨text, rfl, h⟩, fun ⟨rest, ht, h⟩ => ht ▸ h⟩
  | cons c s ih =>
    cases text with
    | nil => exact ⟨fun h => (nomatch h), fun ⟨_, h, _⟩ => (nomatch h)⟩
    | cons d text =>
      show (c == d && matchItems (s.map .literal ++ items) text) = true ↔ _
      rw [Bool.and_eq_true, beq_iff_eq, ih]
      constructor
      · rintro ⟨rfl, rest, rfl, hrest⟩
        exact ⟨rest, rfl, hrest⟩
      · rintro ⟨rest, ht, hrest⟩
        obtain ⟨rfl, rfl⟩ := List.cons.inj ht
        exact ⟨rfl, rest, rfl, hrest⟩

/-- `%` at the end. -/
theorem matchItems_percent : matchItems [.any] text = true :=
  matchItems_any.mpr ⟨[], List.nil_suffix, rfl⟩

theorem matchItems_shortest : matchItems items (shortest filler items) = true := by
  induction items with
  | nil => rfl
  | cons item items ih =>
    cases item with
    | any => exact matchItems_any.mpr ⟨_, List.suffix_refl _, ih⟩
    | one => exact ih
    | literal c =>
      show (c == c && matchItems items (shortest filler items)) = true
      rw [beq_self_eq_true, Bool.true_and]
      exact ih

/-- Nothing shorter matches. -/
theorem shortest_length_le (h : matchItems items text = true) :
    (shortest filler items).length ≤ text.length := by
  induction items generalizing text with
  | nil => exact Nat.zero_le _
  | cons item items ih =>
    cases item with
    | any =>
      obtain ⟨rest, hrest, hmatch⟩ := matchItems_any.mp h
      exact Nat.le_trans (ih hmatch) hrest.length_le
    | one =>
      cases text with
      | nil => cases h
      | cons d text => exact Nat.succ_le_succ (ih h)
    | literal c =>
      cases text with
      | nil => cases h
      | cons d text => exact Nat.succ_le_succ (ih (Bool.and_eq_true_iff.mp h).2)

/-- Induction along a pattern: an escape takes a character with it. -/
theorem pattern_induction {P : List Char → Prop} (nil : P []) (last : P ['\\'])
    (escaped : ∀ c s, P s → P ('\\' :: c :: s)) (plain : ∀ c s, c ≠ '\\' → P s → P (c :: s)) :
    ∀ s, P s
  | [] => nil
  | [c] => by
    by_cases hescape : c = '\\'
    · subst hescape
      exact last
    · exact plain c [] hescape nil
  | c :: d :: s => by
    by_cases hescape : c = '\\'
    · subst hescape
      exact escaped d s (pattern_induction nil last escaped plain s)
    · exact plain c (d :: s) hescape (pattern_induction nil last escaped plain (d :: s))

/-! ## `%` on either side -/

/-- A character that is no backslash is an item of its own. -/
theorem likeItems_of_ne (hc : c ≠ '\\') :
    likeItems (c :: pattern) = .of c :: likeItems pattern := by
  rw [likeItems.eq_def]
  exact if_neg hc

theorem likeItem_of_plain (hc : isMeta c = false) : LikeItem.of c = .literal c := by
  unfold isMeta at hc
  rw [Bool.or_eq_false_iff, Bool.or_eq_false_iff, beq_eq_false_iff_ne, beq_eq_false_iff_ne] at hc
  rw [LikeItem.of, if_neg hc.1.1, if_neg hc.1.2]

theorem likeItems_plain (hs : ∀ c ∈ s, isMeta c = false) :
    likeItems (s ++ pattern) = s.map .literal ++ likeItems pattern := by
  induction s with
  | nil => rfl
  | cons c s ih =>
    have hc := hs c List.mem_cons_self
    have hescape : c ≠ '\\' := by
      rintro rfl
      cases hc
    rw [List.cons_append, likeItems_of_ne hescape, likeItem_of_plain hc,
      ih fun d hd => hs d (List.mem_cons_of_mem c hd)]
    rfl

/-- `%s%`. -/
def around (s : List Char) : List Char := '%' :: s ++ ['%']

theorem likeItems_around : likeItems (around s) = .any :: likeItems (s ++ ['%']) :=
  likeItems_of_ne (by decide)

/-- Without a special character, the pattern finds what contains the text. -/
theorem like_around_plain (hs : ∀ c ∈ s, isMeta c = false) :
    like (around s) text = true ↔ s <:+: text := by
  rw [like, likeItems_around, matchItems_any, likeItems_plain hs]
  constructor
  · rintro ⟨rest, ⟨before, rfl⟩, hmatch⟩
    obtain ⟨after, rfl, -⟩ := matchItems_literals.mp hmatch
    exact ⟨before, after, List.append_assoc ..⟩
  · rintro ⟨before, after, rfl⟩
    refine ⟨s ++ after, ⟨before, (List.append_assoc ..).symm⟩, ?_⟩
    exact matchItems_literals.mpr ⟨after, rfl, matchItems_percent⟩

/-- A shortest text that `%s%` matches. -/
def shortestAround (filler : Char) (s : List Char) : List Char :=
  shortest filler (likeItems (s ++ ['%']))

theorem like_shortestAround : like (around s) (shortestAround filler s) = true := by
  rw [like, likeItems_around]
  exact matchItems_any.mpr ⟨_, List.suffix_refl _, matchItems_shortest⟩

theorem shortestAround_escaped :
    shortestAround filler ('\\' :: c :: s) = c :: shortestAround filler s := rfl

theorem shortestAround_of_ne (hc : c ≠ '\\') :
    shortestAround filler (c :: s) =
      (LikeItem.of c).shortest filler ++ shortestAround filler s := by
  rw [shortestAround, List.cons_append, likeItems_of_ne hc]
  rfl

/-- The part of `shortestAround_le` that is about one character. -/
theorem shortest_of (hfiller : isMeta filler = false) :
    ((LikeItem.of c).shortest filler).length ≤ 1 ∧
      ((LikeItem.of c).shortest filler = [c] → c ≠ '\\' → isMeta c = false) := by
  unfold LikeItem.of
  split
  next => exact ⟨Nat.zero_le 1, fun h => (nomatch h)⟩
  next hpercent =>
    split
    next hunder =>
      refine ⟨Nat.le_refl 1, fun h _ => ?_⟩
      rw [← (List.cons.inj h).1]
      exact hfiller
    next hunder =>
      refine ⟨Nat.le_refl 1, fun _ hescape => ?_⟩
      unfold isMeta
      rw [beq_eq_false_iff_ne.mpr hpercent, beq_eq_false_iff_ne.mpr hunder,
        beq_eq_false_iff_ne.mpr hescape]
      rfl

/-- A shortest match consists of the character or of the filler. -/
theorem mem_shortest_of {d : Char} (h : d ∈ (LikeItem.of c).shortest filler) :
    d = c ∨ d = filler := by
  unfold LikeItem.of at h
  split at h
  next => cases h
  next =>
    split at h
    next => exact .inr (List.mem_singleton.mp h)
    next => exact .inl (List.mem_singleton.mp h)

/-- It is no longer than the text, and it is the text only if the text is plain. -/
theorem shortestAround_le (hfiller : isMeta filler = false) (s : List Char) :
    (shortestAround filler s).length ≤ s.length ∧
      (shortestAround filler s = s → ∀ c ∈ s, isMeta c = false) := by
  induction s using pattern_induction with
  | nil => exact ⟨Nat.le_refl 0, fun _ _ hc => (nomatch hc)⟩
  | last =>
    refine ⟨Nat.le_refl 1, fun h => ?_⟩
    have hlast : '%' = '\\' := (List.cons.inj h).1
    exact absurd hlast (by decide)
  | escaped c s ih =>
    rw [shortestAround_escaped]
    simp only [List.length_cons]
    refine ⟨by omega, fun h => ?_⟩
    have hlength := congrArg List.length h
    simp only [List.length_cons] at hlength
    omega
  | plain c s hescape ih =>
    obtain ⟨hlength, hplain⟩ := ih
    obtain ⟨hone, hliteral⟩ := shortest_of (c := c) hfiller
    rw [shortestAround_of_ne hescape, List.length_append, List.length_cons]
    refine ⟨by omega, fun h => ?_⟩
    -- Nothing is lost at the first character, so the first character is its own.
    have htotal := congrArg List.length h
    rw [List.length_append, List.length_cons] at htotal
    have hsame : ((LikeItem.of c).shortest filler).length = [c].length := by
      rw [List.length_singleton]
      omega
    obtain ⟨hfirst, hrest⟩ := List.append_inj h hsame
    intro d hd
    obtain rfl | hd := List.mem_cons.mp hd
    · exact hliteral hfirst hescape
    · exact hplain hrest d hd

/-- It brings no characters of its own but the filler and, after a last escape, `%`. -/
theorem mem_shortestAround {d : Char} (s : List Char) (h : d ∈ shortestAround filler s) :
    d ∈ s ∨ d = filler ∨ d = '%' := by
  induction s using pattern_induction with
  | nil => cases h
  | last => exact .inr (.inr (List.mem_singleton.mp h))
  | escaped c s ih =>
    rw [shortestAround_escaped] at h
    obtain rfl | h := List.mem_cons.mp h
    · exact .inl (List.mem_cons_of_mem _ List.mem_cons_self)
    · exact (ih h).imp_left fun h => List.mem_cons_of_mem _ (List.mem_cons_of_mem _ h)
  | plain c s hescape ih =>
    rw [shortestAround_of_ne hescape] at h
    obtain h | h := List.mem_append.mp h
    · obtain rfl | rfl := mem_shortest_of h
      · exact .inl List.mem_cons_self
      · exact .inr (.inl rfl)
    · exact (ih h).imp_left (List.mem_cons_of_mem c)

/-- A text that is not plain is not in the shortest text its pattern finds. -/
theorem shortestAround_not_infix (hfiller : isMeta filler = false)
    (hs : ¬ ∀ c ∈ s, isMeta c = false) : ¬ s <:+: shortestAround filler s := by
  intro hinside
  obtain ⟨hlength, hplain⟩ := shortestAround_le hfiller s
  exact hs (hplain (hinside.eq_of_length_le hlength).symm)

theorem shortestAround_length_le (h : like (around s) text = true) :
    (shortestAround filler s).length ≤ text.length := by
  rw [like, likeItems_around] at h
  obtain ⟨rest, hrest, hmatch⟩ := matchItems_any.mp h
  exact Nat.le_trans (shortest_length_le hmatch) hrest.length_le

/-! ## `ILIKE` -/

/-- How a database folds case, one character at a time. The characters of the pattern
language have none. -/
structure CaseFold where
  fold : Char → Char
  fold_meta : ∀ c, isMeta c = true → fold c = c
  isMeta_fold : ∀ c, isMeta (fold c) = isMeta c

theorem isMeta_of_isAlpha {c : Char} (h : c.isAlpha = true) : isMeta c = false := by
  refine Bool.eq_false_iff.mpr fun hmeta => ?_
  unfold isMeta at hmeta
  rw [Bool.or_eq_true, Bool.or_eq_true, beq_iff_eq, beq_iff_eq, beq_iff_eq] at hmeta
  obtain (rfl | rfl) | rfl := hmeta
  · exact absurd h (by decide)
  · exact absurd h (by decide)
  · exact absurd h (by decide)

/-- Folding of the ASCII letters. -/
def CaseFold.ascii : CaseFold where
  fold := Char.toLower
  fold_meta c hmeta := by
    refine Char.toLower_eq_of_not_isUpper fun hupper => ?_
    rw [isMeta_of_isAlpha (by rw [Char.isAlpha, hupper, Bool.true_or])] at hmeta
    cases hmeta
  isMeta_fold c := by
    by_cases hupper : c.isUpper = true
    · have halpha : c.isAlpha = true := by
        rw [Char.isAlpha, hupper, Bool.true_or]
      rw [isMeta_of_isAlpha halpha, isMeta_of_isAlpha]
      rw [Char.isAlpha_toLower_eq_isAlpha, halpha]
    · rw [Char.toLower_eq_of_not_isUpper hupper]

variable (f : CaseFold)

/-- `text ILIKE pattern`. -/
def ilike (pattern text : List Char) : Bool := like (pattern.map f.fold) (text.map f.fold)

/-- `s` is a stretch of the text, ignoring case. -/
def InfixFold (s text : List Char) : Prop := s.map f.fold <:+: text.map f.fold

variable {f}

theorem fold_eq_meta {m : Char} (hm : isMeta m = true) : f.fold c = m ↔ c = m := by
  constructor
  · rintro rfl
    rw [f.isMeta_fold] at hm
    exact (f.fold_meta c hm).symm
  · rintro rfl
    exact f.fold_meta c hm

theorem plain_map_fold : (∀ c ∈ s.map f.fold, isMeta c = false) ↔ ∀ c ∈ s, isMeta c = false := by
  rw [List.forall_mem_map]
  exact forall₂_congr fun c _ => by rw [f.isMeta_fold]

/-- Folding a pattern folds the text between its two `%`. -/
theorem around_map_fold : (around s).map f.fold = around (s.map f.fold) := by
  rw [around, List.map_append, List.map_cons, List.map_singleton, f.fold_meta '%' rfl]
  rfl

theorem shortest_of_fold : (LikeItem.of (f.fold c)).shortest (f.fold filler) =
    ((LikeItem.of c).shortest filler).map f.fold := by
  unfold LikeItem.of
  simp only [fold_eq_meta (f := f) (m := '%') rfl, fold_eq_meta (f := f) (m := '_') rfl]
  split
  · rfl
  · split
    · rfl
    · rfl

/-- The shortest text that a folded pattern finds. -/
theorem shortestAround_map_fold (s : List Char) :
    shortestAround (f.fold filler) (s.map f.fold) = (shortestAround filler s).map f.fold := by
  induction s using pattern_induction with
  | nil => rfl
  | last =>
    rw [List.map_singleton, f.fold_meta '\\' rfl]
    exact congrArg (fun c => [c]) (f.fold_meta '%' rfl).symm
  | escaped c s ih =>
    rw [List.map_cons, List.map_cons, f.fold_meta '\\' rfl, shortestAround_escaped,
      shortestAround_escaped, ih, List.map_cons]
  | plain c s hescape ih =>
    rw [List.map_cons, shortestAround_of_ne (mt (fold_eq_meta rfl).mp hescape),
      shortestAround_of_ne hescape, shortest_of_fold, ih, List.map_append]

/-- **A plain text is found where it is contained.** -/
theorem ilike_around_plain (hs : ∀ c ∈ s, isMeta c = false) :
    ilike f (around s) text = true ↔ InfixFold f s text := by
  rw [ilike, around_map_fold]
  exact like_around_plain (plain_map_fold.mpr hs)

/-- **Any other is found where it is not.** -/
theorem ilike_shortestAround (hs : ¬ ∀ c ∈ s, isMeta c = false) :
    ilike f (around s) (shortestAround 'a' s) = true ∧ ¬ InfixFold f s (shortestAround 'a' s) := by
  rw [ilike, InfixFold, around_map_fold, ← shortestAround_map_fold]
  refine ⟨like_shortestAround, shortestAround_not_infix ?_ (mt plain_map_fold.mp hs)⟩
  rw [f.isMeta_fold]
  rfl

/-- A text that is found is no shorter than the shortest one, whether it contains the
text or not. -/
theorem shortestAround_le_of_ilike (h : ilike f (around s) text = true) :
    (shortestAround 'a' s).length ≤ text.length := by
  rw [ilike, around_map_fold] at h
  have hlength : (shortestAround (f.fold 'a') (s.map f.fold)).length ≤ (text.map f.fold).length :=
    shortestAround_length_le h
  rw [shortestAround_map_fold, List.length_map, List.length_map] at hlength
  exact hlength

/-- A text that contains another, up to case, is no shorter than the shortest match. -/
theorem shortestAround_le_of_inside (h : InfixFold f s text) :
    (shortestAround 'a' s).length ≤ text.length := by
  have hlength := h.length_le
  rw [List.length_map, List.length_map] at hlength
  exact Nat.le_trans (shortestAround_le rfl s).1 hlength

end SarkariWorld.Lib
