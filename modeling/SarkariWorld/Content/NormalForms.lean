import SarkariWorld.Content.StoredUrls

/-!
# Normal forms

What the normalisers of an article make of a text, said once for each of their
steps: `_collapse` gives a text without runs of white space (`collapse_collapsed`),
`valid_http_url` a canonical URL no longer than what it was made from
(`canonical_length_le`) that it gives back again unless it ends in white space
(`validHttpUrl_again`), and a loop with a limit keeps the items it comes to while
there is room (`mem_collectUpTo_iff`).

A normal form is stated as a property of its own (`Collapsed`, `IsHttpUrl`, the kept items
of a list) rather than as a fixed point, so that it can be used without the function that
made it. That the function then leaves it alone is a lemma each time.

The cuts are the difficulty. A normal form that is cut need not be one any more, and each
lemma says what a cut can leave: a blank at the end, a shorter list, half a URL.
-/

namespace SarkariWorld.Content

open Lib

/-! ## Collapsed text -/

/-- White space is single blanks; the flag says that there is one in front. -/
def Squeezed : Bool → Text → Prop
  | _, [] => True
  | inRun, c :: cs =>
    if isSpace c then inRun = false ∧ c = ' ' ∧ Squeezed true cs else Squeezed false cs

theorem squeezed_squeeze (t : Text) (inRun : Bool) : Squeezed inRun (squeeze inRun t) := by
  induction t generalizing inRun with
  | nil => trivial
  | cons c cs ih =>
    unfold squeeze
    split
    next hspace =>
      cases inRun with
      | true => exact ih true
      | false => exact ⟨rfl, rfl, ih true⟩
    next hplain =>
      rw [Squeezed, if_neg hplain]
      exact ih false

theorem squeeze_of_squeezed {t : Text} {inRun : Bool} (h : Squeezed inRun t) :
    squeeze inRun t = t := by
  induction t generalizing inRun with
  | nil => rfl
  | cons c cs ih =>
    unfold Squeezed at h
    unfold squeeze
    split
    next hspace =>
      rw [if_pos hspace] at h
      obtain ⟨rfl, rfl, hcs⟩ := h
      exact congrArg (List.cons ' ') (ih hcs)
    next hplain =>
      rw [if_neg hplain] at h
      exact congrArg _ (ih h)

theorem Squeezed.left {a b : Text} {inRun : Bool} (h : Squeezed inRun (a ++ b)) :
    Squeezed inRun a := by
  induction a generalizing inRun with
  | nil => trivial
  | cons c cs ih =>
    rw [List.cons_append] at h
    unfold Squeezed at h ⊢
    split at h
    next hspace =>
      rw [if_pos hspace]
      exact ⟨h.1, h.2.1, ih h.2.2⟩
    next hplain =>
      rw [if_neg hplain]
      exact ih h

theorem Squeezed.right {a b : Text} {inRun : Bool} (h : Squeezed inRun (a ++ b)) :
    Squeezed false b := by
  induction a generalizing inRun with
  | nil =>
    cases inRun with
    | false => exact h
    | true =>
      cases b with
      | nil => trivial
      | cons c cs =>
        rw [List.nil_append] at h
        unfold Squeezed at h ⊢
        split at h
        next => cases h.1
        next hplain => rwa [if_neg hplain]
  | cons c cs ih =>
    rw [List.cons_append] at h
    unfold Squeezed at h
    split at h
    next => exact ih h.2.2
    next => exact ih h

theorem squeeze_length_le (t : Text) (inRun : Bool) : (squeeze inRun t).length ≤ t.length := by
  induction t generalizing inRun with
  | nil => exact Nat.le_refl 0
  | cons c cs ih =>
    unfold squeeze
    split
    next =>
      cases inRun with
      | true => exact Nat.le_succ_of_le (ih true)
      | false => exact Nat.succ_le_succ (ih true)
    next => exact Nat.succ_le_succ (ih false)

theorem mem_squeeze {t : Text} {c : Char} (hc : isSpace c = false) (inRun : Bool) :
    c ∈ squeeze inRun t ↔ c ∈ t := by
  induction t generalizing inRun with
  | nil => rfl
  | cons d ds ih =>
    unfold squeeze
    split
    next hspace =>
      have hne : c ≠ d := by
        rintro rfl
        rw [hc] at hspace
        cases hspace
      have hblank : c ≠ ' ' := by
        rintro rfl
        cases hc
      rw [List.mem_cons, or_iff_right hne]
      cases inRun with
      | true => exact ih true
      | false =>
        rw [if_neg (by decide), List.mem_cons, or_iff_right hblank]
        exact ih true
    next => rw [List.mem_cons, List.mem_cons, ih false]

/-- A text `_collapse` has nothing to do on. -/
def Collapsed (t : Text) : Prop := Squeezed false t ∧ Stripped t

theorem collapse_collapsed (value : Option Text) : Collapsed (collapse value) := by
  obtain ⟨before, after, hparts, -⟩ := strip_parts (squeeze false (value.getD []))
  have hsqueezed := squeezed_squeeze (value.getD []) false
  rw [hparts, List.append_assoc] at hsqueezed
  exact ⟨hsqueezed.right.left, strip_stripped _⟩

theorem collapse_of_collapsed {t : Text} (h : Collapsed t) : collapse (some t) = t := by
  rw [collapse, Option.getD_some, squeeze_of_squeezed h.1, strip_of_stripped h.2]

/-- Cut, a collapsed text can lose its last character: a blank. -/
theorem collapse_take (value : Option Text) (n : Nat) :
    collapse (some ((collapse value).take n)) = strip ((collapse value).take n) := by
  have hsqueezed : Squeezed false ((collapse value).take n) := by
    have hwhole := (collapse_collapsed value).1
    rw [← List.take_append_drop n (collapse value)] at hwhole
    exact hwhole.left
  rw [collapse, Option.getD_some, squeeze_of_squeezed hsqueezed]

theorem collapse_length_le (t : Text) : (collapse (some t)).length ≤ t.length :=
  Nat.le_trans (strip_length_le _) (squeeze_length_le t false)

theorem mem_collapse {t : Text} {c : Char} (hc : isSpace c = false) :
    c ∈ collapse (some t) ↔ c ∈ t := (mem_strip hc).trans (mem_squeeze hc false)

/-- U+0000 is not white space, so neither step takes it away. -/
theorem storable_collapse {t : Text} : Storable (collapse (some t)) ↔ Storable t :=
  not_congr (mem_collapse rfl)

theorem storable_strip {t : Text} : Storable (strip t) ↔ Storable t := not_congr (mem_strip rfl)

/-! ## Canonical URLs -/

section Url

variable {env : Env} {checks : Text → Bool} {value : Option Text} {url : Text}

/-- A canonical URL is not longer than what it was made from. -/
theorem canonical_length_le (h : validHttpUrl (env.cpython checks) value = some url) :
    url.length ≤ (value.getD []).length := by
  obtain ⟨u, hu, hparse, rfl⟩ := validHttpUrl_parts h
  exact Nat.le_trans (urlunparse_length_le hparse hu.scheme_ne hu.netloc) (strip_length_le _)

/-- U+0000 is only taken from the front of a URL. -/
theorem storable_canonical (h : validHttpUrl (env.cpython checks) value = some url) :
    Storable url ↔ Storable ((strip (value.getD [])).dropWhile c0OrSpace) := by
  obtain ⟨u, hu, hparse, rfl⟩ := validHttpUrl_parts h
  exact not_congr (mem_urlunparse hparse hu.scheme_ne hu.netloc (by decide) (by decide) (by decide))

/-- A URL begins with a letter. -/
theorem head_httpUrl (h : IsHttpUrl url) : ∀ c ∈ url.head?, isSpace c = false := by
  obtain ⟨scheme, hscheme, c, rest, -, rfl⟩ := h
  intro d hd
  obtain rfl | rfl := List.mem_pair.mp hscheme <;> cases hd <;> rfl

theorem canonical_isHttpUrl (h : validHttpUrl (env.cpython checks) value = some url) :
    IsHttpUrl url := by
  obtain ⟨u, hu, -, rfl⟩ := validHttpUrl_parts h
  exact hu.isHttpUrl

theorem ne_nil_of_httpUrl (h : IsHttpUrl url) : url ≠ [] := by
  obtain ⟨scheme, -, c, rest, -, rfl⟩ := h
  simp

theorem canonical_ne_nil (h : validHttpUrl (env.cpython checks) value = some url) : url ≠ [] :=
  ne_nil_of_httpUrl (canonical_isHttpUrl h)

/-- The components that were checked are what is serialised. -/
theorem validHttpUrl_of_parts {t : Text} {u : Url} (hne : strip t ≠ [])
    (hparse : Lib.urlparse checks (strip t) = some u) (hu : HttpParts checks u) :
    validHttpUrl (env.cpython checks) (some t) = some (urlunparse u) := by
  have hparse' : (env.cpython checks).urlparse (strip t) = some (.ofUrl u) :=
    congrArg (Option.map _) hparse
  have hhttp : ¬((u.scheme ≠ "http".toList ∧ u.scheme ≠ "https".toList) ∨ u.netloc = []) := by
    rintro (⟨hhttp, hhttps⟩ | hnetloc)
    · exact hu.scheme.elim hhttp hhttps
    · exact hu.netloc hnetloc
  unfold validHttpUrl
  rw [Option.getD_some]
  dsimp only
  rw [if_neg hne, hparse']
  exact if_neg hhttp

/-- A URL that is given back has nothing to strip. -/
theorem stripped_of_canonical (h : validHttpUrl (env.cpython checks) (some url) = some url) :
    Stripped url := by
  refine strip_eq_self.mp (Classical.byContradiction fun hne => ?_)
  obtain ⟨u, hu, hparse, hurl⟩ := validHttpUrl_parts h
  have hshorter := strip_length_lt hne
  have hle := urlunparse_length_le hparse hu.scheme_ne hu.netloc
  rw [← hurl, Option.getD_some] at hle
  omega

/-- **A canonical URL is its own canonical form, unless it ends in white space.** -/
theorem validHttpUrl_again (h : validHttpUrl (env.cpython checks) value = some url) :
    validHttpUrl (env.cpython checks) (some url) = some url ↔
      ∀ c ∈ url.getLast?, isSpace c = false := by
  refine ⟨fun hagain => (stripped_of_canonical hagain).2, fun hlast => ?_⟩
  have hstrip : strip url = url := strip_of_stripped ⟨head_httpUrl (canonical_isHttpUrl h), hlast⟩
  have hne := canonical_ne_nil h
  obtain ⟨u, hu, -, rfl⟩ := validHttpUrl_parts h
  refine validHttpUrl_of_parts ?_ ?_ hu
  · rw [hstrip]
    exact hne
  · rw [hstrip]
    exact urlparse_urlunparse hu.parsed hu.scheme_ne hu.netloc

end Url

/-! ## Kept items -/

section Kept

variable {α β : Type} {form : α → Option β} {limit : Nat}

/-- A loop with a limit comes to the item while there is room, and the item has a
form. -/
def Kept (form : α → Option β) (limit : Nat) (items : List α) (item : α) : Prop :=
  (form item).isSome = true ∧ ∃ before after, items = before ++ item :: after ∧
    (before.filterMap form).length < limit

theorem not_kept_zero {items : List α} {item : α} : ¬ Kept form 0 items item := by
  rintro ⟨-, before, after, -, hroom⟩
  exact Nat.not_lt_zero _ hroom

/-- An item without a form takes no room. -/
theorem kept_cons_none {first item : α} {items : List α} (hfirst : form first = none) :
    Kept form limit (first :: items) item ↔ Kept form limit items item := by
  constructor
  · rintro ⟨hsome, before, after, hitems, hroom⟩
    cases before with
    | nil =>
      obtain ⟨rfl, -⟩ := List.cons.inj hitems
      rw [hfirst] at hsome
      cases hsome
    | cons b before =>
      obtain ⟨rfl, rfl⟩ := List.cons.inj hitems
      rw [List.filterMap_cons_none hfirst] at hroom
      exact ⟨hsome, before, after, rfl, hroom⟩
  · rintro ⟨hsome, before, after, rfl, hroom⟩
    refine ⟨hsome, first :: before, after, rfl, ?_⟩
    rw [List.filterMap_cons_none hfirst]
    exact hroom

/-- One with a form is kept, and leaves room for one less. -/
theorem kept_cons_some {first item : α} {items : List α} {result : β}
    (hfirst : form first = some result) :
    Kept form (limit + 1) (first :: items) item ↔ item = first ∨ Kept form limit items item := by
  constructor
  · rintro ⟨hsome, before, after, hitems, hroom⟩
    cases before with
    | nil => exact .inl (List.cons.inj hitems).1.symm
    | cons b before =>
      obtain ⟨rfl, rfl⟩ := List.cons.inj hitems
      rw [List.filterMap_cons_some hfirst, List.length_cons] at hroom
      exact .inr ⟨hsome, before, after, rfl, Nat.lt_of_succ_lt_succ hroom⟩
  · rintro (rfl | ⟨hsome, before, after, rfl, hroom⟩)
    · refine ⟨?_, [], items, rfl, Nat.succ_pos _⟩
      rw [hfirst]
      rfl
    · refine ⟨hsome, first :: before, after, rfl, ?_⟩
      rw [List.filterMap_cons_some hfirst, List.length_cons]
      omega

/-- The first forms of a list are the forms of the items that are kept. -/
theorem mem_take_filterMap {items : List α} {result : β} :
    result ∈ (items.filterMap form).take limit ↔
      ∃ item, Kept form limit items item ∧ form item = some result := by
  induction items generalizing limit with
  | nil =>
    rw [List.filterMap_nil, List.take_nil]
    refine ⟨fun h => absurd h List.not_mem_nil, ?_⟩
    rintro ⟨item, ⟨-, before, after, hitems, -⟩, -⟩
    exact absurd hitems (by simp)
  | cons first items ih =>
    cases hfirst : form first with
    -- what is dropped uses up no room
    | none =>
      rw [List.filterMap_cons_none hfirst, ih]
      exact exists_congr fun item => and_congr_left fun _ => (kept_cons_none hfirst).symm
    | some firstResult =>
      rw [List.filterMap_cons_some hfirst]
      cases limit with
      | zero =>
        refine ⟨fun h => absurd h List.not_mem_nil, ?_⟩
        rintro ⟨item, hkept, -⟩
        exact absurd hkept not_kept_zero
      | succ limit =>
        rw [List.take_succ_cons, List.mem_cons, ih]
        constructor
        · rintro (rfl | ⟨item, hkept, hitem⟩)
          · exact ⟨first, (kept_cons_some hfirst).mpr (.inl rfl), hfirst⟩
          · exact ⟨item, (kept_cons_some hfirst).mpr (.inr hkept), hitem⟩
        · rintro ⟨item, hkept, hitem⟩
          rcases (kept_cons_some hfirst).mp hkept with rfl | hlater
          · exact .inl (Option.some.inj (hitem.symm.trans hfirst))
          · exact .inr ⟨item, hlater, hitem⟩

/-- The loop stores the forms of the items it keeps. -/
theorem mem_collectUpTo_iff (hlimit : 0 < limit) {items : List α} {result : β} :
    result ∈ collectUpTo limit (fun _ => form) [] items ↔
      ∃ item, Kept form limit items item ∧ form item = some result := by
  rw [collectUpTo_forms items hlimit, List.nil_append]
  exact mem_take_filterMap

end Kept

/-! ## Kept keywords -/

section Duplicates

variable {α : Type} [BEq α]

/-- Some of the elements are left. -/
theorem eraseDups_sublist (l : List α) : l.eraseDups.Sublist l := by
  generalize hlength : l.length = n
  induction n using Nat.strongRecOn generalizing l with
  | _ n ih =>
    cases l with
    | nil => exact List.Sublist.refl _
    | cons a l =>
      have hshort : (l.filter fun b => !b == a).length < n := by
        have hle := List.length_filter_le (fun b => !b == a) l
        rw [← hlength, List.length_cons]
        omega
      rw [List.eraseDups_cons]
      exact ((ih _ hshort _ rfl).trans List.filter_sublist).cons_cons a

variable [LawfulBEq α]

theorem nodup_eraseDups (l : List α) : l.eraseDups.Nodup := by
  generalize hlength : l.length = n
  induction n using Nat.strongRecOn generalizing l with
  | _ n ih =>
    cases l with
    | nil => exact List.nodup_nil
    | cons a l =>
      have hshort : (l.filter fun b => !b == a).length < n := by
        have hle := List.length_filter_le (fun b => !b == a) l
        rw [← hlength, List.length_cons]
        omega
      rw [List.eraseDups_cons]
      refine List.nodup_cons.mpr ⟨fun hmem => ?_, ih _ hshort _ rfl⟩
      have hkept := (List.mem_filter.mp (List.mem_eraseDups.mp hmem)).2
      rw [beq_self_eq_true] at hkept
      cases hkept

theorem eraseDups_of_nodup {l : List α} (h : l.Nodup) : l.eraseDups = l := by
  induction l with
  | nil => rfl
  | cons a l ih =>
    obtain ⟨hnew, hl⟩ := List.nodup_cons.mp h
    have hkept : l.filter (fun b => !b == a) = l := by
      rw [List.filter_eq_self]
      intro b hb
      rw [Bool.not_eq_true', beq_eq_false_iff_ne]
      rintro rfl
      exact hnew hb
    rw [List.eraseDups_cons, hkept, ih hl]

end Duplicates

/-- An element is among the first different ones exactly if few come before it. -/
theorem mem_take_eraseDups {α : Type} [BEq α] [LawfulBEq α] {l : List α} {n : Nat} {k : α} :
    k ∈ l.eraseDups.take n ↔
      ∃ before after, l = before ++ k :: after ∧ before.eraseDups.length < n := by
  have hsplit : ∀ before after : List α, k ∉ before → (before ++ k :: after).eraseDups =
      before.eraseDups ++ k :: ((k :: after).removeAll before).eraseDups.tail := by
    intro before after hnew
    have hkept : (k :: after).removeAll before = k :: after.removeAll before := by
      rw [List.cons_removeAll, if_pos (by simpa using hnew)]
    rw [List.eraseDups_append, hkept, List.eraseDups_cons, List.tail_cons]
  constructor
  · intro h
    have hmem : k ∈ l := List.mem_eraseDups.mp (List.mem_of_mem_take h)
    -- Its first occurrence is where it is counted.
    obtain ⟨before, after, rfl, hnew⟩ := List.eq_append_cons_of_mem hmem
    refine ⟨before, after, rfl, Nat.lt_of_not_le fun hle => hnew ?_⟩
    rw [hsplit before after hnew, List.take_append_of_le_length hle] at h
    exact List.mem_eraseDups.mp (List.mem_of_mem_take h)
  · rintro ⟨before, after, rfl, hroom⟩
    by_cases hold : k ∈ before
    · rw [List.eraseDups_append, List.take_append]
      rw [List.take_of_length_le (Nat.le_of_lt hroom)]
      exact List.mem_append_left _ (List.mem_eraseDups.mpr hold)
    · obtain ⟨room, hn⟩ : ∃ room, n - before.eraseDups.length = room + 1 :=
        ⟨n - before.eraseDups.length - 1, by omega⟩
      rw [hsplit before after hold, List.take_append, hn, List.take_succ_cons]
      exact List.mem_append_right _ List.mem_cons_self

/-- What `search_keyword` is read as. -/
def SearchKeyword.items : SearchKeyword → List Text
  | .list items => items
  | .text value => splitCommas value

/-- Keywords are one loop, whether they come as a list or as one text with commas. -/
theorem normaliseSearchKeyword_eq (env : Env) (keywords : SearchKeyword) :
    normaliseSearchKeyword env (some keywords) =
      collectUpTo searchKeywordMaxItems (keywordOf env) [] keywords.items := by
  cases keywords <;> rfl

/-- The keyword loop comes to the item while there is room, and the item is not
blank. -/
def KeptKeyword (env : Env) (items : List Text) (item : Text) : Prop :=
  keywordForm env item ≠ [] ∧ ∃ before after, items = before ++ item :: after ∧
    (freshKeywords env [] before).length < searchKeywordMaxItems

/-- The keywords that are stored are the forms of those that are kept. -/
theorem mem_normaliseSearchKeyword {env : Env} {keywords : SearchKeyword} {k : Text} :
    k ∈ normaliseSearchKeyword env (some keywords) ↔
      ∃ item, KeptKeyword env keywords.items item ∧ keywordForm env item = k := by
  have hempty : ([] : List Text).length < searchKeywordMaxItems := by decide
  rw [normaliseSearchKeyword_eq, collectUpTo_keywords env keywords.items hempty, List.nil_append,
    freshKeywords, mem_take_eraseDups]
  constructor
  -- the keyword's place among the kept forms, taken back to its place in the input
  · rintro ⟨before, after, hforms, hroom⟩
    obtain ⟨forms, rest, hall, hbefore, hrest⟩ := List.filter_eq_append_iff.mp hforms
    obtain ⟨skipped, later, rfl, hskipped, hk, -⟩ := List.filter_eq_cons_iff.mp hrest
    obtain ⟨items, items', hitems, hforms', htail⟩ := List.map_eq_append_iff.mp hall
    obtain ⟨blank, kept, rfl, hblank, hkept⟩ := List.map_eq_append_iff.mp htail
    obtain ⟨item, after', rfl, hitem, -⟩ := List.map_eq_cons_iff.mp hkept
    have hnothing : skipped.filter (fun k => decide (k ≠ [] ∧ k ∉ ([] : List Text))) = [] :=
      List.filter_eq_nil_iff.mpr hskipped
    refine ⟨item, ⟨?_, items ++ blank, after', ?_, ?_⟩, hitem⟩
    · rw [hitem]
      exact (of_decide_eq_true hk).1
    · rw [hitems, List.append_assoc]
    · rw [freshKeywords, List.map_append, List.filter_append, hforms', hblank, hbefore, hnothing,
        List.append_nil]
      exact hroom
  -- and the item's place in the input, taken forward to its form's
  · rintro ⟨item, ⟨hne, before, after, hitems, hroom⟩, rfl⟩
    have hkept : ((before ++ item :: after).map (keywordForm env)).filter
          (fun k => decide (k ≠ [] ∧ k ∉ ([] : List Text))) =
        (before.map (keywordForm env)).filter (fun k => decide (k ≠ [] ∧ k ∉ ([] : List Text))) ++
          keywordForm env item :: (after.map (keywordForm env)).filter
            (fun k => decide (k ≠ [] ∧ k ∉ ([] : List Text))) := by
      rw [List.map_append, List.map_cons, List.filter_append]
      congr 1
      exact List.filter_cons_of_pos (decide_eq_true ⟨hne, List.not_mem_nil⟩)
    rw [hitems, hkept]
    exact ⟨_, _, rfl, hroom⟩

end SarkariWorld.Content
