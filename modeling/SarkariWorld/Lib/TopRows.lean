import SarkariWorld.Lib.Sort

/-!
# The first rows of an order

`FirstRows` is what `ORDER BY cmp LIMIT n` promises: the first `n` rows of some
arrangement the order allows. A query that first cuts its rows to a few candidates, under
another order, keeps the promise exactly if every row it cut away has `n` candidates
ranking no lower (`firstRows_candidates_iff`).

Which rows a cut keeps can be told from the rows before it: `Ahead` is the order with its
ties as a stable sort leaves them, and a row is cut off after `n` when `n` rows are ahead
of it (`mem_drop_orderBy`).
-/

namespace SarkariWorld.Lib

open Std

variable {α : Type} {cmp : α → α → Ordering} {rows kept cut result : List α} {a b : α}
  {limit n : Nat}

/-- `result` is the first `limit` of the rows, in an arrangement that `cmp` allows. -/
def FirstRows (cmp : α → α → Ordering) (limit : Nat) (rows result : List α) : Prop :=
  ∃ sorted, Arranged cmp rows sorted ∧ result = sorted.take limit

/-- The beginning of the sorted rows is one answer the query allows. -/
theorem firstRows_orderBy [TransCmp cmp] (h : kept.Perm rows) :
    FirstRows cmp limit rows ((orderBy cmp kept).take limit) :=
  ⟨orderBy cmp kept, ⟨(orderBy_perm cmp kept).trans h, orderBy_sorted⟩, rfl⟩

/-- Every answer has as many rows as the limit and the table allow. -/
theorem FirstRows.length (h : FirstRows cmp limit rows result) :
    result.length = min limit rows.length := by
  obtain ⟨sorted, ⟨hperm, -⟩, rfl⟩ := h
  rw [List.length_take, hperm.length_eq]

/-- No row that is left out ranks above one that is returned. -/
theorem FirstRows.le (h : FirstRows cmp limit rows result) (ha : a ∈ result) (hb : b ∈ rows)
    (hout : b ∉ result) : (cmp a b).isLE = true := by
  obtain ⟨sorted, ⟨hperm, hsorted⟩, rfl⟩ := h
  rw [← List.take_append_drop limit sorted, List.pairwise_append] at hsorted
  refine hsorted.2.2 a ha b ?_
  have hmem := hperm.mem_iff.mpr hb
  rw [← List.take_append_drop limit sorted, List.mem_append] at hmem
  exact hmem.resolve_left hout

/-- If `limit` of the sorted rows rank no lower than `b`, the first `limit` do. -/
theorem le_of_countP [TransCmp cmp] {sorted : List α}
    (hsorted : sorted.Pairwise fun a b => (cmp a b).isLE = true)
    (hcount : limit ≤ sorted.countP fun a => (cmp a b).isLE) (ha : a ∈ sorted.take limit) :
    (cmp a b).isLE = true := by
  by_contra hnot
  obtain ⟨before, after, hsplit⟩ := List.append_of_mem ha
  -- Neither `a` nor anything after it counts, and fewer than `limit` come before it.
  have hlength : before.length < limit := by
    have htotal := congrArg List.length hsplit
    rw [List.length_take, List.length_append, List.length_cons] at htotal
    omega
  rw [← List.take_append_drop limit sorted, hsplit, List.append_assoc, List.cons_append] at hsorted
  rw [← List.take_append_drop limit sorted, hsplit, List.append_assoc, List.cons_append,
    List.countP_append, List.countP_cons, if_neg hnot, Nat.add_zero] at hcount
  have hrest : (after ++ sorted.drop limit).countP (fun a => (cmp a b).isLE) = 0 := by
    refine List.countP_eq_zero.mpr fun x hx hle => hnot ?_
    have hax := (List.pairwise_cons.mp (List.pairwise_append.mp hsorted).2.1).1 x hx
    exact TransCmp.isLE_trans hax hle
  have hbefore : before.countP (fun a => (cmp a b).isLE) ≤ before.length := List.countP_le_length
  omega

/-- **A query over candidates**: it returns the first rows of all exactly if nothing is
cut away, or what is cut away has enough candidates above it. -/
theorem firstRows_candidates_iff [TransCmp cmp] (hrows : (kept ++ cut).Perm rows)
    (hnodup : rows.Nodup) (hresult : FirstRows cmp limit kept result) :
    FirstRows cmp limit rows result ↔
      cut = [] ∨ limit ≤ kept.length ∧ ∀ b ∈ cut, limit ≤ kept.countP fun a => (cmp a b).isLE := by
  have hlength := hresult.length
  obtain ⟨sorted, ⟨hperm, hsorted⟩, rfl⟩ := hresult
  constructor
  · intro hfirst
    by_cases hcut : cut = []
    · exact .inl hcut
    · right
      have hpos : 0 < cut.length := List.length_pos_of_ne_nil hcut
      have hall := hrows.length_eq
      rw [List.length_append] at hall
      have hfull : limit ≤ kept.length := by
        have := hfirst.length
        omega
      refine ⟨hfull, fun b hb => ?_⟩
      -- `b` was cut, so it is not among the rows returned.
      have hb_rows : b ∈ rows := hrows.mem_iff.mp (List.mem_append_right _ hb)
      have hb_out : b ∉ sorted.take limit := by
        intro hmem
        have hb_kept := hperm.mem_iff.mp (List.mem_of_mem_take hmem)
        exact (List.nodup_append.mp (hrows.nodup_iff.mpr hnodup)).2.2 b hb_kept b hb rfl
      have hcounted : (sorted.take limit).countP (fun a => (cmp a b).isLE) = limit := by
        rw [List.countP_eq_length.mpr fun a ha => hfirst.le ha hb_rows hb_out, hlength]
        exact Nat.min_eq_left hfull
      rw [← hperm.countP_eq, ← hcounted]
      exact (List.take_sublist ..).countP_le
  · rintro (rfl | ⟨hfull, habove⟩)
    · rw [List.append_nil] at hrows
      exact ⟨sorted, ⟨hperm.trans hrows, hsorted⟩, rfl⟩
    · have hrest := orderBy_perm cmp (sorted.drop limit ++ cut)
      refine ⟨sorted.take limit ++ orderBy cmp (sorted.drop limit ++ cut), ⟨?_, ?_⟩, ?_⟩
      · refine ((hrest.append_left _).trans ?_).trans hrows
        rw [← List.append_assoc, List.take_append_drop]
        exact hperm.append_right cut
      · refine List.pairwise_append.mpr ⟨hsorted.sublist (List.take_sublist ..), orderBy_sorted, ?_⟩
        intro a ha b hb
        obtain hb | hb := List.mem_append.mp (mem_orderBy.mp hb)
        · rw [← List.take_append_drop limit sorted, List.pairwise_append] at hsorted
          exact hsorted.2.2 a ha b hb
        · refine le_of_countP hsorted ?_ ha
          rw [hperm.countP_eq]
          exact habove b hb
      · have htaken : limit = (sorted.take limit).length := by omega
        rw [List.take_append_of_le_length htaken.le, List.take_take, Nat.min_self]

/-! ## Where a row stands -/

/-- `a` comes before `b` when the rows are sorted: it ranks above, or they tie and it is
met first. -/
def Ahead (cmp : α → α → Ordering) (rows : List α) (a b : α) : Prop :=
  cmp a b = .lt ∨ cmp a b = .eq ∧ [a, b].Sublist rows

instance [DecidableEq α] : Decidable (Ahead cmp rows a b) :=
  inferInstanceAs (Decidable (_ ∨ _ ∧ _))

/-- In a list without duplicates two elements have one order. -/
theorem not_sublist_swap (hnodup : rows.Nodup) (h : [a, b].Sublist rows) :
    ¬ [b, a].Sublist rows := by
  induction rows with
  | nil => exact fun _ => (nomatch h)
  | cons x rows ih =>
    obtain ⟨hx, hnodup⟩ := List.nodup_cons.mp hnodup
    intro hswap
    rw [List.sublist_cons_iff] at h hswap
    obtain h | ⟨_, ha, h⟩ := h
    · obtain hswap | ⟨_, hb, hswap⟩ := hswap
      · exact ih hnodup h hswap
      · obtain ⟨rfl, rfl⟩ := List.cons.inj hb
        exact hx (h.subset (by simp))
    · obtain ⟨rfl, rfl⟩ := List.cons.inj ha
      obtain hswap | ⟨_, hb, hswap⟩ := hswap
      · exact hx (hswap.subset (by simp))
      · obtain ⟨rfl, rfl⟩ := List.cons.inj hb
        exact hx (h.subset (by simp))

theorem sublist_or_swap (ha : a ∈ rows) (hb : b ∈ rows) (hne : a ≠ b) :
    [a, b].Sublist rows ∨ [b, a].Sublist rows := by
  induction rows with
  | nil => cases ha
  | cons x rows ih =>
    obtain rfl | ha' := List.mem_cons.mp ha
    · obtain rfl | hb' := List.mem_cons.mp hb
      · exact absurd rfl hne
      · exact .inl ((List.singleton_sublist.mpr hb').cons_cons _)
    · obtain rfl | hb' := List.mem_cons.mp hb
      · exact .inr ((List.singleton_sublist.mpr ha').cons_cons _)
      · exact (ih ha' hb').imp (List.Sublist.cons _) (List.Sublist.cons _)

/-- A row is ahead of another one exactly if a stable sort puts it first. -/
theorem ahead_iff [TransCmp cmp] (hnodup : rows.Nodup) (ha : a ∈ rows) (hb : b ∈ rows)
    (hne : a ≠ b) : Ahead cmp rows a b ↔ [a, b].Sublist (orderBy cmp rows) := by
  have hnodup' : (orderBy cmp rows).Nodup := (orderBy_perm cmp rows).nodup_iff.mpr hnodup
  have hsorted : (orderBy cmp rows).Pairwise fun a b => (cmp a b).isLE = true := orderBy_sorted
  -- what stands before something in the order does not come after it in the comparison
  have hle : ∀ {x y : α}, [x, y].Sublist (orderBy cmp rows) → (cmp x y).isLE = true := by
    intro x y h
    have hpair : [x, y].Pairwise fun a b => (cmp a b).isLE = true := hsorted.sublist h
    exact (List.pairwise_cons.mp hpair).1 y (List.mem_singleton.mpr rfl)
  have hswap : cmp b a = (cmp a b).swap := OrientedCmp.eq_swap
  constructor
  · rintro (hlt | ⟨heq, hmet⟩)
    · refine (sublist_or_swap (mem_orderBy.mpr ha) (mem_orderBy.mpr hb) hne).resolve_right ?_
      intro hother
      have hba := hle hother
      rw [hswap, hlt] at hba
      cases hba
    -- equal: the sort is stable, so they keep the order in which they were met
    · have hab : (cmp a b).isLE = true := by
        rw [heq]
        rfl
      exact List.pair_sublist_insertionSort hab hmet
  · intro hordered
    have hab := hle hordered
    cases hcmp : cmp a b with
    | lt => exact .inl hcmp
    | gt =>
      rw [hcmp] at hab
      cases hab
    | eq =>
      refine .inr ⟨hcmp, (sublist_or_swap ha hb hne).resolve_right fun hmet => ?_⟩
      have hba : (cmp b a).isLE = true := by
        rw [hswap, hcmp]
        rfl
      exact not_sublist_swap hnodup' hordered (List.pair_sublist_insertionSort hba hmet)

theorem not_ahead_self [TransCmp cmp] (hnodup : rows.Nodup) : ¬ Ahead cmp rows a a := by
  rintro (hlt | ⟨-, hmet⟩)
  · have heq : cmp a a = .eq := ReflCmp.compare_self
    rw [heq] at hlt
    cases hlt
  · exact not_sublist_swap hnodup hmet hmet

/-- **A row is cut off after `n` when `n` rows are ahead of it.** -/
theorem mem_drop_orderBy [TransCmp cmp] [DecidableEq α] (hnodup : rows.Nodup) (hb : b ∈ rows) :
    b ∈ (orderBy cmp rows).drop n ↔ n ≤ rows.countP fun a => Ahead cmp rows a b := by
  have hnodup' : (orderBy cmp rows).Nodup := (orderBy_perm cmp rows).nodup_iff.mpr hnodup
  have hmem' : b ∈ orderBy cmp rows := mem_orderBy.mpr hb
  obtain ⟨before, after, hsplit⟩ := List.append_of_mem hmem'
  have hmem : ∀ {a}, a ∈ orderBy cmp rows → a ∈ rows := fun h => mem_orderBy.mp h
  -- The rows ahead of `b` are those before it.
  have hcount : (rows.countP fun a => Ahead cmp rows a b) = before.length := by
    rw [← (orderBy_perm cmp rows).countP_eq, hsplit, List.countP_append]
    have hbefore : (before.countP fun a => Ahead cmp rows a b) = before.length := by
      refine List.countP_eq_length.mpr fun a ha => decide_eq_true ?_
      have hordered : [a, b].Sublist (orderBy cmp rows) := by
        rw [hsplit]
        exact (List.singleton_sublist.mpr ha).append ((List.nil_sublist _).cons_cons b)
      refine (ahead_iff hnodup (hmem (hordered.subset (by simp))) hb ?_).mpr hordered
      rintro rfl
      exact not_sublist_swap hnodup' hordered hordered
    have hafter : ((b :: after).countP fun a => Ahead cmp rows a b) = 0 := by
      refine List.countP_eq_zero.mpr fun a ha hahead => ?_
      have hahead := of_decide_eq_true hahead
      obtain rfl | ha := List.mem_cons.mp ha
      · exact not_ahead_self hnodup hahead
      · have hordered : [b, a].Sublist (orderBy cmp rows) := by
          rw [hsplit]
          exact (((List.singleton_sublist.mpr ha).cons_cons b)).trans (List.sublist_append_right ..)
        have hne : a ≠ b := by
          rintro rfl
          exact not_sublist_swap hnodup' hordered hordered
        have ha_rows : a ∈ rows := hmem (hordered.subset (by simp))
        exact not_sublist_swap hnodup' hordered ((ahead_iff hnodup ha_rows hb hne).mp hahead)
    rw [hbefore, hafter, Nat.add_zero]
  rw [hcount, hsplit]
  rw [hsplit] at hnodup'
  constructor
  · intro hdrop
    by_contra hlt
    rw [List.drop_append, List.drop_eq_nil_of_le (by omega), List.nil_append] at hdrop
    have hpos : 0 < n - before.length := by omega
    rw [List.drop_cons hpos] at hdrop
    exact (List.nodup_cons.mp (List.nodup_append.mp hnodup').2.1).1 (List.mem_of_mem_drop hdrop)
  · intro hle
    rw [List.drop_append_of_le_length hle]
    exact List.mem_append_right _ List.mem_cons_self

end SarkariWorld.Lib
