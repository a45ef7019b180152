import Mathlib

/-!
# Grouped queries

`groupBy key` is `GROUP BY key`: every value that occurs, once, with its rows. Counts
over the groups of a query add up to the count over its rows (`sum_groupBy`), and a
`LEFT JOIN` onto counts by day, say, gives each day one line with its own count, zero
where the day has no group (`leftJoin_groupCounts`).

The groups come in some order that the query does not fix, so what is proved of them is
either about one group or does not depend on the order. A program that fills a dictionary
from the rows of a grouped query reads it by key, which is `countOf`.
-/

namespace SarkariWorld.Lib

variable {α β γ κ : Type}

/-- `GROUP BY key`. -/
def groupBy [DecidableEq κ] (key : α → κ) (rows : List α) : List (κ × List α) :=
  (rows.map key).dedup.map fun k => (k, rows.filter fun a => key a = k)

/-- `SELECT key, COUNT(*) … GROUP BY key`. -/
def groupCounts [DecidableEq κ] (key : α → κ) (rows : List α) : List (κ × Nat) :=
  (groupBy key rows).map fun g => (g.1, g.2.length)

/-- The order in which a database hands out the groups of a query; it may be any. -/
structure GroupOrder (γ : Type) where
  arrange : List γ → List γ
  perm : ∀ groups, (arrange groups).Perm groups

/-- What a left join makes of one line of its left side: a line for each that matches, or
one with nulls. -/
def joinLine (l : γ) : List (κ × β) → List (γ × Option β)
  | [] => [(l, none)]
  | matched => matched.map fun r => (l, some r.2)

/-- `left LEFT JOIN right ON on_ = key`, where the key is the first column of the right
side. -/
def leftJoin [DecidableEq κ] (on_ : γ → κ) (left : List γ) (right : List (κ × β)) :
    List (γ × Option β) :=
  left.flatMap fun l => joinLine l (right.filter fun r => r.1 = on_ l)

/-! ## Counting by groups -/

section Counting

variable {rows : List α} {ks : List κ} {p q : α → Bool}

/-- Two counts of different rows are the count of either kind. -/
theorem countP_add_countP (h : ∀ a ∈ rows, p a = true → q a = false) :
    rows.countP p + rows.countP q = rows.countP fun a => p a || q a := by
  induction rows with
  | nil => rfl
  | cons a as ih =>
    rw [List.forall_mem_cons] at h
    have hrest := ih h.2
    rw [List.countP_cons, List.countP_cons, List.countP_cons, ← hrest]
    cases hp : p a with
    | true =>
      rw [h.1 hp]
      simp only [Bool.or_false, if_true, Bool.false_eq_true, if_false]
      omega
    | false =>
      rw [Bool.false_or, if_neg Bool.false_ne_true]
      omega

/-- Rows counted by one test after another are counted once, if no row passes two. -/
theorem sum_countP {test : κ → α → Bool} (rows : List α) (hks : ks.Nodup)
    (hone : ∀ a k k', test k a = true → test k' a = true → k = k') :
    (ks.map fun k => rows.countP (test k)).sum = rows.countP fun a => ks.any fun k => test k a := by
  induction ks with
  | nil => simp
  | cons k ks ih =>
    rw [List.nodup_cons] at hks
    -- What passes the first test passes none of the others.
    have hapart : ∀ a ∈ rows, test k a = true → (ks.any fun k => test k a) = false := by
      intro a _ hk
      refine Bool.eq_false_iff.mpr fun hany => ?_
      obtain ⟨k', hk', htest⟩ := List.any_eq_true.mp hany
      exact hks.1 (hone a k k' hk htest ▸ hk')
    rw [List.map_cons, List.sum_cons, ih hks.2, countP_add_countP hapart]
    rfl

end Counting

variable [DecidableEq κ] {key : α → κ} {rows : List α} {k : κ}

/-- The keys of the groups are the values that occur, each once. -/
theorem groupBy_keys (key : α → κ) (rows : List α) :
    (groupBy key rows).map Prod.fst = (rows.map key).dedup := by
  rw [groupBy, List.map_map]
  exact List.map_id _

/-- **Counts over the groups add up to the count over the rows.** -/
theorem sum_groupBy (p : α → Bool) (key : α → κ) (rows : List α) :
    ((groupBy key rows).map fun g => g.2.countP p).sum = rows.countP p := by
  have hgroups : ((groupBy key rows).map fun g => g.2.countP p) =
      (rows.map key).dedup.map fun k => rows.countP fun a => p a && decide (key a = k) := by
    rw [groupBy, List.map_map]
    exact List.map_congr_left fun k _ => List.countP_filter
  have hone : ∀ a k k', (p a && decide (key a = k)) = true → (p a && decide (key a = k')) = true →
      k = k' := by
    intro a k k' hk hk'
    rw [Bool.and_eq_true, decide_eq_true_eq] at hk hk'
    exact hk.2.symm.trans hk'.2
  rw [hgroups, sum_countP rows (List.nodup_dedup _) hone]
  refine List.countP_congr fun a ha => ?_
  -- Every row is in the group of its key.
  have hmem : key a ∈ (rows.map key).dedup := List.mem_dedup.mpr (List.mem_map_of_mem ha)
  rw [List.any_eq_true]
  constructor
  · rintro ⟨k, -, hk⟩
    exact (Bool.and_eq_true_iff.mp hk).1
  · intro hp
    refine ⟨key a, hmem, ?_⟩
    rw [hp, decide_eq_true rfl]
    rfl

/-! ## Counts joined onto an axis -/

/-- The counts, as one list: each value with the number of rows that have it. -/
theorem groupCounts_eq (key : α → κ) (rows : List α) : groupCounts key rows =
    (rows.map key).dedup.map fun k => (k, rows.countP fun a => key a = k) := by
  rw [groupCounts, groupBy, List.map_map]
  exact List.map_congr_left fun k _ => congrArg (Prod.mk k) List.countP_eq_length_filter.symm

theorem mem_groupCounts {n : Nat} : (k, n) ∈ groupCounts key rows ↔
    (∃ a ∈ rows, key a = k) ∧ n = rows.countP fun a => key a = k := by
  rw [groupCounts_eq, List.mem_map]
  constructor
  · rintro ⟨k', hk, he⟩
    obtain ⟨rfl, rfl⟩ := Prod.ext_iff.mp he
    exact ⟨List.mem_map.mp (List.mem_dedup.mp hk), rfl⟩
  · rintro ⟨hk, rfl⟩
    exact ⟨k, List.mem_dedup.mpr (List.mem_map.mpr hk), rfl⟩

/-- The group of a key, if it has one. -/
def countOf (key : α → κ) (rows : List α) (k : κ) : Option Nat :=
  if k ∈ rows.map key then some (rows.countP fun a => key a = k) else none

theorem filter_groupCounts (key : α → κ) (rows : List α) (k : κ) :
    ((groupCounts key rows).filter fun r => r.1 = k) =
      (countOf key rows k).toList.map fun n => (k, n) := by
  have hkey : ((fun r : κ × Nat => decide (r.1 = k)) ∘
      fun k => (k, rows.countP fun a => key a = k)) = fun k' => decide (k' = k) := rfl
  rw [groupCounts_eq, List.filter_map, hkey, List.filter_eq, List.count_dedup, countOf]
  split
  · rfl
  · rfl

/-- **A left join onto counts has one line for each line of the left side.** -/
theorem leftJoin_groupCounts (on_ : γ → κ) (left : List γ) (key : α → κ) (rows : List α) :
    leftJoin on_ left (groupCounts key rows) =
      left.map fun l => (l, countOf key rows (on_ l)) := by
  rw [leftJoin, List.map_eq_flatMap]
  refine List.flatMap_congr fun l _ => ?_
  rw [filter_groupCounts]
  cases countOf key rows (on_ l) with
  | none => rfl
  | some n => rfl

/-- `COALESCE(count, 0)`: a key without a group has no rows. -/
theorem countOf_coalesce : (countOf key rows k).getD 0 = rows.countP fun a => key a = k := by
  unfold countOf
  split
  next => rfl
  next hnone =>
    refine (List.countP_eq_zero.mpr fun a ha hkey => hnone ?_).symm
    exact of_decide_eq_true hkey ▸ List.mem_map_of_mem ha

end SarkariWorld.Lib
