import SarkariWorld.Lib.Groups
import SarkariWorld.Lib.Sort

/-!
# Rankings

`ranking` is a `GROUP BY` cut to the groups with the most rows, ties told apart by a
number of the group. `Ranked` is what such a query promises its reader: the counts are
right, the order is right, and nobody left out belongs among those returned.

The limit may fall inside a tie of counts. As the number of the group decides such ties,
the groups that are returned are determined by the rows alone, whatever order the database
puts the groups in.
-/

namespace SarkariWorld.Lib

open Std

variable {α κ : Type} {rank : κ → Int} {g h : κ × Nat}

/-- `ORDER BY count DESC, rank ASC`. -/
def byCount (rank : κ → Int) : κ × Nat → κ × Nat → Ordering :=
  compareLex (descOn Prod.snd) (compareOn fun g => rank g.1)

instance (rank : κ → Int) : TransCmp (byCount rank) := by
  unfold byCount
  infer_instance

/-- `SELECT key, COUNT(*) AS count … GROUP BY key ORDER BY count DESC, rank ASC LIMIT limit`. -/
def ranking [DecidableEq κ] (order : GroupOrder (κ × Nat)) (rank : κ → Int) (key : α → κ)
    (rows : List α) (limit : Nat) : List (κ × Nat) :=
  (orderBy (byCount rank) (order.arrange (groupCounts key rows))).take limit

/-- The first group stands above the second. -/
def Above (rank : κ → Int) (g h : κ × Nat) : Prop :=
  h.2 < g.2 ∨ h.2 = g.2 ∧ rank g.1 < rank h.1

theorem byCount_lt : byCount rank g h = .lt ↔ Above rank g h := by
  unfold byCount Above compareLex descOn compareOn
  rw [Ordering.then_eq_lt, Nat.compare_eq_lt, Nat.compare_eq_eq, Int.compare_eq_lt]

theorem byCount_eq (heq : byCount rank g h = .eq) : rank g.1 = rank h.1 := by
  unfold byCount compareLex compareOn at heq
  exact Int.compare_eq_eq.mp (Ordering.then_eq_eq.mp heq).2

/-- Groups of different ranks do not tie. -/
theorem above_of_le (hle : (byCount rank g h).isLE = true) (hne : rank g.1 ≠ rank h.1) :
    Above rank g h := by
  refine byCount_lt.mp ?_
  cases hcmp : byCount rank g h with
  | lt => rfl
  | eq => exact absurd (byCount_eq hcmp) hne
  | gt =>
    rw [hcmp] at hle
    cases hle

/-- The groups with the most rows, and how many each has. -/
structure Ranked [DecidableEq κ] (rank : κ → Int) (key : α → κ) (rows : List α) (limit : Nat)
    (result : List (κ × Nat)) : Prop where
  length : result.length = min limit (rows.map key).dedup.length
  counts : ∀ g ∈ result, (∃ a ∈ rows, key a = g.1) ∧ g.2 = rows.countP fun a => key a = g.1
  ordered : result.Pairwise (Above rank)
  /-- A group that is left out stands below all that are not. -/
  best : ∀ a ∈ rows, (∀ g ∈ result, g.1 ≠ key a) → ∀ g ∈ result,
    Above rank g (key a, rows.countP fun b => key b = key a)

variable [DecidableEq κ] {order : GroupOrder (κ × Nat)} {key : α → κ} {rows : List α} {limit : Nat}

/-- The sorted groups, each once and with its count. -/
theorem ranking_groups : (orderBy (byCount rank) (order.arrange (groupCounts key rows))).Perm
    ((rows.map key).dedup.map fun k => (k, rows.countP fun a => key a = k)) := by
  refine ((orderBy_perm _ _).trans (order.perm _)).trans ?_
  rw [groupCounts_eq]

/-- Each group returned is one of the rows', with its count. -/
theorem ranking_counts (hg : g ∈ ranking order rank key rows limit) :
    (∃ a ∈ rows, key a = g.1) ∧ g.2 = rows.countP fun a => key a = g.1 := by
  obtain ⟨k, hk, rfl⟩ := List.mem_map.mp (ranking_groups.mem_iff.mp (List.mem_of_mem_take hg))
  exact ⟨List.mem_map.mp (List.mem_dedup.mp hk), rfl⟩

/-- The groups come in the order of the relation, and no two are level. -/
theorem ranking_above (order : GroupOrder (κ × Nat))
    (hrank : ∀ a ∈ rows, ∀ b ∈ rows, rank (key a) = rank (key b) → key a = key b) :
    (orderBy (byCount rank) (order.arrange (groupCounts key rows))).Pairwise (Above rank) := by
  have hnodup : ((orderBy (byCount rank) (order.arrange (groupCounts key rows))).map
      Prod.fst).Nodup := by
    refine ((ranking_groups.map Prod.fst).nodup_iff).mpr ?_
    rw [List.map_map]
    exact (List.map_id _).symm ▸ List.nodup_dedup _
  have hkeys : ∀ g ∈ orderBy (byCount rank) (order.arrange (groupCounts key rows)),
      ∃ a ∈ rows, key a = g.1 := by
    intro g hg
    obtain ⟨k, hk, rfl⟩ := List.mem_map.mp (ranking_groups.mem_iff.mp hg)
    exact List.mem_map.mp (List.mem_dedup.mp hk)
  have hboth := orderBy_sorted.and (List.pairwise_map.mp hnodup)
  refine hboth.imp_of_mem fun hg hh hpair => above_of_le hpair.1 fun hsame => hpair.2 ?_
  obtain ⟨a, ha, hakey⟩ := hkeys _ hg
  obtain ⟨b, hb, hbkey⟩ := hkeys _ hh
  rw [← hakey, ← hbkey] at hsame ⊢
  exact hrank a ha b hb hsame

/-- **A ranking keeps its promise**, in whatever order the groups come, if no two groups
have one rank. -/
theorem ranked_ranking
    (hrank : ∀ a ∈ rows, ∀ b ∈ rows, rank (key a) = rank (key b) → key a = key b) :
    Ranked rank key rows limit (ranking order rank key rows limit) := by
  have habove := ranking_above order hrank
  refine ⟨?_, fun g hg => ranking_counts hg, habove.sublist (List.take_sublist ..),
    fun a ha hout g hg => ?_⟩
  · rw [ranking, List.length_take, ranking_groups.length_eq, List.length_map]
  · -- The group is in the part that was cut off.
    have hmem : (key a, rows.countP fun b => key b = key a) ∈
        orderBy (byCount rank) (order.arrange (groupCounts key rows)) :=
      ranking_groups.mem_iff.mpr (List.mem_map.mpr
        ⟨key a, List.mem_dedup.mpr (List.mem_map_of_mem ha), rfl⟩)
    rw [← List.take_append_drop limit (orderBy _ _)] at hmem habove
    rcases List.mem_append.mp hmem with htaken | hcut
    · exact absurd rfl (hout _ htaken)
    · exact (List.pairwise_append.mp habove).2.2 g hg _ hcut

/-- What the groups returned count adds up to no more than the rows there are, and to all
of them if there are no other groups. -/
theorem ranking_sum (order : GroupOrder (κ × Nat)) (rank : κ → Int) (key : α → κ) (rows : List α)
    (limit : Nat) : ((ranking order rank key rows limit).map Prod.snd).sum ≤ rows.length ∧
    ((rows.map key).dedup.length ≤ limit →
      ((ranking order rank key rows limit).map Prod.snd).sum = rows.length) := by
  have hall : ((orderBy (byCount rank) (order.arrange (groupCounts key rows))).map Prod.snd).sum =
      rows.length := by
    have hgroups : (groupBy key rows).map (fun g => g.2.countP fun _ => true) =
        (groupCounts key rows).map Prod.snd := by
      rw [groupCounts, List.map_map]
      exact List.map_congr_left fun g _ => congrFun List.countP_true g.2
    have hperm := ((orderBy_perm (byCount rank) (order.arrange (groupCounts key rows))).trans
      (order.perm _)).map Prod.snd
    rw [hperm.sum_nat, ← hgroups, sum_groupBy]
    exact congrFun List.countP_true rows
  constructor
  · rw [← hall, ranking]
    conv_rhs => rw [← List.take_append_drop limit (orderBy _ _)]
    rw [List.map_append, List.sum_append]
    omega
  · intro hlimit
    rw [ranking, List.take_of_length_le, hall]
    rw [ranking_groups.length_eq, List.length_map]
    exact hlimit

end SarkariWorld.Lib
