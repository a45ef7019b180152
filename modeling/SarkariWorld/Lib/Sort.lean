import Mathlib.Data.List.Sort

/-!
# Sorted queries and pages

A sort order is a comparison put together from the comparisons of its keys:
`compareOn key` is an ascending key, `descOn key` a descending one, and
`compareLex` puts one key before another. `orderBy` is a stable sort under such
an order, so a tie keeps the order the rows came in.

A query sees a table as a set of rows. `orderBy_eq_of_perm` is the reason its
answer can be a function of that set: an order that tells every two rows apart
puts all arrangements of them into one. `page` is `LIMIT` and `OFFSET`.
-/

namespace SarkariWorld.Lib

open Std

variable {α β : Type}

/-- `key DESC`. Nulls are the least values of an `Option`, so they come last. -/
def descOn [Ord β] (key : α → β) (a b : α) : Ordering := compare (key b) (key a)

instance [Ord β] [TransOrd β] (key : α → β) : TransCmp (descOn key) :=
  inferInstanceAs (TransCmp fun a b => compareOn key b a)

/-- A descending key leaves a tie where the key is the same. -/
theorem descOn_eq [Ord β] [OrientedOrd β] [LawfulEqOrd β] {key : α → β} {a b : α}
    (h : descOn key a b = .eq) : key a = key b := (LawfulEqOrd.eq_of_compare h).symm

/-- `ORDER BY cmp`. -/
def orderBy (cmp : α → α → Ordering) (rows : List α) : List α :=
  rows.insertionSort fun a b => (cmp a b).isLE = true

variable {cmp : α → α → Ordering} {rows rows' : List α}

theorem orderBy_perm (cmp : α → α → Ordering) (rows : List α) : (orderBy cmp rows).Perm rows :=
  List.perm_insertionSort ..

@[simp] theorem mem_orderBy {a : α} : a ∈ orderBy cmp rows ↔ a ∈ rows := (orderBy_perm ..).mem_iff

@[simp] theorem orderBy_length : (orderBy cmp rows).length = rows.length :=
  (orderBy_perm ..).length_eq

theorem orderBy_sorted [TransCmp cmp] :
    (orderBy cmp rows).Pairwise fun a b => (cmp a b).isLE = true := by
  have htotal : ∀ a b : α, (cmp a b).isLE = true ∨ (cmp b a).isLE = true := by
    intro a b
    have hswap : cmp b a = (cmp a b).swap := OrientedCmp.eq_swap
    rw [hswap]
    cases cmp a b <;> simp
  have : Std.Total fun a b : α => (cmp a b).isLE = true := ⟨htotal⟩
  have : IsTrans α fun a b => (cmp a b).isLE = true := ⟨fun _ _ _ => TransCmp.isLE_trans⟩
  exact List.pairwise_insertionSort ..

/-- The order tells every two of the rows apart. -/
def Separates (cmp : α → α → Ordering) (rows : List α) : Prop :=
  ∀ a ∈ rows, ∀ b ∈ rows, cmp a b = .eq → a = b

/-- An arrangement of the rows that `cmp` allows. -/
def Arranged (cmp : α → α → Ordering) (rows sorted : List α) : Prop :=
  sorted.Perm rows ∧ sorted.Pairwise fun a b => (cmp a b).isLE = true

/-- A sorted list of the rows is one of their arrangements. -/
theorem arranged_orderBy [TransCmp cmp] : Arranged cmp rows (orderBy cmp rows) :=
  ⟨orderBy_perm cmp rows, orderBy_sorted⟩

/-- There is only one. -/
theorem arranged_unique [TransCmp cmp] {xs ys : List α} (hsep : Separates cmp rows)
    (hx : Arranged cmp rows xs) (hy : Arranged cmp rows ys) : xs = ys := by
  refine (hx.1.trans hy.1.symm).eq_of_pairwise (fun a b ha hb hab hba => ?_) hx.2 hy.2
  refine hsep a (hx.1.mem_iff.mp ha) b (hy.1.mem_iff.mp hb) ?_
  have hswap : cmp b a = (cmp a b).swap := OrientedCmp.eq_swap
  rw [hswap, Ordering.isLE_swap] at hba
  cases hcmp : cmp a b with
  | eq => rfl
  | lt => rw [hcmp] at hba; cases hba
  | gt => rw [hcmp] at hab; cases hab

/-- **A sorted query depends on the set of its rows only.** -/
theorem orderBy_eq_of_perm [TransCmp cmp] (hsep : Separates cmp rows) (h : rows.Perm rows') :
    orderBy cmp rows = orderBy cmp rows' :=
  arranged_unique hsep arranged_orderBy ⟨(orderBy_perm cmp rows').trans h.symm, orderBy_sorted⟩

/-- A filtered query keeps its order. -/
theorem orderBy_filter [TransCmp cmp] (hsep : Separates cmp rows) (p : α → Bool) :
    orderBy cmp (rows.filter p) = (orderBy cmp rows).filter p := by
  have hkept : Separates cmp (rows.filter p) := fun a ha b hb he =>
    hsep a (List.mem_filter.mp ha).1 b (List.mem_filter.mp hb).1 he
  refine arranged_unique hkept arranged_orderBy ⟨(orderBy_perm cmp rows).filter p, ?_⟩
  exact orderBy_sorted.sublist List.filter_sublist

/-- A row before all others comes first. -/
theorem orderBy_concat [TransCmp cmp] {a : α} (hsep : Separates cmp rows)
    (hfirst : ∀ b ∈ rows, cmp a b = .lt) :
    orderBy cmp (rows ++ [a]) = a :: orderBy cmp rows := by
  have hnew : Separates cmp (rows ++ [a]) := by
    intro b hb c hc he
    rw [List.mem_append, List.mem_singleton] at hb hc
    rcases hb with hb | rfl
    · rcases hc with hc | rfl
      · exact hsep b hb c hc he
      · have hlt := hfirst b hb
        have hswap : cmp c b = (cmp b c).swap := OrientedCmp.eq_swap
        rw [hswap, he] at hlt
        cases hlt
    · rcases hc with hc | rfl
      · rw [hfirst c hc] at he
        cases he
      · rfl
  refine arranged_unique hnew arranged_orderBy ⟨?_, ?_⟩
  · exact ((orderBy_perm cmp rows).cons a).trans (List.perm_append_singleton a rows).symm
  · refine List.pairwise_cons.mpr ⟨fun b hb => ?_, orderBy_sorted⟩
    rw [hfirst b (mem_orderBy.mp hb)]
    rfl

/-! ## Pages -/

/-- `LIMIT limit OFFSET offset`. -/
def page (limit offset : Nat) (rows : List α) : List α := (rows.drop offset).take limit

end SarkariWorld.Lib
