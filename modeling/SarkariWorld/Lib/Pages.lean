import Mathlib.Data.List.Nodup
import SarkariWorld.Lib.Sort

/-!
# Listings cut into pages

An order whose ties are broken by a key is a strict total order on rows that differ in
it (`strictTotal_of_key`). Consecutive pages of an arrangement, put together, are its
beginning, without a row twice.

So a program which walks the pages meets every row once, provided nothing is written
meanwhile: the pages are slices of one list only if they are cut from the same table.

Pages are numbered from zero, and a page is `LIMIT` and `OFFSET` of one size. What
a request may ask for beyond that, a size of its own or a page behind the last one, is a
matter of the service that serves it.
-/

namespace SarkariWorld.Lib

open Std

variable {α κ : Type} {cmp : α → α → Ordering} {key : α → κ} {rows : List α} {size k n : Nat}

/-- A strict total order on rows with distinct keys. -/
structure StrictTotal (cmp : α → α → Ordering) (key : α → κ) : Prop where
  irrefl : ∀ a, cmp a a ≠ .lt
  trans : ∀ a b c, cmp a b = .lt → cmp b c = .lt → cmp a c = .lt
  total : ∀ a b, key a ≠ key b → cmp a b = .lt ∨ cmp b a = .lt

/-- Two rows that the comparison does not tell apart have the same key, so of any two with different
keys one comes first. -/
theorem strictTotal_of_key [TransCmp cmp] (h : ∀ a b, cmp a b = .eq → key a = key b) :
    StrictTotal cmp key where
  irrefl a hlt := by
    have heq : cmp a a = .eq := ReflCmp.compare_self
    rw [heq] at hlt
    cases hlt
  trans _ _ _ := TransCmp.lt_trans
  total a b hne := by
    have hswap : cmp b a = (cmp a b).swap := OrientedCmp.eq_swap
    cases hcmp : cmp a b with
    | lt => exact .inl rfl
    | eq => exact absurd (h a b hcmp) hne
    | gt =>
      rw [hswap, hcmp]
      exact .inr rfl

/-! ## Pages -/

/-- The first `k` pages. -/
def firstPages (size k : Nat) (rows : List α) : List (List α) :=
  (List.range k).map fun n => page size (n * size) rows

/-- The first pages together are the beginning of the list. -/
theorem flatten_firstPages : (firstPages size k rows).flatten = rows.take (k * size) := by
  induction k with
  | zero =>
    rw [Nat.zero_mul, List.take_zero]
    rfl
  | succ k ih =>
    unfold firstPages at ih ⊢
    rw [List.range_succ, List.map_append, List.flatten_append, ih, List.map_singleton,
      List.flatten_singleton, Nat.succ_mul, List.take_add]
    rfl

theorem firstPages_disjoint (h : rows.Nodup) : (firstPages size k rows).Pairwise List.Disjoint := by
  have hflat : (firstPages size k rows).flatten.Nodup := by
    rw [flatten_firstPages]
    exact h.sublist (List.take_sublist ..)
  exact (List.nodup_flatten.mp hflat).2

theorem page_length (h : (n + 1) * size ≤ rows.length) :
    (page size (n * size) rows).length = size := by
  rw [Nat.succ_mul] at h
  rw [page, List.length_take, List.length_drop]
  omega

/-- Every page but the last is full if the last one starts among the rows. -/
theorem firstPages_full (h : (k - 1) * size ≤ rows.length) :
    ∀ cut ∈ (firstPages size k rows).dropLast, cut.length = size := by
  cases k with
  | zero => exact fun _ hcut => (nomatch hcut)
  | succ k =>
    intro cut hcut
    rw [firstPages, List.range_succ, List.map_append, List.map_singleton,
      List.dropLast_concat] at hcut
    obtain ⟨n, hn, rfl⟩ := List.mem_map.mp hcut
    have hle : (n + 1) * size ≤ k * size := Nat.mul_le_mul_right size (List.mem_range.mp hn)
    exact page_length (Nat.le_trans hle h)

end SarkariWorld.Lib
