import Mathlib.Data.List.Nodup

/-!
# Tables with unique columns

A table is a list of rows. A column is a function into `Option κ` (`none` is
SQL's null), and `UniqueCol col rows` is a unique index on it: two rows never
share a non-null value, nulls never collide. On such a column an equality
filter finds at most one row, which is what `scalar_one_or_none` relies on.

`updateWhere` is an `UPDATE` of the rows a key selects. The lemmas say what it does
to the selected row, that it leaves every other row alone, and how a column it
does not write survives.

`flushCol` is one column of such an update as a unit of work issues it: the
request loaded a value, assigned a value, and writes the column only if the two
differ. Whatever another request stored meanwhile survives in every column this
one did not change.
-/

namespace SarkariWorld.Lib

variable {ρ κ : Type} [DecidableEq κ]

/-- A unique index on a nullable column. -/
def UniqueCol (col : ρ → Option κ) (rows : List ρ) : Prop := (rows.filterMap col).Nodup

instance (col : ρ → Option κ) (rows : List ρ) : Decidable (UniqueCol col rows) :=
  inferInstanceAs (Decidable (rows.filterMap col).Nodup)

/-- `SELECT … WHERE col = k`. -/
def whereEq (col : ρ → Option κ) (k : κ) (rows : List ρ) : List ρ :=
  rows.filter fun x => col x = some k

/-- The only row of a `WHERE col = k` on a unique column. -/
def lookup (col : ρ → Option κ) (k : κ) (rows : List ρ) : Option ρ :=
  (whereEq col k rows).head?

/-- `UPDATE … SET … WHERE col = k`. -/
def updateWhere (col : ρ → Option κ) (k : κ) (f : ρ → ρ) (rows : List ρ) : List ρ :=
  rows.map fun x => if col x = some k then f x else x

variable {col : ρ → Option κ} {k : κ} {rows : List ρ}

theorem mem_whereEq {x : ρ} : x ∈ whereEq col k rows ↔ x ∈ rows ∧ col x = some k := by
  simp [whereEq]

/-- A unique column selects at most one row. -/
theorem whereEq_length_le_one (h : UniqueCol col rows) : (whereEq col k rows).length ≤ 1 := by
  induction rows with
  | nil => simp [whereEq]
  | cons x xs ih =>
    unfold UniqueCol at h
    cases hx : col x with
    | none =>
      rw [List.filterMap_cons_none hx] at h
      simpa [whereEq, hx] using ih h
    | some v =>
      rw [List.filterMap_cons_some hx, List.nodup_cons] at h
      obtain ⟨hv, htail⟩ := h
      by_cases hvk : v = k
      · subst hvk
        have hnone : whereEq col v xs = [] := by
          rw [List.eq_nil_iff_forall_not_mem]
          intro y hy
          obtain ⟨hmem, hcol⟩ := mem_whereEq.mp hy
          exact hv (List.mem_filterMap.mpr ⟨y, hmem, hcol⟩)
        have hcons : whereEq col v (x :: xs) = x :: whereEq col v xs := by
          simp [whereEq, hx]
        rw [hcons, hnone]
        simp
      · have hcons : whereEq col k (x :: xs) = whereEq col k xs := by
          simp [whereEq, hx, hvk]
        rw [hcons]
        exact ih htail

theorem mem_of_lookup {x : ρ} (h : lookup col k rows = some x) : x ∈ rows ∧ col x = some k :=
  mem_whereEq.mp (List.mem_of_head? h)

/-- On a unique column, a row is found under its own value. -/
theorem lookup_of_mem (hu : UniqueCol col rows) {x : ρ} (hx : x ∈ rows) (hk : col x = some k) :
    lookup col k rows = some x := by
  have hmem : x ∈ whereEq col k rows := mem_whereEq.mpr ⟨hx, hk⟩
  have hlen := whereEq_length_le_one (k := k) hu
  unfold lookup
  match hw : whereEq col k rows with
  | [] => rw [hw] at hmem; cases hmem
  | [y] => rw [hw, List.mem_singleton] at hmem; rw [hmem]; rfl
  | y :: z :: zs => rw [hw] at hlen; simp at hlen

/-- On a unique column the lookup finds the row with the key, if there is one. -/
theorem lookup_eq_some_iff (hu : UniqueCol col rows) {x : ρ} :
    lookup col k rows = some x ↔ x ∈ rows ∧ col x = some k :=
  ⟨mem_of_lookup, fun h => lookup_of_mem hu h.1 h.2⟩

theorem lookup_eq_none_iff : lookup col k rows = none ↔ ∀ x ∈ rows, col x ≠ some k := by
  rw [lookup, List.head?_eq_none_iff, List.eq_nil_iff_forall_not_mem]
  simp only [mem_whereEq, not_and, ne_eq]

/-- Two rows that agree on a unique column are the same row. -/
theorem eq_of_uniqueCol (hu : UniqueCol col rows) {x y : ρ} (hx : x ∈ rows) (hy : y ∈ rows)
    (hkx : col x = some k) (hky : col y = some k) : x = y := by
  have h := lookup_of_mem hu hx hkx
  rw [lookup_of_mem hu hy hky] at h
  exact (Option.some.inj h).symm

omit [DecidableEq κ] in
/-- Fewer rows stay unique. -/
theorem UniqueCol.sublist {fewer : List ρ} (hu : UniqueCol col rows) (h : fewer.Sublist rows) :
    UniqueCol col fewer :=
  List.Nodup.sublist (h.filterMap col) hu

omit [DecidableEq κ] in
/-- A unique column without nulls keeps the rows apart. -/
theorem nodup_of_uniqueCol {key : ρ → κ} (hu : UniqueCol (fun x => some (key x)) rows) :
    rows.Nodup := by
  have hmap : rows.filterMap (fun x => some (key x)) = rows.map key :=
    congrFun List.filterMap_eq_map rows
  rw [UniqueCol, hmap] at hu
  exact hu.of_map key

omit [DecidableEq κ] in
/-- An appended row shares its value with no row before it. -/
theorem col_ne_of_append {x : ρ} (hu : UniqueCol col (rows ++ [x])) (hk : col x = some k) :
    ∀ y ∈ rows, col y ≠ some k := by
  intro y hy he
  rw [UniqueCol, List.filterMap_append] at hu
  have hx : k ∈ [x].filterMap col := List.mem_filterMap.mpr ⟨x, List.mem_singleton_self x, hk⟩
  exact (List.nodup_append.mp hu).2.2 k (List.mem_filterMap.mpr ⟨y, hy, he⟩) k hx rfl

/-- On a unique column, a lookup depends on the set of the rows only. -/
theorem lookup_eq_of_mem_iff {others : List ρ} (hu : UniqueCol col rows)
    (hu' : UniqueCol col others) (h : ∀ x, x ∈ rows ↔ x ∈ others) :
    lookup col k rows = lookup col k others := by
  ext x
  rw [lookup_eq_some_iff hu, lookup_eq_some_iff hu', h x]

theorem mem_updateWhere {f : ρ → ρ} {y : ρ} :
    y ∈ updateWhere col k f rows ↔
      ∃ x ∈ rows, y = if col x = some k then f x else x := by
  simp [updateWhere, eq_comm]

/-- A row the key does not select is still there. -/
theorem mem_updateWhere_of_ne {f : ρ → ρ} {x : ρ} (hx : x ∈ rows) (h : col x ≠ some k) :
    x ∈ updateWhere col k f rows :=
  mem_updateWhere.mpr ⟨x, hx, by rw [if_neg h]⟩

/-- What holds of the rows, and of the new values of the selected ones, holds after an
update. -/
theorem forall_updateWhere {f : ρ → ρ} {P : ρ → Prop} (h : ∀ x ∈ rows, P x)
    (hf : ∀ x ∈ rows, col x = some k → P (f x)) : ∀ y ∈ updateWhere col k f rows, P y := by
  intro y hy
  obtain ⟨x, hx, rfl⟩ := mem_updateWhere.mp hy
  split
  next hkey => exact hf x hx hkey
  next => exact h x hx

/-- The selected row holds its new values. -/
theorem mem_updateWhere_of_eq {f : ρ → ρ} {x : ρ} (hx : x ∈ rows) (h : col x = some k) :
    f x ∈ updateWhere col k f rows :=
  mem_updateWhere.mpr ⟨x, hx, by rw [if_pos h]⟩

/-- An update that changes nothing in the selected rows changes nothing. -/
theorem updateWhere_of_eq_self {f : ρ → ρ} (h : ∀ x ∈ rows, col x = some k → f x = x) :
    updateWhere col k f rows = rows := by
  unfold updateWhere
  conv_rhs => rw [← List.map_id rows]
  apply List.map_congr_left
  intro x hx
  show (if col x = some k then f x else x) = x
  split
  next hk => exact h x hx hk
  next => rfl

omit [DecidableEq κ] in
/-- Two rows never share a value. -/
theorem uniqueCol_iff_pairwise :
    UniqueCol col rows ↔ rows.Pairwise fun x y => ∀ v, col x = some v → col y ≠ some v := by
  rw [UniqueCol, List.Nodup, List.pairwise_filterMap]
  constructor
  · exact fun h => h.imp fun hxy v hx hy => hxy v hx v hy rfl
  · refine fun h => h.imp fun hxy v hx w hy => ?_
    rintro rfl
    exact hxy v hx hy

omit [DecidableEq κ] in
/-- A row may be appended if it brings no value that is there. -/
theorem uniqueCol_append {x : ρ} (hu : UniqueCol col rows)
    (hx : ∀ v, col x = some v → ∀ y ∈ rows, col y ≠ some v) : UniqueCol col (rows ++ [x]) := by
  rw [uniqueCol_iff_pairwise] at hu ⊢
  rw [List.pairwise_append]
  refine ⟨hu, List.pairwise_singleton .., fun y hy z hz v hyv hzv => ?_⟩
  obtain rfl := List.mem_singleton.mp hz
  exact hx v hzv y hy hyv

/-- The row a unique key selects may take a value that no other row has. -/
theorem uniqueCol_updateWhere {κ' : Type} [DecidableEq κ'] {key : ρ → Option κ'} {f : ρ → ρ}
    (hcol : UniqueCol col rows) (hkey : UniqueCol key rows)
    (hf : ∀ x ∈ rows, col x = some k → ∀ v, key (f x) = some v →
      ∀ y ∈ rows, col y ≠ some k → key y ≠ some v) :
    UniqueCol key (updateWhere col k f rows) := by
  rw [uniqueCol_iff_pairwise] at hcol hkey ⊢
  unfold updateWhere
  rw [List.pairwise_map]
  refine (hcol.and hkey).imp_of_mem fun {x y} hx hy hxy v hv hw => ?_
  split at hv
  next hxk =>
    rw [if_neg (hxy.1 k hxk)] at hw
    exact hf x hx hxk v hv y hy (hxy.1 k hxk) hw
  next hxk =>
    split at hw
    next hyk => exact hf y hy hyk v hw x hx hxk hv
    next => exact hxy.2 v hv hw

/-- A column that an update does not write stays unique. -/
theorem uniqueCol_updateWhere_of_eq {κ' : Type} [DecidableEq κ'] {key : ρ → Option κ'} {f : ρ → ρ}
    (hcol : UniqueCol col rows) (hkey : UniqueCol key rows)
    (hf : ∀ x ∈ rows, col x = some k → key (f x) = key x) :
    UniqueCol key (updateWhere col k f rows) := by
  refine uniqueCol_updateWhere hcol hkey fun x hx hxk v hv y hy hyk he => hyk ?_
  rw [hf x hx hxk] at hv
  rw [← eq_of_uniqueCol hkey hx hy hv he]
  exact hxk

/-! ## Columns of a unit of work -/

section FlushCol

variable {β : Type} [DecidableEq β]

/-- One column of a flushed row, whose type keeps `store v` of a value `v`: it
is written only if the assigned value differs from the loaded one. -/
def flushColWith (store : β → β) (loaded assigned stored : β) : β :=
  if assigned = loaded then stored else store assigned

/-- The same for a column that keeps its values exactly. -/
def flushCol (loaded assigned stored : β) : β :=
  if assigned = loaded then stored else assigned

variable {store : β → β} {loaded assigned stored : β}

/-- A column the request left alone keeps what is stored. -/
@[simp] theorem flushColWith_clean : flushColWith store loaded loaded stored = stored := if_pos rfl

/-- A column that was not assigned keeps what is stored. -/
@[simp] theorem flushCol_clean : flushCol loaded loaded stored = stored := if_pos rfl

/-- A column that was assigned gets the new value, as the column stores it. -/
theorem flushColWith_dirty (h : assigned ≠ loaded) :
    flushColWith store loaded assigned stored = store assigned := if_neg h

/-- The same for a column that stores its values as they are. -/
theorem flushCol_dirty (h : assigned ≠ loaded) :
    flushCol loaded assigned stored = assigned := if_neg h

/-- What held of the stored value, and holds of a value that is written, holds of the
column. -/
theorem flushColWith_keeps {P : β → Prop} (hstored : P stored)
    (hassigned : assigned ≠ loaded → P (store assigned)) :
    P (flushColWith store loaded assigned stored) := by
  by_cases hclean : assigned = loaded
  · rw [hclean, flushColWith_clean]
    exact hstored
  · rw [flushColWith_dirty hclean]
    exact hassigned hclean

/-- What holds of the stored value, and of any value that is assigned, holds after the flush. -/
theorem flushCol_keeps {P : β → Prop} (hstored : P stored)
    (hassigned : assigned ≠ loaded → P assigned) : P (flushCol loaded assigned stored) := by
  show P (flushColWith id loaded assigned stored)
  exact flushColWith_keeps hstored hassigned

/-- With no write in between, a column ends up as assigned. -/
@[simp] theorem flushCol_self : flushCol loaded assigned loaded = assigned := by
  unfold flushCol
  split
  next h => exact h.symm
  next => rfl

end FlushCol

end SarkariWorld.Lib
