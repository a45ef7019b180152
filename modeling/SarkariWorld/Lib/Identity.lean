import SarkariWorld.Lib.Table

/-!
# Rows that stay the same row

A table whose rows carry a number, given out by a sequence, and some columns that no
statement changes (`core`). `Stems` is what one statement does: each row comes from a
row with the same number and core, or it is new. `Descends` is what a whole run does to
the rows numbered before it began; as numbers are not given twice,
`Descends.same_core` identifies a row by its number for good.

Nothing is asked of a statement beyond this: it may reorder the rows, drop some of them
and change any other column. So one lemma for each kind of statement (`stems_filter`,
`stems_append`, `stems_map`, `stems_updateWhere`) covers a program's writes, and the
induction over a run is done once.
-/

namespace SarkariWorld.Lib

variable {ρ γ κ : Type}

/-- Each row comes from one with the same number and core, or has a fresh number. -/
def Stems (id : ρ → Int) (core : ρ → γ) (fresh : Int → Prop) (rows rows' : List ρ) : Prop :=
  ∀ x' ∈ rows', (∃ x ∈ rows, id x = id x' ∧ core x = core x') ∨ fresh (id x')

/-- Each row numbered below `low` comes from one with the same number and core. -/
def Descends (id : ρ → Int) (core : ρ → γ) (low : Int) (rows rows' : List ρ) : Prop :=
  ∀ x' ∈ rows', id x' < low → ∃ x ∈ rows, id x = id x' ∧ core x = core x'

variable {id : ρ → Int} {core : ρ → γ} {fresh : Int → Prop} {low : Int}
  {rows rows' rows'' : List ρ}

/-! ## Statements -/

theorem stems_of_subset (h : ∀ x ∈ rows', x ∈ rows) : Stems id core fresh rows rows' :=
  fun x hx => .inl ⟨x, h x hx, rfl, rfl⟩

theorem stems_refl (rows : List ρ) : Stems id core fresh rows rows :=
  stems_of_subset fun _ hx => hx

theorem stems_filter (p : ρ → Bool) : Stems id core fresh rows (rows.filter p) :=
  stems_of_subset fun _ hx => (List.mem_filter.mp hx).1

theorem stems_append {x : ρ} (h : fresh (id x)) : Stems id core fresh rows (rows ++ [x]) := by
  intro y hy
  rcases List.mem_append.mp hy with hold | hnew
  · exact .inl ⟨y, hold, rfl, rfl⟩
  · obtain rfl := List.mem_singleton.mp hnew
    exact .inr h

/-- A statement that rewrites every row, but neither its number nor its core. -/
theorem stems_map {f : ρ → ρ} (h : ∀ x ∈ rows, id (f x) = id x ∧ core (f x) = core x) :
    Stems id core fresh rows (rows.map f) := by
  intro y hy
  obtain ⟨x, hx, rfl⟩ := List.mem_map.mp hy
  exact .inl ⟨x, hx, (h x hx).1.symm, (h x hx).2.symm⟩

theorem stems_updateWhere [DecidableEq κ] {col : ρ → Option κ} {k : κ} {f : ρ → ρ}
    (h : ∀ x ∈ rows, id (f x) = id x ∧ core (f x) = core x) :
    Stems id core fresh rows (updateWhere col k f rows) := by
  refine stems_map fun x hx => ?_
  split
  · exact h x hx
  · exact ⟨rfl, rfl⟩

/-! ## Runs -/

theorem descends_refl (low : Int) (rows : List ρ) : Descends id core low rows rows :=
  fun x hx _ => ⟨x, hx, rfl, rfl⟩

/-- Another statement, whose numbers are not among the old ones. -/
theorem Descends.stems (h : Descends id core low rows rows')
    (hstems : Stems id core fresh rows' rows'') (hfresh : ∀ i, fresh i → low ≤ i) :
    Descends id core low rows rows'' := by
  intro x'' hx'' hlow
  rcases hstems x'' hx'' with ⟨x', hx', hid, hcore⟩ | hnew
  · obtain ⟨x, hx, hid', hcore'⟩ := h x' hx' (by omega)
    exact ⟨x, hx, hid'.trans hid, hcore'.trans hcore⟩
  · have hge := hfresh _ hnew
    omega

/-- **A row is the row of its number**: what never changes is still there. -/
theorem Descends.same_core (h : Descends id core low rows rows')
    (hunique : UniqueCol (fun x => some (id x)) rows) {x x' : ρ} (hx : x ∈ rows)
    (hlow : id x < low) (hx' : x' ∈ rows') (hid : id x' = id x) : core x' = core x := by
  obtain ⟨y, hy, hyid, hycore⟩ := h x' hx' (by omega)
  have hsame : y = x :=
    eq_of_uniqueCol hunique hy hx (congrArg some (hyid.trans hid)) rfl
  rw [← hycore, hsame]

/-- The sequence stays past every number there is. -/
theorem Stems.below {next next' : Int} (h : Stems id core fresh rows rows')
    (hbelow : ∀ x ∈ rows, id x < next) (hforward : next ≤ next')
    (hfresh : ∀ i, fresh i → i < next') : ∀ x ∈ rows', id x < next' := by
  intro x' hx'
  rcases h x' hx' with ⟨x, hx, hid, -⟩ | hnew
  · have hlt := hbelow x hx
    omega
  · exact hfresh _ hnew

end SarkariWorld.Lib
