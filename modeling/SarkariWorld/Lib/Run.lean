/-!
# Runs of a partial step function

The systems below are all given the same way: a state type `σ`, a type `α` of
actions, and `step : σ → α → Option σ`, which is `none` on an action that is
not enabled. A run is a list of actions; `exec` plays it, so a run can be
evaluated on concrete states as well as reasoned about.

Two induction rules carry every safety argument:

* `exec_inv`: an invariant preserved by each step that meets a side condition
  `P` holds after every run all of whose steps meet `P` (`AllSteps`);
* `exec_hist`: the same for an invariant that also speaks of the actions taken
  so far.
-/

namespace SarkariWorld.Lib

variable {σ α : Type}

/-- Play a list of actions, stopping with `none` at the first one that is not
enabled. -/
def exec (step : σ → α → Option σ) : σ → List α → Option σ
  | s, [] => some s
  | s, a :: as => (step s a).bind fun s' => exec step s' as

/-- Every action of the run meets `P` in the state it is taken in. -/
def AllSteps (step : σ → α → Option σ) (P : σ → α → Prop) : σ → List α → Prop
  | _, [] => True
  | s, a :: as => P s a ∧ ∀ s', step s a = some s' → AllSteps step P s' as

variable {step : σ → α → Option σ} {P : σ → α → Prop}

/-- On a concrete run, a side condition that can be decided is decided by playing
the run. -/
instance decidableAllSteps [∀ s a, Decidable (P s a)] :
    (s : σ) → (as : List α) → Decidable (AllSteps step P s as)
  | _, [] => .isTrue trivial
  | s, a :: as =>
    match hstep : step s a with
    | none => decidable_of_iff (P s a)
        ⟨fun h => ⟨h, fun s' hs' => by rw [hstep] at hs'; cases hs'⟩, And.left⟩
    | some m =>
      haveI := decidableAllSteps m as
      decidable_of_iff (P s a ∧ AllSteps step P m as)
        ⟨fun h => ⟨h.1, fun s' hs' => by rw [hstep] at hs'; exact Option.some.inj hs' ▸ h.2⟩,
          fun h => ⟨h.1, h.2 m hstep⟩⟩

/-- A run evaluated through a test of its last state. -/
theorem exec_of_test {s : σ} {as : List α} {test : σ → Bool} {b : Bool}
    (h : (exec step s as).map test = some b) : ∃ s', exec step s as = some s' ∧ test s' = b :=
  Option.map_eq_some_iff.mp h

@[simp] theorem exec_nil (s : σ) : exec step s [] = some s := rfl

theorem exec_cons_some {s s' : σ} {a : α} {as : List α} :
    exec step s (a :: as) = some s' ↔
      ∃ m, step s a = some m ∧ exec step m as = some s' := by
  simp [exec, Option.bind_eq_some_iff]

/-- A run splits at any point. -/
theorem exec_append_some {s s' : σ} {as bs : List α} :
    exec step s (as ++ bs) = some s' ↔
      ∃ m, exec step s as = some m ∧ exec step m bs = some s' := by
  induction as generalizing s with
  | nil => simp
  | cons a as ih =>
    rw [List.cons_append, exec_cons_some]
    constructor
    · rintro ⟨m, ha, hrest⟩
      obtain ⟨m', has, hbs⟩ := ih.mp hrest
      exact ⟨m', exec_cons_some.mpr ⟨m, ha, has⟩, hbs⟩
    · rintro ⟨m', hcons, hbs⟩
      obtain ⟨m, ha, has⟩ := exec_cons_some.mp hcons
      exact ⟨m, ha, ih.mpr ⟨m', has, hbs⟩⟩

/-- The last action of a run. -/
theorem exec_snoc_some {s s' : σ} {as : List α} {a : α} :
    exec step s (as ++ [a]) = some s' ↔
      ∃ m, exec step s as = some m ∧ step m a = some s' := by
  rw [exec_append_some]
  constructor
  · rintro ⟨m, has, ha⟩
    obtain ⟨m', hstep, hnil⟩ := exec_cons_some.mp ha
    rw [exec_nil, Option.some.injEq] at hnil
    exact ⟨m, has, hnil ▸ hstep⟩
  · rintro ⟨m, has, ha⟩
    exact ⟨m, has, exec_cons_some.mpr ⟨s', ha, rfl⟩⟩

theorem allSteps_cons {s m : σ} {a : α} {as : List α}
    (h : AllSteps step P s (a :: as)) (ha : step s a = some m) : AllSteps step P m as :=
  h.2 m ha

/-- The side condition of a run's second half, read off the whole run. -/
theorem allSteps_right {s m : σ} {as bs : List α}
    (h : AllSteps step P s (as ++ bs)) (has : exec step s as = some m) :
    AllSteps step P m bs := by
  induction as generalizing s with
  | nil =>
    rw [exec_nil, Option.some.injEq] at has
    exact has ▸ h
  | cons a as ih =>
    obtain ⟨m', ha, hrest⟩ := exec_cons_some.mp has
    exact ih (allSteps_cons h ha) hrest

theorem allSteps_left {s : σ} {as bs : List α}
    (h : AllSteps step P s (as ++ bs)) : AllSteps step P s as := by
  induction as generalizing s with
  | nil => trivial
  | cons a as ih => exact ⟨h.1, fun m ha => ih (h.2 m ha)⟩

/-- A side condition on the actions alone. -/
theorem allSteps_of_forall {P : α → Prop} {s : σ} {as : List α} (h : ∀ a ∈ as, P a) :
    AllSteps step (fun _ a => P a) s as := by
  induction as generalizing s with
  | nil => trivial
  | cons a as ih =>
    rw [List.forall_mem_cons] at h
    exact ⟨h.1, fun m _ => ih h.2⟩

/-- A weaker side condition. -/
theorem allSteps_mono {Q : σ → α → Prop} (hpq : ∀ s a, P s a → Q s a) {s : σ} {as : List α}
    (h : AllSteps step P s as) : AllSteps step Q s as := by
  induction as generalizing s with
  | nil => trivial
  | cons a as ih => exact ⟨hpq s a h.1, fun m ha => ih (h.2 m ha)⟩

/-- Two side conditions of one run. -/
theorem allSteps_and {Q : σ → α → Prop} {s : σ} {as : List α} (hp : AllSteps step P s as)
    (hq : AllSteps step Q s as) : AllSteps step (fun s a => P s a ∧ Q s a) s as := by
  induction as generalizing s with
  | nil => trivial
  | cons a as ih => exact ⟨⟨hp.1, hq.1⟩, fun m ha => ih (hp.2 m ha) (hq.2 m ha)⟩

/-- `AllSteps` says what its name says: the condition holds at every position
of the run that is reached. -/
theorem allSteps_iff {s : σ} {as : List α} :
    AllSteps step P s as ↔
      ∀ pre a post m, as = pre ++ a :: post → exec step s pre = some m → P m a := by
  constructor
  · rintro h pre a post m rfl hpre
    exact (allSteps_right h hpre).1
  · intro h
    induction as generalizing s with
    | nil => trivial
    | cons a as ih =>
      refine ⟨h [] a as s rfl rfl, fun m ha => ih ?_⟩
      rintro pre b post m' rfl hpre
      exact h (a :: pre) b post m' rfl (exec_cons_some.mpr ⟨m, ha, hpre⟩)

/-- **The invariant rule.** -/
theorem exec_inv {I : σ → Prop}
    (hstep : ∀ s a s', P s a → I s → step s a = some s' → I s')
    {as : List α} {s s' : σ} (hall : AllSteps step P s as) (h₀ : I s)
    (h : exec step s as = some s') : I s' := by
  induction as generalizing s with
  | nil =>
    rw [exec_nil, Option.some.injEq] at h
    exact h ▸ h₀
  | cons a as ih =>
    obtain ⟨m, ha, hrest⟩ := exec_cons_some.mp h
    exact ih (allSteps_cons hall ha) (hstep s a m hall.1 h₀ ha) hrest

/-- The invariant rule for steps that need no side condition. -/
theorem exec_inv_of_step {I : σ → Prop}
    (hstep : ∀ s a s', I s → step s a = some s' → I s')
    {as : List α} {s s' : σ} (h₀ : I s) (h : exec step s as = some s') : I s' := by
  induction as generalizing s with
  | nil =>
    rw [exec_nil, Option.some.injEq] at h
    exact h ▸ h₀
  | cons a as ih =>
    obtain ⟨m, ha, hrest⟩ := exec_cons_some.mp h
    exact ih (hstep s a m h₀ ha) hrest

/-- The invariant rule for an invariant of the state *and* of the actions that
led to it. -/
theorem exec_hist {I : List α → σ → Prop}
    (hstep : ∀ as s a s', I as s → step s a = some s' → I (as ++ [a]) s')
    {s₀ s : σ} {as : List α} (h₀ : I [] s₀) (h : exec step s₀ as = some s) : I as s := by
  suffices hgen : ∀ (bs pre : List α) (m : σ), I pre m → exec step m bs = some s →
      I (pre ++ bs) s from hgen as [] s₀ h₀ h
  intro bs
  induction bs with
  | nil =>
    intro pre m hI hm
    rw [exec_nil, Option.some.injEq] at hm
    rw [List.append_nil]
    exact hm ▸ hI
  | cons b bs ih =>
    intro pre m hI hm
    obtain ⟨m', hb, hrest⟩ := exec_cons_some.mp hm
    rw [List.append_cons]
    exact ih (pre ++ [b]) m' (hstep pre m b m' hI hb) hrest

end SarkariWorld.Lib
