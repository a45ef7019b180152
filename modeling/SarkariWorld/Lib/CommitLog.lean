import Mathlib.Data.List.Induction
import SarkariWorld.Lib.Interleaving

/-!
# The log of commits

What a server stores is what its commits have made of it. `exec_logged` says of each of them
whose it was and that it is justified. `last_write` reads one value off the log: it is as it
was at the start, or as the last commit to write it has left it.

The log is a ghost of the server, which no program reads. It is what makes a statement
about the past of a value possible: the commits before the last write of it, and those
after, are parts of one list.
-/

namespace SarkariWorld.Lib

variable {ρ δ ω ε κ φ α β : Type}

/-! ## Whose commits they are -/

theorem Thread.Justified.imp {J J' : List (δ × Nat) → ω → Prop} {t : Thread δ ω ε α}
    {seen : List (δ × Nat)} (h : t.Justified J seen) (himp : ∀ seen w, J seen w → J' seen w) :
    t.Justified J' seen := by
  induction t generalizing seen with
  | done result => trivial
  | ask next ih => exact fun d clock => ih d clock (h d clock)
  | commit write next ih => exact ⟨himp seen write h.1, fun receipt => ih receipt (h.2 receipt)⟩

section Logged

variable [DecidableEq κ] {store : Store δ ω ε κ φ} {program : ρ → Thread δ ω ε α}
  {J : ρ → List (δ × Nat) → ω → Prop} {s₀ s : Server ρ δ ω ε κ α} {as : List (Move ρ φ)}

/-- The commit was made by a request of the run, and is justified by what it had read. -/
def Logged (store : Store δ ω ε κ φ) (program : ρ → Thread δ ω ε α)
    (J : ρ → List (δ × Nat) → ω → Prop) (s₀ : Server ρ δ ω ε κ α) (as : List (Move ρ φ))
    (entry : Entry ω) : Prop :=
  ∃ request seen, Move.start entry.request request ∈ as ∧ SeenIn store program s₀ as seen ∧
    J request seen entry.write

/-- An entry that is accounted for remains so in a longer run. -/
theorem Logged.snoc {entry : Entry ω} {a : Move ρ φ} (h : Logged store program J s₀ as entry) :
    Logged store program J s₀ (as ++ [a]) entry := by
  obtain ⟨request, seen, hstart, hseen, hJ⟩ := h
  exact ⟨request, seen, List.mem_append_left _ hstart, seenIn_snoc hseen, hJ⟩

/-- **Every commit is somebody's**, and justified. -/
theorem exec_logged (hJ : ∀ request, (program request).Justified (J request) [])
    (h₀ : s₀.Fresh) (h : exec (move store program) s₀ as = some s) :
    ∀ entry ∈ s.log, Logged store program J s₀ as entry := by
  let I : List (Move ρ φ) → Server ρ δ ω ε κ α → Prop := fun as s =>
    exec (move store program) s₀ as = some s ∧ ∀ entry ∈ s.log, Logged store program J s₀ as entry
  have hstep : ∀ as s a s', I as s → move store program s a = some s' → I (as ++ [a]) s' := by
    intro as s a s' hI hmove
    refine ⟨exec_snoc_some.mpr ⟨s, hI.1, hmove⟩, fun entry hentry => ?_⟩
    -- an entry that was there keeps its reason when the run grows
    have hold : entry ∈ s.log → Logged store program J s₀ (as ++ [a]) entry := fun hmem =>
      (hI.2 entry hmem).snoc
    cases move_moved hmove with
    | commit r number request write next stored hslot hnumbers happly =>
      rcases List.mem_append.mp hentry with hmem | hnew
      · exact hold hmem
      · obtain rfl := List.mem_singleton.mp hnew
        -- the only move that writes into the log
        obtain ⟨seen, hseen, hjustified⟩ := exec_justified hJ h₀ hI.1 hslot
        exact ⟨request, seen, List.mem_append_left _ (exec_started h₀ hI.1 hslot),
          seenIn_snoc hseen, hjustified⟩
    | start r request hslot => exact hold hentry
    | finish r number request result hslot => exact hold hentry
    | ask r number request next hslot => exact hold hentry
    | refused r number request write next e hslot happly => exact hold hentry
    | fail r fault request thread hslot => exact hold hentry
    | tick microseconds => exact hold hentry
  have hI : I as s := by
    refine exec_hist hstep ⟨rfl, fun entry hentry => ?_⟩ h
    rw [h₀.log] at hentry
    exact absurd hentry List.not_mem_nil
  exact hI.2

end Logged

/-! ## One value -/

/-- The value is what a step of the log wrote, and no later step has written it. -/
def LastWritten (touches : ω → Prop) (writes : ω → β → Prop) (log : List ω) (v : β) : Prop :=
  ∃ pre step post, log = pre ++ step :: post ∧ touches step ∧ writes step v ∧
    ∀ later ∈ post, ¬ touches later

/-- **The last writer wins**: a value that every step leaves alone or writes is the one of
the last step to write it, if there was one. -/
theorem last_write {apply : δ → ω → Except ε δ} {holds : δ → β → Prop} {touches : ω → Prop}
    {writes : ω → β → Prop} (hstep : ∀ d step d' v, apply d step = .ok d' → holds d' v →
      ¬ touches step ∧ holds d v ∨ touches step ∧ writes step v) {log : List ω} {d d' : δ} {v : β}
    (h : log.foldlM apply d = .ok d') (hv : holds d' v) :
    (∀ step ∈ log, ¬ touches step) ∧ holds d v ∨ LastWritten touches writes log v := by
  induction log using List.reverseRecOn generalizing d' v with
  | nil =>
    obtain rfl := Except.ok.inj h
    exact .inl ⟨fun step hmem => absurd hmem List.not_mem_nil, hv⟩
  | append_singleton log step ih =>
    rw [List.foldlM_append] at h
    obtain ⟨m, hm, hlast⟩ := bind_eq_ok.mp h
    rw [List.foldlM_cons] at hlast
    obtain ⟨d₁, happly, hend⟩ := bind_eq_ok.mp hlast
    obtain rfl := Except.ok.inj hend
    -- either the last step left the value, and the steps before it decide, or it wrote it
    rcases hstep m step d₁ v happly hv with ⟨hleft, hbefore⟩ | ⟨htouches, hwrites⟩
    · rcases ih hm hbefore with ⟨hnever, hstart⟩ | ⟨pre, last, post, rfl, htouches, hwrites, hlater⟩
      · refine .inl ⟨fun e he => ?_, hstart⟩
        rcases List.mem_append.mp he with hold | hnew
        · exact hnever e hold
        · rwa [List.mem_singleton.mp hnew]
      · refine .inr ⟨pre, last, post ++ [step], by simp, htouches, hwrites, fun e he => ?_⟩
        rcases List.mem_append.mp he with hold | hnew
        · exact hlater e hold
        · rwa [List.mem_singleton.mp hnew]
    · exact .inr ⟨log, step, [], rfl, htouches, hwrites, fun e he => absurd he List.not_mem_nil⟩

end SarkariWorld.Lib
