/-!
# Sequential histories

A sequential object is given by `next`: what it answers to a call, and the state
the call leaves. `Legal` is a history of answered calls in which each call got
the object's answer, and calls that overlapped are `Linearizable` if some order
of them is a legal history.

Calls that each take effect at one moment, in the order in which they are
logged, are linearizable by `legal_snoc`: the log is the order.

The state at the end is part of both notions. A history accounts for what has been
answered and for what is stored, and a call that has changed the state without an answer
of its own is not covered by either.
-/

namespace SarkariWorld.Lib

variable {σ α β : Type}

/-- The calls of `hist`, one after another, lead from `s` to `s'`. -/
def Legal (next : σ → α → β × σ) : σ → List (α × β) → σ → Prop
  | s, [], s' => s = s'
  | s, (call, answer) :: hist, s' => (next s call).1 = answer ∧ Legal next (next s call).2 hist s'

/-- Some order of the answered calls is a legal history. -/
def Linearizable (next : σ → α → β × σ) (s : σ) (calls : List (α × β)) (s' : σ) : Prop :=
  ∃ hist, hist.Perm calls ∧ Legal next s hist s'

variable {next : σ → α → β × σ} {s m s' : σ}

/-- The last call of a legal history. -/
theorem legal_snoc {hist : List (α × β)} {call : α} {answer : β} (h : Legal next s hist m)
    (hanswer : (next m call).1 = answer) (hstate : (next m call).2 = s') :
    Legal next s (hist ++ [(call, answer)]) s' := by
  induction hist generalizing s with
  | nil =>
    obtain rfl := h
    exact ⟨hanswer, hstate⟩
  | cons entry hist ih => exact ⟨h.1, ih h.2⟩

/-- A legal history is its own linearization. -/
theorem linearizable_of_legal {hist : List (α × β)} (h : Legal next s hist s') :
    Linearizable next s hist s' := ⟨hist, List.Perm.refl hist, h⟩

end SarkariWorld.Lib
