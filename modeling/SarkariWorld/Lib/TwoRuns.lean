import SarkariWorld.Lib.UnitOfWork

/-!
# Two runs of a program

What somebody can learn from a program is what differs between two of its runs. `Alike`
compares them from the outside, by what they answer and by what they leave stored, as far as
a relation `R` between databases tells it. A proof follows the two programs side by side:
they may differ in what they read, as long as the difference is one that `R` does not see.

The faults are the same on both sides, as they are the environment's. What the two
programs stage may differ, and is compared when it is committed: then the two databases
have to be alike again.
-/

namespace SarkariWorld.Lib

open Program

variable {δ ω ε α β γ : Type}

/-- Both return, something related, or both raise the same. -/
inductive Agrees (Q : α → β → Prop) : Except ε α → Except ε β → Prop where
  | ok {a : α} {b : β} (h : Q a b) : Agrees Q (.ok a) (.ok b)
  | error (e : ε) : Agrees Q (.error e) (.error e)

section Agrees

variable {Q : α → β → Prop} {x : Except ε α} {y : Except ε β}

/-- The same result, of which more may be known. -/
theorem agrees_of_eq {Q : α → α → Prop} {x y : Except ε α} (h : x = y)
    (hok : ∀ a, x = .ok a → Q a a) : Agrees Q x y := by
  subst h
  cases x with
  | error e => exact .error e
  | ok a => exact .ok (hok a rfl)

theorem Agrees.mapError {ε' : Type} (f : ε → ε') (h : Agrees Q x y) :
    Agrees Q (x.mapError f) (y.mapError f) := by
  cases h with
  | ok h => exact .ok h
  | error e => exact .error (f e)

theorem Agrees.bind {α' β' : Type} {Q' : α' → β' → Prop} {f : α → Except ε α'}
    {g : β → Except ε β'} (h : Agrees Q x y) (hbind : ∀ a b, Q a b → Agrees Q' (f a) (g b)) :
    Agrees Q' (x >>= f) (y >>= g) := by
  cases h with
  | ok h => exact hbind _ _ h
  | error e => exact .error e

/-- Where results agree exactly if they are equal, the computations do. -/
theorem Agrees.eq {x y : Except ε α} (h : Agrees Eq x y) : x = y := by
  cases h with
  | ok h => rw [h]
  | error e => rfl

end Agrees

/-- From these two sessions, the programs give the same answer and leave databases that `R`
relates. -/
structure Alike (R : δ → δ → Prop) (p q : Program δ ω ε α) (s t : Session δ ω ε) : Prop where
  answer : (p.run s).1 = (q.run t).1
  stored : R (p.run s).2.stored (q.run t).2.stored

section Alike

variable {R : δ → δ → Prop} {s t : Session δ ω ε}

theorem alike_pure (a : α) (h : R s.stored t.stored) :
    Alike R (pure a : Program δ ω ε α) (pure a) s t := ⟨rfl, h⟩

theorem alike_raise (e : ε) (h : R s.stored t.stored) :
    Alike R (raise e : Program δ ω ε α) (raise e) s t := ⟨rfl, h⟩

/-- The same raised error ends both. -/
theorem alike_bind_error {p : Program δ ω ε α} {q : Program δ ω ε γ} {f : α → Program δ ω ε β}
    {g : γ → Program δ ω ε β} {e : ε} {s' t' : Session δ ω ε}
    (hp : p.run s = (.error e, s')) (hq : q.run t = (.error e, t'))
    (h : R s'.stored t'.stored) : Alike R (p >>= f) (q >>= g) s t := by
  constructor
  · rw [run_bind_error hp, run_bind_error hq]
  · rw [run_bind_error hp, run_bind_error hq]
    exact h

/-- Both go on. -/
theorem alike_bind_ok {p : Program δ ω ε α} {q : Program δ ω ε γ} {f : α → Program δ ω ε β}
    {g : γ → Program δ ω ε β} {a : α} {c : γ} {s' t' : Session δ ω ε}
    (hp : p.run s = (.ok a, s')) (hq : q.run t = (.ok c, t')) (h : Alike R (f a) (g c) s' t') :
    Alike R (p >>= f) (q >>= g) s t := by
  constructor
  · rw [run_bind_ok hp, run_bind_ok hq]
    exact h.answer
  · rw [run_bind_ok hp, run_bind_ok hq]
    exact h.stored

/-- An exchange with the same fault ahead of both, or with none. -/
theorem alike_exchange {Q : α → γ → Session δ ω ε → Session δ ω ε → Prop}
    {action : Session δ ω ε → Except ε α × Session δ ω ε}
    {action' : Session δ ω ε → Except ε γ × Session δ ω ε}
    {f : α → Program δ ω ε β} {g : γ → Program δ ω ε β}
    (hfaults : s.faults = t.faults) (hstored : R s.stored t.stored)
    (haction : ∀ rest,
      (∃ a c s' t', action { s with faults := rest } = (.ok a, s') ∧
        action' { t with faults := rest } = (.ok c, t') ∧ Q a c s' t') ∨
      ∃ e, action { s with faults := rest } = (.error e, { s with faults := rest }) ∧
        action' { t with faults := rest } = (.error e, { t with faults := rest }))
    (h : ∀ a c s' t', Q a c s' t' → Alike R (f a) (g c) s' t') :
    Alike R (exchange action >>= f) (exchange action' >>= g) s t := by
  obtain ⟨stored, tx, pending, commits, faults⟩ := s
  obtain ⟨stored', tx', pending', commits', faults'⟩ := t
  obtain rfl : faults = faults' := hfaults
  have hgo : ∀ rest, (exchange action).run ⟨stored, tx, pending, commits, faults⟩ =
        action ⟨stored, tx, pending, commits, rest⟩ →
      (exchange action').run ⟨stored', tx', pending', commits', faults⟩ =
        action' ⟨stored', tx', pending', commits', rest⟩ →
      Alike R (exchange action >>= f) (exchange action' >>= g)
        ⟨stored, tx, pending, commits, faults⟩ ⟨stored', tx', pending', commits', faults⟩ := by
    intro rest hp hq
    rcases haction rest with ⟨a, c, s', t', ha, hc, hQ⟩ | ⟨e, ha, hc⟩
    · exact alike_bind_ok (hp.trans ha) (hq.trans hc) (h a c s' t' hQ)
    · refine alike_bind_error (hp.trans ha) (hq.trans hc) ?_
      exact hstored
  -- the fault that strikes, if one does, strikes both exchanges
  cases faults with
  | nil => exact hgo [] rfl rfl
  | cons fault rest =>
    cases fault with
    | none => exact hgo rest rfl rfl
    | some e =>
      have hfirst : (exchange action).run ⟨stored, tx, pending, commits, some e :: rest⟩ =
        (.error e, ⟨stored, tx, pending, commits, rest⟩) := rfl
      have hsecond : (exchange action').run ⟨stored', tx', pending', commits', some e :: rest⟩ =
        (.error e, ⟨stored', tx', pending', commits', rest⟩) := rfl
      exact alike_bind_error hfirst hsecond hstored

/-- Both read, and what they read is related. -/
theorem alike_read {Q : α → γ → Prop} {query : δ → Except ε α} {query' : δ → Except ε γ}
    {f : α → Program δ ω ε β} {g : γ → Program δ ω ε β} (hfaults : s.faults = t.faults)
    (hstored : R s.stored t.stored) (hquery : Agrees Q (query s.tx) (query' t.tx))
    (h : ∀ a c rest, Q a c →
      Alike R (f a) (g c) { s with faults := rest } { t with faults := rest }) :
    Alike R (read query >>= f) (read query' >>= g) s t := by
  refine alike_exchange (Q := fun a c s' t' => Q a c ∧
    ∃ rest, s' = { s with faults := rest } ∧ t' = { t with faults := rest }) hfaults hstored
    (fun rest => ?_) fun a c s' t' ⟨hQ, rest, hs, ht⟩ => ?_
  · generalize hx : query s.tx = x at hquery
    generalize hy : query' t.tx = y at hquery
    cases hquery with
    | ok hQ => exact .inl ⟨_, _, _, _, by simp only, by simp only, hQ, rest, rfl, rfl⟩
    | error e => exact .inr ⟨e, by simp only, by simp only⟩
  · rw [hs, ht]
    exact h a c rest hQ

/-- Both commit, and `R` relates what becomes of the databases. -/
theorem alike_commit {apply apply' : δ → ω → Except ε δ} {f g : Unit → Program δ ω ε β}
    (hfaults : s.faults = t.faults) (hstored : R s.stored t.stored)
    (hflush : Agrees R (s.pending.foldlM apply s.tx) (t.pending.foldlM apply' t.tx))
    (h : ∀ d d' rest, R d d' → Alike R (f ()) (g ()) ⟨d, d, [], s.commits + 1, rest⟩
      ⟨d', d', [], t.commits + 1, rest⟩) :
    Alike R (commit apply >>= f) (commit apply' >>= g) s t := by
  refine alike_exchange (Q := fun _ _ s' t' => ∃ d d' rest, R d d' ∧
    s' = ⟨d, d, [], s.commits + 1, rest⟩ ∧ t' = ⟨d', d', [], t.commits + 1, rest⟩) hfaults hstored
    (fun rest => ?_) fun _ _ s' t' ⟨d, d', rest, hR, hs, ht⟩ => ?_
  · generalize hx : s.pending.foldlM apply s.tx = x at hflush
    generalize hy : t.pending.foldlM apply' t.tx = y at hflush
    cases hflush with
    | ok hR =>
      exact .inl ⟨(), (), _, _, by simp only, by simp only, _, _, rest, hR, rfl, rfl⟩
    | error e => exact .inr ⟨e, by simp only, by simp only⟩
  · rw [hs, ht]
    exact h d d' rest hR

theorem alike_stage {write write' : ω} {f g : Unit → Program δ ω ε β}
    (h : Alike R (f ()) (g ()) { s with pending := s.pending ++ [write] }
      { t with pending := t.pending ++ [write'] }) :
    Alike R (stage write >>= f) (stage write' >>= g) s t := alike_bind_ok rfl rfl h

/-- A unit of work of one change. -/
theorem alike_save {apply apply' : δ → ω → Except ε δ} {write write' : ω}
    {f g : Unit → Program δ ω ε β} (hfaults : s.faults = t.faults)
    (hstored : R s.stored t.stored) (hclean : s.pending = []) (hclean' : t.pending = [])
    (hflush : Agrees R (apply s.tx write) (apply' t.tx write'))
    (h : ∀ d d' rest, R d d' → Alike R (f ()) (g ()) ⟨d, d, [], s.commits + 1, rest⟩
      ⟨d', d', [], t.commits + 1, rest⟩) :
    Alike R (stage write >>= fun _ => commit apply >>= f)
      (stage write' >>= fun _ => commit apply' >>= g) s t := by
  refine alike_stage (alike_commit hfaults hstored ?_ h)
  simpa only [hclean, hclean', List.nil_append, List.foldlM_cons, List.foldlM_nil, bind_pure]
    using hflush

end Alike

end SarkariWorld.Lib
