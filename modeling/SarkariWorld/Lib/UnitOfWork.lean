import SarkariWorld.Lib.Result

/-!
# Units of work

A request handler is a program over a database session. Objects it adds, changes
or deletes are staged; a commit flushes them into the open transaction and makes
the transaction's state the stored one. Whatever is not committed when the
program ends is rolled back. Any exchange with the database may fail for reasons
of its own: a session begins with the faults it is going to meet.

`Transacts d p post` is what a handler should satisfy on the database `d`,
whatever the faults: if it ends before its commit, it raised and nothing is
stored; otherwise it committed once, has left nothing to be rolled back, `post`
holds of what is stored, and only a fault can have raised after that. A proof
follows the program: `transacts_read` passes over a query, and `transacts_commit`
handles the one commit.
-/

namespace SarkariWorld.Lib

/-- A session over databases `δ`, with objects to be flushed in `ω`. -/
structure Session (δ ω ε : Type) where
  stored : δ
  /-- What the open transaction sees. -/
  tx : δ
  pending : List ω
  commits : Nat
  /-- What goes wrong at each of the coming exchanges with the database. -/
  faults : List (Option ε)

variable {δ ω ε α β : Type}

/-- The session a request begins with. -/
def Session.begin (d : δ) (faults : List (Option ε)) : Session δ ω ε := ⟨d, d, [], 0, faults⟩

/-- Ending the session here rolls nothing back. -/
def Session.Settled (s : Session δ ω ε) : Prop := s.pending = [] ∧ s.tx = s.stored

/-- A program returns or raises, and leaves the session in some state. -/
structure Program (δ ω ε α : Type) where
  run : Session δ ω ε → Except ε α × Session δ ω ε

namespace Program

/-- Go on with the result, unless there is none. -/
def andThen (p : Program δ ω ε α) (f : α → Program δ ω ε β) : Program δ ω ε β where
  run s :=
    match p.run s with
    | (.ok a, s') => (f a).run s'
    | (.error e, s') => (.error e, s')

instance : Monad (Program δ ω ε) where
  pure a := ⟨fun s => (.ok a, s)⟩
  bind := andThen

/-- `raise`. -/
def raise (e : ε) : Program δ ω ε α := ⟨fun s => (.error e, s)⟩

/-- `session.add`, `session.delete`, or a change of a loaded object. -/
def stage (write : ω) : Program δ ω ε Unit :=
  ⟨fun s => (.ok (), { s with pending := s.pending ++ [write] })⟩

/-- An exchange with the database, unless a fault is due. -/
def exchange (action : Session δ ω ε → Except ε α × Session δ ω ε) : Program δ ω ε α where
  run s :=
    match s.faults with
    | [] => action s
    | none :: rest => action { s with faults := rest }
    | some e :: rest => (.error e, { s with faults := rest })

/-- A query. -/
def read (query : δ → Except ε α) : Program δ ω ε α := exchange fun s => (query s.tx, s)

/-- A statement that is sent at once, and how many rows it matched. -/
def execute (apply : δ → ω → Except ε δ) (rowcount : δ → Nat) (write : ω) : Program δ ω ε Nat :=
  exchange fun s =>
    match apply s.tx write with
    | .ok tx => (.ok (rowcount s.tx), { s with tx := tx })
    | .error e => (.error e, s)

/-- `session.commit()`. -/
def commit (apply : δ → ω → Except ε δ) : Program δ ω ε Unit :=
  exchange fun s =>
    match s.pending.foldlM apply s.tx with
    | .ok tx =>
      (.ok (), { s with stored := tx, tx := tx, pending := [], commits := s.commits + 1 })
    | .error e => (.error e, s)

variable {p : Program δ ω ε α} {f : α → Program δ ω ε β} {s s' : Session δ ω ε}

theorem run_bind_ok {a : α} (h : p.run s = (.ok a, s')) : (p >>= f).run s = (f a).run s' := by
  show (andThen p f).run s = _
  simp only [andThen, h]

/-- An error ends it, and the session is as it was then. -/
theorem run_bind_error {e : ε} (h : p.run s = (.error e, s')) :
    (p >>= f).run s = (.error e, s') := by
  show (andThen p f).run s = _
  simp only [andThen, h]

theorem bind_bind {γ : Type} (p : Program δ ω ε α) (f : α → Program δ ω ε β)
    (g : β → Program δ ω ε γ) : ((p >>= f) >>= g) = (p >>= fun a => f a >>= g) := by
  refine congrArg Program.mk (funext fun s => ?_)
  show ((p >>= f) >>= g).run s = (p >>= fun a => f a >>= g).run s
  cases hp : p.run s with
  | mk result s₁ =>
    cases result with
    | error e => rw [run_bind_error (run_bind_error hp), run_bind_error hp]
    | ok a =>
      rw [run_bind_ok hp]
      cases hf : (f a).run s₁ with
      | mk result s₂ =>
        cases result with
        | error e => rw [run_bind_error ((run_bind_ok hp).trans hf), run_bind_error hf]
        | ok b => rw [run_bind_ok ((run_bind_ok hp).trans hf), run_bind_ok hf]

/-- An exchange takes place with fewer faults ahead, or meets one. -/
theorem run_exchange (action : Session δ ω ε → Except ε α × Session δ ω ε) (s : Session δ ω ε) :
    (∃ rest, rest <:+ s.faults ∧ (exchange action).run s = action { s with faults := rest }) ∨
      ∃ e rest, some e ∈ s.faults ∧
        (exchange action).run s = (.error e, { s with faults := rest }) := by
  obtain ⟨stored, tx, pending, commits, faults⟩ := s
  cases faults with
  | nil => exact .inl ⟨[], List.suffix_refl [], rfl⟩
  | cons fault rest =>
    cases fault with
    | none => exact .inl ⟨rest, List.suffix_cons none rest, rfl⟩
    | some e => exact .inr ⟨e, rest, List.mem_cons_self .., rfl⟩

/-- A query answers or raises, and leaves the session alone. -/
theorem run_read (query : δ → Except ε α) (s : Session δ ω ε) :
    (∃ a rest, query s.tx = .ok a ∧ rest <:+ s.faults ∧
        (read query).run s = (.ok a, { s with faults := rest })) ∨
      ∃ e rest, (query s.tx = .error e ∨ some e ∈ s.faults) ∧
        (read query).run s = (.error e, { s with faults := rest }) := by
  rcases run_exchange _ s with ⟨rest, hrest, hrun⟩ | ⟨e, rest, he, hrun⟩
  · cases hquery : query s.tx with
    | ok a => exact .inl ⟨a, rest, rfl, hrest, hrun.trans (by simp only [hquery])⟩
    | error e => exact .inr ⟨e, rest, .inl rfl, hrun.trans (by simp only [hquery])⟩
  · exact .inr ⟨e, rest, .inr he, hrun⟩

/-- A statement changes the transaction, or nothing. -/
theorem run_execute (apply : δ → ω → Except ε δ) (rowcount : δ → Nat) (write : ω)
    (s : Session δ ω ε) :
    (∃ tx rest, apply s.tx write = .ok tx ∧ rest <:+ s.faults ∧
        (execute apply rowcount write).run s =
          (.ok (rowcount s.tx), { s with tx := tx, faults := rest })) ∨
      ∃ e rest, (execute apply rowcount write).run s = (.error e, { s with faults := rest }) := by
  rcases run_exchange _ s with ⟨rest, hrest, hrun⟩ | ⟨e, rest, -, hrun⟩
  · cases happly : apply s.tx write with
    | ok tx => exact .inl ⟨tx, rest, rfl, hrest, hrun.trans (by simp only [happly])⟩
    | error e => exact .inr ⟨e, rest, hrun.trans (by simp only [happly])⟩
  · exact .inr ⟨e, rest, hrun⟩

/-- A commit stores all that is pending, or nothing. -/
theorem run_commit (apply : δ → ω → Except ε δ) (s : Session δ ω ε) :
    (∃ tx rest, s.pending.foldlM apply s.tx = .ok tx ∧ rest <:+ s.faults ∧
        (commit apply).run s = (.ok (), ⟨tx, tx, [], s.commits + 1, rest⟩)) ∨
      ∃ e rest, (commit apply).run s = (.error e, { s with faults := rest }) := by
  rcases run_exchange _ s with ⟨rest, hrest, hrun⟩ | ⟨e, rest, -, hrun⟩
  · cases hflush : s.pending.foldlM apply s.tx with
    | ok tx => exact .inl ⟨tx, rest, rfl, hrest, hrun.trans (by simp only [hflush])⟩
    | error e => exact .inr ⟨e, rest, hrun.trans (by simp only [hflush])⟩
  · exact .inr ⟨e, rest, hrun⟩

/-- With no faults ahead, a query that answers is passed over. -/
theorem run_read_free {query : δ → Except ε α} {a : α} (hfree : s.faults = [])
    (h : query s.tx = .ok a) : (read query >>= f).run s = (f a).run s := by
  refine run_bind_ok ?_
  simp only [read, exchange, hfree, h]

end Program

open Program

/-! ## All or nothing -/

/-- Nothing has been done in the session yet. -/
def Session.Untouched (s : Session δ ω ε) (d : δ) : Prop :=
  s.stored = d ∧ s.tx = d ∧ s.pending = [] ∧ s.commits = 0

/-- A run ended before its commit, with an exception. -/
def Abandoned (d : δ) (result : Except ε α) (s : Session δ ω ε) : Prop :=
  (∃ e, result = .error e) ∧ s.commits = 0 ∧ s.stored = d

/-- A run committed once. If it did not return after that, it met a fault. -/
def Committed (faults : List (Option ε)) (post : δ → Prop) (result : Except ε α)
    (s : Session δ ω ε) : Prop :=
  s.commits = 1 ∧ s.Settled ∧ post s.stored ∧ ∀ e, result = .error e → some e ∈ faults

/-- All or nothing, in one commit. -/
def Transacts (d : δ) (p : Program δ ω ε α) (post : δ → Prop) : Prop :=
  ∀ s : Session δ ω ε, s.Untouched d →
    Abandoned d (p.run s).1 (p.run s).2 ∨ Committed s.faults post (p.run s).1 (p.run s).2

/-- A program that only reads the database `d`, and only what is there. -/
def Serves (d : δ) (p : Program δ ω ε α) : Prop :=
  ∀ s : Session δ ω ε, s.tx = d →
    (∃ rest, (p.run s).2 = { s with faults := rest }) ∧
      ∀ e, (p.run s).1 = .error e → some e ∈ s.faults

variable {apply : δ → ω → Except ε δ} {d : δ} {p : Program δ ω ε α} {post : δ → Prop}

theorem serves_pure (a : α) : Serves d (pure a : Program δ ω ε α) := by
  intro s _
  exact ⟨⟨s.faults, rfl⟩, fun e h => by cases h⟩

theorem serves_read {query : δ → Except ε α} {f : α → Program δ ω ε β} {a : α}
    (hquery : query d = .ok a) (hf : Serves d (f a)) : Serves d (read query >>= f) := by
  intro s hs
  rcases run_read query s with ⟨b, rest, hb, hrest, hrun⟩ | ⟨e, rest, he, hrun⟩
  · obtain rfl : b = a := by
      rw [hs, hquery] at hb
      exact (Except.ok.inj hb).symm
    rw [run_bind_ok hrun]
    obtain ⟨hquiet, herror⟩ := hf { s with faults := rest } hs
    exact ⟨hquiet, fun e he => hrest.subset (herror e he)⟩
  · rw [run_bind_error hrun]
    refine ⟨⟨rest, rfl⟩, fun e' he' => ?_⟩
    rcases he with he | he
    · rw [hs, hquery] at he
      cases he
    · exact Except.error.inj he' ▸ he

/-- Before its commit, a run may raise at any point. -/
theorem abandoned_of_error {s : Session δ ω ε} (hstored : s.stored = d) (hcommits : s.commits = 0)
    {e : ε} : Abandoned d (.error e : Except ε α) s := ⟨⟨e, rfl⟩, hcommits, hstored⟩

/-- A run that commits with fewer faults ahead. -/
theorem Committed.of_suffix {rest faults : List (Option ε)} (hrest : rest <:+ faults)
    {result : Except ε α} {s : Session δ ω ε} (h : Committed rest post result s) :
    Committed faults post result s :=
  ⟨h.1, h.2.1, h.2.2.1, fun e he => hrest.subset (h.2.2.2 e he)⟩

theorem transacts_raise (e : ε) : Transacts d (raise e : Program δ ω ε α) post :=
  fun _ hs => .inl (abandoned_of_error hs.1 hs.2.2.2)

/-- **Reading first.** What a query answered may be used in the rest. -/
theorem transacts_read {query : δ → Except ε α} {f : α → Program δ ω ε β}
    (hf : ∀ a, query d = .ok a → Transacts d (f a) post) : Transacts d (read query >>= f) post := by
  intro s hs
  rcases run_read query s with ⟨a, rest, ha, hrest, hrun⟩ | ⟨e, rest, -, hrun⟩
  · rw [run_bind_ok hrun]
    rw [hs.2.1] at ha
    exact (hf a ha { s with faults := rest } hs).imp id (Committed.of_suffix hrest)
  · rw [run_bind_error hrun]
    exact .inl (abandoned_of_error hs.1 hs.2.2.2)

/-! ## The commit -/

/-- What is to be flushed when the commit comes: `write` alone, on the untouched
database or in the transaction already. -/
def Due (apply : δ → ω → Except ε δ) (d : δ) (write : ω) (s : Session δ ω ε) : Prop :=
  s.stored = d ∧ s.commits = 0 ∧ s.pending.foldlM apply s.tx = apply d write

/-- **The one commit.** What follows it only reads. -/
theorem transacts_of_due {write : ω} {s : Session δ ω ε} (hdue : Due apply d write s)
    (hp : ∀ d', apply d write = .ok d' → Serves d' p ∧ post d')
    {q : Program δ ω ε α} (hq : q = (do commit apply; p)) :
    Abandoned d (q.run s).1 (q.run s).2 ∨ Committed s.faults post (q.run s).1 (q.run s).2 := by
  subst hq
  obtain ⟨hstored, hcommits, hflush⟩ := hdue
  rcases run_commit apply s with ⟨tx, rest, htx, hrest, hrun⟩ | ⟨e, rest, hrun⟩
  · obtain ⟨hserves, hpost⟩ := hp tx (hflush ▸ htx)
    obtain ⟨⟨rest', hquiet⟩, herror⟩ := hserves ⟨tx, tx, [], s.commits + 1, rest⟩ rfl
    rw [run_bind_ok hrun]
    refine .inr ⟨?_, ?_, ?_, fun e he => hrest.subset (herror e he)⟩
    · rw [hquiet, hcommits]
    · rw [hquiet]
      exact ⟨rfl, rfl⟩
    · rw [hquiet]
      exact hpost
  · rw [run_bind_error hrun]
    exact .inl (abandoned_of_error hstored hcommits)

/-- The commit of a staged write. -/
theorem transacts_commit {write : ω}
    (hp : ∀ d', apply d write = .ok d' → Serves d' p ∧ post d') :
    Transacts d (do stage write; commit apply; p) post := by
  intro s hs
  have hdue : Due apply d write { s with pending := s.pending ++ [write] } := by
    refine ⟨hs.1, hs.2.2.2, ?_⟩
    show (s.pending ++ [write]).foldlM apply s.tx = _
    rw [hs.2.2.1, hs.2.1, List.nil_append, List.foldlM_cons]
    cases apply d write <;> rfl
  rw [show (do stage write; commit apply; p : Program δ ω ε α).run s =
      (do commit apply; p : Program δ ω ε α).run { s with pending := s.pending ++ [write] } from
    run_bind_ok rfl]
  exact transacts_of_due hdue hp rfl

/-- The commit after a statement that was sent at once. -/
theorem transacts_execute {write : ω} {rowcount : δ → Nat} {f : Nat → Program δ ω ε α}
    (hf : ∀ n d', apply d write = .ok d' → Serves d' (f n) ∧ post d') :
    Transacts d (do let n ← execute apply rowcount write; commit apply; f n) post := by
  intro s hs
  rcases run_execute apply rowcount write s with ⟨tx, rest, htx, hrest, hrun⟩ | ⟨e, rest, hrun⟩
  · have hdue : Due apply d write { s with tx := tx, faults := rest } := by
      refine ⟨hs.1, hs.2.2.2, ?_⟩
      show s.pending.foldlM apply tx = _
      rw [hs.2.2.1, ← hs.2.1, htx]
      rfl
    rw [run_bind_ok hrun]
    exact (transacts_of_due hdue (hf (rowcount s.tx)) rfl).imp id (Committed.of_suffix hrest)
  · rw [run_bind_error hrun]
    exact .inl (abandoned_of_error hs.1 hs.2.2.2)

end SarkariWorld.Lib
