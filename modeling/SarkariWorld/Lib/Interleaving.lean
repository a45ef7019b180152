import Mathlib.Logic.Function.Basic
import SarkariWorld.Lib.Result
import SarkariWorld.Lib.Run

/-!
# Interleaved requests

A request handler, cut at its exchanges with the database. Between two exchanges of
one request any number of others may have theirs, and time may pass; a commit is
atomic. New rows are numbered by sequences, which may skip numbers but never go
back.

Four results about any such server, each from a property of the programs alone, by
recursion on them:

* `exec_justified`: whatever is committed is justified by what was stored at some earlier
  moments of the run, the last one first, as the program of the request would have read
  it (`Thread.Justified`);
* `exec_atomic`: a request that answered has committed once, and one that raised has
  not, or it was failed from outside (`Thread.Transactional`); and by `exec_replayed`
  the commits are all that ever happened to the database;
* `exec_bounded`: a request moves no more often than its program is long
  (`Thread.Within`);
* `exec_alone`: a request nobody interrupts ends as `Thread.alone` says.

The programs are free monads over three operations, and a handler is written as a `do`
block of them. The combinators of the second half of `Thread` are there for its
properties: each property has one lemma for `read`, `now`, `save`, `pure` and `raise`, so
a proof about a handler is read off the handler.

The server is a table of slots, one for each request that may ever come, and `move` lets
one of them have its next exchange. Which one is not said, and there is no fairness.
`Moved` inverts a move into its seven kinds, and every invariant below is proved by
looking at them.
-/

namespace SarkariWorld.Lib

/-! ## Programs -/

/-- What the database answers to a commit. -/
structure Receipt where
  /-- The number of the new row, if there is one. -/
  number : Int
  /-- How many rows the statement matched. -/
  matched : Nat

/-- A program, up to its next exchange: it has ended, it asks, or it commits one write and goes on
with what the commit tells it. -/
inductive Thread (δ ω ε α : Type) where
  | done (result : Except ε α)
  /-- A query, of what is stored when it is made, and of the clock. -/
  | ask (next : δ → Nat → Thread δ ω ε α)
  | commit (write : ω) (next : Receipt → Thread δ ω ε α)

variable {δ ω ε κ φ ρ α β : Type}

namespace Thread

/-- Runs the first program, and the second on its answer. An error ends both. -/
def andThen : Thread δ ω ε α → (α → Thread δ ω ε β) → Thread δ ω ε β
  | .done (.ok a), f => f a
  | .done (.error e), _ => .done (.error e)
  | .ask next, f => .ask fun d clock => (next d clock).andThen f
  | .commit write next, f => .commit write fun receipt => (next receipt).andThen f

instance : Monad (Thread δ ω ε) where
  pure a := .done (.ok a)
  bind := andThen

/-- `raise`. -/
def raise (e : ε) : Thread δ ω ε α := .done (.error e)

/-- A query. -/
def read (query : δ → Nat → Except ε α) : Thread δ ω ε α :=
  .ask fun d clock => .done (query d clock)

/-- What time it is. -/
def now : Thread δ ω ε Nat := .ask fun _ clock => .done (.ok clock)

/-- The flush and commit of one write. -/
def save (write : ω) : Thread δ ω ε Receipt := .commit write fun receipt => .done (.ok receipt)

/-- A query that answers goes on, one that raises ends the program. -/
theorem read_bind (query : δ → Nat → Except ε α) (f : α → Thread δ ω ε β) :
    (read query >>= f) = .ask fun d clock =>
      match query d clock with
      | .ok a => f a
      | .error e => .done (.error e) := by
  show Thread.ask (fun d clock => (Thread.done (query d clock)).andThen f) = _
  refine congrArg Thread.ask (funext fun d => funext fun clock => ?_)
  cases query d clock <;> rfl

theorem bind_bind {γ : Type} (t : Thread δ ω ε α) (f : α → Thread δ ω ε β)
    (g : β → Thread δ ω ε γ) : ((t >>= f) >>= g) = (t >>= fun a => f a >>= g) := by
  show (t.andThen f).andThen g = t.andThen fun a => (f a).andThen g
  induction t with
  | done result => cases result <;> rfl
  | ask next ih => exact congrArg Thread.ask (funext fun d => funext fun clock => ih d clock)
  | commit write next ih => exact congrArg (Thread.commit write) (funext fun receipt => ih receipt)

/-! ## Justified writes -/

/-- Whatever the program commits is justified by the moments it has read at, the last
one first: what was stored, and the time. -/
def Justified (J : List (δ × Nat) → ω → Prop) : List (δ × Nat) → Thread δ ω ε α → Prop
  | _, .done _ => True
  | seen, .ask next => ∀ d clock, Justified J ((d, clock) :: seen) (next d clock)
  | seen, .commit write next => J seen write ∧ ∀ receipt, Justified J seen (next receipt)

variable {J : List (δ × Nat) → ω → Prop} {seen : List (δ × Nat)} {f : α → Thread δ ω ε β}
  {t : Thread δ ω ε α}

theorem justified_raise (e : ε) : (raise e : Thread δ ω ε α).Justified J seen := trivial

/-- What a query answers may be used to justify what follows. -/
theorem justified_read {query : δ → Nat → Except ε α}
    (h : ∀ d clock a, query d clock = .ok a → (f a).Justified J ((d, clock) :: seen)) :
    (read query >>= f).Justified J seen := by
  rw [read_bind]
  intro d clock
  dsimp only
  split
  next a ha => exact h d clock a ha
  next => trivial

theorem justified_now {f : Nat → Thread δ ω ε β}
    (h : ∀ d clock, (f clock).Justified J ((d, clock) :: seen)) : (now >>= f).Justified J seen := h

/-- A commit must be justified by what was seen, and what comes after it by the same. -/
theorem justified_save {write : ω} {f : Receipt → Thread δ ω ε α} (hw : J seen write)
    (h : ∀ receipt, (f receipt).Justified J seen) : (save write >>= f).Justified J seen :=
  ⟨hw, h⟩

/-- Whatever the program commits is so. -/
def Writes (P : ω → Prop) : Thread δ ω ε α → Prop
  | .done _ => True
  | .ask next => ∀ d clock, Writes P (next d clock)
  | .commit write next => P write ∧ ∀ receipt, Writes P (next receipt)

/-- If a justification is a property of the write alone, the program writes nothing else. -/
theorem Justified.writes {P : ω → Prop} (hJ : ∀ seen w, J seen w → P w)
    (h : t.Justified J seen) : t.Writes P := by
  induction t generalizing seen with
  | done result => trivial
  | ask next ih => exact fun d clock => ih d clock (h d clock)
  | commit write next ih => exact ⟨hJ seen write h.1, fun receipt => ih receipt (h.2 receipt)⟩

/-! ## All or nothing -/

/-- The program commits no more, and raises nothing but what the database may raise. -/
def Quiet (late : ε → Prop) : Thread δ ω ε α → Prop
  | .done (.ok _) => True
  | .done (.error e) => late e
  | .ask next => ∀ d clock, (next d clock).Quiet late
  | .commit _ _ => False

/-- The program commits once and then answers, or raises without having committed. -/
def Transactional (late : ε → Prop) : Thread δ ω ε α → Prop
  | .done (.ok _) => False
  | .done (.error _) => True
  | .ask next => ∀ d clock, (next d clock).Transactional late
  | .commit _ next => ∀ receipt, (next receipt).Quiet late

variable {late : ε → Prop}

theorem quiet_pure (a : α) : (pure a : Thread δ ω ε α).Quiet late := trivial

/-- A query is quiet if it can only fail late, and what follows it is. -/
theorem quiet_read {query : δ → Nat → Except ε α}
    (hquery : ∀ d clock e, query d clock = .error e → late e) (h : ∀ a, (f a).Quiet late) :
    (read query >>= f).Quiet late := by
  rw [read_bind]
  intro d clock
  dsimp only
  split
  next a ha => exact h a
  next e he => exact hquery d clock e he

theorem quiet_now {f : Nat → Thread δ ω ε α} (h : ∀ clock, (f clock).Quiet late) :
    (now >>= f).Quiet late :=
  fun _ clock => h clock

/-- A quiet program commits nothing, so there is nothing to justify. -/
theorem Quiet.justified (h : t.Quiet late) : t.Justified J seen := by
  induction t generalizing seen with
  | done result => trivial
  | ask next ih => exact fun d clock => ih d clock (h d clock)
  | commit write next ih => exact h.elim

theorem transactional_raise (e : ε) : (raise e : Thread δ ω ε α).Transactional late := trivial

/-- A query may fail as it likes: nothing has been committed yet. -/
theorem transactional_read {query : δ → Nat → Except ε α}
    (h : ∀ a, (f a).Transactional late) : (read query >>= f).Transactional late := by
  rw [read_bind]
  intro d clock
  dsimp only
  split
  next a _ => exact h a
  next => trivial

theorem transactional_now {f : Nat → Thread δ ω ε α} (h : ∀ clock, (f clock).Transactional late) :
    (now >>= f).Transactional late :=
  fun _ clock => h clock

theorem transactional_save {write : ω} {f : Receipt → Thread δ ω ε α}
    (h : ∀ receipt, (f receipt).Quiet late) : (save write >>= f).Transactional late := h

/-! ## Bounded programs -/

/-- The program has at most so many exchanges. -/
def Within : Nat → Thread δ ω ε α → Prop
  | _, .done _ => True
  | 0, _ => False
  | n + 1, .ask next => ∀ d clock, (next d clock).Within n
  | n + 1, .commit _ next => ∀ receipt, (next receipt).Within n

variable {n : Nat}

theorem within_done (result : Except ε α) : (done result : Thread δ ω ε α).Within n := by
  cases n <;> trivial

theorem within_pure (a : α) : (pure a : Thread δ ω ε α).Within n := within_done _

theorem within_raise (e : ε) : (raise e : Thread δ ω ε α).Within n := within_done _

theorem within_read {query : δ → Nat → Except ε α} (h : ∀ a, (f a).Within n) :
    (read query >>= f).Within (n + 1) := by
  rw [read_bind]
  intro d clock
  dsimp only
  split
  next a _ => exact h a
  next => exact within_done _

theorem within_now {f : Nat → Thread δ ω ε α} (h : ∀ clock, (f clock).Within n) :
    (now >>= f).Within (n + 1) :=
  fun _ clock => h clock

theorem within_save {write : ω} {f : Receipt → Thread δ ω ε α}
    (h : ∀ receipt, (f receipt).Within n) : (save write >>= f).Within (n + 1) := h

theorem Within.mono {m : Nat} (h : t.Within n) (hle : n ≤ m) : t.Within m := by
  induction n generalizing t m with
  | zero =>
    cases t with
    | done result => exact within_done result
    | ask next => exact h.elim
    | commit write next => exact h.elim
  | succ n ih =>
    obtain ⟨m, rfl⟩ : ∃ k, m = k + 1 := ⟨m - 1, by omega⟩
    cases t with
    | done result => exact within_done result
    | ask next => exact fun d clock => ih (h d clock) (by omega)
    | commit write next => exact fun receipt => ih (h receipt) (by omega)

end Thread

/-! ## Servers -/

/-- A database with its sequences. -/
structure Store (δ ω ε κ φ : Type) where
  /-- A commit, at a moment and with the number of its new row. -/
  apply : Nat → Int → δ → ω → Except ε δ
  matched : δ → ω → Nat
  /-- The sequence that numbers the new row of a write. -/
  sequence : ω → Option κ
  /-- What a request raises that is failed from outside. -/
  fault : φ → ε

/-- How the program ends if nobody else moves and no time passes. -/
def Thread.alone (store : Store δ ω ε κ φ) (clock : Nat) (number : Int) :
    δ → Thread δ ω ε α → Except ε α × δ
  | d, .done result => (result, d)
  | d, .ask next => (next d clock).alone store clock number d
  | d, .commit write next =>
    match store.apply clock number d write with
    | .ok d' => (next ⟨number, store.matched d write⟩).alone store clock number d'
    | .error e => (.error e, d)

theorem alone_read (query : δ → Nat → Except ε α) (f : α → Thread δ ω ε β) (clock : Nat)
    (number : Int) (d : δ) : (Thread.read query >>= f).alone store clock number d =
      match query d clock with
      | .ok a => (f a).alone store clock number d
      | .error e => (.error e, d) := by
  rw [Thread.read_bind]
  simp only [Thread.alone]
  cases query d clock <;> rfl

/-- A commit, on its own: it applies to what is stored then. -/
theorem alone_save (write : ω) (f : Receipt → Thread δ ω ε α) (clock : Nat) (number : Int)
    (d : δ) : (Thread.save write >>= f).alone store clock number d =
      match store.apply clock number d write with
      | .ok d' => (f ⟨number, store.matched d write⟩).alone store clock number d'
      | .error e => (.error e, d) := rfl

/-- A request that has not come yet, one that is under way with what is left of its program, and one
that has ended. -/
inductive Slot (ρ δ ω ε α : Type) where
  | idle
  | running (request : ρ) (thread : Thread δ ω ε α)
  | ended (request : ρ) (result : Except ε α)

/-- A commit. -/
structure Entry (ω : Type) where
  request : Nat
  write : ω
  clock : Nat
  number : Int

/-- The state: what is stored, the clock, the sequences, the requests and the log. -/
structure Server (ρ δ ω ε κ α : Type) where
  stored : δ
  clock : Nat
  /-- The least number each sequence may still give. -/
  next : κ → Int
  slot : Nat → Slot ρ δ ω ε α
  /-- The commits so far, in their order. A ghost. -/
  log : List (Entry ω)

/-- A request comes, has its next exchange, or is failed from outside; or time passes. The number is
what a sequence gives to the row of a commit, if it is one. -/
inductive Move (ρ φ : Type) where
  | start (r : Nat) (request : ρ)
  | go (r : Nat) (number : Int)
  | fail (r : Nat) (fault : φ)
  | tick (microseconds : Nat)

/-- The state with one slot changed. -/
def Server.put (s : Server ρ δ ω ε κ α) (r : Nat) (slot : Slot ρ δ ω ε α) :
    Server ρ δ ω ε κ α :=
  { s with slot := Function.update s.slot r slot }

theorem put_self (s : Server ρ δ ω ε κ α) (r : Nat) (slot : Slot ρ δ ω ε α) :
    (s.put r slot).slot r = slot := Function.update_self ..

theorem put_of_ne (s : Server ρ δ ω ε κ α) {r i : Nat} (slot : Slot ρ δ ω ε α) (h : i ≠ r) :
    (s.put r slot).slot i = s.slot i := Function.update_of_ne h ..

/-- No request has been received yet. -/
structure Server.Fresh (s : Server ρ δ ω ε κ α) : Prop where
  idle : ∀ r, s.slot r = .idle
  log : s.log = []

section Servers

variable [DecidableEq κ] (store : Store δ ω ε κ φ)

/-- The sequence of the write may give the number. -/
def Store.numbers (next : κ → Int) (write : ω) (number : Int) : Bool :=
  match store.sequence write with
  | none => true
  | some k => next k ≤ number

/-- The sequences once it has. -/
def Store.advance (next : κ → Int) (write : ω) (number : Int) : κ → Int :=
  match store.sequence write with
  | none => next
  | some k => Function.update next k (number + 1)

/-- One move, if it is possible. A commit that the database refuses ends its request and leaves
everything else as it was. -/
def move (program : ρ → Thread δ ω ε α) (s : Server ρ δ ω ε κ α) :
    Move ρ φ → Option (Server ρ δ ω ε κ α)
  | .start r request =>
    match s.slot r with
    | .idle => some (s.put r (.running request (program request)))
    | _ => none
  | .go r number =>
    match s.slot r with
    | .running request (.done result) => some (s.put r (.ended request result))
    | .running request (.ask next) => some (s.put r (.running request (next s.stored s.clock)))
    | .running request (.commit write next) =>
      if store.numbers s.next write number then
        match store.apply s.clock number s.stored write with
        | .ok stored =>
          some { s.put r (.running request (next ⟨number, store.matched s.stored write⟩)) with
            stored := stored
            next := store.advance s.next write number
            log := s.log ++ [⟨r, write, s.clock, number⟩] }
        -- The transaction is rolled back.
        | .error e => some (s.put r (.ended request (.error e)))
      else none
    | _ => none
  | .fail r fault =>
    match s.slot r with
    | .running request (.ask _) | .running request (.commit _ _) =>
      some (s.put r (.ended request (.error (store.fault fault))))
    | _ => none
  | .tick microseconds => some { s with clock := s.clock + microseconds }

/-! ## Inversion -/

/-- What a move is. -/
inductive Moved (program : ρ → Thread δ ω ε α) (s : Server ρ δ ω ε κ α) :
    Move ρ φ → Server ρ δ ω ε κ α → Prop where
  | start (r : Nat) (request : ρ) (hslot : s.slot r = .idle) :
      Moved program s (.start r request) (s.put r (.running request (program request)))
  | finish (r : Nat) (number : Int) (request : ρ) (result : Except ε α)
      (hslot : s.slot r = .running request (.done result)) :
      Moved program s (.go r number) (s.put r (.ended request result))
  | ask (r : Nat) (number : Int) (request : ρ) (next : δ → Nat → Thread δ ω ε α)
      (hslot : s.slot r = .running request (.ask next)) :
      Moved program s (.go r number) (s.put r (.running request (next s.stored s.clock)))
  | commit (r : Nat) (number : Int) (request : ρ) (write : ω) (next : Receipt → Thread δ ω ε α)
      (stored : δ) (hslot : s.slot r = .running request (.commit write next))
      (hnumbers : store.numbers s.next write number = true)
      (happly : store.apply s.clock number s.stored write = .ok stored) :
      Moved program s (.go r number)
        { s.put r (.running request (next ⟨number, store.matched s.stored write⟩)) with
          stored := stored
          next := store.advance s.next write number
          log := s.log ++ [⟨r, write, s.clock, number⟩] }
  | refused (r : Nat) (number : Int) (request : ρ) (write : ω) (next : Receipt → Thread δ ω ε α)
      (e : ε) (hslot : s.slot r = .running request (.commit write next))
      (happly : store.apply s.clock number s.stored write = .error e) :
      Moved program s (.go r number) (s.put r (.ended request (.error e)))
  | fail (r : Nat) (fault : φ) (request : ρ) (thread : Thread δ ω ε α)
      (hslot : s.slot r = .running request thread) :
      Moved program s (.fail r fault) (s.put r (.ended request (.error (store.fault fault))))
  | tick (microseconds : Nat) :
      Moved program s (.tick microseconds) { s with clock := s.clock + microseconds }

variable {store} {program : ρ → Thread δ ω ε α} {s s' s₀ : Server ρ δ ω ε κ α} {a : Move ρ φ}
  {as : List (Move ρ φ)} {r : Nat} {request : ρ}

/-- **What a move is.** -/
theorem move_moved (h : move store program s a = some s') : Moved store program s a s' := by
  cases a with
  | start r request =>
    simp only [move] at h
    split at h
    next hslot =>
      obtain rfl := Option.some.inj h
      exact .start r request hslot
    next => cases h
  | go r number =>
    simp only [move] at h
    split at h
    next request result hslot =>
      obtain rfl := Option.some.inj h
      exact .finish r number request result hslot
    next request next hslot =>
      obtain rfl := Option.some.inj h
      exact .ask r number request next hslot
    next request write next hslot =>
      -- a number that is not the sequence's next makes the move impossible
      obtain ⟨hnumbers, h⟩ := Option.ite_none_right_eq_some.mp h
      split at h
      next stored happly =>
        obtain rfl := Option.some.inj h
        exact .commit r number request write next stored hslot hnumbers happly
      next e happly =>
        obtain rfl := Option.some.inj h
        exact .refused r number request write next e hslot happly
    next => cases h
  | fail r fault =>
    simp only [move] at h
    split at h
    next request next hslot =>
      obtain rfl := Option.some.inj h
      exact .fail r fault request _ hslot
    next request write next hslot =>
      obtain rfl := Option.some.inj h
      exact .fail r fault request _ hslot
    next => cases h
  | tick microseconds =>
    obtain rfl := Option.some.inj h
    exact .tick microseconds

/-- **How a request came to be where it is**: it was there, it has just been received,
or it has had one more exchange. -/
theorem Moved.running (h : Moved store program s a s') {i : Nat} {thread : Thread δ ω ε α}
    (hslot : s'.slot i = .running request thread) :
    s.slot i = .running request thread ∨
      (a = .start i request ∧ thread = program request) ∨
      (∃ next, s.slot i = .running request (.ask next) ∧ thread = next s.stored s.clock) ∨
      ∃ write next receipt, s.slot i = .running request (.commit write next) ∧
        thread = next receipt := by
  -- A request that does not move is where it was.
  have hother : ∀ {slot r}, (s.put r slot).slot i = .running request thread → i ≠ r →
      s.slot i = .running request thread := by
    intro slot r hput hne
    rw [put_of_ne s slot hne] at hput
    exact hput
  cases h with
  | start r started hidle =>
    by_cases hir : i = r
    · subst hir
      obtain ⟨rfl, rfl⟩ := Slot.running.inj ((put_self s i _).symm.trans hslot)
      exact .inr (.inl ⟨rfl, rfl⟩)
    · exact .inl (hother hslot hir)
  | finish r number ending result hfrom =>
    by_cases hir : i = r
    · subst hir
      cases (put_self s i _).symm.trans hslot
    · exact .inl (hother hslot hir)
  | ask r number asking next hfrom =>
    by_cases hir : i = r
    · subst hir
      obtain ⟨rfl, rfl⟩ := Slot.running.inj ((put_self s i _).symm.trans hslot)
      exact .inr (.inr (.inl ⟨next, hfrom, rfl⟩))
    · exact .inl (hother hslot hir)
  | commit r number writing write next stored hfrom hnumbers happly =>
    by_cases hir : i = r
    · subst hir
      obtain ⟨rfl, rfl⟩ := Slot.running.inj ((put_self s i _).symm.trans hslot)
      exact .inr (.inr (.inr ⟨write, next, _, hfrom, rfl⟩))
    · exact .inl (hother hslot hir)
  | refused r number writing write next e hfrom happly =>
    by_cases hir : i = r
    · subst hir
      cases (put_self s i _).symm.trans hslot
    · exact .inl (hother hslot hir)
  | fail r fault failing failed hfrom =>
    by_cases hir : i = r
    · subst hir
      cases (put_self s i _).symm.trans hslot
    · exact .inl (hother hslot hir)
  | tick microseconds => exact .inl hslot

/-- **What a move does to the database**: nothing, unless it commits. -/
theorem Moved.stored_eq (h : Moved store program s a s') :
    s'.stored = s.stored ∧ s'.next = s.next ∨
      ∃ r number request write next, a = .go r number ∧
        s.slot r = .running request (.commit write next) ∧
        store.numbers s.next write number = true ∧
        store.apply s.clock number s.stored write = .ok s'.stored ∧
        s'.next = store.advance s.next write number := by
  cases h with
  | commit r number request write next stored hslot hnumbers happly =>
    exact .inr ⟨r, number, request, write, next, rfl, hslot, hnumbers, happly, rfl⟩
  | start r request hslot => exact .inl ⟨rfl, rfl⟩
  | finish r number request result hslot => exact .inl ⟨rfl, rfl⟩
  | ask r number request next hslot => exact .inl ⟨rfl, rfl⟩
  | refused r number request write next e hslot happly => exact .inl ⟨rfl, rfl⟩
  | fail r fault request thread hslot => exact .inl ⟨rfl, rfl⟩
  | tick microseconds => exact .inl ⟨rfl, rfl⟩

/-- A sequence goes forward, past the number it gives. -/
theorem advance_spec {next : κ → Int} {write : ω} {number : Int}
    (hnumbers : store.numbers next write number = true) (k : κ) :
    next k ≤ store.advance next write number k ∧
      (store.sequence write = some k →
        next k ≤ number ∧ number < store.advance next write number k) := by
  unfold Store.numbers at hnumbers
  unfold Store.advance
  cases hsequence : store.sequence write with
  | none => exact ⟨Int.le_refl _, fun hk => (nomatch hk)⟩
  | some k' =>
    rw [hsequence] at hnumbers
    have hlow : next k' ≤ number := of_decide_eq_true hnumbers
    dsimp only
    by_cases hk : k = k'
    · subst hk
      rw [Function.update_self]
      exact ⟨by omega, fun _ => ⟨hlow, by omega⟩⟩
    · rw [Function.update_of_ne hk]
      exact ⟨Int.le_refl _, fun he => absurd (Option.some.inj he).symm hk⟩

/-! ## Justified commits -/

/-- The moment at which the run `as` from `s₀` was in the state `m`. -/
def PassedThrough (store : Store δ ω ε κ φ) (program : ρ → Thread δ ω ε α)
    (s₀ : Server ρ δ ω ε κ α) (as : List (Move ρ φ)) (m : Server ρ δ ω ε κ α) : Prop :=
  ∃ pre post, as = pre ++ post ∧ exec (move store program) s₀ pre = some m

theorem passedThrough_snoc {m : Server ρ δ ω ε κ α} (h : PassedThrough store program s₀ as m) :
    PassedThrough store program s₀ (as ++ [a]) m := by
  obtain ⟨pre, post, rfl, hpre⟩ := h
  exact ⟨pre, post ++ [a], List.append_assoc .., hpre⟩

/-- The moments of a longer run are those of the run, and its end. -/
theorem passedThrough_snoc_cases {m : Server ρ δ ω ε κ α}
    (h : PassedThrough store program s₀ (as ++ [a]) m)
    (has : exec (move store program) s₀ (as ++ [a]) = some s') :
    PassedThrough store program s₀ as m ∨ m = s' := by
  obtain ⟨pre, post, hsplit, hpre⟩ := h
  rcases List.eq_nil_or_concat post with rfl | ⟨post', b, rfl⟩
  · rw [List.append_nil] at hsplit
    rw [← hsplit, has] at hpre
    exact .inr (Option.some.inj hpre).symm
  · rw [List.concat_eq_append, ← List.append_assoc] at hsplit
    obtain ⟨rfl, -⟩ := List.append_inj' hsplit rfl
    exact .inl ⟨pre, post', rfl, hpre⟩

/-- The run is over at its end. -/
theorem passedThrough_end (h : exec (move store program) s₀ as = some s) :
    PassedThrough store program s₀ as s :=
  ⟨as, [], (List.append_nil as).symm, h⟩

/-- The invariant rule for what each moment says of the end of the run. -/
theorem exec_since {R : Server ρ δ ω ε κ α → Server ρ δ ω ε κ α → Prop}
    (hstep : ∀ as s a s', exec (move store program) s₀ as = some s →
      (∀ m, PassedThrough store program s₀ as m → R m s) → move store program s a = some s' →
        R s' s' ∧ ∀ m, PassedThrough store program s₀ as m → R m s')
    (hstart : R s₀ s₀) (h : exec (move store program) s₀ as = some s) :
    ∀ m, PassedThrough store program s₀ as m → R m s := by
  let I : List (Move ρ φ) → Server ρ δ ω ε κ α → Prop := fun as s =>
    exec (move store program) s₀ as = some s ∧ ∀ m, PassedThrough store program s₀ as m → R m s
  have hnext : ∀ as s a s', I as s → move store program s a = some s' → I (as ++ [a]) s' := by
    intro as s a s' hI hmove
    have hrun := exec_snoc_some.mpr ⟨s, hI.1, hmove⟩
    obtain ⟨hend, hearlier⟩ := hstep as s a s' hI.1 hI.2 hmove
    refine ⟨hrun, fun m hm => ?_⟩
    rcases passedThrough_snoc_cases hm hrun with hold | rfl
    · exact hearlier m hold
    · exact hend
  have hI : I as s := by
    refine exec_hist hnext ⟨rfl, fun m hm => ?_⟩ h
    obtain ⟨pre, post, hsplit, hpre⟩ := hm
    obtain ⟨rfl, rfl⟩ := List.append_eq_nil_iff.mp hsplit.symm
    obtain rfl := Option.some.inj hpre
    exact hstart
  exact hI.2

/-- The invariant rule, with the invariant at hand for all the moments before. -/
theorem exec_passed {P : Server ρ δ ω ε κ α → Prop}
    (hstep : ∀ as s a s', exec (move store program) s₀ as = some s →
      (∀ m, PassedThrough store program s₀ as m → P m) → move store program s a = some s' → P s')
    (hstart : P s₀) (h : exec (move store program) s₀ as = some s) : P s :=
  exec_since (R := fun m _ => P m)
    (fun as s a s' hrun hpast hmove => ⟨hstep as s a s' hrun hpast hmove, hpast⟩) hstart h s
    (passedThrough_end h)

/-- Every request was received. -/
theorem exec_started (h₀ : s₀.Fresh) (h : exec (move store program) s₀ as = some s)
    {thread : Thread δ ω ε α} (hslot : s.slot r = .running request thread) :
    Move.start r request ∈ as := by
  refine exec_hist (I := fun as s => ∀ r request thread, s.slot r = .running request thread →
    Move.start r request ∈ as) (fun as s a s' hs hmove i asked t hrunning => ?_)
    (fun i asked t hrunning => ?_) h r request thread hslot
  · refine List.mem_append.mpr ?_
    rcases (move_moved hmove).running hrunning with hsame | ⟨rfl, -⟩ | ⟨next, hask, -⟩ |
      ⟨write, next, receipt, hcommit, -⟩
    · exact .inl (hs i asked t hsame)
    · exact .inr (List.mem_singleton_self _)
    · exact .inl (hs i asked _ hask)
    · exact .inl (hs i asked _ hcommit)
  · rw [h₀.idle i] at hrunning
    cases hrunning

variable {J : ρ → List (δ × Nat) → ω → Prop}

/-- The clock does not go back. -/
theorem Moved.clock_le (h : Moved store program s a s') : s.clock ≤ s'.clock := by
  cases h with
  | tick microseconds => exact Nat.le_add_right ..
  | _ => exact Nat.le_refl _

theorem PassedThrough.clock_le {m : Server ρ δ ω ε κ α}
    (hm : PassedThrough store program s₀ as m) (h : exec (move store program) s₀ as = some s) :
    m.clock ≤ s.clock := by
  obtain ⟨pre, post, rfl, hpre⟩ := hm
  obtain ⟨m', hm', hpost⟩ := exec_append_some.mp h
  obtain rfl := Option.some.inj (hpre.symm.trans hm')
  exact exec_inv_of_step (I := fun s => m.clock ≤ s.clock)
    (fun _ _ _ hle hmove => Nat.le_trans hle (move_moved hmove).clock_le) (Nat.le_refl _) hpost

/-- The moments are all moments of the run, the last one first. -/
structure SeenIn (store : Store δ ω ε κ φ) (program : ρ → Thread δ ω ε α)
    (s₀ : Server ρ δ ω ε κ α) (as : List (Move ρ φ)) (seen : List (δ × Nat)) : Prop where
  passed : ∀ moment ∈ seen, ∃ m, PassedThrough store program s₀ as m ∧
    moment = (m.stored, m.clock)
  ordered : seen.Pairwise fun later earlier => earlier.2 ≤ later.2

/-- What was seen in a run was seen in every longer one. -/
theorem seenIn_snoc {seen : List (δ × Nat)} (h : SeenIn store program s₀ as seen) :
    SeenIn store program s₀ (as ++ [a]) seen := by
  refine ⟨fun moment hmoment => ?_, h.ordered⟩
  obtain ⟨m, hm, heq⟩ := h.passed moment hmoment
  exact ⟨m, passedThrough_snoc hm, heq⟩

/-- The present state may be added to what was seen: it is the latest moment. -/
theorem seenIn_cons {seen : List (δ × Nat)} (h : SeenIn store program s₀ as seen)
    (hrun : exec (move store program) s₀ as = some s) :
    SeenIn store program s₀ as ((s.stored, s.clock) :: seen) := by
  refine ⟨fun moment hmoment => ?_, List.pairwise_cons.mpr ⟨fun moment hmoment => ?_, h.ordered⟩⟩
  · rcases List.mem_cons.mp hmoment with rfl | hold
    · exact ⟨s, passedThrough_end hrun, rfl⟩
    · exact h.passed moment hold
  · obtain ⟨m, hm, rfl⟩ := h.passed moment hmoment
    exact hm.clock_le hrun

/-- The rest of the thread is justified by moments of the run, and those to come. -/
def ThreadIn (store : Store δ ω ε κ φ) (program : ρ → Thread δ ω ε α)
    (J : ρ → List (δ × Nat) → ω → Prop) (s₀ : Server ρ δ ω ε κ α) (as : List (Move ρ φ))
    (request : ρ) (thread : Thread δ ω ε α) : Prop :=
  ∃ seen, SeenIn store program s₀ as seen ∧ thread.Justified (J request) seen

/-- The invariant behind `exec_justified`: what is left of a program is justified by moments of the
run, those at which its own exchanges have been. -/
theorem exec_threads (hJ : ∀ request, (program request).Justified (J request) [])
    (h₀ : s₀.Fresh) (h : exec (move store program) s₀ as = some s) {thread : Thread δ ω ε α}
    (hslot : s.slot r = .running request thread) :
    ThreadIn store program J s₀ as request thread := by
  -- the run itself is part of the invariant, so that what a request sees is a moment of it
  let I : List (Move ρ φ) → Server ρ δ ω ε κ α → Prop := fun as s =>
    exec (move store program) s₀ as = some s ∧ ∀ r request thread,
      s.slot r = .running request thread → ThreadIn store program J s₀ as request thread
  have hstep : ∀ as s a s', I as s → move store program s a = some s' → I (as ++ [a]) s' := by
    intro as s a s' hI hmove
    refine ⟨exec_snoc_some.mpr ⟨s, hI.1, hmove⟩, fun i request thread hthread => ?_⟩
    rcases (move_moved hmove).running hthread with hsame | ⟨-, rfl⟩ | ⟨next, hask, rfl⟩ |
      ⟨write, next, receipt, hcommit, rfl⟩
    · obtain ⟨seen, hseen, hjustified⟩ := hI.2 i request thread hsame
      exact ⟨seen, seenIn_snoc hseen, hjustified⟩
    -- a request that has just started has seen nothing
    · exact ⟨[], ⟨fun _ hmoment => absurd hmoment List.not_mem_nil, .nil⟩, hJ request⟩
    -- an exchange adds the moment at which it was answered
    · obtain ⟨seen, hseen, hjustified⟩ := hI.2 i request _ hask
      exact ⟨_, seenIn_snoc (seenIn_cons hseen hI.1), hjustified s.stored s.clock⟩
    · obtain ⟨seen, hseen, hjustified⟩ := hI.2 i request _ hcommit
      exact ⟨seen, seenIn_snoc hseen, hjustified.2 receipt⟩
  have hI : I as s := by
    refine exec_hist hstep ⟨rfl, fun r request thread hrunning => ?_⟩ h
    rw [h₀.idle r] at hrunning
    cases hrunning
  exact hI.2 r request thread hslot

/-- **Whatever is committed is justified** by what was stored at some moments of the run,
each no earlier than the one before it. They are the moments of the request's queries; of
that the statement keeps only that the run passed through them. -/
theorem exec_justified (hJ : ∀ request, (program request).Justified (J request) [])
    (h₀ : s₀.Fresh) (h : exec (move store program) s₀ as = some s) {write : ω}
    {next : Receipt → Thread δ ω ε α} (hslot : s.slot r = .running request (.commit write next)) :
    ∃ seen, SeenIn store program s₀ as seen ∧ J request seen write := by
  obtain ⟨seen, hseen, hthread⟩ := exec_threads hJ h₀ h hslot
  exact ⟨seen, hseen, hthread.1⟩

/-! ## All or nothing -/

/-- The database failed the request, or the request was cancelled. -/
def Store.Late (store : Store δ ω ε κ φ) (e : ε) : Prop := ∃ fault, e = store.fault fault

/-- How many commits a request has had. -/
def commitsOf (r : Nat) (log : List (Entry ω)) : Nat := log.countP fun entry => entry.request = r

/-- All or nothing, for a request that has had `n` commits. -/
def Slot.Atomic (late : ε → Prop) (n : Nat) : Slot ρ δ ω ε α → Prop
  | .idle => n = 0
  | .running _ thread => n = 0 ∧ thread.Transactional late ∨ n = 1 ∧ thread.Quiet late
  | .ended _ (.ok _) => n = 1
  | .ended _ (.error e) => n = 0 ∨ n = 1 ∧ late e

/-- A request that answers or raises has done all of its work, or none. -/
theorem atomic_ended {late : ε → Prop} {n : Nat} {result : Except ε α}
    (h : (Slot.running request (.done result) : Slot ρ δ ω ε α).Atomic late n) :
    (Slot.ended request result : Slot ρ δ ω ε α).Atomic late n := by
  cases result with
  | ok a =>
    rcases h with ⟨-, hopen⟩ | ⟨hn, -⟩
    · exact hopen.elim
    · exact hn
  | error e =>
    rcases h with ⟨hn, -⟩ | ⟨hn, hlate⟩
    · exact .inl hn
    · exact .inr ⟨hn, hlate⟩

/-- **One commit or none.** -/
theorem exec_atomic (hprogram : ∀ request, (program request).Transactional store.Late)
    (h₀ : s₀.Fresh) (h : exec (move store program) s₀ as = some s) :
    ∀ r, (s.slot r).Atomic store.Late (commitsOf r s.log) := by
  refine exec_inv_of_step (I := fun s => ∀ r, (s.slot r).Atomic store.Late (commitsOf r s.log))
    (fun s a s' hs hmove i => ?_) (fun r => ?_) h
  -- the invariant: no commit yet and a quiet rest, or one commit and an end
  · cases move_moved hmove with
    | start r started hidle =>
      by_cases hir : i = r
      · subst hir
        rw [put_self]
        have hnone : commitsOf i s.log = 0 := by
          have hbefore := hs i
          rw [hidle] at hbefore
          exact hbefore
        exact .inl ⟨hnone, hprogram started⟩
      · rw [put_of_ne s _ hir]
        exact hs i
    | finish r number ending result hfrom =>
      by_cases hir : i = r
      · subst hir
        have hbefore := hs i
        rw [hfrom] at hbefore
        rw [put_self]
        exact atomic_ended hbefore
      · rw [put_of_ne s _ hir]
        exact hs i
    | ask r number asking next hfrom =>
      by_cases hir : i = r
      · subst hir
        have hbefore := hs i
        rw [hfrom] at hbefore
        rw [put_self]
        exact hbefore.imp (fun h => ⟨h.1, h.2 _ _⟩) fun h => ⟨h.1, h.2 _ _⟩
      · rw [put_of_ne s _ hir]
        exact hs i
    | commit r number writing write next stored hfrom hnumbers happly =>
      let entry : Entry ω := ⟨r, write, s.clock, number⟩
      show Slot.Atomic _ (commitsOf i (s.log ++ [entry])) _
      by_cases hir : i = r
      · subst hir
        have hbefore := hs i
        rw [hfrom] at hbefore
        -- a request that has committed is not about to commit again
        rcases hbefore with ⟨hnone, hquiet⟩ | ⟨-, hdone⟩
        · have hone : commitsOf i (s.log ++ [entry]) = 1 := by
            unfold commitsOf at hnone ⊢
            rw [List.countP_append, hnone, List.countP_singleton, if_pos (decide_eq_true rfl)]
          rw [hone]
          show Slot.Atomic _ _ ((s.put i _).slot i)
          rw [put_self]
          exact .inr ⟨rfl, hquiet _⟩
        · exact hdone.elim
      -- the commit of another request is not counted for this one
      · have hsame : commitsOf i (s.log ++ [entry]) = commitsOf i s.log := by
          unfold commitsOf
          rw [List.countP_append, List.countP_singleton,
            if_neg fun he => hir (of_decide_eq_true he).symm, Nat.add_zero]
        rw [hsame]
        show Slot.Atomic _ _ ((s.put r _).slot i)
        rw [put_of_ne s _ hir]
        exact hs i
    | refused r number writing write next e hfrom happly =>
      by_cases hir : i = r
      · subst hir
        have hbefore := hs i
        rw [hfrom] at hbefore
        rw [put_self]
        exact .inl (hbefore.elim And.left fun h => h.2.elim)
      · rw [put_of_ne s _ hir]
        exact hs i
    | fail r fault failing failed hfrom =>
      by_cases hir : i = r
      · subst hir
        have hbefore := hs i
        rw [hfrom] at hbefore
        rw [put_self]
        exact hbefore.imp And.left fun h => ⟨h.1, fault, rfl⟩
      · rw [put_of_ne s _ hir]
        exact hs i
    | tick microseconds => exact hs i
  · rw [h₀.idle r, h₀.log]
    rfl

/-- The commits of a log, one after the other. -/
def Store.replay (store : Store δ ω ε κ φ) (d : δ) (log : List (Entry ω)) : Except ε δ :=
  log.foldlM (fun d entry => store.apply entry.clock entry.number d entry.write) d

/-- What is stored is what the commits have made of it. -/
theorem exec_replayed (h₀ : s₀.Fresh) (h : exec (move store program) s₀ as = some s) :
    store.replay s₀.stored s.log = .ok s.stored := by
  refine exec_inv_of_step (I := fun s => store.replay s₀.stored s.log = .ok s.stored)
    (fun s a s' hs hmove => ?_) ?_ h
  · cases move_moved hmove with
    | commit r number request write next stored hslot hnumbers happly =>
      show List.foldlM _ s₀.stored (s.log ++ [_]) = _
      rw [List.foldlM_append]
      refine bind_eq_ok.mpr ⟨s.stored, hs, ?_⟩
      rw [List.foldlM_cons]
      exact bind_eq_ok.mpr ⟨stored, happly, rfl⟩
    | start r request hslot => exact hs
    | finish r number request result hslot => exact hs
    | ask r number request next hslot => exact hs
    | refused r number request write next e hslot happly => exact hs
    | fail r fault request thread hslot => exact hs
    | tick microseconds => exact hs
  · rw [h₀.log]
    rfl

/-! ## Bounded requests -/

/-- The request that moves. -/
def Move.mover : Move ρ φ → Option Nat
  | .start r _ | .go r _ | .fail r _ => some r
  | .tick _ => none

/-- The move is an exchange of the request, or its end. -/
def Move.isGo (r : Nat) : Move ρ φ → Bool
  | .go i _ => i = r
  | _ => false

/-- How often a request has moved of itself. -/
def movesOf (r : Nat) (as : List (Move ρ φ)) : Nat := as.countP (Move.isGo r)

/-- A request that does not move is where it was. -/
theorem Moved.other (h : Moved store program s a s') {i : Nat} (hi : a.mover ≠ some i) :
    s'.slot i = s.slot i := by
  have hput : ∀ {r slot}, some r ≠ some i → (s.put r slot).slot i = s.slot i := fun hri =>
    put_of_ne s _ fun he => hri (congrArg some he.symm)
  cases h with
  | start r request hslot => exact hput hi
  | finish r number request result hslot => exact hput hi
  | ask r number request next hslot => exact hput hi
  | commit r number request write next stored hslot hnumbers happly => exact hput hi
  | refused r number request write next e hslot happly => exact hput hi
  | fail r fault request thread hslot => exact hput hi
  | tick microseconds => rfl

/-- What a request that has moved `used` times may still need. -/
def Slot.Bounded (n used : Nat) : Slot ρ δ ω ε α → Prop
  | .idle => used = 0
  | .running _ thread => ∃ left, thread.Within left ∧ used + left ≤ n
  | .ended _ _ => used ≤ n + 1

/-- **No request moves more often than its program is long**, however the others do. -/
theorem exec_bounded {n : Nat} (hprogram : ∀ request, (program request).Within n)
    (h₀ : s₀.Fresh) (h : exec (move store program) s₀ as = some s) :
    ∀ r, (s.slot r).Bounded n (movesOf r as) := by
  refine exec_hist (I := fun as s => ∀ r, (s.slot r).Bounded n (movesOf r as))
    (fun as s a s' hs hmove i => ?_) (fun r => ?_) h
  · have hmoved := move_moved hmove
    have hcount : movesOf i (as ++ [a]) = movesOf i as + if a.isGo i then 1 else 0 := by
      rw [movesOf, movesOf, List.countP_append, List.countP_singleton]
    rw [hcount]
    by_cases hi : a.mover = some i
    · have hbefore := hs i
      cases hmoved with
      -- starting is free: only the moves after it are counted
      | start r started hidle =>
        obtain rfl := Option.some.inj hi
        rw [hidle] at hbefore
        rw [put_self]
        exact ⟨n, hprogram started, by rw [hbefore]; exact Nat.le_of_eq (Nat.zero_add n)⟩
      | finish r number ending result hfrom =>
        obtain rfl := Option.some.inj hi
        rw [hfrom] at hbefore
        obtain ⟨left, -, hle⟩ := hbefore
        rw [put_self, Move.isGo, if_pos (decide_eq_true rfl)]
        show movesOf r as + 1 ≤ n + 1
        omega
      | ask r number asking next hfrom =>
        obtain rfl := Option.some.inj hi
        rw [hfrom] at hbefore
        obtain ⟨left, hwithin, hle⟩ := hbefore
        rw [put_self, Move.isGo, if_pos (decide_eq_true rfl)]
        cases left with
        | zero => exact hwithin.elim
        | succ left => exact ⟨left, hwithin _ _, by omega⟩
      | commit r number writing write next stored hfrom hnumbers happly =>
        obtain rfl := Option.some.inj hi
        rw [hfrom] at hbefore
        obtain ⟨left, hwithin, hle⟩ := hbefore
        show ((s.put r _).slot r).Bounded n _
        rw [put_self, Move.isGo, if_pos (decide_eq_true rfl)]
        cases left with
        | zero => exact hwithin.elim
        | succ left => exact ⟨left, hwithin _, by omega⟩
      | refused r number writing write next e hfrom happly =>
        obtain rfl := Option.some.inj hi
        rw [hfrom] at hbefore
        obtain ⟨left, -, hle⟩ := hbefore
        rw [put_self, Move.isGo, if_pos (decide_eq_true rfl)]
        show movesOf r as + 1 ≤ n + 1
        omega
      | fail r fault failing failed hfrom =>
        obtain rfl := Option.some.inj hi
        rw [hfrom] at hbefore
        obtain ⟨left, -, hle⟩ := hbefore
        rw [put_self]
        show movesOf r as + 0 ≤ n + 1
        omega
      | tick microseconds => cases hi
    · have hgo : a.isGo i = false := by
        cases a with
        | go r number => exact decide_eq_false fun he => hi (congrArg some he)
        | start r request => rfl
        | fail r fault => rfl
        | tick microseconds => rfl
      rw [hmoved.other hi, hgo]
      exact hs i
  · rw [h₀.idle r]
    rfl

/-! ## Uninterrupted requests -/

/-- A request with these exchanges left can have them all, with this number, and what it
commits is so. -/
def Server.Ready (store : Store δ ω ε κ φ) (P : ω → Prop) (s : Server ρ δ ω ε κ α) (number : Int)
    (thread : Thread δ ω ε α) : Prop :=
  thread.Quiet store.Late ∨ thread.Transactional store.Late ∧
    thread.Writes fun write => store.numbers s.next write number = true ∧ P write

/-- The request has had all its exchanges and ended like this, and nobody else has moved. -/
structure RanAlone (store : Store δ ω ε κ φ) (P : ω → Prop) (s : Server ρ δ ω ε κ α) (r : Nat)
    (request : ρ) (number : Int) (ending : Except ε α × δ) (s' : Server ρ δ ω ε κ α) : Prop where
  slot : s'.slot r = .ended request ending.1
  stored : s'.stored = ending.2
  clock : s'.clock = s.clock
  others : ∀ i, i ≠ r → s'.slot i = s.slot i
  next : ∀ k, s'.next k = s.next k ∨
    s'.next k = number + 1 ∧ ∃ write, P write ∧ store.sequence write = some k

/-- What a commit has added to the sequences, and what comes after it. -/
theorem RanAlone.of_commit {P : ω → Prop} {write : ω} {number : Int} {m : Server ρ δ ω ε κ α}
    {ending : Except ε α × δ} (h : RanAlone store P m r request number ending s') (hP : P write)
    (hclock : m.clock = s.clock) (hothers : ∀ i, i ≠ r → m.slot i = s.slot i)
    (hnext : m.next = store.advance s.next write number) :
    RanAlone store P s r request number ending s' where
  slot := h.slot
  stored := h.stored
  clock := h.clock.trans hclock
  others i hi := (h.others i hi).trans (hothers i hi)
  next k := by
    refine (h.next k).elim (fun hsame => ?_) .inr
    rw [hsame, hnext, Store.advance]
    cases hsequence : store.sequence write with
    | none => exact .inl rfl
    | some k' =>
      dsimp only
      by_cases hk : k = k'
      · subst hk
        rw [Function.update_self]
        exact .inr ⟨rfl, write, hP, hsequence⟩
      · exact .inl (Function.update_of_ne hk ..)

omit [DecidableEq κ] in
theorem ranAlone_ended {P : ω → Prop} {number : Int} (s : Server ρ δ ω ε κ α)
    (result : Except ε α) : RanAlone store P s r request number (result, s.stored)
      (s.put r (.ended request result)) :=
  ⟨put_self .., rfl, rfl, fun _ hi => put_of_ne s _ hi, fun _ => .inl rfl⟩

omit [DecidableEq κ] in
/-- What a request has done on its own does not depend on what stood in its slot. -/
theorem RanAlone.of_same {P : ω → Prop} {number : Int} {slot : Slot ρ δ ω ε α}
    {ending : Except ε α × δ}
    (h : RanAlone store P (s.put r slot) r request number ending s') :
    RanAlone store P s r request number ending s' where
  slot := h.slot
  stored := h.stored
  clock := h.clock
  others i hi := (h.others i hi).trans (put_of_ne s slot hi)
  next := h.next

/-- **A request nobody interrupts.** -/
theorem exec_alone {thread : Thread δ ω ε α} {number : Int} {P : ω → Prop}
    (hslot : s.slot r = .running request thread) (hready : s.Ready store P number thread) :
    ∃ n s', exec (move store program) s (List.replicate n (.go r number)) = some s' ∧
      RanAlone store P s r request number (thread.alone store s.clock number s.stored) s' := by
  induction thread generalizing s with
  | done result =>
    refine ⟨1, s.put r (.ended request result), ?_, ranAlone_ended s result⟩
    show (move store program s (.go r number)).bind _ = _
    simp only [move, hslot]
    rfl
  | ask next ih =>
    -- the exchange is the request's own next move, and the rest of it is the induction's
    let m := s.put r (.running request (next s.stored s.clock))
    have hready : m.Ready store P number (next s.stored s.clock) :=
      hready.imp (fun h => h _ _) fun h => ⟨h.1 _ _, h.2 _ _⟩
    obtain ⟨n, s', hrun, hend⟩ := ih s.stored s.clock (s := m) (put_self ..) hready
    refine ⟨n + 1, s', ?_, hend.of_same⟩
    refine exec_cons_some.mpr ⟨m, ?_, hrun⟩
    simp only [move, hslot]
    rfl
  | commit write next ih =>
    obtain ⟨htransactional, ⟨hnumbers, hP⟩, -⟩ := hready.resolve_left fun h => h
    cases happly : store.apply s.clock number s.stored write with
    | ok stored =>
      let receipt : Receipt := ⟨number, store.matched s.stored write⟩
      let m : Server ρ δ ω ε κ α :=
        { s.put r (.running request (next receipt)) with
          stored := stored
          next := store.advance s.next write number
          log := s.log ++ [⟨r, write, s.clock, number⟩] }
      obtain ⟨n, s', hrun, hend⟩ :=
        ih receipt (s := m) (put_self s r _) (.inl (htransactional receipt))
      refine ⟨n + 1, s', exec_cons_some.mpr ⟨m, ?_, hrun⟩, ?_⟩
      · simp only [move, hslot, if_pos hnumbers, happly]
        rfl
      · simp only [Thread.alone, happly]
        exact hend.of_commit hP rfl (fun i hi => put_of_ne s _ hi) rfl
    | error e =>
      refine ⟨1, s.put r (.ended request (.error e)), ?_, ?_⟩
      · refine exec_cons_some.mpr ⟨_, ?_, rfl⟩
        simp only [move, hslot, if_pos hnumbers, happly]
      · simp only [Thread.alone, happly]
        exact ranAlone_ended s _

end Servers

end SarkariWorld.Lib
