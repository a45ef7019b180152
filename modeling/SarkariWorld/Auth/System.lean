import SarkariWorld.Auth.Requests
import SarkariWorld.Lib.Run
import Mathlib.Logic.Function.Basic

/-!
# Concurrent requests

The service as a transition system. Any number of requests are in flight, each
known by a number that is never used again; every phase of every request is one
action, and time passes by `tick`, so a run of `step` is any interleaving of any
requests. The database enters through `commit` alone, which is atomic.

There is one inversion lemma per action, and two facts derived from them carry
the later safety arguments: `step_users` (a step changes the `User` table only by
committing an assigned write) and `step_active` (how a request came to be where
it is). `exec_traced` and `exec_guarded` push the latter through whole runs:
whatever is in flight went through its own guard, at an earlier moment of the
run, and only later loaded and assigned.

A fault of the database is not an action of its own here: a request that is cut off simply
makes no more moves, which every interleaving allows. What a fault does in the middle of a
request is the subject of `Site.Handlers`.
-/

namespace SarkariWorld.Auth

open SarkariWorld.Lib

variable {ρ : Type}

/-- How far a request has come, with the copies it holds. -/
inductive Progress where
  | guarded
  | loaded (copy : Option User)
  | assigned (write : Write) (secret : Text)
  | committed (written : Option Int) (secret : Text)

/-- A request that has passed its guard: what it asked for, who the guard found, and how far it is.
-/
structure InFlight (ρ : Type) where
  request : Request ρ
  actor : Option User
  progress : Progress

/-- Where a request is: it has not been received, it is in flight, or it has been answered. -/
inductive Stage (ρ : Type) where
  | idle
  | active (flight : InFlight ρ)
  | answered (result : Except Failure Response)

/-- The service at a moment: the accounts, the rest of the database, the clock, and where every
request is. -/
structure Sys (ρ : Type) where
  users : UserTable
  rest : ρ
  clock : Nat
  stage : Nat → Stage ρ

/-- The phases of the requests, each an action of its own, and the passing of time. The random draw
and the number of a new row come with the action that uses them. -/
inductive Action (ρ : Type) where
  | guard (r : Nat) (creds : Credentials) (request : Request ρ)
  | load (r : Nat)
  | assign (r : Nat) (draw : KeyDraw)
  | commit (r : Nat) (nextId : Int)
  | respond (r : Nat)
  | tick (microseconds : Nat)

/-- No request has been received yet. -/
def Sys.Idle (s : Sys ρ) : Prop := ∀ r, s.stage r = .idle

/-- The service with one request somewhere else. -/
def Sys.setStage (s : Sys ρ) (r : Nat) (stage : Stage ρ) : Sys ρ :=
  { s with stage := Function.update s.stage r stage }

/-- A phase that fails answers the request. -/
def Stage.after (request : Request ρ) (actor : Option User) (phase : Except Failure Progress) :
    Stage ρ :=
  match phase with
  | .ok progress => .active ⟨request, actor, progress⟩
  | .error e => .answered (.error e)

/-- One action. An action that is not the next one of its request does nothing. -/
def step (env : Env) (s : Sys ρ) : Action ρ → Option (Sys ρ)
  | .guard r creds request =>
    match s.stage r with
    | .idle =>
      -- The caller's row is read here and not again.
      match guardRequest env s.users s.clock creds request with
      | .ok actor => some (s.setStage r (.active ⟨request, actor, .guarded⟩))
      | .error e => some (s.setStage r (.answered (.error e)))
    | _ => none
  | .load r =>
    match s.stage r with
    | .active ⟨request, actor, .guarded⟩ =>
      some (s.setStage r (.after request actor
        ((loadTarget env s.users actor request).map .loaded)))
    | _ => none
  | .assign r draw =>
    match s.stage r with
    | .active ⟨request, actor, .loaded copy⟩ =>
      some (s.setStage r (.after request actor
        ((assignWrite env s.clock request copy draw).map fun w => .assigned w.1 w.2)))
    | _ => none
  | .commit r nextId =>
    match s.stage r with
    | .active ⟨request, actor, .assigned write secret⟩ =>
      match commitWrite s.users write nextId with
      | .ok (users, written) =>
        some ({ s with users := users, rest := request.writeRest s.rest }.setStage r
          (.active ⟨request, actor, .committed written secret⟩))
      -- The transaction is rolled back.
      | .error e => some (s.setStage r (.answered (.error (.raised e))))
    | _ => none
  | .respond r =>
    -- The row read back may hold what other requests have committed since.
    match s.stage r with
    | .active ⟨request, _, .committed written secret⟩ =>
      some (s.setStage r (.answered
        ((respond env s.users s.clock request written secret).mapError .raised)))
    | _ => none
  | .tick microseconds => some { s with clock := s.clock + microseconds }

/-! ## Inversion, one action at a time -/

section Inversion

variable {env : Env} {s s' : Sys ρ} {r : Nat}

/-- What the guard's action does: it takes a new request on and changes nothing but where that one
is. -/
theorem step_guard {creds : Credentials} {request : Request ρ}
    (h : step env s (.guard r creds request) = some s') :
    s.stage r = .idle ∧ ∃ stage, s' = s.setStage r stage ∧
      ∀ f, stage = .active f → f.request = request ∧ f.progress = .guarded ∧
        guardRequest env s.users s.clock creds request = .ok f.actor := by
  simp only [step] at h
  split at h
  next hidle =>
    split at h
    next actor hguard =>
      refine ⟨hidle, _, (Option.some.inj h).symm, fun f hf => ?_⟩
      rw [← Stage.active.inj hf]
      exact ⟨rfl, rfl, hguard⟩
    next e _ => exact ⟨hidle, _, (Option.some.inj h).symm, fun f hf => nomatch hf⟩
  next => cases h

/-- A request that is still in flight after a phase is the same request, and its phase succeeded. -/
theorem after_active {request : Request ρ} {actor : Option User} {phase : Except Failure Progress}
    {f : InFlight ρ} (h : Stage.after request actor phase = .active f) :
    f.request = request ∧ f.actor = actor ∧ phase = .ok f.progress := by
  unfold Stage.after at h
  split at h
  next => rw [← Stage.active.inj h]; exact ⟨rfl, rfl, rfl⟩
  next => cases h

/-- What loading does: the request goes on with the row it has read, or is answered with the error.
-/
theorem step_load (h : step env s (.load r) = some s') :
    ∃ request actor, s.stage r = .active ⟨request, actor, .guarded⟩ ∧
      s' = s.setStage r (.after request actor
        ((loadTarget env s.users actor request).map .loaded)) := by
  simp only [step] at h
  split at h
  next request actor hstage => exact ⟨request, actor, hstage, (Option.some.inj h).symm⟩
  next => cases h

/-- What assigning does: the write is built from the copy and the clock. -/
theorem step_assign {draw : KeyDraw} (h : step env s (.assign r draw) = some s') :
    ∃ request actor copy, s.stage r = .active ⟨request, actor, .loaded copy⟩ ∧
      s' = s.setStage r (.after request actor
        ((assignWrite env s.clock request copy draw).map fun w => .assigned w.1 w.2)) := by
  simp only [step] at h
  split at h
  next request actor copy hstage => exact ⟨request, actor, copy, hstage, (Option.some.inj h).symm⟩
  next => cases h

/-- A commit either stores the write or answers with the database's error. -/
theorem step_commit {nextId : Int} (h : step env s (.commit r nextId) = some s') :
    ∃ request actor write secret, s.stage r = .active ⟨request, actor, .assigned write secret⟩ ∧
      ((∃ users written, commitWrite s.users write nextId = .ok (users, written) ∧
          s' = { s with users := users, rest := request.writeRest s.rest }.setStage r
            (.active ⟨request, actor, .committed written secret⟩)) ∨
        ∃ e, s' = s.setStage r (.answered (.error (.raised e)))) := by
  simp only [step] at h
  split at h
  next request actor write secret hstage =>
    refine ⟨request, actor, write, secret, hstage, ?_⟩
    split at h
    next users written hcommit =>
      exact Or.inl ⟨users, written, hcommit, (Option.some.inj h).symm⟩
    next e _ => exact Or.inr ⟨e, (Option.some.inj h).symm⟩
  next => cases h

theorem step_respond (h : step env s (.respond r) = some s') :
    ∃ result, s' = s.setStage r (.answered result) := by
  simp only [step] at h
  split at h
  next => exact ⟨_, (Option.some.inj h).symm⟩
  next => cases h

theorem step_tick {microseconds : Nat} (h : step env s (.tick microseconds) = some s') :
    s' = { s with clock := s.clock + microseconds } := (Option.some.inj h).symm

theorem setStage_self (s : Sys ρ) (r : Nat) (stage : Stage ρ) :
    (s.setStage r stage).stage r = stage := Function.update_self ..

theorem setStage_of_ne (s : Sys ρ) {r i : Nat} (stage : Stage ρ) (h : i ≠ r) :
    (s.setStage r stage).stage i = s.stage i := Function.update_of_ne h ..

/-- **What a step does to the table**: nothing, unless it commits an assigned
write. -/
theorem step_users {a : Action ρ} (h : step env s a = some s') :
    s'.users = s.users ∨
      ∃ r nextId request actor write secret written, a = .commit r nextId ∧
        s.stage r = .active ⟨request, actor, .assigned write secret⟩ ∧
        commitWrite s.users write nextId = .ok (s'.users, written) ∧
        s'.stage r = .active ⟨request, actor, .committed written secret⟩ := by
  cases a with
  | guard r creds request =>
    obtain ⟨-, stage, rfl, -⟩ := step_guard h
    exact Or.inl rfl
  | load r =>
    obtain ⟨request, actor, -, rfl⟩ := step_load h
    exact Or.inl rfl
  | assign r draw =>
    obtain ⟨request, actor, copy, -, rfl⟩ := step_assign h
    exact Or.inl rfl
  | commit r nextId =>
    obtain ⟨request, actor, write, secret, hstage, hcase⟩ := step_commit h
    -- the table changes in a commit that goes through, and in no other step
    rcases hcase with ⟨users, written, hcommit, rfl⟩ | ⟨e, rfl⟩
    · exact Or.inr ⟨r, nextId, request, actor, write, secret, written, rfl, hstage, hcommit,
        setStage_self _ _ _⟩
    · exact Or.inl rfl
  | respond r =>
    obtain ⟨result, rfl⟩ := step_respond h
    exact Or.inl rfl
  | tick microseconds =>
    rw [step_tick h]
    exact Or.inl rfl

/-- How the request `r` came to be `f`: by one of the phases. -/
inductive Advance (env : Env) (s : Sys ρ) (a : Action ρ) (r : Nat) (f : InFlight ρ) : Prop where
  | guard (creds : Credentials) (hact : a = .guard r creds f.request)
      (hok : guardRequest env s.users s.clock creds f.request = .ok f.actor)
      (hp : f.progress = .guarded)
  | load (copy : Option User) (hfrom : s.stage r = .active ⟨f.request, f.actor, .guarded⟩)
      (hok : loadTarget env s.users f.actor f.request = .ok copy) (hp : f.progress = .loaded copy)
  | assign (copy : Option User) (draw : KeyDraw) (write : Write) (secret : Text)
      (hfrom : s.stage r = .active ⟨f.request, f.actor, .loaded copy⟩)
      (hok : assignWrite env s.clock f.request copy draw = .ok (write, secret))
      (hp : f.progress = .assigned write secret) (hact : a = .assign r draw)
  | commit (write : Write) (written : Option Int) (secret : Text)
      (hfrom : s.stage r = .active ⟨f.request, f.actor, .assigned write secret⟩)
      (hp : f.progress = .committed written secret)

/-- **How a request in flight got there**: it was there before the step, or the
step was its latest phase. -/
theorem step_active {a : Action ρ} {f : InFlight ρ} (h : step env s a = some s')
    (hf : s'.stage r = .active f) : s.stage r = .active f ∨ Advance env s a r f := by
  -- A step about another request leaves this one alone.
  have hother : ∀ {m : Sys ρ} {i : Nat} {stage : Stage ρ}, s' = m.setStage i stage →
      m.stage = s.stage → r ≠ i → s.stage r = .active f := by
    intro m i stage he hm hne
    rw [he, setStage_of_ne _ _ hne, hm] at hf
    exact hf
  cases a with
  | guard i creds request =>
    obtain ⟨-, stage, hs, hactive⟩ := step_guard h
    by_cases hri : r = i
    · subst hri
      rw [hs, setStage_self] at hf
      obtain ⟨rfl, hp, hok⟩ := hactive f hf
      exact Or.inr (.guard creds rfl hok hp)
    · exact Or.inl (hother hs rfl hri)
  | load i =>
    obtain ⟨request, actor, hfrom, hs⟩ := step_load h
    by_cases hri : r = i
    · subst hri
      rw [hs, setStage_self] at hf
      obtain ⟨rfl, rfl, hphase⟩ := after_active hf
      obtain ⟨copy, hok, hp⟩ := map_eq_ok.mp hphase
      exact Or.inr (.load copy hfrom hok hp.symm)
    · exact Or.inl (hother hs rfl hri)
  | assign i draw =>
    obtain ⟨request, actor, copy, hfrom, hs⟩ := step_assign h
    by_cases hri : r = i
    · subst hri
      rw [hs, setStage_self] at hf
      obtain ⟨rfl, rfl, hphase⟩ := after_active hf
      obtain ⟨w, hok, hp⟩ := map_eq_ok.mp hphase
      exact Or.inr (.assign copy draw w.1 w.2 hfrom hok hp.symm rfl)
    · exact Or.inl (hother hs rfl hri)
  | commit i nextId =>
    obtain ⟨request, actor, write, secret, hfrom, hcase⟩ := step_commit h
    by_cases hri : r = i
    · subst hri
      rcases hcase with ⟨users, written, -, rfl⟩ | ⟨e, rfl⟩
      · rw [setStage_self] at hf
        rw [← Stage.active.inj hf]
        exact Or.inr (.commit write written secret hfrom rfl)
      · rw [setStage_self] at hf
        cases hf
    · rcases hcase with ⟨users, written, -, hs⟩ | ⟨e, hs⟩
      · exact Or.inl (hother hs rfl hri)
      · exact Or.inl (hother hs rfl hri)
  | respond i =>
    obtain ⟨result, hs⟩ := step_respond h
    by_cases hri : r = i
    · subst hri
      rw [hs, setStage_self] at hf
      cases hf
    · exact Or.inl (hother hs rfl hri)
  | tick microseconds =>
    rw [step_tick h] at hf
    exact Or.inl hf

end Inversion

/-! ## What is in flight -/

section Runs

variable {env : Env} {s₀ s s' : Sys ρ} {as : List (Action ρ)}

/-- The copy `copy` was loaded for `request`, from some table. -/
def Loaded (env : Env) (request : Request ρ) (actor copy : Option User) : Prop :=
  ∃ t, loadTarget env t actor request = .ok copy

/-- The write was assigned for `request`, to a copy it loaded. -/
def Assigned (env : Env) (request : Request ρ) (actor : Option User) (write : Write)
    (secret : Text) : Prop :=
  ∃ copy clock draw, Loaded env request actor copy ∧
    assignWrite env clock request copy draw = .ok (write, secret)

/-- What a request in flight owes to its earlier phases. -/
def InFlight.Traced (env : Env) (f : InFlight ρ) : Prop :=
  (∃ t clock creds, guardRequest env t clock creds f.request = .ok f.actor) ∧
    match f.progress with
    | .loaded copy => Loaded env f.request f.actor copy
    | .assigned write secret => Assigned env f.request f.actor write secret
    | _ => True

/-- Every request in flight went through its phases. -/
def Sys.Traced (env : Env) (s : Sys ρ) : Prop :=
  ∀ r f, s.stage r = .active f → f.Traced env

/-- Every step keeps the trace: what is in flight went through its own phases in order. -/
theorem traced_step {a : Action ρ} (hs : s.Traced env) (h : step env s a = some s') :
    s'.Traced env := by
  intro r f hf
  rcases step_active h hf with hsame | hadv
  · exact hs r f hsame
  · obtain ⟨request, actor, progress⟩ := f
    cases hadv with
    | guard creds hact hok hp => cases hp; exact ⟨⟨_, _, _, hok⟩, trivial⟩
    | load copy hfrom hok hp => cases hp; exact ⟨(hs r _ hfrom).1, _, hok⟩
    | assign copy draw write secret hfrom hok hp =>
      cases hp
      exact ⟨(hs r _ hfrom).1, copy, _, draw, (hs r _ hfrom).2, hok⟩
    | commit write written secret hfrom hp => cases hp; exact ⟨(hs r _ hfrom).1, trivial⟩

theorem traced_of_idle (h : s.Idle) : s.Traced env := by
  intro r f hf
  rw [h r] at hf
  cases hf

/-- In a run from a service at rest, everything in flight is traced. -/
theorem exec_traced (h₀ : s₀.Idle) (h : exec (step env) s₀ as = some s) : s.Traced env :=
  exec_inv_of_step (fun _ _ _ hs hstep => traced_step hs hstep) (traced_of_idle h₀) h

/-- The run `as` from `s₀` let `request` through its guard as request `r`,
with `actor` the resolved caller. -/
def GuardedIn (env : Env) (s₀ : Sys ρ) (as : List (Action ρ)) (r : Nat) (request : Request ρ)
    (actor : Option User) : Prop :=
  ∃ pre creds post m, as = pre ++ .guard r creds request :: post ∧
    exec (step env) s₀ pre = some m ∧
    guardRequest env m.users m.clock creds request = .ok actor

/-- A request that passed its guard in a run passed it in the longer run, too. -/
theorem guardedIn_snoc {r : Nat} {request : Request ρ} {actor : Option User} {a : Action ρ}
    (h : GuardedIn env s₀ as r request actor) : GuardedIn env s₀ (as ++ [a]) r request actor := by
  obtain ⟨pre, creds, post, m, rfl, hpre, hok⟩ := h
  exact ⟨pre, creds, post ++ [a], m, by simp, hpre, hok⟩

/-- **Whatever is in flight was let through by its guard, earlier in the run.** -/
theorem exec_guarded (h₀ : s₀.Idle) (h : exec (step env) s₀ as = some s) {r : Nat} {f : InFlight ρ}
    (hf : s.stage r = .active f) : GuardedIn env s₀ as r f.request f.actor := by
  let I : List (Action ρ) → Sys ρ → Prop := fun as s => exec (step env) s₀ as = some s ∧
    ∀ r f, s.stage r = .active f → GuardedIn env s₀ as r f.request f.actor
  have hstep : ∀ as s a s', I as s → step env s a = some s' → I (as ++ [a]) s' := by
    intro as s a s' hI ha
    refine ⟨exec_snoc_some.mpr ⟨s, hI.1, ha⟩, fun r f hf => ?_⟩
    rcases step_active ha hf with hsame | hadv
    · exact guardedIn_snoc (hI.2 r f hsame)
    · cases hadv with
      | guard creds hact hok hp => exact ⟨as, creds, [], s, by rw [hact], hI.1, hok⟩
      | load copy hfrom hok hp =>
        have hg := hI.2 r _ hfrom
        exact guardedIn_snoc hg
      | assign copy draw write secret hfrom hok hp =>
        have hg := hI.2 r _ hfrom
        exact guardedIn_snoc hg
      | commit write written secret hfrom hp =>
        have hg := hI.2 r _ hfrom
        exact guardedIn_snoc hg
  have hI : I as s :=
    exec_hist hstep ⟨rfl, fun r f hf => by rw [h₀ r] at hf; cases hf⟩ h
  exact hI.2 r f hf

end Runs

/-! ## A small installation

Concrete users and credentials in the sample environment, for the runs that are
evaluated below. -/

/-- An account with a number and a role, for the runs on fixed inputs. -/
def sampleUser (id : Int) (role : UserRole) : User where
  id := id
  name := []
  email := strInt id
  googleId := none
  pictureUrl := none
  authProvider := []
  role := role
  apiKeyPrefix := none
  apiKeyHash := none
  apiKeyName := none
  apiKeyCreatedAt := none
  apiKeyLastUsedAt := none
  apiKeyRevokedAt := none
  lastLoginAt := none
  sessionInvalidatedAt := none

/-- The session of a sign-in at time 0. -/
def signedInAs (id : Int) (role : UserRole) : Credentials :=
  ⟨none, some (mintSessionToken sampleEnv 0 id (strInt id) role), none⟩

/-- A draw whose token is one letter over and over. -/
def sampleDraw (c : Char) (h : isUrlsafe c = true) : KeyDraw where
  token := ⟨List.replicate 32 c, List.length_replicate, by simp [h]⟩
  salt := []

/-- The draw every fixed run below makes. -/
def drawA : KeyDraw := sampleDraw 'a' rfl

/-- Two users, nothing in flight. -/
def sampleSys (first second : UserRole)
    (h : ∀ u ∈ [sampleUser 1 first, sampleUser 2 second], u.Fits)
    (hk : Keyed [sampleUser 1 first, sampleUser 2 second]) : Sys Unit where
  users := ⟨[sampleUser 1 first, sampleUser 2 second], h, hk⟩
  rest := ()
  clock := 0
  stage := fun _ => .idle

/-- Two admins. -/
def twoAdmins : Sys Unit := sampleSys .admin .admin (by decide) (by decide)

/-- Request `r`, sent by the admin `actor`, up to its commit. -/
def roleChange (r : Nat) (actor userId : Int) (role : UserRole) : List (Action Unit) :=
  [.guard r (signedInAs actor .admin) (.updateRole userId role), .load r,
    .assign r drawA]

end SarkariWorld.Auth
