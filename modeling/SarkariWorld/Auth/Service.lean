import SarkariWorld.Auth.System

/-!
# One request at a time

The service as its clients see it when requests do not overlap: a call runs all
its phases at one instant and either fails, changing nothing, or is logged with
its answer. The log is a ghost, newest entry first; the code keeps none. It is
what statements about histories are written in: "the latest issue call for a
user" is an entry of the log.

`perform_effect` says what a successful call does, and every invariant of a
sequential run is a case analysis over it. `serve_refines` connects the two
levels: a sequential run is one of the interleavings of the concurrent system.

What is promised to clients is mostly about one request after another, and is proved of
sequential runs. The concurrent level is what the service can really do; where a promise
depends on how requests overlap, it is proved there.

A call that fails is not logged and leaves the state as it was. The answer in an entry is
what the handler returned, so that a statement about clients can quote it.
-/

namespace SarkariWorld.Auth

open SarkariWorld.Lib

variable {ρ : Type}

/-- One request as a client sends it, with the draw of its random key and the number the sequence
would give a new account. -/
structure Call (ρ : Type) where
  creds : Credentials
  request : Request ρ
  draw : KeyDraw
  nextId : Int

/-- A successful call: the row it wrote, when, and its answer. -/
structure Entry (ρ : Type) where
  request : Request ρ
  row : Option Int
  time : Nat
  response : Response

/-- The sequential service: the accounts, the rest of the database, the clock, and the log of what
was answered. -/
structure Service (ρ : Type) where
  users : UserTable
  rest : ρ
  clock : Nat
  log : List (Entry ρ)

/-- What happens to the service: a request comes in, or time passes. -/
inductive Event (ρ : Type) where
  | call (c : Call ρ)
  | tick (microseconds : Nat)

/-- All phases of a call, back to back. The last one does not fail
(`respond_after_commit`), so an error leaves nothing committed. -/
def perform (env : Env) (s : Service ρ) (c : Call ρ) : Except Failure (Service ρ × Response) := do
  let actor ← guardRequest env s.users s.clock c.creds c.request
  let copy ← loadTarget env s.users actor c.request
  let assigned ← assignWrite env s.clock c.request copy c.draw
  let stored ← (commitWrite s.users assigned.1 c.nextId).mapError Failure.raised
  let response ← (respond env stored.1 s.clock c.request stored.2 assigned.2).mapError
    Failure.raised
  pure ({ s with
    users := stored.1
    rest := c.request.writeRest s.rest
    log := ⟨c.request, stored.2, s.clock, response⟩ :: s.log }, response)

/-- One event. A request that fails in any phase leaves the service as it was. -/
def serve (env : Env) (s : Service ρ) : Event ρ → Option (Service ρ)
  | .call c =>
    match perform env s c with
    | .ok (s', _) => some s'
    | .error _ => some s
  | .tick microseconds => some { s with clock := s.clock + microseconds }

/-! ## What a call does -/

section Effect

variable {env : Env} {s s' : Service ρ} {c : Call ρ} {response : Response}

/-- A successful call is its phases, one after the other, each on what the one before left. -/
theorem perform_ok (h : perform env s c = .ok (s', response)) :
    ∃ actor copy write secret users written,
      guardRequest env s.users s.clock c.creds c.request = .ok actor ∧
      loadTarget env s.users actor c.request = .ok copy ∧
      assignWrite env s.clock c.request copy c.draw = .ok (write, secret) ∧
      commitWrite s.users write c.nextId = .ok (users, written) ∧
      respond env users s.clock c.request written secret = .ok response ∧
      s' = { s with
        users := users
        rest := c.request.writeRest s.rest
        log := ⟨c.request, written, s.clock, response⟩ :: s.log } := by
  obtain ⟨actor, hguard, h⟩ := bind_eq_ok.mp h
  obtain ⟨copy, hload, h⟩ := bind_eq_ok.mp h
  obtain ⟨⟨write, secret⟩, hassign, h⟩ := bind_eq_ok.mp h
  obtain ⟨⟨users, written⟩, hcommit, h⟩ := bind_eq_ok.mp h
  obtain ⟨answer, hrespond, h⟩ := bind_eq_ok.mp h
  have hp := Except.ok.inj h
  rw [Prod.mk.injEq] at hp
  obtain ⟨hs', rfl⟩ := hp
  exact ⟨actor, copy, write, secret, users, written, hguard, hload, hassign,
    mapError_eq_ok.mp hcommit, mapError_eq_ok.mp hrespond, hs'.symm⟩

/-- What a successful call did to the table: nothing, a new account, or an update
of a row that nobody else touched since it was loaded. -/
inductive Effect (env : Env) (s : Service ρ) (c : Call ρ) (users : UserTable) :
    Option Int → Text → Prop where
  | nothing (hsame : users = s.users) : Effect env s c users none []
  | insert (profile : OAuthProfile) (hreq : c.request = .signIn profile)
      (hfresh : s.users.find c.nextId = none)
      (hnew : users.find c.nextId =
        some { (newOauthUser env profile s.clock).asStored with id := c.nextId })
      (hother : ∀ i, i ≠ c.nextId → users.find i = s.users.find i) :
      Effect env s c users (some c.nextId) []
  | update (actor : Option User) (loaded row : User) (secret : Text)
      (hguard : guardRequest env s.users s.clock c.creds c.request = .ok actor)
      (hload : loadTarget env s.users actor c.request = .ok (some loaded))
      (hstored : s.users.find loaded.id = some loaded)
      (hassign : assignWrite env s.clock c.request (some loaded) c.draw =
        .ok (.update loaded row, secret))
      (hnew : users.find loaded.id = some (User.flush loaded row loaded))
      (hother : ∀ i, i ≠ loaded.id → users.find i = s.users.find i) :
      Effect env s c users (some loaded.id) secret

/-- Only an issue call assigns a secret, and only with an update. -/
theorem assignWrite_secret {copy : Option User} {write : Write} {secret : Text} {clock : Nat}
    {request : Request ρ} {draw : KeyDraw}
    (h : assignWrite env clock request copy draw = .ok (write, secret))
    (hw : ∀ loaded row, write ≠ .update loaded row) : secret = [] := by
  cases copy with
  | none => cases request <;> cases h <;> rfl
  | some u =>
    cases request with
    | issueApiKey userId name =>
      simp only [assignWrite] at h
      split at h
      next => cases h
      next row k hissue =>
        have hp := Except.ok.inj h
        rw [Prod.mk.injEq] at hp
        exact absurd hp.1.symm (hw u row)
    | content guard write => cases h; rfl
    | updateRole userId role => cases h; rfl
    | revokeApiKey userId => cases h; rfl
    | logout => cases h; rfl
    | signIn profile => cases h; rfl

/-- The first four phases back to back. -/
theorem effect_of_commit {actor copy : Option User} {write : Write} {secret : Text}
    {users : UserTable} {written : Option Int}
    (hguard : guardRequest env s.users s.clock c.creds c.request = .ok actor)
    (hload : loadTarget env s.users actor c.request = .ok copy)
    (hassign : assignWrite env s.clock c.request copy c.draw = .ok (write, secret))
    (hcommit : commitWrite s.users write c.nextId = .ok (users, written)) :
    Effect env s c users written secret := by
  have hfind := commitWrite_find hcommit
  cases write with
  | nothing =>
    obtain rfl := assignWrite_secret hassign (fun _ _ => nofun)
    have hp := Except.ok.inj hcommit
    rw [Prod.mk.injEq] at hp
    obtain ⟨rfl, rfl⟩ := hp
    exact .nothing rfl
  | insert row =>
    obtain rfl := assignWrite_secret hassign (fun _ _ => nofun)
    obtain ⟨profile, hreq, -, rfl⟩ := assignWrite_insert hassign
    obtain ⟨-, rfl⟩ := commitWrite_insert.mp hcommit
    exact .insert profile hreq (commitWrite_insert_fresh hcommit)
      ((hfind c.nextId).trans (if_pos rfl)) fun i hi => (hfind i).trans (if_neg hi)
  | update loaded row =>
    obtain ⟨rfl, -⟩ := assignWrite_update hassign
    obtain ⟨-, rfl⟩ := commitWrite_update.mp hcommit
    -- The copy is the stored row: nothing happened in between.
    have hstored : s.users.find loaded.id = some loaded := by
      rcases loadTarget_some hload with rfl | hrow
      · exact UserTable.find_of_mem (guardRequest_mem hguard)
      · exact UserTable.find_of_mem hrow
    refine .update actor loaded row secret hguard hload hstored hassign ?_ fun i hi =>
      (hfind i).trans (if_neg hi)
    rw [hfind, hstored]
    exact if_pos rfl

/-- **What a successful call does**, and the entry it is logged with. -/
theorem perform_effect (h : perform env s c = .ok (s', response)) :
    ∃ row secret, Effect env s c s'.users row secret ∧
      respond env s'.users s.clock c.request row secret = .ok response ∧
      s'.log = ⟨c.request, row, s.clock, response⟩ :: s.log ∧ s'.clock = s.clock := by
  obtain ⟨actor, copy, write, secret, users, written, hguard, hload, hassign, hcommit, hrespond,
    rfl⟩ := perform_ok h
  exact ⟨written, secret, effect_of_commit hguard hload hassign hcommit, hrespond, rfl, rfl⟩

/-- A row that was written is there. -/
theorem effect_written {users : UserTable} {i : Int} {secret : Text}
    (h : Effect env s c users (some i) secret) : ∃ u, users.find i = some u := by
  cases h with
  | insert profile hreq hfresh hnew hother => exact ⟨_, hnew⟩
  | update actor loaded row secret hguard hload hstored hassign hnew hother => exact ⟨_, hnew⟩

/-- **A call fails before its commit or not at all**, so one that fails has
changed nothing: the requests that read a row back have written it. -/
theorem respond_after_commit {actor copy : Option User} {write : Write} {secret : Text}
    {users : UserTable} {written : Option Int}
    (hguard : guardRequest env s.users s.clock c.creds c.request = .ok actor)
    (hload : loadTarget env s.users actor c.request = .ok copy)
    (hassign : assignWrite env s.clock c.request copy c.draw = .ok (write, secret))
    (hcommit : commitWrite s.users write c.nextId = .ok (users, written)) :
    ∃ response, respond env users s.clock c.request written secret = .ok response := by
  have heffect := effect_of_commit hguard hload hassign hcommit
  have hrefresh : write ≠ .nothing → ∃ u, refresh users written = .ok u := by
    intro hwrite
    cases written with
    | none =>
      -- Every write but `nothing` names its row.
      cases write with
      | nothing => exact absurd rfl hwrite
      | insert row => cases (commitWrite_insert.mp hcommit).2
      | update loaded row => cases (commitWrite_update.mp hcommit).2
    | some i =>
      obtain ⟨u, hu⟩ := effect_written heffect
      exact ⟨u, by simp only [refresh, Option.bind_some, hu]⟩
  cases hreq : c.request with
  | updateRole userId role =>
    rw [hreq] at hguard hload hassign
    obtain ⟨who, via, rfl, -⟩ := guardRequest_admin rfl hguard
    obtain ⟨-, v, rfl, -⟩ := loadTarget_updateRole hload
    have hp := Except.ok.inj hassign
    rw [Prod.mk.injEq] at hp
    obtain ⟨u, hu⟩ := hrefresh (hp.1 ▸ nofun)
    exact ⟨.user u, by simp only [respond, hu, Except.map]⟩
  | signIn profile =>
    rw [hreq] at hassign
    have hwrite : write ≠ .nothing := by
      rintro rfl
      cases copy <;> cases hassign
    obtain ⟨u, hu⟩ := hrefresh hwrite
    exact ⟨_, by simp only [respond, hu, Except.map]; rfl⟩
  | issueApiKey userId name => exact ⟨_, rfl⟩
  | revokeApiKey userId => exact ⟨_, rfl⟩
  | logout => exact ⟨_, rfl⟩
  | content guard write => exact ⟨_, rfl⟩

/-- Users stay. -/
theorem effect_find_some {users : UserTable} {row : Option Int} {secret : Text}
    (h : Effect env s c users row secret) {i : Int} {u : User} (hu : s.users.find i = some u) :
    ∃ u', users.find i = some u' := by
  cases h with
  | nothing hsame => exact ⟨u, hsame ▸ hu⟩
  | insert profile hreq hfresh hnew hother =>
    by_cases hi : i = c.nextId
    · exact ⟨_, hi ▸ hnew⟩
    · exact ⟨u, (hother i hi).trans hu⟩
  | update actor loaded row secret hguard hload hstored hassign hnew hother =>
    by_cases hi : i = loaded.id
    · exact ⟨_, hi ▸ hnew⟩
    · exact ⟨u, (hother i hi).trans hu⟩

/-- What a step of the service is: time passing, a call that failed, or a
successful call. -/
theorem serve_cases {event : Event ρ} (h : serve env s event = some s') :
    (∃ microseconds, event = .tick microseconds ∧
      s' = { s with clock := s.clock + microseconds }) ∨
    (∃ c, event = .call c ∧ s' = s) ∨
    ∃ c response, event = .call c ∧ perform env s c = .ok (s', response) := by
  cases event with
  | tick microseconds => exact Or.inl ⟨microseconds, rfl, (Option.some.inj h).symm⟩
  | call c =>
    simp only [serve] at h
    split at h
    next s₁ response hperform =>
      rw [Option.some.inj h] at hperform
      exact Or.inr (Or.inr ⟨c, response, rfl, hperform⟩)
    next => exact Or.inr (Or.inl ⟨c, rfl, (Option.some.inj h).symm⟩)

end Effect

/-! ## A sequential run is an interleaving -/

section Refinement

variable {env : Env} {s s' : Service ρ} {sys : Sys ρ}

/-- The phases of request `r`, with nothing in between. -/
def Call.schedule (c : Call ρ) (r : Nat) : List (Action ρ) :=
  [.guard r c.creds c.request, .load r, .assign r c.draw, .commit r c.nextId, .respond r]

/-- The two levels agree on everything but the ghost log. -/
structure Agrees (s : Service ρ) (sys : Sys ρ) : Prop where
  users : sys.users = s.users
  rest : sys.rest = s.rest
  clock : sys.clock = s.clock

/-- A successful call is a schedule of the concurrent system: the request goes through its actions
with nothing in between. -/
theorem perform_refines {c : Call ρ} {response : Response} {r : Nat}
    (h : perform env s c = .ok (s', response)) (hagree : Agrees s sys)
    (hidle : sys.stage r = .idle) :
    ∃ sys', exec (step env) sys (c.schedule r) = some sys' ∧ Agrees s' sys' ∧
      sys'.stage r = .answered (.ok response) ∧ ∀ i, i ≠ r → sys'.stage i = sys.stage i := by
  obtain ⟨actor, copy, write, secret, users, written, hguard, hload, hassign, hcommit, hrespond,
    rfl⟩ := perform_ok h
  obtain ⟨users₀, rest, clock, stage⟩ := sys
  obtain ⟨rfl, rfl, rfl⟩ := hagree
  change stage r = .idle at hidle
  -- the five stages of the request, one after the other with nothing in between
  let sysAt (t : UserTable) (o : ρ) (st : Stage ρ) : Sys ρ :=
    ⟨t, o, s.clock, Function.update stage r st⟩
  have h₁ : step env ⟨s.users, s.rest, s.clock, stage⟩ (.guard r c.creds c.request) =
      some (sysAt s.users s.rest (.active ⟨c.request, actor, .guarded⟩)) := by
    simp only [step, hidle, hguard]
    rfl
  have h₂ : step env (sysAt s.users s.rest (.active ⟨c.request, actor, .guarded⟩)) (.load r) =
      some (sysAt s.users s.rest (.active ⟨c.request, actor, .loaded copy⟩)) := by
    simp only [step, sysAt, Function.update_self, hload, Sys.setStage, Function.update_idem]
    rfl
  have h₃ : step env (sysAt s.users s.rest (.active ⟨c.request, actor, .loaded copy⟩))
      (.assign r c.draw) =
      some (sysAt s.users s.rest (.active ⟨c.request, actor, .assigned write secret⟩)) := by
    simp only [step, sysAt, Function.update_self, hassign, Sys.setStage, Function.update_idem]
    rfl
  have h₄ : step env (sysAt s.users s.rest (.active ⟨c.request, actor, .assigned write secret⟩))
      (.commit r c.nextId) =
      some (sysAt users (c.request.writeRest s.rest)
        (.active ⟨c.request, actor, .committed written secret⟩)) := by
    simp only [step, sysAt, Function.update_self, hcommit, Sys.setStage, Function.update_idem]
  have h₅ : step env (sysAt users (c.request.writeRest s.rest)
      (.active ⟨c.request, actor, .committed written secret⟩)) (.respond r) =
      some (sysAt users (c.request.writeRest s.rest) (.answered (.ok response))) := by
    simp only [step, sysAt, Function.update_self, hrespond, Sys.setStage, Function.update_idem]
    rfl
  refine ⟨sysAt users (c.request.writeRest s.rest) (.answered (.ok response)), ?_, ⟨rfl, rfl, rfl⟩,
    Function.update_self .., fun i hi => Function.update_of_ne hi ..⟩
  simp only [Call.schedule, exec, h₁, h₂, h₃, h₄, h₅, Option.bind_some]

/-- **Refinement.** Whatever a sequential run does to the tables and the clock,
the concurrent system can do, with fresh request numbers. -/
theorem serve_refines {events : List (Event ρ)} {n : Nat}
    (h : exec (serve env) s events = some s') (hagree : Agrees s sys)
    (hidle : ∀ i, n ≤ i → sys.stage i = .idle) :
    ∃ as sys', exec (step env) sys as = some sys' ∧ Agrees s' sys' := by
  induction events generalizing s sys n with
  | nil =>
    obtain rfl := Option.some.inj h
    exact ⟨[], sys, rfl, hagree⟩
  | cons event events ih =>
    obtain ⟨m, hevent, hrest⟩ := exec_cons_some.mp h
    rcases serve_cases hevent with ⟨d, rfl, rfl⟩ | ⟨c, rfl, rfl⟩ | ⟨c, response, rfl, hperform⟩
    · have hlater : Agrees { s with clock := s.clock + d } { sys with clock := sys.clock + d } :=
        ⟨hagree.users, hagree.rest, congrArg (fun t => t + d) hagree.clock⟩
      obtain ⟨as, sys', has, hagree'⟩ := ih hrest hlater hidle
      exact ⟨.tick d :: as, sys', exec_cons_some.mpr ⟨_, rfl, has⟩, hagree'⟩
    · exact ih hrest hagree hidle
    · obtain ⟨sys₁, hsys₁, hagree₁, hdone, hother⟩ :=
        perform_refines hperform hagree (hidle n (Nat.le_refl n))
      -- the calls take the slots one by one, so those from the next on are still idle
      have hidle₁ : ∀ i, n + 1 ≤ i → sys₁.stage i = .idle := by
        intro i hi
        rw [hother i (by omega)]
        exact hidle i (by omega)
      obtain ⟨as, sys', has, hagree'⟩ := ih hrest hagree₁ hidle₁
      exact ⟨c.schedule n ++ as, sys', exec_append_some.mpr ⟨sys₁, hsys₁, has⟩, hagree'⟩

end Refinement

/-- The two admins of `twoAdmins`, served one at a time. -/
def sampleService : Service Unit := ⟨twoAdmins.users, (), 0, []⟩

/-- A call of the admin 1. -/
def adminCall (request : Request Unit) : Call Unit :=
  ⟨signedInAs 1 .admin, request, drawA, 0⟩

end SarkariWorld.Auth
