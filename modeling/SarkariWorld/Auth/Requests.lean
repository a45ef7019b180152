import SarkariWorld.Auth.CurrentUser

/-!
# The requests, phase by phase

A write request of the API runs in five phases: its guard resolves the caller,
it loads the row it will write, it assigns to its own copy of that row, it
commits, and it answers. Each phase is a function here, so that the concurrent
system can interleave the phases of many requests and the sequential service
can run them back to back.

The requests of `routers/v1/admin/users.py` and `routers/v1/auth.py` are the
only ones that write the `User` table. Every other endpoint of the API is a
`content` request: it has a guard, changes the other tables (`ρ`) in any way it
likes, and leaves its caller's row as it loaded it.

The order of the phases is the order of the source. What a request reads before its commit
it reads once: the guard's row, the row it loads and the clock it assigns from are all of
an earlier moment than the commit, and the lemmas about a phase say what it took from the
table it was given.

`ρ` is whatever else is stored, and a `content` request changes it by an arbitrary
function. So the results about accounts hold for any implementation of the rest, and
`Site` fills it in.
-/

namespace SarkariWorld.Auth

open SarkariWorld.Lib

/-- What `verify_credential` returns for a Google credential it accepts. -/
structure OAuthProfile where
  email : Text
  name : Text
  subject : Text
  picture : Option Text
  deriving DecidableEq, Repr

/-- The guards declared on a route: `require_auth`, `require_manage` on all of
`/admin`, and `require_role(ADMIN)` below it on `/admin/users`. -/
inductive Guard where
  | auth
  | manage (method : Method)
  | admin (method : Method)
  deriving DecidableEq, Repr

variable {ρ : Type}

/-- The write requests, with what their handlers get from the path and the body. A `content` request
stands for every endpoint outside these two routers. -/
inductive Request (ρ : Type) where
  | updateRole (userId : Int) (role : UserRole)
  | issueApiKey (userId : Int) (name : Option Text)
  | revokeApiKey (userId : Int)
  | logout
  | signIn (profile : OAuthProfile)
  | content (guard : Option Guard) (write : ρ → ρ)

/-- The guard in front of the handler. A sign-in has none. -/
def Request.guard : Request ρ → Option Guard
  | .updateRole _ _ => some (.admin .patch)
  | .issueApiKey _ _ => some (.admin .post)
  | .revokeApiKey _ => some (.admin .delete)
  | .logout => some .auth
  | .signIn _ => none
  | .content guard _ => guard

/-- What a request does to the other tables. -/
def Request.writeRest : Request ρ → ρ → ρ
  | .content _ write => write
  | _ => id

/-! ## The guard -/

/-- The guards run outermost first, all on the one resolved user. -/
def Guard.check (guard : Guard) (user : Option User) : Except AppError User :=
  match guard with
  | .auth => requireAuth user
  | .manage method => do
    let user ← requireAuth user
    requireManage method user
  | .admin method => do
    let user ← requireAuth user
    let user ← requireManage method user
    requireRole [.admin] user

/-- The first phase: resolve the caller and check the route's guard. -/
def guardRequest (env : Env) (t : UserTable) (clock : Nat) (creds : Credentials)
    (request : Request ρ) : Except Failure (Option User) :=
  match request.guard with
  | none => .ok none
  | some guard =>
    match currentUser env t clock creds with
    | .error e => .error (.raised e)
    | .ok found =>
      match guard.check (found.map Prod.fst) with
      | .error e => .error (.app e)
      | .ok actor => .ok (some actor)

/-! ## Loading -/

/-- `get_by_id` inside a request, and its 404. The session already holds the
caller's row and hands that copy out again. -/
def getUser (t : UserTable) (actor : Option User) (userId : Int) : Except Failure User :=
  match actor.filter fun a => a.id = userId with
  | some a => .ok a
  | none =>
    match getById t userId with
    | .error e => .error (.raised e)
    | .ok none => .error (.app (notFoundError ("User not found: " ++ toString userId)))
    | .ok (some u) => .ok u

/-- `get_by_email`. A parameter with U+0000 in it is refused by the driver. -/
def getByEmail (env : Env) (t : UserTable) (email : Text) : Except PyError (Option User) :=
  if Storable (env.lower (strip email)) then
    scalarOneOrNone (whereEq User.emailCol (env.lower (strip email)) t.rows)
  else .error .dataError

/-- `normalized`, in `upsert_oauth_user`. -/
def OAuthProfile.normalized (env : Env) (profile : OAuthProfile) : Text :=
  env.lower (strip profile.email)

/-- The second phase: the request's copy of the row it will write, `none` where
it will write a new row or none at all. -/
def loadTarget (env : Env) (t : UserTable) (actor : Option User) (request : Request ρ) :
    Except Failure (Option User) :=
  match request with
  | .updateRole userId _ =>
    -- Checked before the lookup, so a self-change is a 409 and never a 404.
    if actor.map User.id = some userId then
      .error (.app (conflictError "You cannot change your own role."))
    else (getUser t actor userId).map some
  | .issueApiKey userId _ => (getUser t actor userId).map some
  | .revokeApiKey userId => do
    let user ← getUser t actor userId
    if user.apiKeyHash = none then .error (.app (notFoundError "That user holds no API key."))
    else .ok (some user)
  | .logout => .ok actor
  -- By address, not by Google's subject.
  | .signIn profile =>
    match getByEmail env t (profile.normalized env) with
    | .error e => .error (.raised e)
    | .ok user => .ok user
  | .content _ _ => .ok none

/-! ## Assigning -/

/-- What a request's session will write. -/
inductive Write where
  | nothing
  | insert (row : User)
  | update (loaded row : User)
  deriving DecidableEq, Repr

/-- The assignment of `invalidate_sessions`. -/
def invalidateSessions (user : User) (clock : Nat) : User :=
  { user with sessionInvalidatedAt := some (utcNow clock) }

/-- The row of a first sign-in. The sequence numbers it at commit. -/
def newOauthUser (env : Env) (profile : OAuthProfile) (clock : Nat) : User where
  id := 0
  name :=
    if profile.name ≠ [] then profile.name
    else (profile.normalized env).takeWhile fun c => c ≠ '@'
  email := profile.normalized env
  googleId := some profile.subject
  pictureUrl := profile.picture
  authProvider := ['g', 'o', 'o', 'g', 'l', 'e']
  role := .user
  apiKeyPrefix := none
  apiKeyHash := none
  apiKeyName := none
  apiKeyCreatedAt := none
  apiKeyLastUsedAt := none
  apiKeyRevokedAt := none
  lastLoginAt := some (nowIst clock)
  sessionInvalidatedAt := none

/-- The assignments of `upsert_oauth_user` to an existing row: "never touch
`role` here". -/
def refreshProfile (user : User) (profile : OAuthProfile) (clock : Nat) : User :=
  { user with
    googleId := if profile.subject ≠ [] then some profile.subject else user.googleId
    pictureUrl := if profile.picture.getD [] ≠ [] then profile.picture else user.pictureUrl
    name := if profile.name ≠ [] then profile.name else user.name
    authProvider := ['g', 'o', 'o', 'g', 'l', 'e']
    lastLoginAt := some (nowIst clock) }

/-- The third phase: the assignments, and the secret an issue call will answer
with. -/
def assignWrite (env : Env) (clock : Nat) (request : Request ρ) (copy : Option User)
    (draw : KeyDraw) : Except Failure (Write × Text) :=
  match request, copy with
  | .updateRole _ role, some u => .ok (.update u { u with role := role }, [])
  | .issueApiKey _ name, some u =>
    match issue env u name clock draw with
    | .error e => .error (.app e)
    | .ok (row, secret) => .ok (.update u row, secret)
  | .revokeApiKey _, some u => .ok (.update u (revoke u clock), [])
  | .logout, some u => .ok (.update u (invalidateSessions u clock), [])
  | .signIn profile, none => .ok (.insert (newOauthUser env profile clock), [])
  | .signIn profile, some u => .ok (.update u (refreshProfile u profile clock), [])
  | _, _ => .ok (.nothing, [])

/-! ## Committing and answering -/

/-- The fourth phase: the new table, and the id of the row written. -/
def commitWrite (t : UserTable) (write : Write) (nextId : Int) :
    Except PyError (UserTable × Option Int) :=
  match write with
  | .nothing => .ok (t, none)
  | .insert row => (commitRow t none row nextId).map fun t' => (t', some nextId)
  | .update loaded row => (commitRow t (some loaded) row nextId).map fun t' => (t', some loaded.id)

/-- What a request answers with: the row, the secret of a new key, a session, or nothing. -/
inductive Response where
  | user (user : User)
  | apiKey (secret : Text)
  | session (userId : Int) (token : Text)
  | noContent
  deriving DecidableEq, Repr

/-- The token of a session minted for this user. -/
def Response.sessionFor (userId : Int) : Response → Option Text
  | .session id token => if id = userId then some token else none
  | _ => none

theorem Response.sessionFor_eq_some {userId : Int} {response : Response} {token : Text}
    (h : response.sessionFor userId = some token) : response = .session userId token := by
  cases response with
  | session id minted =>
    obtain ⟨hid, htoken⟩ := Option.ite_none_right_eq_some.mp h
    rw [hid, Option.some.inj htoken]
  | user u => cases h
  | apiKey secret => cases h
  | noContent => cases h

/-- `session.refresh` on the row just written. -/
def refresh (t : UserTable) (written : Option Int) : Except PyError User :=
  match written.bind t.find with
  | some u => .ok u
  | none => .error .invalidRequestError

/-- The last phase. A sign-in mints its token from the refreshed row. -/
def respond (env : Env) (t : UserTable) (clock : Nat) (request : Request ρ) (written : Option Int)
    (secret : Text) : Except PyError Response :=
  match request with
  | .updateRole _ _ => (refresh t written).map .user
  | .issueApiKey _ _ => .ok (.apiKey secret)
  -- The lifetime is that of the role read back, not of the role loaded.
  | .signIn _ => (refresh t written).map fun u =>
      .session u.id (mintSessionToken env clock u.id u.email u.role)
  | .revokeApiKey _ | .logout | .content _ _ => .ok .noContent

/-! ## What each phase guarantees -/

section Phases

variable {env : Env} {t t' : UserTable} {clock : Nat} {creds : Credentials} {request : Request ρ}
  {actor copy : Option User} {draw : KeyDraw} {write : Write} {secret : Text} {nextId : Int}
  {written : Option Int}

theorem requireAuth_ok {user : Option User} {a : User} (h : requireAuth user = .ok a) :
    user = some a := by
  cases user with
  | none => cases h
  | some u => rw [Except.ok.inj h]

/-- Whoever passes `require_manage` is staff, and an admin if the method is `DELETE`. -/
theorem requireManage_ok {method : Method} {user a : User}
    (h : requireManage method user = .ok a) :
    user = a ∧ a.role ∈ staffRoles ∧ (method = .delete → a.role = .admin) := by
  obtain ⟨hstaff, h⟩ := ite_error_eq_ok.mp h
  obtain ⟨hdel, h⟩ := ite_error_eq_ok.mp h
  have ha := Except.ok.inj h
  subst ha
  exact ⟨rfl, not_not.mp hstaff, fun hm => not_not.mp fun hne => hdel ⟨hm, hne⟩⟩

theorem requireRole_ok {roles : List UserRole} {user a : User}
    (h : requireRole roles user = .ok a) : user = a ∧ a.role ∈ roles := by
  obtain ⟨hmem, h⟩ := ite_error_eq_ok.mp h
  have ha := Except.ok.inj h
  subst ha
  exact ⟨rfl, not_not.mp hmem⟩

/-- A guard lets the resolved user through, and nobody else. -/
theorem guardCheck_ok {guard : Guard} {user : Option User} {a : User}
    (h : guard.check user = .ok a) : user = some a := by
  cases guard with
  | auth => exact requireAuth_ok h
  | manage method =>
    obtain ⟨u, hauth, h⟩ := bind_eq_ok.mp h
    obtain ⟨rfl, -⟩ := requireManage_ok h
    exact requireAuth_ok hauth
  | admin method =>
    obtain ⟨u, hauth, h⟩ := bind_eq_ok.mp h
    obtain ⟨v, hmanage, h⟩ := bind_eq_ok.mp h
    obtain ⟨rfl, -⟩ := requireRole_ok h
    obtain ⟨rfl, -⟩ := requireManage_ok hmanage
    exact requireAuth_ok hauth

/-- The admin guard lets only admins through. -/
theorem guardCheck_admin {method : Method} {user : Option User} {a : User}
    (h : (Guard.admin method).check user = .ok a) : user = some a ∧ a.role = .admin := by
  obtain ⟨u, hauth, h⟩ := bind_eq_ok.mp h
  obtain ⟨v, hmanage, h⟩ := bind_eq_ok.mp h
  obtain ⟨rfl, hrole⟩ := requireRole_ok h
  obtain ⟨rfl, -, -⟩ := requireManage_ok hmanage
  exact ⟨requireAuth_ok hauth, List.mem_singleton.mp hrole⟩

/-- A guarded request goes on with a resolved caller that passed its guard. -/
theorem guardRequest_ok {guard : Guard} (hg : request.guard = some guard)
    (h : guardRequest env t clock creds request = .ok actor) :
    ∃ found a, currentUser env t clock creds = .ok found ∧
      guard.check (found.map Prod.fst) = .ok a ∧ actor = some a := by
  simp only [guardRequest, hg] at h
  split at h
  next => cases h
  next found hfound =>
    split at h
    next => cases h
    next a ha => exact ⟨found, a, hfound, ha, (Except.ok.inj h).symm⟩

/-- The caller of a request in flight was resolved to a stored row. -/
theorem guardRequest_mem {a : User}
    (h : guardRequest env t clock creds request = .ok (some a)) : a ∈ t.rows := by
  cases hg : request.guard with
  | none =>
    simp only [guardRequest, hg] at h
    cases h
  | some guard =>
    obtain ⟨found, b, hfound, hcheck, hb⟩ := guardRequest_ok hg h
    obtain ⟨⟨c, via⟩, rfl, rfl⟩ := Option.map_eq_some_iff.mp (guardCheck_ok hcheck)
    rw [Option.some.inj hb]
    exact currentUser_mem hfound

/-- **Who an admin route's guard lets through**: a resolved user whose row held
the admin role at that moment. -/
theorem guardRequest_admin {method : Method} (hg : request.guard = some (.admin method))
    (h : guardRequest env t clock creds request = .ok actor) :
    ∃ a via, actor = some a ∧ currentUser env t clock creds = .ok (some (a, via)) ∧
      a.role = .admin := by
  obtain ⟨found, a, hfound, hcheck, hactor⟩ := guardRequest_ok hg h
  obtain ⟨hmap, hrole⟩ := guardCheck_admin hcheck
  obtain ⟨⟨b, via⟩, rfl, rfl⟩ := Option.map_eq_some_iff.mp hmap
  exact ⟨b, via, hactor, hfound, hrole⟩

/-- The row `get_by_id` hands out has the id asked for: it is the stored row, or
the caller's own copy. -/
theorem getUser_ok {userId : Int} {u : User} (h : getUser t actor userId = .ok u) :
    u.id = userId ∧ (actor = some u ∨ t.find userId = some u) := by
  unfold getUser at h
  split at h
  next a ha =>
    obtain ⟨hactor, hid⟩ := Option.filter_eq_some_iff.mp ha
    have hau := Except.ok.inj h
    subst hau
    exact ⟨of_decide_eq_true hid, Or.inl hactor⟩
  next =>
    split at h
    next => cases h
    next => cases h
    next v hget =>
      have hvu := Except.ok.inj h
      subst hvu
      have hfind := getById_mem hget
      exact ⟨(UserTable.find_eq_some.mp hfind).2, Or.inr hfind⟩

/-- Of a text the driver sends, `get_by_email` never raises: the email column is unique. -/
theorem getByEmail_eq {email : Text} (h : Storable (env.lower (strip email))) :
    getByEmail env t email = .ok (lookup User.emailCol (env.lower (strip email)) t.rows) := by
  rw [getByEmail, if_pos h]
  exact scalarOneOrNone_whereEq t.keyed.email _

/-- If the lookup by address succeeds, the address could be bound, and the row is the one that has
it, if there is one. -/
theorem getByEmail_ok {email : Text} {found : Option User}
    (h : getByEmail env t email = .ok found) :
    Storable (env.lower (strip email)) ∧
      found = lookup User.emailCol (env.lower (strip email)) t.rows := by
  by_cases hstorable : Storable (env.lower (strip email))
  · rw [getByEmail_eq hstorable] at h
    exact ⟨hstorable, (Except.ok.inj h).symm⟩
  · rw [getByEmail, if_neg hstorable] at h
    cases h

/-- A role change loads the row it was asked to change, never the caller's. -/
theorem loadTarget_updateRole {userId : Int} {role : UserRole} {a : User}
    (h : loadTarget env t (some a) (.updateRole userId role : Request ρ) = .ok copy) :
    a.id ≠ userId ∧ ∃ u, copy = some u ∧ t.find userId = some u ∧ u.id = userId := by
  obtain ⟨hne, h⟩ := ite_error_eq_ok.mp h
  rw [Option.map_some, Option.some.injEq] at hne
  obtain ⟨u, hget, hu⟩ := map_eq_ok.mp h
  obtain ⟨hid, hfrom⟩ := getUser_ok hget
  refine ⟨hne, u, hu.symm, ?_, hid⟩
  rcases hfrom with ha | hfind
  · exact absurd (Option.some.inj ha ▸ hid) hne
  · exact hfind

/-- **Where a copy comes from**: it is a stored row, or the caller's own. -/
theorem loadTarget_some {u : User} (h : loadTarget env t actor request = .ok (some u)) :
    actor = some u ∨ u ∈ t.rows := by
  -- a load comes from the table, or from the session that already holds the caller's row
  have hget : ∀ {userId : Int} {v : User}, getUser t actor userId = .ok v →
      actor = some v ∨ v ∈ t.rows := by
    intro userId v hv
    obtain ⟨-, hfrom⟩ := getUser_ok hv
    exact hfrom.imp id fun hfind => (UserTable.find_eq_some.mp hfind).1
  cases request with
  | updateRole userId role =>
    obtain ⟨-, h⟩ := ite_error_eq_ok.mp h
    obtain ⟨v, hv, he⟩ := map_eq_ok.mp h
    exact Option.some.inj he ▸ hget hv
  | issueApiKey userId name =>
    obtain ⟨v, hv, he⟩ := map_eq_ok.mp h
    exact Option.some.inj he ▸ hget hv
  | revokeApiKey userId =>
    obtain ⟨v, hv, h⟩ := bind_eq_ok.mp h
    obtain ⟨-, h⟩ := ite_error_eq_ok.mp h
    exact Option.some.inj (Except.ok.inj h) ▸ hget hv
  | logout => exact Or.inl (Except.ok.inj h)
  | signIn profile =>
    simp only [loadTarget] at h
    split at h
    next => cases h
    next found hfound =>
      obtain ⟨-, rfl⟩ := getByEmail_ok hfound
      exact Or.inr (mem_of_lookup (Except.ok.inj h)).1
  | content guard write => cases h

variable {loaded row : User}

/-- What `issue` assigns, and to whom. -/
theorem issue_ok {name : Option Text} (h : issue env loaded name clock draw = .ok (row, secret)) :
    loaded.role ∈ staffRoles ∧ secret = draw.token.secret ∧
      row = { loaded with
        apiKeyPrefix := some (secret.take apiKeyLookupPrefixLength)
        apiKeyHash := some (env.hashpw secret draw.salt)
        apiKeyName := name
        apiKeyCreatedAt := some (nowIst clock)
        apiKeyLastUsedAt := none
        apiKeyRevokedAt := none } := by
  obtain ⟨hstaff, h⟩ := ite_error_eq_ok.mp h
  have hpair := Except.ok.inj h
  rw [Prod.mk.injEq] at hpair
  obtain ⟨hrow, hsecret⟩ := hpair
  exact ⟨not_not.mp hstaff, hsecret.symm, by rw [← hrow, ← hsecret]⟩

/-- **What each request assigns to the copy it loaded.** Everything later
results need to know about the third phase is in these five cases. -/
theorem assignWrite_update
    (h : assignWrite env clock request copy draw = .ok (.update loaded row, secret)) :
    copy = some loaded ∧
      ((∃ userId role, request = .updateRole userId role ∧ row = { loaded with role := role }) ∨
        (∃ userId name, request = .issueApiKey userId name ∧
          issue env loaded name clock draw = .ok (row, secret)) ∨
        (∃ userId, request = .revokeApiKey userId ∧ row = revoke loaded clock) ∨
        (request = .logout ∧ row = invalidateSessions loaded clock) ∨
        (∃ profile, request = .signIn profile ∧ row = refreshProfile loaded profile clock)) := by
  have hpair : ∀ {u v : User} {k : Text},
      (Except.ok (Write.update u v, k) : Except Failure _) = .ok (.update loaded row, secret) →
      u = loaded ∧ v = row ∧ k = secret := by
    intro u v k he
    have hp := Except.ok.inj he
    rw [Prod.mk.injEq, Write.update.injEq] at hp
    exact ⟨hp.1.1, hp.1.2, hp.2⟩
  cases copy with
  | none => cases request <;> cases h
  | some u =>
    cases request with
    | updateRole userId role =>
      obtain ⟨rfl, rfl, -⟩ := hpair h
      exact ⟨rfl, Or.inl ⟨userId, role, rfl, rfl⟩⟩
    | issueApiKey userId name =>
      simp only [assignWrite] at h
      split at h
      next => cases h
      next v k hissue =>
        obtain ⟨rfl, rfl, rfl⟩ := hpair h
        exact ⟨rfl, Or.inr (Or.inl ⟨userId, name, rfl, hissue⟩)⟩
    | revokeApiKey userId =>
      obtain ⟨rfl, rfl, -⟩ := hpair h
      exact ⟨rfl, Or.inr (Or.inr (Or.inl ⟨userId, rfl, rfl⟩))⟩
    | logout =>
      obtain ⟨rfl, rfl, -⟩ := hpair h
      exact ⟨rfl, Or.inr (Or.inr (Or.inr (Or.inl ⟨rfl, rfl⟩)))⟩
    | signIn profile =>
      obtain ⟨rfl, rfl, -⟩ := hpair h
      exact ⟨rfl, Or.inr (Or.inr (Or.inr (Or.inr ⟨profile, rfl, rfl⟩)))⟩
    | content guard write => cases h

/-- Only a first sign-in writes a new row. -/
theorem assignWrite_insert
    (h : assignWrite env clock request copy draw = .ok (.insert row, secret)) :
    ∃ profile, request = .signIn profile ∧ copy = none ∧
      row = newOauthUser env profile clock := by
  cases request with
  | signIn profile =>
    cases copy with
    | none =>
      have hp := Except.ok.inj h
      rw [Prod.mk.injEq, Write.insert.injEq] at hp
      exact ⟨profile, rfl, rfl, hp.1.symm⟩
    | some u => cases h
  | issueApiKey userId name =>
    cases copy with
    | none => cases h
    | some u =>
      simp only [assignWrite] at h
      split at h
      next => cases h
      next => cases h
  | updateRole userId role => cases copy <;> cases h
  | revokeApiKey userId => cases copy <;> cases h
  | logout => cases copy <;> cases h
  | content guard write => cases copy <;> cases h

/-- Only `update_role` assigns the role. -/
theorem assignWrite_role
    (h : assignWrite env clock request copy draw = .ok (.update loaded row, secret)) :
    row.role = loaded.role ∨ ∃ userId, request = .updateRole userId row.role := by
  obtain ⟨-, h⟩ := assignWrite_update h
  rcases h with ⟨userId, _, rfl, rfl⟩ | ⟨_, _, -, hissue⟩ | ⟨_, -, rfl⟩ | ⟨-, rfl⟩ | ⟨_, -, rfl⟩
  · exact Or.inr ⟨userId, rfl⟩
  · left
    rw [(issue_ok hissue).2.2]
  · exact Or.inl rfl
  · exact Or.inl rfl
  · exact Or.inl rfl

/-- `logout` assigns the revocation stamp, and nothing else does. -/
theorem assignWrite_stamp
    (h : assignWrite env clock request copy draw = .ok (.update loaded row, secret)) :
    (request ≠ .logout ∧ row.sessionInvalidatedAt = loaded.sessionInvalidatedAt) ∨
      (request = .logout ∧ row.sessionInvalidatedAt = some (utcNow clock)) := by
  obtain ⟨-, h⟩ := assignWrite_update h
  rcases h with ⟨_, _, rfl, rfl⟩ | ⟨_, _, rfl, hissue⟩ | ⟨_, rfl, rfl⟩ | ⟨rfl, rfl⟩ | ⟨_, rfl, rfl⟩
  · exact Or.inl ⟨nofun, rfl⟩
  · refine Or.inl ⟨nofun, ?_⟩
    rw [(issue_ok hissue).2.2]
  · exact Or.inl ⟨nofun, rfl⟩
  · exact Or.inr ⟨rfl, rfl⟩
  · exact Or.inl ⟨nofun, rfl⟩

/-- What a committed write leaves under the id `i`. -/
def Write.onRow (write : Write) (nextId i : Int) (stored : Option User) : Option User :=
  match write with
  | .nothing => stored
  | .insert row => if i = nextId then some { row.asStored with id := nextId } else stored
  | .update loaded row => if i = loaded.id then stored.map (User.flush loaded row) else stored

/-- The commit of a new row is a write of that row under the number the sequence gives. -/
theorem commitWrite_insert :
    commitWrite t (.insert row) nextId = .ok (t', written) ↔
      commitRow t none row nextId = .ok t' ∧ written = some nextId := map_pair_eq_ok

/-- The commit of an update is a write over the row that was loaded. -/
theorem commitWrite_update :
    commitWrite t (.update loaded row) nextId = .ok (t', written) ↔
      commitRow t (some loaded) row nextId = .ok t' ∧ written = some loaded.id := map_pair_eq_ok

/-- **What a commit does to the table**, row by row. -/
theorem commitWrite_find (h : commitWrite t write nextId = .ok (t', written)) (i : Int) :
    t'.find i = write.onRow nextId i (t.find i) := by
  cases write with
  | nothing =>
    have hp := Except.ok.inj h
    rw [Prod.mk.injEq] at hp
    rw [← hp.1]
    rfl
  | insert row =>
    obtain ⟨hrow, -⟩ := commitWrite_insert.mp h
    show _ = if i = nextId then _ else _
    split
    next hi => rw [hi, (commitRow_insert_find hrow).2]
    next hi => exact commitRow_insert_find_ne hrow hi
  | update loaded row =>
    obtain ⟨hrow, -⟩ := commitWrite_update.mp h
    show _ = if i = loaded.id then _ else _
    split
    next hi =>
      subst hi
      exact commitRow_update_find hrow
    next hi => exact commitRow_update_find_ne hrow hi

/-- A new row gets an id no row had. -/
theorem commitWrite_insert_fresh
    (h : commitWrite t (.insert row) nextId = .ok (t', written)) : t.find nextId = none :=
  (commitRow_insert_find (commitWrite_insert.mp h).1).1

end Phases

end SarkariWorld.Auth
