import SarkariWorld.Auth.ApiKeys
import SarkariWorld.Auth.Tokens
import SarkariWorld.Lib.Result

/-!
# Credential resolution and guards

`dependencies.py`. `currentUser` resolves the caller from an API key, a session
token or nothing; the guards turn that into a 401 or a 403.

`currentUser` is a function into `Except`: whether it can raise is a question,
not an assumption. `currentUser_returns_iff` answers it for everything an
anonymous client can send. Its one way to raise is bcrypt: a candidate that has
the shape of an API key is handed to `checkpw` whatever its length.

The guards are functions of the caller alone. What a router hands down to its routes is a
`Guard`, and its `check` is what stands between a caller and a handler; which route has
which guard is said in `Site.Replies`.

Two headers and a cookie can carry a credential, and the source looks at them in that
order. A candidate that looks like an API key is never tried as a session token; a bearer
token that is not one is tried as a session before the cookie is. What is logged of a
failure is left out.
-/

namespace SarkariWorld.Auth

open SarkariWorld.Lib

/-- `request.state.auth_via`. -/
inductive AuthVia where
  | apiKey
  | bearer
  | cookie
  deriving DecidableEq, Repr

/-- The three credentials of a request: the `X-API-Key` header, the
`Authorization` bearer value, and the session cookie. -/
structure Credentials where
  headerKey : Option Text
  bearer : Option Text
  cookie : Option Text
  deriving DecidableEq, Repr

/-- Python's `a or b` on optional strings. -/
def pyOr (a b : Option Text) : Option Text :=
  match a with
  | some t => if t = [] then b else a
  | none => b

/-- `bearer`, after `.strip()`. -/
def Credentials.bearerValue (creds : Credentials) : Option Text := creds.bearer.map strip

/-- `candidate`: what may be an API key. -/
def Credentials.candidate (creds : Credentials) : Option Text :=
  pyOr creds.headerKey creds.bearerValue

/-- `token`: what may be a session. -/
def Credentials.token (creds : Credentials) : Option Text :=
  pyOr creds.bearerValue creds.cookie

/-- How a session was presented: `"cookie" if not bearer else "bearer"`. -/
def Credentials.sessionVia (creds : Credentials) : AuthVia :=
  match creds.bearerValue with
  | some b => if b = [] then .cookie else .bearer
  | none => .cookie

/-- The second half of `current_user`, on a session token. -/
def sessionUser (env : Env) (t : UserTable) (clock : Nat) (token : Text) :
    Except PyError (Option User) :=
  match verifySessionToken env clock token with
  | none => .ok none
  | some claims =>
    -- `int(claims.sub)` and its `ValueError`.
    match parseInt claims.sub with
    | none => .ok none
    | some userId => do
      match ← getById t userId with
      | none => pure none
      | some user =>
        if isRevoked claims user.sessionInvalidatedAt then pure none else pure (some user)

/-- `current_user`. A candidate with the shape of a key is looked up as a key, and everything else
as a session token; an error of bcrypt goes through. -/
def currentUser (env : Env) (t : UserTable) (clock : Nat) (creds : Credentials) :
    Except PyError (Option (User × AuthVia)) :=
  -- What looks like a key is never tried as a session, even if it resolves to nobody.
  if looksLikeApiKey creds.candidate then
    (resolveApiKey env t clock (creds.candidate.getD [])).map fun user =>
      user.map fun u => (u, .apiKey)
  else
    match creds.token with
    | none => .ok none
    | some token =>
      if token = [] then .ok none
      else (sessionUser env t clock token).map fun user => user.map fun u => (u, creds.sessionVia)

/-- Whether `current_user` resolves the caller from the session it presents. -/
def acceptsSession (env : Env) (t : UserTable) (clock : Nat) (creds : Credentials) : Bool :=
  match currentUser env t clock creds with
  | .ok (some (_, via)) => via ≠ .apiKey
  | _ => false

/-! ## Guards -/

/-- `require_auth`. -/
def requireAuth (user : Option User) : Except AppError User :=
  match user with
  | none => .error (unauthorizedError "Login required.")
  | some u => .ok u

/-- `require_role(*roles)`. -/
def requireRole (roles : List UserRole) (user : User) : Except AppError User :=
  if user.role ∉ roles then .error (forbiddenError "Insufficient permissions.") else .ok user

/-- The methods the guards tell apart: `require_manage` asks more for `DELETE`. -/
inductive Method where
  | get
  | post
  | put
  | patch
  | delete
  deriving DecidableEq, Repr

/-- `require_manage`. -/
def requireManage (method : Method) (user : User) : Except AppError User :=
  if user.role ∉ staffRoles then .error (forbiddenError "Insufficient permissions.")
  else if method = .delete ∧ user.role ≠ .admin then
    .error (forbiddenError "Only an admin may delete.")
  else .ok user

/-! ## Who is resolved -/

section CurrentUser

variable {env : Env} {t : UserTable} {clock : Nat} {creds : Credentials}

/-- `get_by_id` finds the row under the number, or nobody. -/
theorem getById_mem {userId : Int} {u : User} (h : getById t userId = .ok (some u)) :
    t.find userId = some u := by
  unfold getById at h
  split at h
  next => exact Except.ok.inj h
  next => cases h

/-- Whoever an API key resolves to is an account of the table. -/
theorem resolveApiKey_mem {candidate : Text} {u : User}
    (h : resolveApiKey env t clock candidate = .ok (some u)) : u ∈ t.rows := by
  rw [resolveApiKey_eq] at h
  obtain ⟨isMatch, -, hfilter⟩ := map_eq_ok.mp h
  obtain ⟨hl, -⟩ := Option.filter_eq_some_iff.mp hfilter
  exact (mem_of_lookup hl).1

/-- What a session resolves to: an existing row whose id is the token's subject
and which has not revoked it. -/
theorem sessionUser_some {token : Text} {u : User}
    (h : sessionUser env t clock token = .ok (some u)) :
    ∃ claims, verifySessionToken env clock token = some claims ∧
      parseInt claims.sub = some u.id ∧ t.find u.id = some u ∧
      isRevoked claims u.sessionInvalidatedAt = false := by
  unfold sessionUser at h
  split at h
  next => cases h
  next claims hclaims =>
    split at h
    next => cases h
    next userId hsub =>
      obtain ⟨found, hget, h⟩ := bind_eq_ok.mp h
      cases found with
      | none => cases h
      | some v =>
        have hfind := getById_mem hget
        obtain ⟨-, hid⟩ := UserTable.find_eq_some.mp hfind
        change (if isRevoked claims v.sessionInvalidatedAt = true then pure none
          else pure (some v)) = Except.ok (some u) at h
        split at h
        next => cases h
        next hrev =>
          have hvu : v = u := Option.some.inj (Except.ok.inj h)
          subst hvu
          exact ⟨claims, hclaims, hid ▸ hsub, hid ▸ hfind, by simpa using hrev⟩

/-- **Who `current_user` resolves to**: an API key gives the row it resolves to,
anything else the row of the session. -/
theorem currentUser_some {u : User} {via : AuthVia}
    (h : currentUser env t clock creds = .ok (some (u, via))) :
    (via = .apiKey ∧ ∃ c, creds.candidate = some c ∧ looksLikeApiKey (some c) = true ∧
      resolveApiKey env t clock c = .ok (some u)) ∨
    (via = creds.sessionVia ∧ ∃ token, creds.token = some token ∧
      sessionUser env t clock token = .ok (some u)) := by
  unfold currentUser at h
  split at h
  next hlook =>
    cases hc : creds.candidate with
    | none => rw [hc] at hlook; cases hlook
    | some c =>
      rw [hc] at h hlook
      obtain ⟨found, hr, hfound⟩ := map_eq_ok.mp h
      obtain ⟨v, rfl, hv⟩ := Option.map_eq_some_iff.mp hfound
      rw [Prod.mk.injEq] at hv
      -- by key: the origin is noted as one, wherever the key was sent
      exact Or.inl ⟨hv.2.symm, c, rfl, hlook, hv.1 ▸ hr⟩
  next =>
    split at h
    next => cases h
    next token htoken =>
      split at h
      next => cases h
      next =>
        obtain ⟨found, hs, hfound⟩ := map_eq_ok.mp h
        obtain ⟨v, rfl, hv⟩ := Option.map_eq_some_iff.mp hfound
        rw [Prod.mk.injEq] at hv
        exact Or.inr ⟨hv.2.symm, token, htoken, hv.1 ▸ hs⟩

/-- Whoever is resolved is a stored row. -/
theorem currentUser_mem {u : User} {via : AuthVia}
    (h : currentUser env t clock creds = .ok (some (u, via))) : u ∈ t.rows := by
  rcases currentUser_some h with ⟨-, c, -, -, hr⟩ | ⟨-, token, -, hs⟩
  · exact resolveApiKey_mem hr
  · obtain ⟨claims, -, -, hfind, -⟩ := sessionUser_some hs
    exact (UserTable.find_eq_some.mp hfind).1

/-- An accepted session resolves to the user its token names, unrevoked. -/
theorem acceptsSession_some (h : acceptsSession env t clock creds = true) :
    ∃ token u, creds.token = some token ∧ sessionUser env t clock token = .ok (some u) ∧
      currentUser env t clock creds = .ok (some (u, creds.sessionVia)) := by
  unfold acceptsSession at h
  split at h
  next u via hc =>
    rcases currentUser_some hc with ⟨rfl, -⟩ | ⟨rfl, token, htoken, hs⟩
    · exact absurd rfl (of_decide_eq_true h)
    · exact ⟨token, u, htoken, hs, hc⟩
  next => cases h

/-! ## When resolution returns -/

/-- What an anonymous client can send: no string of it was signed here, so
decoding it raises a `PyJWTError` at any time. -/
def Unsigned (env : Env) (creds : Credentials) : Prop :=
  ∀ token, creds.bearerValue = some token ∨ creds.cookie = some token →
    ∀ now, env.jwtDecode token now = none

/-- A token that was not signed here is refused by PyJWT at any time. -/
theorem token_unsigned (h : Unsigned env creds) {token : Text} (ht : creds.token = some token)
    (now : Nat) : env.jwtDecode token now = none := by
  refine h token ?_ now
  unfold Credentials.token pyOr at ht
  split at ht
  next b hb =>
    split at ht
    next => exact Or.inr ht
    next => exact Or.inl ht
  next => exact Or.inr ht

/-- Without a signature the session half finds nobody, and does not raise. -/
theorem sessionUser_unsigned {token : Text} (h : env.jwtDecode token clock = none) :
    sessionUser env t clock token = .ok none := by
  have hverify : verifySessionToken env clock token = none := by
    unfold verifySessionToken
    split
    next => rfl
    next => rw [h]
  rw [sessionUser, hverify]

/-- The hash a candidate is compared with can be parsed if the one stored under
its prefix can; the dummy always can. -/
theorem storedHash_readable_iff (hb : BcryptLaws env) {candidate : Text} :
    env.hashReadable (storedHash env
        (lookup User.apiKeyPrefix (candidate.take apiKeyLookupPrefixLength) t.rows)) = true ↔
      ∀ u ∈ t.rows, u.apiKeyPrefix = some (candidate.take apiKeyLookupPrefixLength) →
        ∀ h, u.apiKeyHash = some h → h = [] ∨ env.hashReadable h = true := by
  have hdummy : env.hashReadable (dummyHash env) = true := hb.readable_hashpw _ _
  cases hl : lookup User.apiKeyPrefix (candidate.take apiKeyLookupPrefixLength) t.rows with
  | none => exact ⟨fun _ u hu hp => absurd hp (lookup_eq_none_iff.mp hl u hu), fun _ => hdummy⟩
  | some v =>
    obtain ⟨hv, hvp⟩ := mem_of_lookup hl
    constructor
    · intro hr u hu hp h hh
      -- the prefix is unique, so the row that was looked up is the only one to ask about
      have huv : u = v := eq_of_uniqueCol t.keyed.apiKeyPrefix hu hv hp hvp
      subst huv
      by_cases hnil : h = []
      · exact Or.inl hnil
      · right
        simpa only [storedHash, hh, if_neg hnil] using hr
    · intro hall
      cases hh : v.apiKeyHash with
      | none => simpa only [storedHash, hh] using hdummy
      | some h =>
        by_cases hnil : h = []
        · simpa only [storedHash, hh, if_pos hnil] using hdummy
        · simp only [storedHash, hh, if_neg hnil]
          exact (hall v hv hvp h hh).resolve_left hnil

/-- `resolve_api_key` raises exactly when bcrypt does: on a candidate longer
than 72 bytes, or on a stored hash it cannot parse. -/
theorem resolveApiKey_returns_iff (hb : BcryptLaws env) {candidate : Text} :
    (∃ r, resolveApiKey env t clock candidate = .ok r) ↔
      utf8Len candidate ≤ 72 ∧
        ∀ u ∈ t.rows, u.apiKeyPrefix = some (candidate.take apiKeyLookupPrefixLength) →
          ∀ h, u.apiKeyHash = some h → h = [] ∨ env.hashReadable h = true := by
  rw [← storedHash_readable_iff hb, resolveApiKey_eq]
  -- the hash is checked for every candidate, against the dummy where no row has the prefix
  have hraises := hb.raises candidate (storedHash env
    (lookup User.apiKeyPrefix (candidate.take apiKeyLookupPrefixLength) t.rows))
  cases hc : env.checkpw candidate (storedHash env
      (lookup User.apiKeyPrefix (candidate.take apiKeyLookupPrefixLength) t.rows)) with
  | error e =>
    rw [hc] at hraises
    have hbad := hraises.mp ⟨e, rfl⟩
    constructor
    · intro h
      obtain ⟨r, hr⟩ := h
      cases hr
    · intro h
      rcases hbad with hlong | hunread
      · omega
      · rw [h.2] at hunread
        cases hunread
  | ok isMatch =>
    rw [hc] at hraises
    have hgood : ¬(72 < utf8Len candidate ∨ _) := fun hbad => by
      obtain ⟨e, he⟩ := hraises.mpr hbad
      cases he
    rw [not_or] at hgood
    exact ⟨fun _ => ⟨by omega, by simpa using hgood.2⟩, fun _ => ⟨_, rfl⟩⟩

/-- **When credential resolution returns.** For what an anonymous client can
send, `current_user` returns a user or `None` unless the candidate has the shape
of an API key and bcrypt refuses it: it is longer than 72 bytes, or the row its
prefix selects stores a hash bcrypt cannot parse. -/
theorem currentUser_returns_iff (hb : BcryptLaws env) (hanon : Unsigned env creds) :
    (∃ r, currentUser env t clock creds = .ok r) ↔
      ∀ c, creds.candidate = some c → looksLikeApiKey (some c) = true →
        utf8Len c ≤ 72 ∧
          ∀ u ∈ t.rows, u.apiKeyPrefix = some (c.take apiKeyLookupPrefixLength) →
            ∀ h, u.apiKeyHash = some h → h = [] ∨ env.hashReadable h = true := by
  unfold currentUser
  split
  next hlook =>
    cases hc : creds.candidate with
    | none => rw [hc] at hlook; cases hlook
    | some c =>
      rw [hc] at hlook
      refine ⟨fun h d hd _ => ?_, fun h => ?_⟩
      · obtain ⟨r, hr⟩ := h
        obtain ⟨found, hres, -⟩ := map_eq_ok.mp hr
        rw [← Option.some.inj hd]
        exact (resolveApiKey_returns_iff hb).mp ⟨found, hres⟩
      · obtain ⟨found, hres⟩ := (resolveApiKey_returns_iff (t := t) hb).mpr (h c rfl hlook)
        rw [Option.getD_some, hres]
        exact ⟨_, rfl⟩
  next hlook =>
    refine iff_of_true ?_ fun c hc hl => absurd (hc ▸ hl) hlook
    split
    next => exact ⟨_, rfl⟩
    next token htoken =>
      split
      next => exact ⟨_, rfl⟩
      next =>
        rw [sessionUser_unsigned (token_unsigned hanon htoken clock)]
        exact ⟨_, rfl⟩

/-! ## What resolution raises -/

/-- bcrypt raises nothing but `ValueError`. -/
def BcryptRaises (env : Env) : Prop := ∀ c h e, env.checkpw c h = .error e → e = .valueError

/-- The bcrypt of the sample environment raises beyond 72 bytes, as the real one does. -/
theorem sampleEnv_raises : BcryptRaises sampleEnv := by
  intro c h e herror
  change (if 72 < utf8Len c then Except.error PyError.valueError else _) = _ at herror
  split at herror
  next => exact (Except.error.inj herror).symm
  next => cases herror

theorem getById_ne_integrity {userId : Int} : getById t userId ≠ .error .integrityError := by
  unfold getById
  split
  next => nofun
  next => nofun

/-- Resolving the caller reads only: no unique index is in its way. -/
theorem currentUser_ne_integrity (hb : BcryptRaises env) :
    currentUser env t clock creds ≠ .error .integrityError := by
  intro h
  unfold currentUser at h
  split at h
  next =>
    -- the only exception here is that of `checkpw`
    rw [map_eq_error, resolveApiKey_eq, map_eq_error] at h
    cases hb _ _ _ h
  next =>
    split at h
    next => cases h
    next token _ =>
      split at h
      next => cases h
      next =>
        rw [map_eq_error] at h
        unfold sessionUser at h
        split at h
        next => cases h
        next claims _ =>
          split at h
          next => cases h
          next userId _ =>
            rcases bind_eq_error.mp h with h | ⟨found, -, h⟩
            · exact getById_ne_integrity h
            · split at h
              next => cases h
              next =>
                split at h
                next => cases h
                next => cases h

end CurrentUser

/-- The garbage cookie of the route tests is anonymous, not a 500. -/
theorem currentUser_returns_garbage :
    ∃ r, currentUser sampleEnv .empty 0
      ⟨none, none, some ['t', 'o', 't', 'a', 'l', 'l', 'y', '.', 'i', 'n', 'v', 'a', 'l', 'i', 'd',
        '.', 't', 'o', 'k', 'e', 'n']⟩ = .ok r := by
  refine (currentUser_returns_iff sampleEnv_bcrypt ?_).mpr ?_
  · intro token h now
    rcases h with h | h
    · cases h
    · rw [← Option.some.inj h]
      rfl
  · intro c hc
    cases hc

/-- A key-shaped header of 73 bytes: `current_user` raises bcrypt's
`ValueError`. -/
theorem currentUser_raises_on_long_key :
    ¬∃ r, currentUser sampleEnv .empty 0
      ⟨some (apiKeyPrefix ++ List.replicate 70 'a'), none, none⟩ = .ok r := by
  have hraise : currentUser sampleEnv .empty 0
      ⟨some (apiKeyPrefix ++ List.replicate 70 'a'), none, none⟩ = .error .valueError := by
    rfl
  rw [hraise]
  intro h
  obtain ⟨r, hr⟩ := h
  cases hr

end SarkariWorld.Auth
