import SarkariWorld.Auth.Env
import SarkariWorld.Auth.User

/-!
# API keys

`services/api_keys.py`. A key is `sw_` and 32 URL-safe characters; the row keeps
its first 11 characters and a bcrypt hash. Whether a key works is derived on
every request from the hash, the revocation and issue times and the owner's
current role.

`resolveApiKey_eq` removes the one library call that cannot fail here (the
prefix column is unique), and `resolveApiKey_hashed` says what a candidate that
fits bcrypt resolves to when the selected row holds the hash of a known secret.

Nothing here reads a clock of its own or draws a random number: both come in as arguments,
the clock in microseconds and the token as an `UrlsafeToken` that carries its shape. That
`bcrypt.checkpw` may raise is kept in the type, since whether it does is one of the
questions (`currentUser_returns_iff`).

`is_active` decides in four tests: a hash, no revocation, a role of the staff, and an age
below the lifetime. It reads the stored times as naive IST, which is how `now_ist` wrote
them.
-/

namespace SarkariWorld.Auth

open SarkariWorld.Lib

/-- `API_KEY_PREFIX`. -/
def apiKeyPrefix : Text := ['s', 'w', '_']

/-- `API_KEY_LOOKUP_PREFIX_LENGTH`. -/
def apiKeyLookupPrefixLength : Nat := 11

/-- `TTL`: `API_KEY_TTL_DAYS`, 30 days, in microseconds. -/
def apiKeyTtl : Int := 30 * 24 * 60 * 60 * second

/-- `[A-Za-z0-9_-]`. -/
def isUrlsafe (c : Char) : Bool := c.isAlphanum || c == '_' || c == '-'

/-- `API_KEY_RE.match`. The `$` also matches before one final newline. -/
def apiKeyRe (t : Text) : Bool :=
  let body := if t.getLast? = some '\n' then t.dropLast else t
  body.take 3 == apiKeyPrefix && decide (20 ≤ (body.drop 3).length) && (body.drop 3).all isUrlsafe

/-- `looks_like_api_key`: `API_KEY_RE.match` on a candidate that is there and not empty. The pattern
sets no limit to the length. -/
def looksLikeApiKey (candidate : Option Text) : Bool :=
  match candidate with
  | none => false
  | some c => c ≠ [] && apiKeyRe c

/-- `is_expired`. A key without an issue time has expired. -/
def isExpired (user : User) (clock : Nat) : Bool :=
  match user.apiKeyCreatedAt with
  | none => true
  | some createdAt => decide (createdAt + apiKeyTtl ≤ nowIst clock)

/-- `is_active`: there is a hash, no revocation, a staff role at this moment, and the key is younger
than its time to live. -/
def isActive (user : User) (clock : Nat) : Bool :=
  user.apiKeyHash.isSome && user.apiKeyRevokedAt.isNone && decide (user.role ∈ staffRoles)
    && !isExpired user clock

/-- `_DUMMY_HASH`, the hash of `timing-equalisation`. -/
def dummyHash (env : Env) : Text :=
  env.hashpw ['t', 'i', 'm', 'i', 'n', 'g', '-', 'e', 'q', 'u', 'a', 'l', 'i', 's', 'a', 't', 'i',
    'o', 'n'] env.dummySalt

/-- The hash a candidate is compared with: bcrypt runs even on a miss. -/
def storedHash (env : Env) (user : Option User) : Text :=
  match user with
  | some u =>
    match u.apiKeyHash with
    | some h => if h = [] then dummyHash env else h
    | none => dummyHash env
  | none => dummyHash env

/-- `resolve_api_key`. The hash is checked whether the prefix has found a row or not, against a
dummy if it has not, so that the time it takes says nothing; whether the key is active comes last.
-/
def resolveApiKey (env : Env) (t : UserTable) (clock : Nat) (candidate : Text) :
    Except PyError (Option User) := do
  let lookupPrefix := candidate.take apiKeyLookupPrefixLength
  let user ← scalarOneOrNone (whereEq User.apiKeyPrefix lookupPrefix t.rows)
  -- Before the miss is known to the caller, and so also on one.
  let isMatch ← env.checkpw candidate (storedHash env user)
  match user with
  | none => pure none
  | some u =>
    if !isMatch then pure none
    else if !isActive u clock then pure none
    else pure (some u)

/-- `secrets.token_urlsafe(API_KEY_ENTROPY_BYTES)`: 24 random bytes, so 32
characters of the URL-safe alphabet. -/
structure UrlsafeToken where
  chars : Text
  length : chars.length = 32
  urlsafe : chars.all isUrlsafe = true

/-- What `issue` draws at random: the token and bcrypt's salt. -/
structure KeyDraw where
  token : UrlsafeToken
  salt : Text

/-- The secret made of a token. -/
def UrlsafeToken.secret (token : UrlsafeToken) : Text := apiKeyPrefix ++ token.chars

/-- The assignments of `issue`, up to its commit: the new row and the secret. -/
def issue (env : Env) (user : User) (name : Option Text) (clock : Nat) (draw : KeyDraw) :
    Except AppError (User × Text) :=
  if user.role ∉ staffRoles then
    .error (forbiddenError "API keys are only issued to editors and admins.")
  else
    let secret := draw.token.secret
    .ok ({ user with
      apiKeyPrefix := some (secret.take apiKeyLookupPrefixLength)
      apiKeyHash := some (env.hashpw secret draw.salt)
      apiKeyName := name
      apiKeyCreatedAt := some (nowIst clock)
      apiKeyLastUsedAt := none
      apiKeyRevokedAt := none }, secret)

/-- The assignment of `revoke`. -/
def revoke (user : User) (clock : Nat) : User :=
  { user with apiKeyRevokedAt := some (nowIst clock) }

/-! ## Secrets -/

theorem isUrlsafe_utf8Size {c : Char} (h : isUrlsafe c = true) : c.utf8Size = 1 := by
  have hval : c.val ≤ 127 := by
    have hclass : (((c.isUpper = true ∨ c.isLower = true) ∨ c.isDigit = true) ∨
        (c == '_') = true) ∨ (c == '-') = true := by
      simp only [← Bool.or_eq_true]
      exact h
    rcases hclass with (((hup | hlow) | hdigit) | hunderscore) | hyphen
    · exact UInt32.le_trans (of_decide_eq_true hup).2 (by decide)
    · exact UInt32.le_trans (of_decide_eq_true (Bool.and_eq_true_iff.mp hlow).2) (by decide)
    · exact UInt32.le_trans (of_decide_eq_true (Bool.and_eq_true_iff.mp hdigit).2) (by decide)
    · rw [beq_iff_eq.mp hunderscore]
      decide
    · rw [beq_iff_eq.mp hyphen]
      decide
  simp [Char.utf8Size, hval]

theorem utf8Len_of_urlsafe {t : Text} (h : t.all isUrlsafe = true) : utf8Len t = t.length := by
  induction t with
  | nil => rfl
  | cons c t ih =>
    rw [List.all_cons, Bool.and_eq_true] at h
    show c.utf8Size + utf8Len t = _
    rw [isUrlsafe_utf8Size h.1, ih h.2, List.length_cons]
    omega

namespace UrlsafeToken

variable (token : UrlsafeToken)

/-- A secret is 35 characters long, which is within the 72 bytes of bcrypt. -/
theorem secret_length : token.secret.length = 35 := by
  simp [secret, apiKeyPrefix, token.length]

/-- Every character of a secret is of the alphabet, its `sw_` included. -/
theorem secret_urlsafe : token.secret.all isUrlsafe = true := by
  rw [secret, List.all_append, token.urlsafe]
  decide

/-- A secret fits bcrypt. -/
theorem secret_utf8Len : utf8Len token.secret ≤ 72 := by
  rw [utf8Len_of_urlsafe token.secret_urlsafe, token.secret_length]
  omega

/-- A secret is recognised as an API key. -/
theorem secret_looksLikeApiKey : looksLikeApiKey (some token.secret) = true := by
  have hlast : token.secret.getLast? ≠ some '\n' := by
    intro h
    have hmem := List.all_eq_true.mp token.secret_urlsafe _ (List.mem_of_getLast? h)
    exact absurd hmem (by decide)
  have hne : token.secret ≠ [] := by
    intro h
    have hlen := token.secret_length
    rw [h] at hlen
    exact absurd hlen (by decide)
  have hre : apiKeyRe token.secret = true := by
    have hdrop : token.secret.drop 3 = token.chars := by simp [secret, apiKeyPrefix]
    have htake : token.secret.take 3 = apiKeyPrefix := by simp [secret, apiKeyPrefix]
    simp only [apiKeyRe, if_neg hlast, hdrop, htake, token.length, token.urlsafe]
    decide
  simp [looksLikeApiKey, hne, hre]

end UrlsafeToken

/-! ## Resolution -/

/-- The lookup itself cannot fail: `api_key_prefix` is unique. -/
theorem resolveApiKey_eq (env : Env) (t : UserTable) (clock : Nat) (candidate : Text) :
    resolveApiKey env t clock candidate =
      (env.checkpw candidate (storedHash env
        (lookup User.apiKeyPrefix (candidate.take apiKeyLookupPrefixLength) t.rows))).map
        fun isMatch =>
          (lookup User.apiKeyPrefix (candidate.take apiKeyLookupPrefixLength) t.rows).filter
            fun u => isMatch && isActive u clock := by
  simp only [resolveApiKey]
  rw [scalarOneOrNone_whereEq t.keyed.apiKeyPrefix]
  show (env.checkpw candidate (storedHash env
    (lookup User.apiKeyPrefix (candidate.take apiKeyLookupPrefixLength) t.rows))).bind _ = _
  cases env.checkpw candidate (storedHash env
      (lookup User.apiKeyPrefix (candidate.take apiKeyLookupPrefixLength) t.rows)) with
  | error e => rfl
  | ok isMatch =>
    cases lookup User.apiKeyPrefix (candidate.take apiKeyLookupPrefixLength) t.rows with
    | none => rfl
    | some u =>
      cases isMatch with
      | false => rfl
      | true =>
        show (if !isActive u clock then pure none else pure (some u)) = _
        cases hact : isActive u clock with
        | false => simp [Except.map, Option.filter, hact, pure, Except.pure]
        | true => simp [Except.map, Option.filter, hact, pure, Except.pure]

section Resolve

variable {env : Env} {t : UserTable} {clock : Nat} {candidate : Text}

/-- A candidate that fits bcrypt and whose prefix no row holds is nobody's. -/
theorem resolveApiKey_miss (hb : BcryptLaws env) (hlen : utf8Len candidate ≤ 72)
    (hmiss : lookup User.apiKeyPrefix (candidate.take apiKeyLookupPrefixLength) t.rows = none) :
    resolveApiKey env t clock candidate = .ok none := by
  rw [resolveApiKey_eq, hmiss]
  show (env.checkpw candidate (dummyHash env)).map _ = _
  rw [dummyHash, hb.exact _ _ _ hlen]
  rfl

/-- Against the hash of a known secret, a candidate that fits bcrypt resolves to
the selected row exactly if it is that secret and the key is active. -/
theorem resolveApiKey_hashed (hb : BcryptLaws env) (hlen : utf8Len candidate ≤ 72) {u : User}
    {secret salt : Text}
    (hu : lookup User.apiKeyPrefix (candidate.take apiKeyLookupPrefixLength) t.rows = some u)
    (hhash : u.apiKeyHash = some (env.hashpw secret salt)) :
    resolveApiKey env t clock candidate =
      .ok (if candidate = secret ∧ isActive u clock = true then some u else none) := by
  have hstored : storedHash env (some u) = env.hashpw secret salt := by
    simp only [storedHash, hhash, if_neg (hb.hashpw_ne_nil secret salt)]
  rw [resolveApiKey_eq, hu, hstored, hb.exact _ _ _ hlen]
  by_cases hc : candidate = secret
  · by_cases hact : isActive u clock = true
    · simp [Except.map, Option.filter, hc, hact]
    · simp [Except.map, Option.filter, hc, hact]
  · simp [Except.map, Option.filter, hc]

end Resolve

end SarkariWorld.Auth
