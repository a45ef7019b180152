import SarkariWorld.Auth.Env
import SarkariWorld.Auth.User

/-!
# Session tokens

`services/tokens.py`. A session is a signed `{sub, email, iat, exp}` whose
lifetime is fixed by the role at sign-in; revocation compares its `iat`, in
whole seconds, with `session_invalidated_at`, in microseconds.

The lemmas say what a minted token verifies to, and when: everything later
results know about tokens goes through `verify_mint` and `verify_mint_some`.

Times are microseconds in the model and whole seconds in a token, and the division between
them is where the results about sessions turn. PyJWT is a parameter; what it does to a
token of its own is `JwtLaws`.

The lifetime of a session is one of two constants, for staff and for users. It is added at
the time of minting and stored in the token as `exp`; nothing looks at the role's lifetime
again afterwards.
-/

namespace SarkariWorld.Auth

open SarkariWorld.Lib

/-- `USER_SESSION_TTL_SECONDS`, 30 days. -/
def userSessionTtlSeconds : Nat := 30 * 24 * 60 * 60

/-- `STAFF_SESSION_TTL_SECONDS`, 7 days. -/
def staffSessionTtlSeconds : Nat := 7 * 24 * 60 * 60

/-- `SESSION_TOKEN_MAX_LENGTH`, as `verify_session_token` spells it. -/
def sessionTokenMaxLength : Nat := 4096

/-- What `verify_session_token` returns of a token it accepts. -/
structure SessionClaims where
  sub : Text
  email : Text
  issuedAt : Datetime
  deriving DecidableEq, Repr

/-- `ttl_for_role`: staff sessions are shorter. -/
def ttlForRole (role : UserRole) : Nat :=
  if role ∈ staffRoles then staffSessionTtlSeconds else userSessionTtlSeconds

/-- The claims of a token minted now. `int(now.timestamp())` drops the
microseconds. -/
def sessionPayload (env : Env) (clock : Nat) (userId : Int) (email : Text) (role : UserRole) :
    SessionPayload where
  sub := strInt userId
  email := env.lower (strip email)
  iat := (clock / second : Nat)
  exp := (clock / second : Nat) + ttlForRole role

/-- `mint_session_token`: `iat` is the clock, truncated to the second. -/
def mintSessionToken (env : Env) (clock : Nat) (userId : Int) (email : Text) (role : UserRole) :
    Text :=
  env.jwtEncode (sessionPayload env clock userId email role)

/-- `verify_session_token`: an empty or an over-long token is refused before it is decoded, and one
without the claims after. -/
def verifySessionToken (env : Env) (now : Nat) (token : Text) : Option SessionClaims :=
  if token = [] ∨ sessionTokenMaxLength < token.length then none
  else
    match env.jwtDecode token now with
    | none => none
    | some payload =>
      match payload.sub, payload.iat with
      | some subject, some issuedAt =>
        if subject = [] then none
        else some
          { sub := subject
            email := payload.email.getD []
            issuedAt := ⟨issuedAt * second, some 0⟩ }
      | _, _ => none

/-- `is_revoked`: a token issued at the stamp or before it is revoked, and without a stamp none is.
-/
def isRevoked (claims : SessionClaims) (invalidatedAt : Option Datetime) : Bool :=
  match invalidatedAt with
  | none => false
  | some at_ =>
    -- A naive value is read as UTC.
    let reference := if at_.tzinfo.isSome then at_ else { at_ with tzinfo := some 0 }
    decide (claims.issuedAt.instant ≤ reference.instant)

/-- Reading a naive stamp as UTC does not change its instant. -/
theorem isRevoked_some (claims : SessionClaims) (d : Datetime) :
    isRevoked claims (some d) = decide (claims.issuedAt.instant ≤ d.instant) := by
  obtain ⟨wall, tz⟩ := d
  cases tz with
  | none => rfl
  | some off => rfl

section Mint

variable {env : Env} {clock now : Nat} {userId : Int} {email : Text} {role : UserRole}

/-- The claims a minted token verifies to. -/
def mintedClaims (env : Env) (clock : Nat) (userId : Int) (email : Text) : SessionClaims where
  sub := strInt userId
  email := env.lower (strip email)
  issuedAt := ⟨(clock / second : Nat) * second, some 0⟩

/-- The issue time of a minted token is its second's beginning. -/
@[simp] theorem mintedClaims_instant :
    (mintedClaims env clock userId email).issuedAt.instant = (clock / second : Nat) * second := by
  simp [mintedClaims, Datetime.instant]

/-- **What a minted token verifies to.** It is accepted while it is short
enough and its `exp` lies ahead, and refused otherwise. -/
theorem verify_mint (hj : JwtLaws env) :
    verifySessionToken env now (mintSessionToken env clock userId email role) =
      if (mintSessionToken env clock userId email role).length ≤ sessionTokenMaxLength ∧
          clock / second * second ≤ now ∧ now < (clock / second + ttlForRole role) * second
      then some (mintedClaims env clock userId email) else none := by
  have hne := hj.encode_ne_nil (sessionPayload env clock userId email role)
  have hdec := hj.decode_encode (sessionPayload env clock userId email role) now
  -- the claims are in whole seconds, and the clock is in microseconds
  have hiff : ((sessionPayload env clock userId email role).iat * second ≤ (now : Int) ∧
      (now : Int) < (sessionPayload env clock userId email role).exp * second) ↔
      (clock / second * second ≤ now ∧ now < (clock / second + ttlForRole role) * second) := by
    simp only [sessionPayload]
    constructor
    · intro h; exact ⟨by exact_mod_cast h.1, by exact_mod_cast h.2⟩
    · intro h; exact ⟨by exact_mod_cast h.1, by exact_mod_cast h.2⟩
  unfold verifySessionToken mintSessionToken
  by_cases hlen : (env.jwtEncode (sessionPayload env clock userId email role)).length
      ≤ sessionTokenMaxLength
  · rw [if_neg (by rintro (h | h); exacts [hne h, by omega]), hdec]
    by_cases htime : clock / second * second ≤ now ∧
        now < (clock / second + ttlForRole role) * second
    · rw [if_pos (hiff.mpr htime), if_pos ⟨hlen, htime⟩]
      show (if strInt userId = [] then none else _) = _
      rw [if_neg (strInt_ne_nil userId)]
      rfl
    · rw [if_neg (fun h => htime (hiff.mp h)), if_neg (fun h => htime h.2)]
  · rw [if_pos (Or.inr (by omega)), if_neg (fun h => hlen h.1)]

/-- Whenever a minted token verifies, it is short enough, the claims are the
minted ones and the clock has not reached its `exp`. -/
theorem verify_mint_some (hj : JwtLaws env) {claims : SessionClaims}
    (h : verifySessionToken env now (mintSessionToken env clock userId email role) = some claims) :
    claims = mintedClaims env clock userId email ∧
      now < (clock / second + ttlForRole role) * second ∧
      (mintSessionToken env clock userId email role).length ≤ sessionTokenMaxLength := by
  rw [verify_mint hj] at h
  split at h
  next hc => exact ⟨(Option.some.inj h).symm, hc.2.2, hc.1⟩
  next => cases h

end Mint

end SarkariWorld.Auth
