import SarkariWorld.Auth.Requests

/-!
# Verifying a credential

A sign-in begins with the credential the provider gave the browser. Only Google is
wired up. google-auth checks the token's signature, audience and time
(`verifyOauth2Token`, a parameter); what its claims must say is checked here.

`verifyCredential_ok_iff` is the whole of what a sign-in needs, and
`configured_iff` says that the sign-in buttons are the providers that can be used.

Whatever google-auth objects to in a token becomes one application error, a 401. A claim
that is missing although the token is genuine is a `KeyError` instead, which nobody
catches, so the two are kept apart in `VerifyError`.

`verify_credential` runs in a worker thread, because google-auth has no asynchronous
transport. Nothing of the service is touched there, so it is one step of a sign-in here,
before the first exchange with the database. What is logged on the way is left out.
-/

namespace SarkariWorld.Auth

open SarkariWorld.Lib

/-! ## Claims -/

/-- A decoded claim. Of a number, a list or an object nothing is used but what `str`
makes of it and whether it is true. -/
inductive Claim where
  | null
  | bool (b : Bool)
  | text (t : Text)
  | other (str : Text) (truthy : Bool)
  deriving DecidableEq, Repr

/-- `bool(claim)`. -/
def Claim.truthy : Claim → Bool
  | .null => false
  | .bool b => b
  | .text t => t ≠ []
  | .other _ truthy => truthy

/-- `str(claim)`. -/
def Claim.str : Claim → Text
  | .null => "None".toList
  | .bool true => "True".toList
  | .bool false => "False".toList
  | .text t => t
  | .other str _ => str

/-- The claims of a verified token, by name, as google-auth returns them. -/
structure Claims where
  get : Text → Option Claim
  /-- Google sends a URL, or nothing. -/
  picture : Option Text

/-- How google-auth refuses a token. -/
inductive TokenError where
  | valueError
  | googleAuthError
  deriving DecidableEq, Repr

/-- The settings of the provider: the client id that the token must be for, and the hosted domain,
if only one is let in. -/
structure OAuthSettings where
  googleOauthClientId : Option Text
  googleOauthHd : Option Text

/-- `id_token.verify_oauth2_token`, at a time: of a credential and an audience. -/
abbrev VerifyOauth2Token := Nat → Text → Text → Except TokenError Claims

/-! ## `services.oauth` -/

/-- The one provider. -/
def google : Text := "google".toList

/-- How a verification ends that does not end well. -/
inductive VerifyError where
  | app (e : AppError)
  /-- `KeyError`: the token carries no such claim. -/
  | keyError (claim : Text)
  deriving DecidableEq, Repr

/-- `ProviderNotConfiguredError`, a 503. -/
def providerNotConfiguredError : AppError :=
  ⟨503, "provider_not_configured", "Sign-in provider is not configured."⟩

/-- `UnknownProviderError`, a 404. -/
def unknownProviderError : AppError := ⟨404, "unknown_provider", "Unknown sign-in provider."⟩

/-- An optional text counts as set if it is not empty. -/
def setText (t : Option Text) : Option Text := t.filter fun t => t ≠ []

/-- The providers with credentials present. -/
def configuredProviders (settings : OAuthSettings) : List Text :=
  if (setText settings.googleOauthClientId).isSome then [google] else []

/-- `claims[name]`. -/
def Claims.require (claims : Claims) (name : String) : Except VerifyError Claim :=
  match claims.get name.toList with
  | some claim => .ok claim
  | none => .error (.keyError name.toList)

/-- The domain restriction, where there is one. -/
def Claims.inDomain (claims : Claims) (settings : OAuthSettings) : Bool :=
  match setText settings.googleOauthHd with
  | none => true
  | some hd => claims.get "hd".toList = some (.text hd)

/-- `bool(claims.get("email_verified"))`. -/
def Claims.emailVerified (claims : Claims) : Bool :=
  ((claims.get "email_verified".toList).map Claim.truthy).getD false

/-- `str(claims.get("name") or "")`. -/
def Claims.name (claims : Claims) : Text :=
  match claims.get "name".toList with
  | none => []
  | some claim => if claim.truthy then claim.str else []

variable (env : Env) (settings : OAuthSettings) (verifyOauth2Token : VerifyOauth2Token)

/-- `_verify_google_credential_sync`: the library checks the token, and then the address has to be
verified, the account to be of the hosted domain, if one is set, and the claims it is made of to be
there. -/
def verifyGoogleCredentialSync (clock : Nat) (credential : Text) :
    Except VerifyError OAuthProfile :=
  match setText settings.googleOauthClientId with
  | none => .error (.app providerNotConfiguredError)
  | some clientId =>
    match verifyOauth2Token clock credential clientId with
    | .error _ => .error (.app (unauthorizedError "Invalid Google credential."))
    | .ok claims =>
      if claims.emailVerified = false then
        .error (.app (unauthorizedError "Google account email is not verified."))
      else if claims.inDomain settings = false then
        .error (.app (unauthorizedError "Account is outside the allowed domain."))
      else do
        let email ← claims.require "email"
        let subject ← claims.require "sub"
        pure ⟨env.lower (strip email.str), claims.name, subject.str, claims.picture⟩

/-- `verify_credential`: an unknown provider is refused before anything is looked at. -/
def verifyCredential (clock : Nat) (provider credential : Text) :
    Except VerifyError OAuthProfile :=
  if provider ≠ google then .error (.app unknownProviderError)
  else verifyGoogleCredentialSync env settings verifyOauth2Token clock credential

/-! ## What a sign-in needs -/

variable {env settings verifyOauth2Token} {clock : Nat} {provider credential : Text}
  {profile : OAuthProfile}

theorem require_ok {claims : Claims} {name : String} {claim : Claim} :
    claims.require name = .ok claim ↔ claims.get name.toList = some claim := by
  unfold Claims.require
  split
  next found hfound => rw [hfound, Except.ok.injEq, Option.some.injEq]
  next hnone =>
    rw [hnone]
    constructor
    · intro h
      cases h
    · intro h
      cases h

/-- A claim that is missing is an error of the token, never one of the application. -/
theorem require_ne_app (claims : Claims) (name : String) (e : AppError) :
    claims.require name ≠ .error (.app e) := by
  unfold Claims.require
  split
  · intro h
    cases h
  · intro h
    cases h

/-- What Google vouches for when it accepts a credential. -/
structure Vouched (env : Env) (settings : OAuthSettings) (verifyOauth2Token : VerifyOauth2Token)
    (clock : Nat) (credential : Text) (profile : OAuthProfile) (claims : Claims) : Prop where
  /-- The token is for this installation, and is good at the time. -/
  token : ∃ clientId, settings.googleOauthClientId = some clientId ∧ clientId ≠ [] ∧
    verifyOauth2Token clock credential clientId = .ok claims
  emailVerified : claims.emailVerified = true
  domain : claims.inDomain settings = true
  email : ∃ email, claims.get "email".toList = some email ∧
    profile.email = env.lower (strip email.str)
  subject : ∃ subject, claims.get "sub".toList = some subject ∧ profile.subject = subject.str
  name : profile.name = claims.name
  picture : profile.picture = claims.picture

/-- A setting counts as set if it is there and not empty. -/
theorem setText_eq_some {t : Option Text} {x : Text} :
    setText t = some x ↔ t = some x ∧ x ≠ [] := by
  rw [setText, Option.filter_eq_some_iff, decide_eq_true_eq]

/-- What Google's credential needs, in full: `Vouched` has a field for each check. -/
theorem verifyGoogle_ok_iff :
    verifyGoogleCredentialSync env settings verifyOauth2Token clock credential = .ok profile ↔
      ∃ claims, Vouched env settings verifyOauth2Token clock credential profile claims := by
  constructor
  -- the checks in the order of the source, each of which is one part of `Vouched`
  · intro h
    unfold verifyGoogleCredentialSync at h
    split at h
    next => cases h
    next clientId hclient =>
      split at h
      next => cases h
      next claims hclaims =>
        obtain ⟨hverified, h⟩ := ite_error_eq_ok.mp h
        obtain ⟨hdomain, h⟩ := ite_error_eq_ok.mp h
        obtain ⟨email, hemail, h⟩ := bind_eq_ok.mp h
        obtain ⟨subject, hsubject, h⟩ := bind_eq_ok.mp h
        obtain rfl := Except.ok.inj h
        obtain ⟨hset, hne⟩ := setText_eq_some.mp hclient
        exact ⟨claims, ⟨clientId, hset, hne, hclaims⟩, (Bool.not_eq_false _).mp hverified,
          (Bool.not_eq_false _).mp hdomain, ⟨email, require_ok.mp hemail, rfl⟩,
          ⟨subject, require_ok.mp hsubject, rfl⟩, rfl, rfl⟩
  · rintro ⟨claims, ⟨clientId, hset, hne, hclaims⟩, hverified, hdomain, ⟨email, hemail, hlower⟩,
      ⟨subject, hsubject, hstr⟩, hname, hpicture⟩
    have hclient : setText settings.googleOauthClientId = some clientId :=
      setText_eq_some.mpr ⟨hset, hne⟩
    simp only [verifyGoogleCredentialSync, hclient, hclaims, hverified, hdomain,
      Bool.true_eq_false, if_false]
    refine bind_eq_ok.mpr ⟨email, require_ok.mpr hemail, ?_⟩
    refine bind_eq_ok.mpr ⟨subject, require_ok.mpr hsubject, ?_⟩
    cases profile
    simp only at hlower hstr hname hpicture
    rw [hlower, hstr, hname, hpicture]
    rfl

/-- **What a sign-in needs**: the one provider there is, and a credential Google
vouches for. -/
theorem verifyCredential_ok_iff :
    verifyCredential env settings verifyOauth2Token clock provider credential = .ok profile ↔
      provider = google ∧
        ∃ claims, Vouched env settings verifyOauth2Token clock credential profile claims := by
  unfold verifyCredential
  split
  next hother =>
    constructor
    · intro h
      cases h
    · intro h
      exact absurd h.1 hother
  next hgoogle => rw [verifyGoogle_ok_iff, and_iff_right (Decidable.not_not.mp hgoogle)]

/-! ## Sign-in buttons -/

/-- The provider is refused whatever the credential, as not found or not set up. -/
def Unavailable (env : Env) (settings : OAuthSettings) (verifyOauth2Token : VerifyOauth2Token)
    (provider : Text) : Prop :=
  ∃ e : AppError, (e.statusCode = 404 ∨ e.statusCode = 503) ∧ ∀ clock credential,
    verifyCredential env settings verifyOauth2Token clock provider credential = .error (.app e)

/-- Once there is a client id, it is the credential that is refused. -/
theorem verifyGoogle_refused {clientId : Text} {e : AppError}
    (hclient : setText settings.googleOauthClientId = some clientId)
    (h : verifyGoogleCredentialSync env settings verifyOauth2Token clock credential =
      .error (.app e)) : e.statusCode = 401 := by
  simp only [verifyGoogleCredentialSync, hclient] at h
  split at h
  next =>
    obtain rfl := VerifyError.app.inj (Except.error.inj h)
    rfl
  -- google-auth vouched for the token: the address must be verified and of an allowed domain
  next claims _ =>
    split at h
    next =>
      obtain rfl := VerifyError.app.inj (Except.error.inj h)
      rfl
    next =>
      split at h
      next =>
        obtain rfl := VerifyError.app.inj (Except.error.inj h)
        rfl
      next =>
        cases hemail : claims.require "email" with
        -- a claim that is missing is a `KeyError`, which is no answer of the service's own
        | error missing =>
          rw [hemail] at h
          obtain rfl : missing = .app e := Except.error.inj h
          exact absurd hemail (require_ne_app claims "email" e)
        | ok email =>
          rw [hemail] at h
          cases hsubject : claims.require "sub" with
          | error missing =>
            simp only [hsubject] at h
            obtain rfl : missing = .app e := Except.error.inj h
            exact absurd hsubject (require_ne_app claims "sub" e)
          | ok subject =>
            simp only [hsubject] at h
            cases h

/-- **The buttons are the providers that can be used.** -/
theorem configured_iff :
    provider ∈ configuredProviders settings ↔
      ¬ Unavailable env settings verifyOauth2Token provider := by
  unfold configuredProviders
  constructor
  · rintro hlisted ⟨e, hstatus, hrefused⟩
    split at hlisted
    next hset =>
      obtain ⟨clientId, hclient⟩ := Option.isSome_iff_exists.mp hset
      have hcase := hrefused 0 []
      rw [verifyCredential, if_neg (not_not_intro (List.mem_singleton.mp hlisted))] at hcase
      have h401 := verifyGoogle_refused hclient hcase
      omega
    next => cases hlisted
  · intro havailable
    by_cases hgoogle : provider = google
    · split
      next => exact List.mem_singleton.mpr hgoogle
      next hset =>
        refine absurd ⟨providerNotConfiguredError, .inr rfl, fun clock credential => ?_⟩ havailable
        rw [verifyCredential, if_neg (not_not_intro hgoogle), verifyGoogleCredentialSync,
          Option.not_isSome_iff_eq_none.mp hset]
    · refine absurd ⟨unknownProviderError, .inl rfl, fun clock credential => ?_⟩ havailable
      exact if_pos hgoogle

end SarkariWorld.Auth
