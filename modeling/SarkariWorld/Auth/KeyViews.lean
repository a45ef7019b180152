import SarkariWorld.Auth.KeyLedger
import SarkariWorld.Timestamps

/-!
# What is shown of a key

`schemas/user.py`. The console learns from `AdminUser` whether a user holds a key and when
it expires, and from `ApiKeyIssued` what it has just been given. Neither asks `is_active`,
which decides about every request: both derive the same from other columns, and print it.

`showsKey_iff` is the agreement for one row whose key columns go together, and
`announced_expiry_kept` says what an announced expiry is worth after any run.

The difficulty is in the printing. An expiry is shown with milliseconds in a string with
an offset, and a client compares what it reads back from it; that the string can be read
back at all needs a year of four digits, which is the bound `yearTenThousand`.

`AdminUser` computes `has_api_key` and the expiry from the columns of its row, and
`ApiKeyIssued` is built in the route. The printed expiry has been rounded twice, by the
column and by `to_ist_iso`, and `is_active` compares microseconds.
-/

namespace SarkariWorld.Auth

open SarkariWorld.Lib

/-! ## The answers -/

/-- The admin-facing detail of a user. -/
structure AdminUser where
  id : Int
  name : Text
  email : Text
  role : UserRole
  authProvider : Text
  pictureUrl : Option Text
  apiKeyName : Option Text
  apiKeyCreatedAt : Option Text
  apiKeyLastUsedAt : Option Text
  apiKeyRevokedAt : Option Text
  lastLoginAt : Option Text
  hasApiKey : Bool
  apiKeyExpiresAt : Option Text
  deriving DecidableEq, Repr

/-- `_ist`, on a column of naive times. -/
def shownTime (value : Option Int) : Option Text := value.map fun t => toIstIso (naive t)

/-- `has_api_key`. -/
def User.hasApiKey (u : User) : Bool :=
  decide (u.apiKeyPrefix.getD [] ≠ []) && u.apiKeyRevokedAt.isNone

/-- `api_key_expires_at`. -/
def User.apiKeyExpiresAt (u : User) : Option Text :=
  match u.apiKeyCreatedAt, u.apiKeyRevokedAt with
  | some createdAt, none => some (toIstIso (naive (createdAt + apiKeyTtl)))
  | _, _ => none

/-- `AdminUser.model_validate`, and what is serialised of it. -/
def adminUser (u : User) : AdminUser where
  id := u.id
  name := u.name
  email := u.email
  role := u.role
  authProvider := u.authProvider
  pictureUrl := u.pictureUrl
  apiKeyName := u.apiKeyName
  apiKeyCreatedAt := shownTime u.apiKeyCreatedAt
  apiKeyLastUsedAt := shownTime u.apiKeyLastUsedAt
  apiKeyRevokedAt := shownTime u.apiKeyRevokedAt
  lastLoginAt := shownTime u.lastLoginAt
  hasApiKey := u.hasApiKey
  apiKeyExpiresAt := u.apiKeyExpiresAt

/-- `get_user`, for an admin whose own row the session holds already. -/
def readUser (t : UserTable) (actor : User) (userId : Int) : Except Failure AdminUser :=
  (getUser t (some actor) userId).map adminUser

/-- `GET /admin/users/{id}` shows the stored row of that number, and nothing of its own. -/
theorem readUser_ok {t : UserTable} {actor : User} {userId : Int} {view : AdminUser}
    (hactor : actor ∈ t.rows) (h : readUser t actor userId = .ok view) :
    ∃ u, t.find userId = some u ∧ view = adminUser u := by
  obtain ⟨u, hu, rfl⟩ := map_eq_ok.mp h
  obtain ⟨rfl, hown | hfind⟩ := getUser_ok hu
  · obtain rfl := Option.some.inj hown
    exact ⟨actor, UserTable.find_of_mem hactor, rfl⟩
  · exact ⟨u, hfind, rfl⟩

/-- The one answer that holds the secret. -/
structure ApiKeyIssued where
  apiKey : Text
  lookupPrefix : Text
  name : Option Text
  createdAt : Option Text
  expiresAt : Option Text
  deriving DecidableEq, Repr

/-- What `issue_api_key` answers with. A commit does not expire the row, so it still reads
as it was assigned, to the microsecond. -/
def apiKeyIssued (row : User) (secret : Text) : ApiKeyIssued where
  apiKey := secret
  lookupPrefix := row.apiKeyPrefix.getD []
  name := row.apiKeyName
  createdAt := shownTime row.apiKeyCreatedAt
  expiresAt := shownTime (row.apiKeyCreatedAt.map (· + apiKeyTtl))

/-- The view says that the key works now: it is there, its owner is staff, and the expiry,
read back, is to come. -/
def AdminUser.ShowsKey (view : AdminUser) (clock : Nat) : Prop :=
  view.hasApiKey = true ∧ view.role ∈ staffRoles ∧
    ∃ shown ∈ view.apiKeyExpiresAt, ∃ expiry ∈ fromIsoformat shown, (clock : Int) < expiry.instant

/-! ## Reading an expiry -/

/-- 10000-01-01, the day after the last one a datetime can hold. -/
def yearTenThousand : Int := 253402300800 * second

/-- Between the epoch and the year 10000 four digits are enough for the year. -/
theorem fourDigits_of_wall {wall : Int} (hlow : 0 ≤ wall) (hhigh : wall < yearTenThousand) :
    fourDigits (Admin.calendarDay wall) := by
  have hday := Admin.calendarDay_ordinal wall
  have hwithin := ordinal_in_year (Admin.calendarDay wall)
  have hfirst : daysBeforeYear 1970 < Admin.epochOrdinal := by decide
  have hlast : daysBeforeYear 10000 = Admin.epochOrdinal + 253402300800 / 86400 - 1 := by decide
  unfold yearTenThousand second at hhigh
  unfold second at hday
  constructor
  · refine Int.not_lt.mp fun hearly => ?_
    have hbefore : daysBeforeYear ((Admin.calendarDay wall).year + 1) ≤ daysBeforeYear 1970 :=
      daysBeforeYear_mono (by omega)
    omega
  · refine Int.not_lt.mp fun hlate => ?_
    have hafter : daysBeforeYear 10000 ≤ daysBeforeYear (Admin.calendarDay wall).year :=
      daysBeforeYear_mono (by omega)
    omega

/-- A naive time is read back as the IST time it stands for, without its microseconds. -/
theorem shown_read {wall : Int} (hlow : 0 ≤ wall) (hhigh : wall < yearTenThousand) :
    fromIsoformat (toIstIso (naive wall)) = some ⟨wall / 1000 * 1000, some istOffset⟩ :=
  fromIsoformat_toIstIso (d := naive wall) (fourDigits_of_wall hlow hhigh)

/-! ## A row -/

/-- The columns of a key are there, all three of them. -/
structure User.HoldsKey (u : User) : Prop where
  lookup : ∃ p, u.apiKeyPrefix = some p ∧ p ≠ []
  hash : u.apiKeyHash ≠ none
  created : ∃ t, u.apiKeyCreatedAt = some t ∧ 0 ≤ t

/-- All three of them are there, or none is. -/
def User.KeyWhole (u : User) : Prop :=
  u.HoldsKey ∨ u.apiKeyPrefix = none ∧ u.apiKeyHash = none ∧ u.apiKeyCreatedAt = none

section Row

variable {u : User} {clock : Nat}

/-- The stored expiry is in whole milliseconds, so nothing of it is lost in print. -/
theorem expiry_read {t : Int} (hstored : timestamp3 t = t) (hlow : 0 ≤ t)
    (hhigh : t + apiKeyTtl < yearTenThousand) :
    fromIsoformat (toIstIso (naive (t + apiKeyTtl))) =
      some ⟨t + apiKeyTtl, some istOffset⟩ := by
  have httl : apiKeyTtl = 2592000000 * 1000 := rfl
  have hwhole : (t + apiKeyTtl) / 1000 * 1000 = t + apiKeyTtl := by
    unfold timestamp3 at hstored
    omega
  rw [shown_read (by omega) hhigh, hwhole]

/-- **The console and `is_active` agree** on a row whose key columns go together. -/
theorem showsKey_iff (hwhole : u.KeyWhole) (hfits : u.Fits)
    (hyear : ∀ t ∈ u.apiKeyCreatedAt, t + apiKeyTtl < yearTenThousand) :
    (adminUser u).ShowsKey clock ↔ isActive u clock = true := by
  rcases hwhole with ⟨⟨p, hlookup, hne⟩, hhash, t, hcreated, hlow⟩ | ⟨hlookup, hhash, -⟩
  · have hstored : u.apiKeyCreatedAt.map timestamp3 = u.apiKeyCreatedAt :=
      hfits.2.2.2.1 _ (List.mem_cons_self ..)
    rw [hcreated] at hstored
    -- a key is there: the printed expiry is read back as the stored time and the lifetime
    have hread := expiry_read (Option.some.inj hstored) hlow (hyear t hcreated)
    have hhas : u.hasApiKey = u.apiKeyRevokedAt.isNone := by
      simp [User.hasApiKey, hlookup, hne]
    have hactive : isActive u clock = true ↔
        u.apiKeyRevokedAt = none ∧ u.role ∈ staffRoles ∧ nowIst clock < t + apiKeyTtl := by
      simp [isActive, isExpired, hcreated, Option.isSome_iff_ne_none.mpr hhash, and_assoc]
    rw [hactive]
    constructor
    · rintro ⟨hkey, hstaff, shown, hshown, expiry, hexpiry, hlater⟩
      have hrevoked : u.apiKeyRevokedAt = none :=
        Option.isNone_iff_eq_none.mp (hhas.symm.trans hkey)
      refine ⟨hrevoked, hstaff, ?_⟩
      have hprinted : u.apiKeyExpiresAt = some (toIstIso (naive (t + apiKeyTtl))) := by
        simp only [User.apiKeyExpiresAt, hcreated, hrevoked]
      obtain rfl := Option.some.inj (hprinted.symm.trans hshown)
      obtain rfl := Option.some.inj (hread.symm.trans hexpiry)
      show (clock : Int) + istOffset < t + apiKeyTtl
      have : (clock : Int) < t + apiKeyTtl - istOffset := hlater
      omega
    · rintro ⟨hrevoked, hstaff, hlater⟩
      refine ⟨hhas.trans (Option.isNone_iff_eq_none.mpr hrevoked), hstaff,
        toIstIso (naive (t + apiKeyTtl)), ?_, _, hread, ?_⟩
      · show u.apiKeyExpiresAt = _
        simp only [User.apiKeyExpiresAt, hcreated, hrevoked]
      · show (clock : Int) < t + apiKeyTtl - istOffset
        have : (clock : Int) + istOffset < t + apiKeyTtl := hlater
        omega
  · have hhas : u.hasApiKey = false := by simp [User.hasApiKey, hlookup]
    refine ⟨fun h => ?_, fun h => ?_⟩
    · exact absurd (hhas.symm.trans h.1) Bool.false_ne_true
    · simp [isActive, hhash] at h

/-- Who is authenticated by a key has an active one. -/
theorem active_of_apiKey {env : Env} {t : UserTable} {creds : Credentials}
    (h : currentUser env t clock creds = .ok (some (u, .apiKey))) : isActive u clock = true := by
  rcases currentUser_some h with ⟨-, candidate, -, -, hresolve⟩ | ⟨hvia, -⟩
  · rw [resolveApiKey_eq] at hresolve
    obtain ⟨isMatch, -, hfound⟩ := map_eq_ok.mp hresolve
    obtain ⟨-, hactive⟩ := Option.filter_eq_some_iff.mp hfound
    exact (Bool.and_eq_true_iff.mp hactive).2
  · unfold Credentials.sessionVia at hvia
    split at hvia
    next => split at hvia <;> cases hvia
    next => cases hvia

end Row

/-! ## Announcements -/

section Announced

variable {ρ : Type} {env : Env} {s₀ s : Service ρ} {u : User}

/-- The characters of a secret lie between `-` and `z`. -/
theorem isSpace_of_urlsafe {c : Char} (h : isUrlsafe c = true) : isSpace c = false := by
  have hrange : 45 ≤ c.toNat ∧ c.toNat ≤ 122 := by
    simp only [isUrlsafe, Char.isAlphanum, Char.isAlpha, Char.isUpper, Char.isLower, Char.isDigit,
      Bool.or_eq_true, Bool.and_eq_true, decide_eq_true_eq, beq_iff_eq, UInt32.le_iff_toNat_le,
      ge_iff_le] at h
    have hends : 'A'.val.toNat = 65 ∧ 'Z'.val.toNat = 90 ∧ 'a'.val.toNat = 97 ∧
        'z'.val.toNat = 122 ∧ '0'.val.toNat = 48 ∧ '9'.val.toNat = 57 := by decide
    show 45 ≤ c.val.toNat ∧ c.val.toNat ≤ 122
    rcases h with ((hletter | hdigit) | rfl) | rfl
    · omega
    · omega
    · decide
    · decide
  simp [isSpace]
  omega

/-- A secret has no blank at either end, so that stripping it does no harm. -/
theorem UrlsafeToken.secret_stripped (token : UrlsafeToken) :
    strip token.secret = token.secret := by
  have hplain : ∀ c ∈ token.secret, isSpace c = false := fun c hc =>
    isSpace_of_urlsafe (List.all_eq_true.mp token.secret_urlsafe c hc)
  exact strip_of_stripped ⟨fun c hc => hplain c (List.mem_of_mem_head? hc),
    fun c hc => hplain c (List.mem_of_getLast? hc)⟩

/-- `issue_api_key`, once the user is loaded. -/
def issueAnswer (env : Env) (user : User) (name : Option Text) (clock : Nat) (draw : KeyDraw) :
    Except AppError ApiKeyIssued :=
  (issue env user name clock draw).map fun (row, secret) => apiKeyIssued row secret

/-- The announced expiry, read back: that of the key without its microseconds. -/
theorem issueAnswer_ok {user : User} {name : Option Text} {clock : Nat} {draw : KeyDraw}
    {answer : ApiKeyIssued} (h : issueAnswer env user name clock draw = .ok answer)
    (hyear : nowIst clock + apiKeyTtl < yearTenThousand) :
    answer.apiKey = draw.token.secret ∧ ∃ shown, answer.expiresAt = some shown ∧
      fromIsoformat shown =
        some ⟨(nowIst clock + apiKeyTtl) / 1000 * 1000, some istOffset⟩ := by
  obtain ⟨⟨row, secret⟩, hissue, rfl⟩ := map_eq_ok.mp h
  obtain ⟨-, rfl, rfl⟩ := issue_ok hissue
  refine ⟨rfl, _, rfl, shown_read ?_ hyear⟩
  show (0 : Int) ≤ clock + istOffset + apiKeyTtl
  have hpositive : 0 ≤ istOffset + apiKeyTtl := by decide
  omega

/-- **An announced expiry is kept**, after every run from a service without keys: while the
key is the user's latest, is not revoked and its owner is staff, it authenticates up to the
moment that was announced, and no later than a millisecond past it. -/
theorem announced_expiry_kept (hb : BcryptLaws env) {events : List (Event ρ)} (h₀ : s₀.Keyless)
    (hrun : exec (serve env) s₀ events = some s) {user : User} {name : Option Text} {time : Nat}
    {draw : KeyDraw} {answer : ApiKeyIssued}
    (hissue : issueAnswer env user name time draw = .ok answer)
    (hlive : LiveIssue s.log u.id answer.apiKey time) (hu : s.users.find u.id = some u)
    (hstaff : u.role ∈ staffRoles) (hyear : nowIst time + apiKeyTtl < yearTenThousand) :
    ∃ shown expiry, answer.expiresAt = some shown ∧ fromIsoformat shown = some expiry ∧
      ((s.clock : Int) < expiry.instant →
        currentUser env s.users s.clock ⟨some answer.apiKey, none, none⟩ =
          .ok (some (u, .apiKey))) ∧
      (expiry.instant + 1000 ≤ s.clock →
        currentUser env s.users s.clock ⟨some answer.apiKey, none, none⟩ ≠
          .ok (some (u, .apiKey))) := by
  obtain ⟨hsecret, shown, hshown, hread⟩ := issueAnswer_ok hissue hyear
  rw [hsecret] at hlive ⊢
  refine ⟨shown, _, hshown, hread, ?_⟩
  have hrecord := keyRecord_live_iff.mpr hlive
  have hpresents : Presents ⟨some draw.token.secret, none, none⟩ draw.token.secret :=
    .inl ⟨rfl, fun _ => rfl⟩
  -- the key is accepted up to the stored time and the lifetime
  have hexact : currentUser env s.users s.clock ⟨some draw.token.secret, none, none⟩ =
      .ok (some (u, .apiKey)) ↔ nowIst s.clock < issueTime time + apiKeyTtl := by
    rw [presents_apiKey_iff hpresents draw.token.secret_stripped,
      resolveApiKey_iff hb (exec_ledger h₀ hrun) draw.token.secret_utf8Len]
    constructor
    · rintro ⟨-, -, -, time', hrecord', hfresh⟩
      have hsame := Option.some.inj (hrecord.symm.trans hrecord')
      rwa [(KeyRecord.mk.inj hsame).2.1]
    · exact fun hfresh =>
        ⟨draw.token.secret_looksLikeApiKey, hu, hstaff, time, hrecord, hfresh⟩
  -- what is left is the rounding: the column rounds to the millisecond, the answer cuts
  rw [ne_eq, hexact]
  have httl : apiKeyTtl = 2592000000 * 1000 := rfl
  show ((s.clock : Int) < (time + istOffset + apiKeyTtl) / 1000 * 1000 - istOffset →
      s.clock + istOffset < (time + istOffset + 500) / 1000 * 1000 + apiKeyTtl) ∧
    ((time + istOffset + apiKeyTtl) / 1000 * 1000 - istOffset + 1000 ≤ s.clock →
      ¬ s.clock + istOffset < (time + istOffset + 500) / 1000 * 1000 + apiKeyTtl)
  omega

end Announced

/-- The key of the admin 2, a microsecond after the admin 1 was told of it. -/
theorem issued_key_announced :
    ∃ s u answer, exec (serve sampleEnv) sampleService
        [.call (adminCall (.issueApiKey 2 none)), .tick 1] = some s ∧
      issueAnswer sampleEnv (sampleUser 2 .admin) none 0 drawA = .ok answer ∧
      currentUser sampleEnv s.users s.clock ⟨some answer.apiKey, none, none⟩ =
        .ok (some (u, .apiKey)) := by
  have hrun : (exec (serve sampleEnv) sampleService
      [.call (adminCall (.issueApiKey 2 none)), .tick 1]).map (fun s =>
        decide (keyRecord 2 s.log = some ⟨drawA.token.secret, 0, false⟩ ∧ s.clock = 1 ∧
          (s.users.find 2).map User.role = some .admin)) = some true := by
    decide +kernel
  have htold : okAnd (issueAnswer sampleEnv (sampleUser 2 .admin) none 0 drawA) (fun answer =>
      decide (answer.apiKey = drawA.token.secret ∧
        (answer.expiresAt.bind fromIsoformat).map Datetime.instant =
          some 2592000000000)) = true := by
    decide +kernel
  obtain ⟨s, hs, hstate⟩ := exec_of_test hrun
  obtain ⟨hrecord, hclock, hrole⟩ := of_decide_eq_true hstate
  obtain ⟨u, hu, hadmin⟩ := Option.map_eq_some_iff.mp hrole
  obtain ⟨answer, hissue, hanswer⟩ := exists_of_okAnd htold
  obtain ⟨hsecret, hannounced⟩ := of_decide_eq_true hanswer
  have hid : u.id = 2 := (UserTable.find_eq_some.mp hu).2
  obtain ⟨shown, expiry, hshown, hread, hbefore, -⟩ :=
    announced_expiry_kept sampleEnv_bcrypt sampleService_keyless hs (u := u) hissue
      (hsecret ▸ hid ▸ keyRecord_live_iff.mp hrecord) (hid ▸ hu) (hadmin ▸ by decide) (by decide)
  rw [hshown, Option.bind_some, hread] at hannounced
  refine ⟨s, u, answer, hs, hissue, hbefore ?_⟩
  rw [Option.some.inj hannounced, hclock]
  decide

end SarkariWorld.Auth
