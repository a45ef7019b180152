import SarkariWorld.Auth.Service

/-!
# API keys over whole runs

Whether a key works is spread over four columns, a prefix lookup and a hash. The
log of a sequential run says the same thing in one place: `keyRecord` reads off
it which secret was issued last for a user, when, and whether it has been
revoked since. `Ledger` states that every row agrees with the log. `key_effect`
says what a call does to a user's record and row, and `ledger_step` that,
whatever it is, it keeps them in agreement.

On top of the ledger, authentication by API key is exact (`apiKey_exact`): it
resolves to a user if and only if the candidate is the secret of the user's live
issue, the user is staff now and the key is younger than 30 days.

The record is about requests that were answered, and the row about columns that were
stored. Between them lies the rounding of `TIMESTAMP(3)`, which is why the age of a key is
measured from the rounded issue time in both.
-/

namespace SarkariWorld.Auth

open SarkariWorld.Lib

variable {ρ : Type}

/-! ## Reading the log -/

/-- The secret an issue call returned. -/
def Entry.issuedSecret (e : Entry ρ) : Option Text :=
  match e.request, e.response with
  | .issueApiKey _ _, .apiKey secret => some secret
  | _, _ => none

/-- The secret the call issued for a user. -/
def Entry.issues (e : Entry ρ) (userId : Int) : Option Text :=
  if e.row = some userId then e.issuedSecret else none

/-- The call revoked the key of a user. -/
def Entry.revokes (e : Entry ρ) (userId : Int) : Bool :=
  match e.request with
  | .revokeApiKey _ => e.row = some userId
  | _ => false

/-- The log's newest issue call for the user returned `secret` at `time`, and no
call has revoked the user's key since. -/
def LiveIssue (log : List (Entry ρ)) (userId : Int) (secret : Text) (time : Nat) : Prop :=
  ∃ later e earlier, log = later ++ e :: earlier ∧ e.issues userId = some secret ∧ e.time = time ∧
    ∀ e' ∈ later, e'.issues userId = none ∧ e'.revokes userId = false

/-- What the log says about the key of a user: the secret last handed out, the moment of its issue,
and whether it has been revoked since. -/
structure KeyRecord where
  secret : Text
  issuedAt : Nat
  revoked : Bool
  deriving DecidableEq, Repr

/-- What the log says about a user's key. -/
def keyRecord (userId : Int) : List (Entry ρ) → Option KeyRecord
  | [] => none
  | e :: log =>
    match e.issues userId with
    | some secret => some ⟨secret, e.time, false⟩
    | none =>
      if e.revokes userId then (keyRecord userId log).map fun r => { r with revoked := true }
      else keyRecord userId log

/-- An entry that says nothing about the user's key. -/
theorem keyRecord_cons_of_quiet {userId : Int} {e : Entry ρ} {log : List (Entry ρ)}
    (hi : e.issues userId = none) (hr : e.revokes userId = false) :
    keyRecord userId (e :: log) = keyRecord userId log := by
  simp [keyRecord, hi, hr]

/-- The newest entry is the live issue, or says nothing and leaves it further on. -/
theorem liveIssue_cons {userId : Int} {e : Entry ρ} {log : List (Entry ρ)} {secret : Text}
    {time : Nat} :
    LiveIssue (e :: log) userId secret time ↔
      (e.issues userId = some secret ∧ e.time = time) ∨
        (e.issues userId = none ∧ e.revokes userId = false) ∧ LiveIssue log userId secret time := by
  constructor
  · intro h
    obtain ⟨later, e', earlier, hlog, hissue, htime, hlater⟩ := h
    -- the latest entry is the issue itself, or must leave the key alone
    cases later with
    | nil =>
      rw [List.nil_append, List.cons.injEq] at hlog
      obtain ⟨rfl, -⟩ := hlog
      exact Or.inl ⟨hissue, htime⟩
    | cons x later =>
      rw [List.cons_append, List.cons.injEq] at hlog
      obtain ⟨rfl, hrest⟩ := hlog
      exact Or.inr ⟨hlater e (List.mem_cons_self ..), later, e', earlier, hrest, hissue, htime,
        fun y hy => hlater y (List.mem_cons_of_mem _ hy)⟩
  · intro h
    rcases h with ⟨hissue, htime⟩ | ⟨hquiet, later, e', earlier, rfl, hissue, htime, hlater⟩
    · exact ⟨[], e, log, rfl, hissue, htime, by simp⟩
    · refine ⟨e :: later, e', earlier, rfl, hissue, htime, fun x hx => ?_⟩
      rcases List.mem_cons.mp hx with rfl | hx
      · exact hquiet
      · exact hlater x hx

/-- `keyRecord` finds the live issue, if there is one. -/
theorem keyRecord_live_iff {userId : Int} {log : List (Entry ρ)} {secret : Text} {time : Nat} :
    keyRecord userId log = some ⟨secret, time, false⟩ ↔ LiveIssue log userId secret time := by
  induction log with
  | nil =>
    refine ⟨fun h => (nomatch h), fun h => ?_⟩
    obtain ⟨later, e, earlier, hlog, -⟩ := h
    exact absurd hlog (by simp)
  | cons e log ih =>
    rw [liveIssue_cons]
    cases hissue : e.issues userId with
    | some issued =>
      -- The head is the newest issue, whatever the log held before.
      simp only [keyRecord, hissue, Option.some.injEq, KeyRecord.mk.injEq, and_true, reduceCtorEq,
        false_and, or_false]
    | none =>
      cases hrevokes : e.revokes userId with
      | false =>
        rw [keyRecord_cons_of_quiet hissue hrevokes, ih]
        simp only [reduceCtorEq, false_and, and_self, true_and, false_or]
      | true =>
        -- A revocation ends any earlier issue.
        simp only [reduceCtorEq, false_and, and_false, or_self, iff_false]
        intro h
        simp only [keyRecord, hissue, hrevokes, if_true] at h
        obtain ⟨r, -, hr⟩ := Option.map_eq_some_iff.mp h
        exact Bool.noConfusion (congrArg KeyRecord.revoked hr)

/-! ## The ledger -/

/-- The issue time of a key: the `api_key_created_at` that an issue call made at
`clock` leaves in its `TIMESTAMP(3)` column. -/
def issueTime (clock : Nat) : Int := timestamp3 (nowIst clock)

/-- The row holds the key of the record. -/
structure KeyHeld (env : Env) (r : KeyRecord) (u : User) : Prop where
  lookup : u.apiKeyPrefix = some (r.secret.take apiKeyLookupPrefixLength)
  hash : ∃ salt, u.apiKeyHash = some (env.hashpw r.secret salt)
  createdAt : u.apiKeyCreatedAt = some (issueTime r.issuedAt)
  revokedAt : u.apiKeyRevokedAt.isSome = r.revoked
  shape : looksLikeApiKey (some r.secret) = true
  short : utf8Len r.secret ≤ 72

/-- A row agrees with what the log says about its key. -/
def RecordMatches (env : Env) : Option KeyRecord → Option User → Prop
  | none, none => True
  | none, some u => u.apiKeyHash = none
  | some r, some u => KeyHeld env r u
  | some _, none => False

/-- **The ledger invariant.** -/
def Ledger (env : Env) (s : Service ρ) : Prop :=
  ∀ i, RecordMatches env (keyRecord i s.log) (s.users.find i)

/-- A service that holds no keys and has answered no calls. -/
structure Service.Keyless (s : Service ρ) : Prop where
  log : s.log = []
  users : ∀ u ∈ s.users.rows, u.apiKeyHash = none

/-- A service that begins without keys begins in agreement. -/
theorem ledger_of_keyless {env : Env} {s : Service ρ} (h : s.Keyless) : Ledger env s := by
  intro i
  rw [h.log]
  cases hf : s.users.find i with
  | none => trivial
  | some u => exact h.users u (UserTable.find_eq_some.mp hf).1

/-- The two rows hold the same key. -/
structure SameKey (u v : User) : Prop where
  lookup : v.apiKeyPrefix = u.apiKeyPrefix
  hash : v.apiKeyHash = u.apiKeyHash
  createdAt : v.apiKeyCreatedAt = u.apiKeyCreatedAt
  revokedAt : v.apiKeyRevokedAt = u.apiKeyRevokedAt

/-- Agreement is a matter of the key columns and the number alone. -/
theorem recordMatches_sameKey {env : Env} {r : Option KeyRecord} {u v : User}
    (h : RecordMatches env r (some u)) (hsame : SameKey u v) : RecordMatches env r (some v) := by
  cases r with
  | none => exact hsame.hash.trans h
  | some r =>
    exact ⟨hsame.lookup.trans h.lookup, hsame.hash ▸ h.hash, hsame.createdAt.trans h.createdAt,
      hsame.revokedAt ▸ h.revokedAt, h.shape, h.short⟩

/-- A flush of a copy that left the key alone leaves the key alone. -/
theorem sameKey_flush {loaded row : User} (h : SameKey loaded row) :
    SameKey loaded (User.flush loaded row loaded) where
  lookup := by simp only [User.flush, h.lookup, flushCol_clean]
  hash := by simp only [User.flush, h.hash, flushCol_clean]
  createdAt := by simp only [User.flush, h.createdAt, flushColWith_clean]
  revokedAt := by simp only [User.flush, h.revokedAt, flushColWith_clean]

section Steps

variable {env : Env} {s₀ s s' : Service ρ} {c : Call ρ} {response : Response}

/-- What an issue call leaves in a row that fits its columns. -/
theorem keyHeld_issue {loaded row : User} {name : Option Text} {clock : Nat} {draw : KeyDraw}
    {secret : Text} (hfits : loaded.Fits)
    (h : issue env loaded name clock draw = .ok (row, secret)) :
    KeyHeld env ⟨secret, clock, false⟩ (User.flush loaded row loaded) := by
  obtain ⟨-, rfl, rfl⟩ := issue_ok h
  have hstored : loaded.apiKeyCreatedAt.map timestamp3 = loaded.apiKeyCreatedAt :=
    hfits.2.2.2.1 _ (List.mem_cons_self ..)
  refine ⟨flushCol_self, ⟨draw.salt, flushCol_self⟩, ?_, ?_, draw.token.secret_looksLikeApiKey,
    draw.token.secret_utf8Len⟩
  · show flushColWith (Option.map timestamp3) loaded.apiKeyCreatedAt (some (nowIst clock)) _ = _
    by_cases hclean : some (nowIst clock) = loaded.apiKeyCreatedAt
    · rw [← hclean, flushColWith_clean]
      rw [← hclean] at hstored
      exact hstored.symm
    · rw [flushColWith_dirty hclean]
      rfl
  · show (flushColWith (Option.map timestamp3) loaded.apiKeyRevokedAt none _).isSome = false
    by_cases hclean : none = loaded.apiKeyRevokedAt
    · rw [← hclean, flushColWith_clean]
      rfl
    · rw [flushColWith_dirty hclean]
      rfl

/-- What a revocation leaves. -/
theorem keyHeld_revoke {loaded : User} {clock : Nat} {r : KeyRecord} (h : KeyHeld env r loaded) :
    KeyHeld env { r with revoked := true } (User.flush loaded (revoke loaded clock) loaded) := by
  refine ⟨flushCol_self.trans h.lookup, ?_, ?_, ?_, h.shape, h.short⟩
  · obtain ⟨salt, hsalt⟩ := h.hash
    exact ⟨salt, flushCol_self.trans hsalt⟩
  · exact flushColWith_clean.trans h.createdAt
  · show (flushColWith (Option.map timestamp3) loaded.apiKeyRevokedAt (some (nowIst clock))
      loaded.apiKeyRevokedAt).isSome = true
    by_cases hclean : some (nowIst clock) = loaded.apiKeyRevokedAt
    · rw [← hclean, flushColWith_clean]
      rfl
    · rw [flushColWith_dirty hclean]
      rfl

/-- An entry about another row, or about none, is quiet. -/
theorem quiet_of_row_ne {e : Entry ρ} {i : Int} (h : e.row ≠ some i) :
    e.issues i = none ∧ e.revokes i = false := by
  refine ⟨if_neg h, ?_⟩
  unfold Entry.revokes
  split
  · exact decide_eq_false h
  · rfl

/-- What a successful call does to the key of the user `i`: to the record the log
holds of it and to the row. -/
inductive KeyEffect (env : Env) (s s' : Service ρ) (c : Call ρ) (i : Int) : Prop where
  | untouched (hrecord : keyRecord i s'.log = keyRecord i s.log)
      (hrow : s'.users.find i = s.users.find i) : KeyEffect env s s' c i
  | opened (u : User) (hrecord : keyRecord i s'.log = keyRecord i s.log)
      (hfresh : s.users.find i = none) (hnew : s'.users.find i = some u)
      (hhash : u.apiKeyHash = none) : KeyEffect env s s' c i
  | kept (u v : User) (hrecord : keyRecord i s'.log = keyRecord i s.log)
      (hstored : s.users.find i = some u) (hnew : s'.users.find i = some v)
      (hsame : SameKey u v) (hrole : v.role = u.role ∨ c.request = .updateRole i v.role) :
      KeyEffect env s s' c i
  | issued (v : User) (userId : Int) (name : Option Text)
      (hreq : c.request = .issueApiKey userId name)
      (hrecord : keyRecord i s'.log = some ⟨c.draw.token.secret, s.clock, false⟩)
      (hnew : s'.users.find i = some v)
      (hheld : KeyHeld env ⟨c.draw.token.secret, s.clock, false⟩ v) : KeyEffect env s s' c i
  | revoked (u : User)
      (hrecord : keyRecord i s'.log =
        (keyRecord i s.log).map fun r => { r with revoked := true })
      (hstored : s.users.find i = some u)
      (hnew : s'.users.find i = some (User.flush u (revoke u s.clock) u)) : KeyEffect env s s' c i

/-- A role change is of the user in its path. -/
theorem updateRole_target {actor : Option User} {userId : Int} {role : UserRole} {loaded : User}
    (hreq : c.request = .updateRole userId role)
    (hguard : guardRequest env s.users s.clock c.creds c.request = .ok actor)
    (hload : loadTarget env s.users actor c.request = .ok (some loaded)) : loaded.id = userId := by
  rw [hreq] at hguard hload
  obtain ⟨who, via, rfl, -⟩ := guardRequest_admin rfl hguard
  obtain ⟨-, v, hv, -, hid⟩ := loadTarget_updateRole hload
  exact Option.some.inj hv ▸ hid

/-- **What one call does to a key.** The ledger, and which secrets are dead, are
case analyses over it. -/
theorem key_effect (h : perform env s c = .ok (s', response)) (i : Int) :
    KeyEffect env s s' c i := by
  obtain ⟨row, secret, heffect, hrespond, hlog, -⟩ := perform_effect h
  cases heffect with
  | nothing hsame =>
    obtain ⟨hi, hr⟩ := quiet_of_row_ne (e := ⟨c.request, none, s.clock, response⟩) (i := i) nofun
    exact .untouched (by rw [hlog, keyRecord_cons_of_quiet hi hr]) (by rw [hsame])
  | insert profile hreq hfresh hnew hother =>
    have hrecord : keyRecord i s'.log = keyRecord i s.log := by
      rw [hlog]
      exact keyRecord_cons_of_quiet (by simp [Entry.issues, Entry.issuedSecret, hreq])
        (by simp [Entry.revokes, hreq])
    by_cases hi : i = c.nextId
    · subst hi
      exact .opened _ hrecord hfresh hnew rfl
    · exact .untouched hrecord (hother i hi)
  | update actor loaded assigned secret hguard hload hstored hassign hnew hother =>
    by_cases hi : i = loaded.id
    · subst hi
      -- Everything but an issue and a revocation leaves the record alone.
      have hkept : Entry.issuedSecret ⟨c.request, some loaded.id, s.clock, response⟩ = none →
          Entry.revokes ⟨c.request, some loaded.id, s.clock, response⟩ loaded.id = false →
          SameKey loaded assigned →
          assigned.role = loaded.role ∨ c.request = .updateRole loaded.id assigned.role →
          KeyEffect env s s' c loaded.id := by
        intro hissue hrevoke hkey hrole
        have hflush : (User.flush loaded assigned loaded).role = assigned.role := flushCol_self
        refine .kept _ _ ?_ hstored hnew (sameKey_flush hkey) (by rwa [hflush])
        rw [hlog, keyRecord_cons_of_quiet (by simp [Entry.issues, hissue]) hrevoke]
      obtain ⟨-, hcase⟩ := assignWrite_update hassign
      rcases hcase with ⟨userId, role, hreq, rfl⟩ | ⟨userId, name, hreq, hissue⟩ |
        ⟨userId, hreq, rfl⟩ | ⟨hreq, rfl⟩ | ⟨profile, hreq, rfl⟩
      · refine hkept (by simp [Entry.issuedSecret, hreq]) (by simp [Entry.revokes, hreq])
          ⟨rfl, rfl, rfl, rfl⟩ (Or.inr ?_)
        rw [hreq, updateRole_target hreq hguard hload]
      · obtain ⟨-, rfl, -⟩ := issue_ok hissue
        rw [hreq] at hrespond
        have hresp : response = .apiKey c.draw.token.secret := (Except.ok.inj hrespond).symm
        refine .issued _ userId name hreq ?_ hnew
          (keyHeld_issue (s.users.fits _ (UserTable.find_eq_some.mp hstored).1) hissue)
        rw [hlog]
        simp [keyRecord, Entry.issues, Entry.issuedSecret, hreq, hresp]
      · refine .revoked loaded ?_ hstored hnew
        rw [hlog]
        simp [keyRecord, Entry.issues, Entry.issuedSecret, Entry.revokes, hreq]
      · exact hkept (by simp [Entry.issuedSecret, hreq]) (by simp [Entry.revokes, hreq])
          ⟨rfl, rfl, rfl, rfl⟩ (Or.inl rfl)
      · exact hkept (by simp [Entry.issuedSecret, hreq]) (by simp [Entry.revokes, hreq])
          ⟨rfl, rfl, rfl, rfl⟩ (Or.inl rfl)
    · obtain ⟨hiss, hrev⟩ := quiet_of_row_ne (e := ⟨c.request, some loaded.id, s.clock, response⟩)
        (i := i) (fun he => hi (Option.some.inj he).symm)
      exact .untouched (by rw [hlog, keyRecord_cons_of_quiet hiss hrev]) (hother i hi)

/-- A call keeps the rows in agreement with the log. -/
theorem ledger_perform (hl : Ledger env s) (h : perform env s c = .ok (s', response)) :
    Ledger env s' := by
  intro i
  have hold := hl i
  cases key_effect h i with
  | untouched hrecord hrow =>
    rw [hrecord, hrow]
    exact hold
  | opened u hrecord hfresh hnew hhash =>
    -- A record without a row would contradict the ledger before the call.
    rw [hfresh] at hold
    rw [hrecord, hnew]
    cases hr : keyRecord i s.log with
    | none => exact hhash
    | some r =>
      rw [hr] at hold
      exact hold.elim
  | kept u v hrecord hstored hnew hsame hrole =>
    rw [hstored] at hold
    rw [hrecord, hnew]
    exact recordMatches_sameKey hold hsame
  | issued v userId name hreq hrecord hnew hheld =>
    rw [hrecord, hnew]
    exact hheld
  | revoked u hrecord hstored hnew =>
    rw [hstored] at hold
    rw [hrecord, hnew]
    cases hr : keyRecord i s.log with
    | none =>
      rw [hr] at hold
      exact flushCol_self.trans hold
    | some r =>
      rw [hr] at hold
      exact keyHeld_revoke hold

/-- Whatever a request does, log and rows agree after it. -/
theorem ledger_step {event : Event ρ} (hl : Ledger env s) (h : serve env s event = some s') :
    Ledger env s' := by
  rcases serve_cases h with ⟨d, -, rfl⟩ | ⟨c, -, rfl⟩ | ⟨c, response, -, hperform⟩
  · exact hl
  · exact hl
  · exact ledger_perform hl hperform

theorem exec_ledger {events : List (Event ρ)} (h₀ : s₀.Keyless)
    (h : exec (serve env) s₀ events = some s) : Ledger env s :=
  exec_inv_of_step (fun _ _ _ hl hstep => ledger_step hl hstep) (ledger_of_keyless h₀) h

end Steps

/-! ## What a candidate resolves to -/

section Resolve

variable {env : Env} {s₀ s s' : Service ρ} {candidate : Text} {u : User}

/-- A held key is active if it is not revoked, its owner is staff and it is
younger than 30 days. -/
theorem isActive_iff {r : KeyRecord} {clock : Nat} (h : KeyHeld env r u) :
    isActive u clock = true ↔
      r.revoked = false ∧ u.role ∈ staffRoles ∧
        nowIst clock < issueTime r.issuedAt + apiKeyTtl := by
  obtain ⟨salt, hhash⟩ := h.hash
  have hrevoked : u.apiKeyRevokedAt.isNone = !r.revoked := by
    rw [← h.revokedAt]
    cases u.apiKeyRevokedAt with
    | none => rfl
    | some t => rfl
  simp only [isActive, isExpired, hhash, hrevoked, h.createdAt, Option.isSome_some, Bool.true_and,
    Bool.and_eq_true, Bool.not_eq_true', decide_eq_true_eq, decide_eq_false_iff_not,
    Int.not_le, and_assoc]

/-- Whatever resolves fits bcrypt. -/
theorem resolveApiKey_short (hb : BcryptLaws env) {t : UserTable} {clock : Nat} {r : Option User}
    (h : resolveApiKey env t clock candidate = .ok r) : utf8Len candidate ≤ 72 :=
  ((resolveApiKey_returns_iff hb).mp ⟨r, h⟩).1

/-- **What a candidate resolves to**, by the log: the user whose live issue
returned it, while the user is staff and the key is fresh. -/
theorem resolveApiKey_iff (hb : BcryptLaws env) (hl : Ledger env s)
    (hshort : utf8Len candidate ≤ 72) :
    resolveApiKey env s.users s.clock candidate = .ok (some u) ↔
      s.users.find u.id = some u ∧ u.role ∈ staffRoles ∧
        ∃ time, keyRecord u.id s.log = some ⟨candidate, time, false⟩ ∧
          nowIst s.clock < issueTime time + apiKeyTtl := by
  have hheld : ∀ v, s.users.find v.id = some v → ∀ r, keyRecord v.id s.log = some r →
      KeyHeld env r v := by
    intro v hv r hr
    have hrow := hl v.id
    rwa [hv, hr] at hrow
  cases hlook : lookup User.apiKeyPrefix (candidate.take apiKeyLookupPrefixLength) s.users.rows with
  | none =>
    -- No row has the prefix, so nobody's live secret is the candidate.
    rw [resolveApiKey_miss hb hshort hlook]
    refine ⟨fun h => (nomatch h), fun h => ?_⟩
    obtain ⟨hu, -, time, hrec, -⟩ := h
    have hpre := (hheld u hu _ hrec).lookup
    exact absurd hpre (lookup_eq_none_iff.mp hlook u (UserTable.find_eq_some.mp hu).1)
  | some v =>
    obtain ⟨hv, hvpre⟩ := mem_of_lookup hlook
    have hvfind := UserTable.find_of_mem hv
    -- The owner of the candidate, if it has one, is the selected row.
    have howner : ∀ w, s.users.find w.id = some w → ∀ time,
        keyRecord w.id s.log = some ⟨candidate, time, false⟩ → v = w := by
      intro w hw time hrec
      exact eq_of_uniqueCol s.users.keyed.apiKeyPrefix hv (UserTable.find_eq_some.mp hw).1 hvpre
        (hheld w hw _ hrec).lookup
    cases hrec : keyRecord v.id s.log with
    | none =>
      have hnohash : v.apiKeyHash = none := by
        have hrow := hl v.id
        rwa [hvfind, hrec] at hrow
      constructor
      · intro h
        rw [resolveApiKey_eq, hlook] at h
        obtain ⟨isMatch, -, hfilter⟩ := map_eq_ok.mp h
        obtain ⟨hvu, hactive⟩ := Option.filter_eq_some_iff.mp hfilter
        obtain rfl := Option.some.inj hvu
        simp [isActive, hnohash] at hactive
      · intro h
        obtain ⟨hu, -, time, hrec', -⟩ := h
        rw [howner u hu time hrec', hrec'] at hrec
        cases hrec
    | some r =>
      have hkey := hheld v hvfind r hrec
      obtain ⟨salt, hhash⟩ := hkey.hash
      rw [resolveApiKey_hashed hb hshort hlook hhash]
      constructor
      · intro h
        split at h
        next hcond =>
          obtain rfl : v = u := Option.some.inj (Except.ok.inj h)
          obtain ⟨rfl, hactive⟩ := hcond
          obtain ⟨hrev, hstaff, hfresh⟩ := (isActive_iff hkey).mp hactive
          obtain ⟨secret, issuedAt, revoked⟩ := r
          exact ⟨hvfind, hstaff, issuedAt, by rw [hrec, ← hrev], hfresh⟩
        next => cases h
      · intro h
        obtain ⟨hu, hstaff, time, hrec', hfresh⟩ := h
        obtain rfl := howner u hu time hrec'
        rw [hrec'] at hrec
        obtain rfl := Option.some.inj hrec
        rw [if_pos ⟨rfl, (isActive_iff hkey).mpr ⟨rfl, hstaff, hfresh⟩⟩]

/-! ## Authentication is exact -/

/-- The candidate is sent as `X-API-Key`, or as the bearer token without one. An
empty header is no header. -/
def Presents (creds : Credentials) (candidate : Text) : Prop :=
  (creds.headerKey = some candidate ∧ (candidate = [] → creds.bearer = none)) ∨
    (creds.headerKey = none ∧ creds.bearer = some candidate)

/-- A client that presents a text as a key, in either header, presents it to the lookup as it is. -/
theorem presents_candidate {creds : Credentials} (h : Presents creds candidate)
    (hstrip : strip candidate = candidate) :
    creds.candidate = some candidate ∨ (candidate = [] ∧ creds.candidate = none) := by
  rcases h with ⟨hheader, hbearer⟩ | ⟨hheader, hbearer⟩
  · by_cases hnil : candidate = []
    · right
      refine ⟨hnil, ?_⟩
      simp [Credentials.candidate, pyOr, hheader, hnil, Credentials.bearerValue, hbearer hnil]
    · left
      simp [Credentials.candidate, pyOr, hheader, hnil]
  · left
    simp [Credentials.candidate, pyOr, hheader, Credentials.bearerValue, hbearer, hstrip]

/-- A presented text authenticates as a key exactly if it has the shape of one and resolves to the
user. The two headers are treated alike. -/
theorem presents_apiKey_iff {creds : Credentials} {t : UserTable} {clock : Nat}
    (h : Presents creds candidate) (hstrip : strip candidate = candidate) :
    currentUser env t clock creds = .ok (some (u, .apiKey)) ↔
      looksLikeApiKey (some candidate) = true ∧
        resolveApiKey env t clock candidate = .ok (some u) := by
  have hcand := presents_candidate h hstrip
  constructor
  · intro hc
    rcases currentUser_some hc with ⟨-, c, hc', hlook, hr⟩ | ⟨hvia, -⟩
    · rcases hcand with hcand | ⟨-, hcand⟩
      · obtain rfl := Option.some.inj (hcand.symm.trans hc')
        exact ⟨hlook, hr⟩
      · rw [hcand] at hc'
        cases hc'
    · unfold Credentials.sessionVia at hvia
      split at hvia
      next => split at hvia <;> cases hvia
      next => cases hvia
  · intro hc
    obtain ⟨hlook, hr⟩ := hc
    have hcand' : creds.candidate = some candidate := by
      rcases hcand with hcand | ⟨rfl, -⟩
      · exact hcand
      · simp [looksLikeApiKey] at hlook
    rw [currentUser, hcand', if_pos hlook, Option.getD_some, hr]
    rfl

/-- **API-key authentication is exact** after every sequential run from a service
without keys: the candidate authenticates as `u` if and only if `u` is a stored
staff user, the latest issue call for `u` returned it, no revocation followed,
and less than 30 days have passed since the issue time. -/
theorem apiKey_exact (hb : BcryptLaws env) {events : List (Event ρ)} (h₀ : s₀.Keyless)
    (hrun : exec (serve env) s₀ events = some s) (hshort : utf8Len candidate ≤ 72)
    (hstrip : strip candidate = candidate) {creds : Credentials} (hcreds : Presents creds candidate)
    (u : User) :
    currentUser env s.users s.clock creds = .ok (some (u, .apiKey)) ↔
      s.users.find u.id = some u ∧ u.role ∈ staffRoles ∧
        ∃ time, LiveIssue s.log u.id candidate time ∧
          nowIst s.clock < issueTime time + apiKeyTtl := by
  have hl := exec_ledger h₀ hrun
  simp only [← keyRecord_live_iff]
  rw [presents_apiKey_iff hcreds hstrip, resolveApiKey_iff hb hl hshort]
  refine ⟨And.right, fun h => ⟨?_, h⟩⟩
  obtain ⟨hu, -, time, hrec, -⟩ := h
  have hrow := hl u.id
  rw [hu, hrec] at hrow
  exact hrow.shape

end Resolve

theorem sampleService_keyless : sampleService.Keyless where
  log := rfl
  users := by decide

/-- The key the admin 1 issued for the admin 2 works, as the latest one. -/
theorem issued_key_authenticates :
    ∃ s, exec (serve sampleEnv) sampleService [.call (adminCall (.issueApiKey 2 none)), .tick 1] =
      some s ∧
      ∃ u time, currentUser sampleEnv s.users s.clock
        ⟨some drawA.token.secret, none, none⟩ = .ok (some (u, .apiKey)) ∧
        LiveIssue s.log u.id drawA.token.secret time := by
  have hrun : ((exec (serve sampleEnv) sampleService
      [.call (adminCall (.issueApiKey 2 none)), .tick 1]).map fun s =>
        okAnd (currentUser sampleEnv s.users s.clock ⟨some drawA.token.secret, none, none⟩)
          fun found => found.any fun p => decide (p.2 = .apiKey)) = some true := by
    decide +kernel
  obtain ⟨s, hs, hc⟩ := exec_of_test hrun
  obtain ⟨found, hu, hc⟩ := exists_of_okAnd hc
  obtain ⟨⟨u, via⟩, rfl, hvia⟩ := (Option.any_eq_true ..).mp hc
  obtain rfl : via = .apiKey := of_decide_eq_true hvia
  obtain ⟨-, -, time, hlive, -⟩ := (apiKey_exact sampleEnv_bcrypt sampleService_keyless hs
    (by decide) (by decide) (Or.inl ⟨rfl, fun _ => rfl⟩) u).mp hu
  exact ⟨s, hs, u, time, hu, hlive⟩

end SarkariWorld.Auth
