import SarkariWorld.Auth.Service
import SarkariWorld.Auth.SignOut

/-!
# Sessions over sequential runs

Minting and revocation look at the same clock with different resolutions: a
token's `iat` is whole seconds, `session_invalidated_at` keeps microseconds, and
a token issued *at* the stamp counts as revoked. `fresh_sign_in_works_iff` says
what this comes to: a sign-in works until it expires if and only if it falls in a
later second than every logout of its user, so one that follows a logout within
the same second is dead on arrival (`sign_in_within_second_refused`).

A session's lifetime is fixed by the role at sign-in, while the role is read
again on every request. `session_lifetime` bounds the age of an accepted session
by the lifetime its owner's role had then; `promoted_session_outlives_staff_ttl`
shows an accepted staff session older than any minted for staff.

`StampLedger` ties the stamps in the table to the logouts in the log.

The log is what the statements are about: a sign-in is an entry with a token, a logout an
entry of its user. So `fresh_sign_in_works_iff` is a comparison of two times of the log,
and the table enters through the ledger alone.
-/

namespace SarkariWorld.Auth

open SarkariWorld.Lib

variable {ρ : Type} {env : Env} {s₀ s s₁ s' : Service ρ}

/-- The call signed a user out. -/
def Entry.signsOut (e : Entry ρ) (userId : Int) : Bool :=
  match e.request with
  | .logout => e.row = some userId
  | _ => false

/-- No calls answered yet, and nobody has ever signed out. -/
structure Service.NeverSignedOut (s : Service ρ) : Prop where
  log : s.log = []
  users : ∀ u ∈ s.users.rows, u.sessionInvalidatedAt = none

/-- **The stamps in the table are those of the logouts in the log.** -/
structure StampLedger (s : Service ρ) : Prop where
  /-- The log is about the past, -/
  time : ∀ e ∈ s.log, e.time ≤ s.clock
  /-- and about users that exist. -/
  known : ∀ e ∈ s.log, ∀ i, e.row = some i → ∃ u, s.users.find i = some u
  stamped : ∀ i u, s.users.find i = some u → ∀ e ∈ s.log, e.signsOut i = true → u.Stamped e.time
  source : ∀ i u, s.users.find i = some u → ∀ d, u.sessionInvalidatedAt = some d →
    ∃ e ∈ s.log, e.signsOut i = true ∧ d = utcNow e.time

theorem signsOut_row {e : Entry ρ} {i : Int} (h : e.signsOut i = true) : e.row = some i := by
  unfold Entry.signsOut at h
  split at h
  · exact of_decide_eq_true h
  · cases h

/-- A service whose log is empty and on which nobody has signed out is in order. -/
theorem stampLedger_of_fresh (h : s.NeverSignedOut) : StampLedger s := by
  obtain ⟨hlog, husers⟩ := h
  refine ⟨?_, ?_, ?_, ?_⟩
  · simp [hlog]
  · simp [hlog]
  · simp [hlog]
  · intro i u hu d hd
    rw [husers u (UserTable.find_eq_some.mp hu).1] at hd
    cases hd

/-- What a call does to the stamp of a row: it leaves it alone, the row is a new
account, or it is signed out. -/
theorem effect_stamp {c : Call ρ} {users : UserTable} {row : Option Int} {secret : Text}
    (response : Response) {i : Int} {u : User} (h : Effect env s c users row secret)
    (hu : users.find i = some u) :
    (Entry.signsOut ⟨c.request, row, s.clock, response⟩ i = false ∧
        ∃ v, s.users.find i = some v ∧ u.sessionInvalidatedAt = v.sessionInvalidatedAt) ∨
      (Entry.signsOut ⟨c.request, row, s.clock, response⟩ i = false ∧
        s.users.find i = none ∧ u.sessionInvalidatedAt = none) ∨
      (Entry.signsOut ⟨c.request, row, s.clock, response⟩ i = true ∧
        u.sessionInvalidatedAt = some (utcNow s.clock)) := by
  have hquiet : row ≠ some i → Entry.signsOut ⟨c.request, row, s.clock, response⟩ i = false := by
    intro hne
    by_contra hout
    exact hne (signsOut_row (Bool.not_eq_false _ ▸ hout))
  cases h with
  | nothing husers => exact Or.inl ⟨hquiet nofun, u, husers ▸ hu, rfl⟩
  | insert profile hreq hfresh hnew hother =>
    by_cases hi : i = c.nextId
    · subst hi
      obtain rfl := Option.some.inj (hnew.symm.trans hu)
      exact Or.inr (Or.inl ⟨by simp [Entry.signsOut, hreq], hfresh, rfl⟩)
    · exact Or.inl ⟨hquiet fun he => hi (Option.some.inj he).symm, u,
        (hother i hi).symm.trans hu, rfl⟩
  | update actor loaded assigned secret hguard hload hstored hassign hnew hother =>
    by_cases hi : i = loaded.id
    · subst hi
      obtain rfl := Option.some.inj (hnew.symm.trans hu)
      have hcol : (User.flush loaded assigned loaded).sessionInvalidatedAt =
          assigned.sessionInvalidatedAt := flushCol_self
      -- this account's row is written: a sign-out stamps it, any other request leaves the stamp
      rcases assignWrite_stamp hassign with ⟨hother', hclean⟩ | ⟨hlogout, hstamp⟩
      · refine Or.inl ⟨?_, loaded, hstored, hcol.trans hclean⟩
        unfold Entry.signsOut
        split
        next hlogout => exact absurd hlogout hother'
        next => rfl
      · exact Or.inr (Or.inr ⟨by simp [Entry.signsOut, hlogout], hcol.trans hstamp⟩)
    · exact Or.inl ⟨hquiet fun he => hi (Option.some.inj he).symm, u,
        (hother i hi).symm.trans hu, rfl⟩

/-- A call keeps the stamps and the log in step. -/
theorem stampLedger_perform {c : Call ρ} {response : Response} (hl : StampLedger s)
    (h : perform env s c = .ok (s', response)) : StampLedger s' := by
  obtain ⟨row, secret, heffect, -, hlog, hclock⟩ := perform_effect h
  refine ⟨fun e he => ?_, fun e he i hi => ?_, fun i u hu e he hout => ?_, fun i u hu d hd => ?_⟩
  · rw [hlog] at he
    rw [hclock]
    rcases List.mem_cons.mp he with rfl | he
    · exact Nat.le_refl _
    · exact hl.time e he
  · rw [hlog] at he
    rcases List.mem_cons.mp he with rfl | he
    · obtain rfl : row = some i := hi
      exact effect_written heffect
    · obtain ⟨u, hu⟩ := hl.known e he i hi
      exact effect_find_some heffect hu
  · rw [hlog] at he
    rcases effect_stamp response heffect hu with ⟨hquiet, v, hv, hsame⟩ | ⟨hquiet, hfresh, -⟩ |
      ⟨-, hstamp⟩
    · rcases List.mem_cons.mp he with rfl | he
      · rw [hquiet] at hout
        cases hout
      · obtain ⟨d, hd, hle⟩ := hl.stamped i v hv e he hout
        exact ⟨d, hsame.trans hd, hle⟩
    · -- Nobody could sign out an account that did not exist.
      rcases List.mem_cons.mp he with rfl | he
      · rw [hquiet] at hout
        cases hout
      · obtain ⟨v, hv⟩ := hl.known e he i (signsOut_row hout)
        rw [hfresh] at hv
        cases hv
    · refine ⟨utcNow s.clock, hstamp, ?_⟩
      rw [utcNow_instant]
      rcases List.mem_cons.mp he with rfl | he
      · exact Int.le_refl _
      · exact_mod_cast hl.time e he
  · rw [hlog]
    rcases effect_stamp response heffect hu with ⟨-, v, hv, hsame⟩ | ⟨-, -, hnone⟩ | ⟨hout, hstamp⟩
    · obtain ⟨e, he, hout, htime⟩ := hl.source i v hv d (hsame.symm.trans hd)
      exact ⟨e, List.mem_cons_of_mem _ he, hout, htime⟩
    · rw [hnone] at hd
      cases hd
    · exact ⟨_, List.mem_cons_self .., hout, Option.some.inj (hd.symm.trans hstamp)⟩

/-- Whatever happens, the stamps stay those of the logouts in the log. -/
theorem stampLedger_step {event : Event ρ} (hl : StampLedger s) (h : serve env s event = some s') :
    StampLedger s' := by
  rcases serve_cases h with ⟨d, -, rfl⟩ | ⟨c, -, rfl⟩ | ⟨c, response, -, hperform⟩
  · exact ⟨fun e he => Nat.le_add_right_of_le (hl.time e he), hl.known, hl.stamped, hl.source⟩
  · exact hl
  · exact stampLedger_perform hl hperform

theorem exec_stampLedger {events : List (Event ρ)} (hl : StampLedger s)
    (h : exec (serve env) s events = some s') : StampLedger s' :=
  exec_inv_of_step (fun _ _ _ hI hstep => stampLedger_step hI hstep) hl h

/-- The clock never runs back, and users stay. -/
theorem exec_clock_le {events : List (Event ρ)} (h : exec (serve env) s events = some s') :
    s.clock ≤ s'.clock := by
  refine exec_inv_of_step (I := fun m => s.clock ≤ m.clock) ?_ (Nat.le_refl _) h
  intro m event m' hle hstep
  rcases serve_cases hstep with ⟨d, -, rfl⟩ | ⟨c, -, rfl⟩ | ⟨c, response, -, hperform⟩
  · exact Nat.le_add_right_of_le hle
  · exact hle
  · obtain ⟨-, -, -, -, -, hclock⟩ := perform_effect hperform
    omega

theorem exec_find_some {events : List (Event ρ)} (h : exec (serve env) s events = some s') {i : Int}
    {u : User} (hu : s.users.find i = some u) : ∃ u', s'.users.find i = some u' := by
  refine exec_inv_of_step (I := fun m => ∃ u', m.users.find i = some u') ?_ ⟨u, hu⟩ h
  intro m event m' hfind hstep
  obtain ⟨v, hv⟩ := hfind
  rcases serve_cases hstep with ⟨d, -, rfl⟩ | ⟨c, -, rfl⟩ | ⟨c, response, -, hperform⟩
  · exact ⟨v, hv⟩
  · exact ⟨v, hv⟩
  · obtain ⟨row, secret, heffect, -⟩ := perform_effect hperform
    exact effect_find_some heffect hv

/-! ## A fresh sign-in -/

/-- What a sign-in answers: a token minted from the row it wrote. -/
theorem signIn_answer {c : Call ρ} {userId : Int} {token : Text} {v : User}
    (h : perform env s c = .ok (s₁, .session userId token)) (hv : s₁.users.find userId = some v) :
    s₁.clock = s.clock ∧ token = mintSessionToken env s.clock userId v.email v.role ∧
      ∃ e, s₁.log = e :: s.log ∧ e.signsOut userId = false := by
  obtain ⟨row, secret, heffect, hrespond, hlog, hclock⟩ := perform_effect h
  obtain ⟨creds, request, draw, nextId⟩ := c
  cases request with
  | signIn profile =>
    obtain ⟨u, hrefresh, hanswer⟩ := map_eq_ok.mp hrespond
    rw [Response.session.injEq] at hanswer
    obtain ⟨rfl, rfl⟩ := hanswer
    -- the answer is made from the row as it is after the commit
    have hu : s₁.users.find u.id = some u := by
      unfold refresh at hrefresh
      split at hrefresh
      next w hw =>
        obtain rfl := Except.ok.inj hrefresh
        obtain ⟨i, -, hi⟩ := Option.bind_eq_some_iff.mp hw
        exact UserTable.find_of_mem (UserTable.find_eq_some.mp hi).1
      next => cases hrefresh
    obtain rfl := Option.some.inj (hu.symm.trans hv)
    exact ⟨hclock, rfl, _, hlog, rfl⟩
  | updateRole i role =>
    obtain ⟨u, -, hanswer⟩ := map_eq_ok.mp hrespond
    cases hanswer
  | issueApiKey i name => cases hrespond
  | revokeApiKey i => cases hrespond
  | logout => cases hrespond
  | content guard write => cases hrespond

/-- The sign-in's token is accepted at every time before its expiry, whatever
happens, as long as its user does not sign out. -/
def WorksUntilExpiry (env : Env) (s₁ : Service ρ) (userId : Int) (token : Text) (expiry : Nat) :
    Prop :=
  ∀ post s' later, exec (serve env) s₁ post = some s' → s'.log = later ++ s₁.log →
    (∀ e ∈ later, e.signsOut userId = false) → s'.clock < expiry →
    ∃ claims u, verifySessionToken env s'.clock token = some claims ∧
      s'.users.find userId = some u ∧ isRevoked claims u.sessionInvalidatedAt = false

/-- A token is not expired when it is minted. -/
theorem lt_expiry (clock : Nat) (role : UserRole) :
    clock < (clock / second + ttlForRole role) * second := by
  have hdiv := Nat.div_add_mod clock second
  have hmod := Nat.mod_lt clock (by decide : second > 0)
  have httl : 1 ≤ ttlForRole role := by
    unfold ttlForRole
    split <;> decide
  have hmul := Nat.mul_le_mul_right second (Nat.add_le_add_left httl (clock / second))
  rw [Nat.add_mul, Nat.one_mul, Nat.mul_comm] at hmul
  omega

/-- **When a fresh sign-in works.** A token minted by a sign-in is accepted until
it expires if and only if it is short enough to be read and the sign-in falls in
a later second than every logout of its user. -/
theorem fresh_sign_in_works_iff (hj : JwtLaws env) {events : List (Event ρ)} {c : Call ρ}
    {userId : Int} {token : Text} {v : User} (h₀ : s₀.NeverSignedOut)
    (hrun : exec (serve env) s₀ events = some s)
    (hsign : perform env s c = .ok (s₁, .session userId token))
    (hv : s₁.users.find userId = some v) :
    WorksUntilExpiry env s₁ userId token ((s.clock / second + ttlForRole v.role) * second) ↔
      (mintSessionToken env s.clock userId v.email v.role).length ≤ sessionTokenMaxLength ∧
        ∀ e ∈ s.log, e.signsOut userId = true → e.time / second < s.clock / second := by
  have hl := stampLedger_perform (exec_stampLedger (stampLedger_of_fresh h₀) hrun) hsign
  obtain ⟨hclock, rfl, entry, hlog, hentry⟩ := signIn_answer hsign hv
  have hfloor : s.clock / second * second ≤ s.clock := Nat.div_mul_le_self ..
  constructor
  · intro hworks
    obtain ⟨claims, u, hverify, hu, hvalid⟩ :=
      hworks [] s₁ [] rfl rfl (by simp) (hclock ▸ lt_expiry s.clock v.role)
    obtain ⟨rfl, -, hlen⟩ := verify_mint_some hj hverify
    refine ⟨hlen, fun e he hout => ?_⟩
    obtain ⟨d, hd, hle⟩ := hl.stamped userId u hu e (hlog ▸ List.mem_cons_of_mem _ he) hout
    rw [hd, isRevoked_some, mintedClaims_instant, decide_eq_false_iff_not, Int.not_le] at hvalid
    rw [Nat.div_lt_iff_lt_mul (by decide)]
    have hlt : (e.time : Int) < ((s.clock / second : Nat) : Int) * second := by omega
    exact_mod_cast hlt
  · intro hcond post s' later hpost hlater hquiet hexpiry
    obtain ⟨hlen, hearlier⟩ := hcond
    have hl' := exec_stampLedger hl hpost
    have hnow : s.clock ≤ s'.clock := hclock ▸ exec_clock_le hpost
    obtain ⟨u, hu⟩ := exec_find_some hpost hv
    refine ⟨mintedClaims env s.clock userId v.email, u, ?_, hu, ?_⟩
    · rw [verify_mint hj, if_pos ⟨hlen, by omega, hexpiry⟩]
    · cases hd : u.sessionInvalidatedAt with
      | none => rfl
      | some d =>
        -- The stamp is that of a logout before the sign-in.
        obtain ⟨e, he, hout, rfl⟩ := hl'.source userId u hu d hd
        have hmem : e ∈ s.log := by
          rw [hlater, hlog, List.mem_append, List.mem_cons] at he
          rcases he with he | rfl | he
          · rw [hquiet e he] at hout
            cases hout
          · rw [hentry] at hout
            cases hout
          · exact he
        have hlt := (Nat.div_lt_iff_lt_mul (by decide)).mp (hearlier e hmem hout)
        rw [isRevoked_some, mintedClaims_instant, utcNow_instant, decide_eq_false_iff_not,
          Int.not_le]
        exact_mod_cast hlt

/-- The user 1 signs out at 0.3 s. -/
def signOutEarly : List (Event Unit) := [.tick 300000, .call (adminCall .logout)]

/-- The user 1 signs in with Google. -/
def signInOne : Call Unit :=
  ⟨⟨none, none, none⟩, .signIn ⟨strInt 1, [], [], none⟩, drawA, 0⟩

theorem sampleService_neverSignedOut : sampleService.NeverSignedOut where
  log := rfl
  users := by decide

/-- Two seconds after the sign-out, a sign-in works. -/
theorem sign_in_two_seconds_later_works :
    ∃ s s₁ token v,
      exec (serve sampleEnv) sampleService (signOutEarly ++ [.tick 2000000]) = some s ∧
      perform sampleEnv s signInOne = .ok (s₁, .session 1 token) ∧
      s₁.users.find 1 = some v ∧
      WorksUntilExpiry sampleEnv s₁ 1 token ((s.clock / second + ttlForRole v.role) * second) := by
  have hrun : ((exec (serve sampleEnv) sampleService (signOutEarly ++ [.tick 2000000])).map fun s =>
      decide (∀ e ∈ s.log, e.signsOut 1 = true → e.time / second < s.clock / second) &&
        okAnd (perform sampleEnv s signInOne) fun p => (p.2.sessionFor 1).any fun _ =>
          (p.1.users.find 1).any fun v => decide
            ((mintSessionToken sampleEnv s.clock 1 v.email v.role).length
              ≤ sessionTokenMaxLength)) =
      some true := by
    decide +kernel
  obtain ⟨s, hs, htest⟩ := exec_of_test hrun
  rw [Bool.and_eq_true, decide_eq_true_eq] at htest
  obtain ⟨hearlier, htest⟩ := htest
  obtain ⟨⟨s₁, response⟩, hsign, htest⟩ := exists_of_okAnd htest
  obtain ⟨token, htoken, htest⟩ := (Option.any_eq_true ..).mp htest
  obtain ⟨v, hv, hlen⟩ := (Option.any_eq_true ..).mp htest
  obtain rfl := Response.sessionFor_eq_some htoken
  exact ⟨s, s₁, token, v, hs, hsign, hv, (fresh_sign_in_works_iff sampleEnv_jwt
    sampleService_neverSignedOut hs hsign hv).mpr ⟨of_decide_eq_true hlen, hearlier⟩⟩

/-- A sign-in at 0.6 s, after the sign-out at 0.3 s, is refused on the spot. -/
theorem sign_in_within_second_refused :
    ∃ s s₁ token claims u,
      exec (serve sampleEnv) sampleService (signOutEarly ++ [.tick 300000]) = some s ∧
      (∀ e ∈ s.log, e.signsOut 1 = true → e.time < s.clock) ∧
      perform sampleEnv s signInOne = .ok (s₁, .session 1 token) ∧
      verifySessionToken sampleEnv s₁.clock token = some claims ∧
      s₁.users.find 1 = some u ∧ isRevoked claims u.sessionInvalidatedAt = true := by
  have hrun : ((exec (serve sampleEnv) sampleService (signOutEarly ++ [.tick 300000])).map fun s =>
      decide (∀ e ∈ s.log, e.signsOut 1 = true → e.time < s.clock) &&
        okAnd (perform sampleEnv s signInOne) fun p => (p.2.sessionFor 1).any fun token =>
          (verifySessionToken sampleEnv p.1.clock token).any fun claims =>
            (p.1.users.find 1).any fun u => isRevoked claims u.sessionInvalidatedAt) =
      some true := by
    decide +kernel
  obtain ⟨s, hs, htest⟩ := exec_of_test hrun
  rw [Bool.and_eq_true, decide_eq_true_eq] at htest
  obtain ⟨hearlier, htest⟩ := htest
  obtain ⟨⟨s₁, response⟩, hsign, htest⟩ := exists_of_okAnd htest
  obtain ⟨token, htoken, htest⟩ := (Option.any_eq_true ..).mp htest
  obtain ⟨claims, hverify, htest⟩ := (Option.any_eq_true ..).mp htest
  obtain ⟨u, hu, hrevoked⟩ := (Option.any_eq_true ..).mp htest
  obtain rfl := Response.sessionFor_eq_some htoken
  exact ⟨s, s₁, token, claims, u, hs, hearlier, hsign, hverify, hu, hrevoked⟩

/-! ## The age of a session -/

/-- **How old an accepted session can be**: a session minted for a member of the
staff was minted less than `STAFF_SESSION_TTL_SECONDS` ago, any other less than
`USER_SESSION_TTL_SECONDS` ago, whatever role its user has now. -/
theorem session_lifetime (hj : JwtLaws env) {c : Call ρ} {userId : Int} {token : Text} {v u : User}
    {events : List (Event ρ)} {creds : Credentials} {via : AuthVia}
    (hsign : perform env s c = .ok (s₁, .session userId token))
    (hv : s₁.users.find userId = some v) (hrun : exec (serve env) s₁ events = some s')
    (htoken : creds.token = some token)
    (hu : currentUser env s'.users s'.clock creds = .ok (some (u, via))) (hvia : via ≠ .apiKey) :
    u.id = userId ∧ s.clock ≤ s'.clock ∧
      (v.role ∈ staffRoles → s'.clock - s.clock < staffSessionTtlSeconds * second) ∧
      (v.role ∉ staffRoles → s'.clock - s.clock < userSessionTtlSeconds * second) := by
  obtain ⟨hclock, rfl, -⟩ := signIn_answer hsign hv
  rcases currentUser_some hu with ⟨hkey, -⟩ | ⟨-, token, htok, hsession⟩
  · exact absurd hkey hvia
  obtain rfl := Option.some.inj (htok.symm.trans htoken)
  obtain ⟨claims, hverify, hsub, -, -⟩ := sessionUser_some hsession
  obtain ⟨rfl, hlt, -⟩ := verify_mint_some hj hverify
  have hid : userId = u.id := Option.some.inj ((parseInt_strInt userId).symm.trans hsub)
  have hfloor : s.clock / second * second ≤ s.clock := Nat.div_mul_le_self ..
  have hlater : s.clock ≤ s'.clock := hclock ▸ exec_clock_le hrun
  rw [Nat.add_mul] at hlt
  refine ⟨hid.symm, hlater, fun hstaff => ?_, fun hplain => ?_⟩
  · rw [ttlForRole, if_pos hstaff] at hlt
    omega
  · rw [ttlForRole, if_neg hplain] at hlt
    omega

/-- A first sign-in, as user 3. -/
def signInThree : Call Unit :=
  ⟨⟨none, none, none⟩, .signIn ⟨strInt 3, ['c'], ['g'], none⟩, drawA, 3⟩

/-- The session of a plain user is accepted for a day, and is a day old then. -/
theorem plain_session_accepted :
    ∃ s₁ s' token u via, perform sampleEnv sampleService signInThree = .ok (s₁, .session 3 token) ∧
      exec (serve sampleEnv) s₁ [.tick (24 * 60 * 60 * second)] = some s' ∧
      currentUser sampleEnv s'.users s'.clock ⟨none, some token, none⟩ = .ok (some (u, via)) ∧
      s'.clock - sampleService.clock < userSessionTtlSeconds * second := by
  have hrun : okAnd (perform sampleEnv sampleService signInThree) (fun p =>
      (p.2.sessionFor 3).any fun token =>
        decide ((⟨none, some token, none⟩ : Credentials).token = some token) &&
          ((p.1.users.find 3).any fun v => decide (v.role ∉ staffRoles)) &&
          okAnd (currentUser sampleEnv p.1.users (p.1.clock + 24 * 60 * 60 * second)
            ⟨none, some token, none⟩) fun found => found.any fun f => decide (f.2 = .bearer)) =
      true := by
    decide +kernel
  obtain ⟨⟨s₁, response⟩, hsign, htest⟩ := exists_of_okAnd hrun
  obtain ⟨token, hsession, htest⟩ := (Option.any_eq_true ..).mp htest
  obtain rfl := Response.sessionFor_eq_some hsession
  rw [Bool.and_eq_true, Bool.and_eq_true, decide_eq_true_eq] at htest
  obtain ⟨⟨htoken, hv⟩, hc⟩ := htest
  obtain ⟨v, hv, hplain⟩ := (Option.any_eq_true ..).mp hv
  obtain ⟨found, hu, hc⟩ := exists_of_okAnd hc
  obtain ⟨⟨u, via⟩, rfl, hvia⟩ := (Option.any_eq_true ..).mp hc
  obtain rfl : via = .bearer := of_decide_eq_true hvia
  have hday : exec (serve sampleEnv) s₁ [.tick (24 * 60 * 60 * second)] =
    some { s₁ with clock := s₁.clock + 24 * 60 * 60 * second } := rfl
  exact ⟨s₁, _, token, u, .bearer, hsign, hday, hu, (session_lifetime sampleEnv_jwt hsign hv
    hday htoken hu (by decide)).2.2.2 (of_decide_eq_true hplain)⟩

/-- The user 3 signs in, is made an editor, and still is accepted as one eight
days later. -/
theorem promoted_session_outlives_staff_ttl :
    ∃ s₁ s' token u, perform sampleEnv sampleService signInThree = .ok (s₁, .session 3 token) ∧
      exec (serve sampleEnv) s₁ [.call (adminCall (.updateRole 3 .editor)),
        .tick (8 * 24 * 60 * 60 * second)] = some s' ∧
      currentUser sampleEnv s'.users s'.clock ⟨none, some token, none⟩ = .ok (some (u, .bearer)) ∧
      u.role ∈ staffRoles ∧ staffSessionTtlSeconds * second < s'.clock - sampleService.clock := by
  have hrun : okAnd (perform sampleEnv sampleService signInThree) (fun p =>
      (p.2.sessionFor 3).any fun token => decide (((exec (serve sampleEnv) p.1
          [.call (adminCall (.updateRole 3 .editor)), .tick (8 * 24 * 60 * 60 * second)]).map
        fun s' => decide (staffSessionTtlSeconds * second < s'.clock - sampleService.clock) &&
          okAnd (currentUser sampleEnv s'.users s'.clock ⟨none, some token, none⟩) fun found =>
            found.any fun f => decide (f.2 = .bearer ∧ f.1.role ∈ staffRoles)) = some true)) =
      true := by
    decide +kernel
  obtain ⟨⟨s₁, response⟩, hsign, htest⟩ := exists_of_okAnd hrun
  obtain ⟨token, hsession, htest⟩ := (Option.any_eq_true ..).mp htest
  obtain rfl := Response.sessionFor_eq_some hsession
  obtain ⟨s', hs', htest⟩ := exec_of_test (of_decide_eq_true htest)
  rw [Bool.and_eq_true, decide_eq_true_eq] at htest
  obtain ⟨hold, hc⟩ := htest
  obtain ⟨found, hu, hc⟩ := exists_of_okAnd hc
  obtain ⟨⟨u, via⟩, rfl, hf⟩ := (Option.any_eq_true ..).mp hc
  obtain ⟨hvia, hstaff⟩ := of_decide_eq_true hf
  obtain rfl : via = .bearer := hvia
  exact ⟨s₁, s', token, u, hsign, hs', hu, hstaff, hold⟩

end SarkariWorld.Auth
