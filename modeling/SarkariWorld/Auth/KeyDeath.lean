import SarkariWorld.Auth.KeyLedger

/-!
# Dead keys

A key dies in four ways. Rotation and revocation are recorded in the row and
expiry follows from the clock, so none of them can be undone; a demotion is
not recorded at all: `is_active` derives it from the owner's current role.

`dead_key_stays_dead` shows that this is the only weak spot. In every run that
never promotes a plain user who still holds an unrevoked and unexpired key, an
issued secret that has stopped resolving never resolves again.
`promotion_revives_key` is a run in which one does.

The proof follows the four ways apart (`Dead`): each is kept by every request of the
service, except that a role change from plain user to staff may undo the fourth.
`wakesKey` is that event and no other.

The secrets are those of the run, the answers of its issue calls, and the condition that
no draw is used twice stands for the 32 random characters of each. A key that was issued
before the run began is not spoken of.
-/

namespace SarkariWorld.Auth

open SarkariWorld.Lib

variable {ρ : Type} {env : Env} {s₀ s s' : Service ρ} {secret : Text}

/-- The secret resolves to somebody. -/
def Resolves (env : Env) (s : Service ρ) (secret : Text) : Prop :=
  ∃ u, resolveApiKey env s.users s.clock secret = .ok (some u)

instance : Decidable (Resolves env s secret) :=
  match h : resolveApiKey env s.users s.clock secret with
  | .ok (some u) => .isTrue ⟨u, h⟩
  | .ok none => .isFalse fun hres => by
    obtain ⟨u, hu⟩ := hres
    rw [h] at hu
    cases hu
  | .error _ => .isFalse fun hres => by
    obtain ⟨u, hu⟩ := hres
    rw [h] at hu
    cases hu

/-- Only the owner's role keeps the key from being active. -/
def dormant (u : User) (clock : Nat) : Bool :=
  u.apiKeyHash.isSome && u.apiKeyRevokedAt.isNone && !isExpired u clock &&
    decide (u.role ∉ staffRoles)

/-- The event is a successful promotion of a plain user whose key is dormant. -/
def wakesKey (env : Env) (s : Service ρ) : Event ρ → Bool
  | .call c =>
    match c.request, perform env s c with
    | .updateRole userId role, .ok _ =>
      decide (role ∈ staffRoles) && (s.users.find userId).any fun u => dormant u s.clock
    | _, _ => false
  | .tick _ => false

/-- The event is a successful issue that drew a secret issued before. -/
def repeatsDraw (env : Env) (s : Service ρ) : Event ρ → Bool
  | .call c =>
    match c.request, perform env s c with
    | .issueApiKey _ _, .ok _ => s.log.any fun e => e.issuedSecret = some c.draw.token.secret
    | _, _ => false
  | .tick _ => false

/-- An issued secret that is dead for a reason that lasts: wherever it is still
the live issue, its owner is a plain user or its time is up. -/
structure Dead (s : Service ρ) (secret : Text) : Prop where
  issued : ∃ e ∈ s.log, e.issuedSecret = some secret
  cause : ∀ i time u, keyRecord i s.log = some ⟨secret, time, false⟩ → s.users.find i = some u →
    u.role ∉ staffRoles ∨ issueTime time + apiKeyTtl ≤ nowIst s.clock

/-- A secret that does not resolve is dead, and conversely. -/
theorem dead_of_not_resolves (hb : BcryptLaws env) (hl : Ledger env s)
    (hissued : ∃ e ∈ s.log, e.issuedSecret = some secret) (h : ¬Resolves env s secret) :
    Dead s secret := by
  refine ⟨hissued, fun i time u hrec hu => ?_⟩
  have hid := (UserTable.find_eq_some.mp hu).2
  subst hid
  have hrow := hl u.id
  rw [hrec, hu] at hrow
  by_contra hcause
  rw [not_or, not_not, Int.not_le] at hcause
  exact h ⟨u, (resolveApiKey_iff hb hl hrow.short).mpr ⟨hu, hcause.1, time, hrec, hcause.2⟩⟩

/-- A dead secret resolves to nobody, whichever way it died. -/
theorem not_resolves_of_dead (hb : BcryptLaws env) (hl : Ledger env s) (h : Dead s secret) :
    ¬Resolves env s secret := by
  intro hres
  obtain ⟨u, hu⟩ := hres
  obtain ⟨hfind, hstaff, time, hrec, hfresh⟩ :=
    (resolveApiKey_iff hb hl (resolveApiKey_short hb hu)).mp hu
  rcases h.cause u.id time u hrec hfind with hrole | hold
  · exact hrole hstaff
  · omega

/-- A row whose role may have changed but not its key: unless a plain user with a
dormant key was promoted, the cause of death stands. -/
theorem cause_of_role {loaded row : User} {time clock : Nat}
    (hheld : KeyHeld env ⟨secret, time, false⟩ loaded)
    (hcause : loaded.role ∉ staffRoles ∨ issueTime time + apiKeyTtl ≤ nowIst clock)
    (hrole : row.role ∈ staffRoles → dormant loaded clock = false) :
    row.role ∉ staffRoles ∨ issueTime time + apiKeyTtl ≤ nowIst clock := by
  by_cases hstaff : row.role ∈ staffRoles
  · right
    have hnot := hrole hstaff
    rcases hcause with hplain | hold
    · obtain ⟨salt, hhash⟩ := hheld.hash
      have hrev := hheld.revokedAt
      rw [Option.isSome_eq_false_iff] at hrev
      simpa [dormant, isExpired, hhash, hrev, hheld.createdAt, hplain] using hnot
    · exact hold
  · exact Or.inl hstaff

/-- **One call keeps the dead dead.** -/
theorem dead_perform {c : Call ρ} {response : Response} (hl : Ledger env s) (hd : Dead s secret)
    (hdraw : repeatsDraw env s (.call c) = false) (hwake : wakesKey env s (.call c) = false)
    (h : perform env s c = .ok (s', response)) : Dead s' secret := by
  obtain ⟨row, drawn, -, -, hlog, hclock⟩ := perform_effect h
  obtain ⟨e₀, he₀, hissued⟩ := hd.issued
  refine ⟨⟨e₀, hlog ▸ List.mem_cons_of_mem _ he₀, hissued⟩, fun i time u hrec hu => ?_⟩
  rw [hclock]
  have hrow := hl i
  cases key_effect h i with
  | untouched hrecord hfind => exact hd.cause i time u (hrecord ▸ hrec) (hfind ▸ hu)
  | opened v hrecord hfresh hnew hhash =>
    -- A new account has no record.
    rw [← hrecord, hrec, hfresh] at hrow
    exact hrow.elim
  | kept v w hrecord hstored hnew hsame hrole =>
    obtain rfl : w = u := Option.some.inj (hnew.symm.trans hu)
    rw [hrecord] at hrec
    rw [hrec, hstored] at hrow
    refine cause_of_role hrow (hd.cause i time v hrec hstored) fun hstaff => ?_
    rcases hrole with hrole | hreq
    · rw [hrole] at hstaff
      simp [dormant, hstaff]
    · simpa [wakesKey, hreq, h, hstaff, hstored] using hwake
  | issued w userId name hreq hrecord hnew hheld =>
    -- The record is the new one, of a secret that was not issued before.
    rw [hrecord, Option.some.injEq, KeyRecord.mk.injEq] at hrec
    have hfresh : ∀ e ∈ s.log, e.issuedSecret ≠ some c.draw.token.secret := by
      simpa [repeatsDraw, hreq, h] using hdraw
    refine absurd ?_ (hfresh e₀ he₀)
    rw [hissued, hrec.1]
  | revoked v hrecord hstored hnew =>
    rw [hrecord] at hrec
    obtain ⟨r, -, hr⟩ := Option.map_eq_some_iff.mp hrec
    exact Bool.noConfusion (congrArg KeyRecord.revoked hr)

/-- A secret that is dead stays dead through any request that neither draws it again nor promotes
the owner of a key that is otherwise alive. -/
theorem dead_step {event : Event ρ} (hl : Ledger env s) (hd : Dead s secret)
    (hdraw : repeatsDraw env s event = false) (hwake : wakesKey env s event = false)
    (h : serve env s event = some s') : Dead s' secret := by
  rcases serve_cases h with ⟨d, rfl, rfl⟩ | ⟨c, rfl, rfl⟩ | ⟨c, response, rfl, hperform⟩
  · refine ⟨hd.issued, fun i time u hrec hu => (hd.cause i time u hrec hu).imp id fun hold => ?_⟩
    show _ ≤ nowIst (s.clock + d)
    unfold nowIst at hold ⊢
    omega
  · exact hd
  · exact dead_perform hl hd hdraw hwake hperform

/-- **Key death is permanent** in every sequential run from a service without
keys that draws each secret once and never promotes a plain user with a dormant
key: an issued secret that does not resolve any more never resolves again. -/
theorem dead_key_stays_dead (hb : BcryptLaws env) {pre post : List (Event ρ)} {m : Service ρ}
    (h₀ : s₀.Keyless)
    (hdraws : AllSteps (serve env) (fun s event => repeatsDraw env s event = false) s₀
      (pre ++ post))
    (hwakes : AllSteps (serve env) (fun s event => wakesKey env s event = false) s₀
      (pre ++ post))
    (hpre : exec (serve env) s₀ pre = some m) (hpost : exec (serve env) m post = some s)
    (hissued : ∃ e ∈ m.log, e.issuedSecret = some secret) (hdead : ¬Resolves env m secret) :
    ¬Resolves env s secret := by
  have hm := exec_ledger h₀ hpre
  have hinv : Ledger env s ∧ Dead s secret := by
    refine exec_inv (I := fun s => Ledger env s ∧ Dead s secret)
      (P := fun s event => repeatsDraw env s event = false ∧ wakesKey env s event = false) ?_
      (allSteps_and (allSteps_right hdraws hpre) (allSteps_right hwakes hpre))
      ⟨hm, dead_of_not_resolves hb hm hissued hdead⟩ hpost
    exact fun s event s' hP hI hstep =>
      ⟨ledger_step hI.1 hstep, dead_step hI.1 hI.2 hP.1 hP.2 hstep⟩
  exact not_resolves_of_dead hb hinv.1 hinv.2

/-- The key the admin 1 issues for the admin 2, and 31 days. -/
def issueAndWait : List (Event Unit) :=
  [.call (adminCall (.issueApiKey 2 none)), .tick (31 * 24 * 60 * 60 * second)]

/-- An expired key stays expired. -/
theorem expired_key_stays_dead :
    ∃ s, exec (serve sampleEnv) sampleService (issueAndWait ++ [.tick 1]) = some s ∧
      ¬Resolves sampleEnv s drawA.token.secret := by
  have hrun : ((exec (serve sampleEnv) sampleService issueAndWait).map fun m =>
      decide (∃ e ∈ m.log, e.issuedSecret = some drawA.token.secret) &&
        !decide (Resolves sampleEnv m drawA.token.secret)) = some true := by
    decide +kernel
  obtain ⟨m, hm, htest⟩ := exec_of_test hrun
  rw [Bool.and_eq_true, decide_eq_true_eq, Bool.not_eq_true', decide_eq_false_iff_not] at htest
  have hs : exec (serve sampleEnv) m [.tick 1] = some { m with clock := m.clock + 1 } := rfl
  exact ⟨_, exec_append_some.mpr ⟨m, hm, hs⟩,
    dead_key_stays_dead sampleEnv_bcrypt sampleService_keyless (by decide +kernel)
      (by decide +kernel) hm hs htest.1 htest.2⟩

/-- A key the admin 1 issues for the admin 2, who is then demoted. -/
def issueAndDemote : List (Event Unit) :=
  [.call (adminCall (.issueApiKey 2 none)), .call (adminCall (.updateRole 2 .user))]

/-- Promoting the demoted owner again brings the dead key back. -/
theorem promotion_revives_key :
    ∃ m s, exec (serve sampleEnv) sampleService issueAndDemote = some m ∧
      (∃ e ∈ m.log, e.issuedSecret = some drawA.token.secret) ∧
      ¬Resolves sampleEnv m drawA.token.secret ∧
      exec (serve sampleEnv) m [.call (adminCall (.updateRole 2 .editor))] = some s ∧
      Resolves sampleEnv s drawA.token.secret := by
  have hrun : ((exec (serve sampleEnv) sampleService issueAndDemote).map fun m =>
      decide (∃ e ∈ m.log, e.issuedSecret = some drawA.token.secret) &&
        (!decide (Resolves sampleEnv m drawA.token.secret) &&
          decide (((exec (serve sampleEnv) m
              [.call (adminCall (.updateRole 2 .editor))]).map fun s =>
            decide (Resolves sampleEnv s drawA.token.secret)) = some true))) =
      some true := by
    decide +kernel
  obtain ⟨m, hm, htest⟩ := exec_of_test hrun
  rw [Bool.and_eq_true, Bool.and_eq_true, decide_eq_true_eq, Bool.not_eq_true',
    decide_eq_false_iff_not, decide_eq_true_eq] at htest
  obtain ⟨hissued, hdead, hlater⟩ := htest
  obtain ⟨s, hs, halive⟩ := exec_of_test hlater
  exact ⟨m, s, hm, hissued, hdead, hs, of_decide_eq_true halive⟩

end SarkariWorld.Auth
