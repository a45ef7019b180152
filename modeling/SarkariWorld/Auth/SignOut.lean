import SarkariWorld.Auth.System

/-!
# Global sign-out

`logout` takes its stamp and commits it in two steps, and the write is
unconditional: two logouts that overlap can commit in the order opposite to
their stamps, and the second commit then moves `session_invalidated_at` back.

`signed_out_for_good` shows that this is the only way a sign-out is undone. In
every run whose logouts commit no stamp older than the stored one, a token
minted at or before the stamp of a committed logout is never accepted again.
The argument is monotonicity: `step_stamped` says that a stored row goes on
revoking whatever it revokes, and `copiesBehind_step` that no copy in flight is
ahead of its row, so that a logout whose stamp equals the one it loaded, and is
therefore not written, finds a row that already holds it.
`overlapping_logouts` is a run in which a token comes back.

Copies are the difficulty. Every request in flight holds rows as they were when it loaded
them, and a flush of an older copy could bring an older stamp back; it does not, because a
flush writes only the columns its request assigned, and nothing but a logout assigns this
one.
-/

namespace SarkariWorld.Auth

open SarkariWorld.Lib

variable {ρ : Type} {env : Env} {s₀ s s' : Sys ρ} {as : List (Action ρ)} {a : Action ρ}

/-- The row revokes every token issued at `σ` or before. -/
def User.Stamped (σ : Int) (u : User) : Prop :=
  ∃ d, u.sessionInvalidatedAt = some d ∧ σ ≤ d.instant

/-- The user a logout in flight is about to sign out, and the stamp it took. -/
def Sys.logoutStamp (s : Sys ρ) (r : Nat) : Option (Int × Datetime) :=
  match s.stage r with
  | .active ⟨.logout, _, .assigned (.update loaded row) _⟩ =>
    row.sessionInvalidatedAt.map fun d => (loaded.id, d)
  | _ => none

/-- The write of request `r` is stored. -/
def Sys.committed (s : Sys ρ) (r : Nat) : Bool :=
  match s.stage r with
  | .active ⟨_, _, .committed _ _⟩ => true
  | _ => false

/-- The step commits a logout whose stamp is older than the stored one. -/
def staleStamp (s : Sys ρ) : Action ρ → Bool
  | .commit r _ =>
    match s.logoutStamp r with
    | some (userId, d) =>
      ((s.users.find userId).bind User.sessionInvalidatedAt).any fun e => d.instant < e.instant
    | none => false
  | _ => false

/-- A logout that has a stamp has assigned it and not committed it yet. -/
theorem logoutStamp_some {r : Nat} {userId : Int} {d : Datetime}
    (h : s.logoutStamp r = some (userId, d)) :
    ∃ actor loaded row secret,
      s.stage r = .active ⟨.logout, actor, .assigned (.update loaded row) secret⟩ ∧
        loaded.id = userId ∧ row.sessionInvalidatedAt = some d := by
  unfold Sys.logoutStamp at h
  split at h
  next actor loaded row secret hstage =>
    obtain ⟨e, he, hpair⟩ := Option.map_eq_some_iff.mp h
    rw [Prod.mk.injEq] at hpair
    exact ⟨actor, loaded, row, secret, hstage, hpair.1, hpair.2 ▸ he⟩
  next => cases h

/-- **Stamps only move forward**: through any step that commits no stale stamp, a
stored row stays, and goes on revoking whatever it revokes. -/
theorem step_stamped (hs : s.Traced env) (hfresh : staleStamp s a = false)
    (h : step env s a = some s') {i : Int} {u : User} (hu : s.users.find i = some u) :
    ∃ u', s'.users.find i = some u' ∧ ∀ σ, u.Stamped σ → u'.Stamped σ := by
  have hkeep : s'.users.find i = s.users.find i →
      ∃ u', s'.users.find i = some u' ∧ ∀ σ, u.Stamped σ → u'.Stamped σ :=
    fun hfind => ⟨u, hfind.trans hu, fun σ hσ => hσ⟩
  rcases step_users h with hsame | ⟨r, nextId, request, actor, write, secret, written, hact, hstage,
    hcommit, -⟩
  · exact hkeep (by rw [hsame])
  have hfind := commitWrite_find hcommit i
  cases write with
  | nothing => exact hkeep hfind
  | insert row =>
    change _ = if i = nextId then _ else _ at hfind
    -- A new row takes a number that no row had.
    by_cases hi : i = nextId
    · have hnew := commitWrite_insert_fresh hcommit
      rw [← hi, hu] at hnew
      cases hnew
    · rw [if_neg hi] at hfind
      exact hkeep hfind
  | update loaded row =>
    change _ = if i = loaded.id then _ else _ at hfind
    by_cases hi : i = loaded.id
    · rw [if_pos hi, hu, Option.map_some] at hfind
      refine ⟨_, hfind, fun σ hσ => ?_⟩
      obtain ⟨e, he, hle⟩ := hσ
      by_cases hclean : row.sessionInvalidatedAt = loaded.sessionInvalidatedAt
      · -- The column is not written: the stored stamp stays.
        refine ⟨e, ?_, hle⟩
        show flushCol loaded.sessionInvalidatedAt row.sessionInvalidatedAt _ = _
        rw [hclean, flushCol_clean, he]
      · -- Only a logout assigns the column, and its stamp is not older.
        obtain ⟨-, copy, clock, draw, -, hassign⟩ := hs r _ hstage
        obtain ⟨hlogout, hstamp⟩ := (assignWrite_stamp hassign).resolve_left fun h => hclean h.2
        change request = .logout at hlogout
        subst hlogout
        refine ⟨utcNow clock, ?_, ?_⟩
        · show flushCol loaded.sessionInvalidatedAt row.sessionInvalidatedAt _ = _
          rw [flushCol_dirty hclean, hstamp]
        · have hnotOlder : ¬(utcNow clock).instant < e.instant := by
            simpa [staleStamp, Sys.logoutStamp, hact, hstage, hstamp, ← hi, hu, he] using hfresh
          omega
    · rw [if_neg hi] at hfind
      exact hkeep hfind

/-! ## Copies lag behind their rows -/

/-- The rows a request in flight has read. -/
def InFlight.copies (f : InFlight ρ) : List User :=
  f.actor.toList ++
    match f.progress with
    | .loaded copy => copy.toList
    | .assigned (.update loaded _) _ => [loaded]
    | _ => []

/-- The copy revokes nothing that its row does not. -/
def Behind (s : Sys ρ) (copy : User) : Prop :=
  ∃ u, s.users.find copy.id = some u ∧ ∀ σ, copy.Stamped σ → u.Stamped σ

/-- No copy in flight revokes a token that its stored row does not revoke. -/
def CopiesBehind (s : Sys ρ) : Prop :=
  ∀ r f, s.stage r = .active f → ∀ copy ∈ f.copies, Behind s copy

/-- A row that has just been read is not ahead of itself. -/
theorem behind_of_mem {u : User} (h : u ∈ s.users.rows) : Behind s u :=
  ⟨u, UserTable.find_of_mem h, fun _ hσ => hσ⟩

/-- A step that commits no stale stamp leaves every copy behind its row. -/
theorem copiesBehind_step (hs : s.Traced env) (hb : CopiesBehind s)
    (hfresh : staleStamp s a = false) (h : step env s a = some s') : CopiesBehind s' := by
  have hstays : ∀ copy, Behind s copy → Behind s' copy := by
    intro copy hcopy
    obtain ⟨u, hu, hle⟩ := hcopy
    obtain ⟨u', hu', hle'⟩ := step_stamped hs hfresh h hu
    exact ⟨u', hu', fun σ hσ => hle' σ (hle σ hσ)⟩
  intro r f hf copy hcopy
  refine hstays copy ?_
  -- A copy was held before the step already, or the step read it from the table.
  rcases step_active h hf with hsame | hadv
  · exact hb r f hsame copy hcopy
  obtain ⟨request, actor, progress⟩ := f
  have hactor : ∀ {p : Progress}, s.stage r = .active ⟨request, actor, p⟩ → copy ∈ actor.toList →
      Behind s copy :=
    fun hfrom hmem => hb r _ hfrom copy (List.mem_append_left _ hmem)
  rcases List.mem_append.mp hcopy with hmem | hmem
  · cases hadv with
    | guard creds hact hok hp =>
      rw [Option.mem_toList] at hmem
      change actor = some copy at hmem
      subst hmem
      exact behind_of_mem (guardRequest_mem hok)
    | load copy' hfrom hok hp => exact hactor hfrom hmem
    | assign copy' draw write secret hfrom hok hp => exact hactor hfrom hmem
    | commit write written secret hfrom hp => exact hactor hfrom hmem
  · cases hadv with
    | guard creds hact hok hp => cases hp; cases hmem
    | load copy' hfrom hok hp =>
      cases hp
      change copy ∈ copy'.toList at hmem
      rw [Option.mem_toList] at hmem
      obtain rfl : copy' = some copy := hmem
      rcases loadTarget_some hok with ha | hrow
      · exact hactor hfrom (by rw [Option.mem_toList]; exact ha)
      · exact behind_of_mem hrow
    | assign copy' draw write secret hfrom hok hp =>
      cases hp
      cases write with
      | nothing => cases hmem
      | insert row => cases hmem
      | update loaded row =>
        obtain ⟨rfl, -⟩ := assignWrite_update hok
        obtain rfl := List.mem_singleton.mp hmem
        exact hb r _ hfrom copy (List.mem_append_right _ (by simp))
    | commit write written secret hfrom hp => cases hp; cases hmem

/-! ## Sign-out is final -/

/-- What a committed logout leaves: a row that revokes everything up to its
stamp. -/
theorem logout_stamped {r : Nat} {nextId userId : Int} {d : Datetime} (hb : CopiesBehind s)
    (hlogout : s.logoutStamp r = some (userId, d)) (h : step env s (.commit r nextId) = some s')
    (hdone : s'.committed r = true) :
    ∃ u', s'.users.find userId = some u' ∧ u'.Stamped d.instant := by
  obtain ⟨actor, loaded, row, secret, hstage, rfl, hstamp⟩ := logoutStamp_some hlogout
  obtain ⟨request, actor', write, secret', hstage', hcase⟩ := step_commit h
  rw [hstage, Stage.active.injEq, InFlight.mk.injEq, Progress.assigned.injEq] at hstage'
  obtain ⟨rfl, rfl, rfl, rfl⟩ := hstage'
  rcases hcase with ⟨users, written, hcommit, rfl⟩ | ⟨e, rfl⟩
  · obtain ⟨u, hu, hle⟩ := hb r _ hstage loaded (by simp [InFlight.copies])
    have hfind := commitWrite_find hcommit loaded.id
    change _ = if loaded.id = loaded.id then _ else _ at hfind
    rw [if_pos rfl, hu, Option.map_some] at hfind
    refine ⟨_, hfind, ?_⟩
    by_cases hclean : row.sessionInvalidatedAt = loaded.sessionInvalidatedAt
    · -- The stamp it took is the one it loaded: nothing is written.
      obtain ⟨e, he, hle'⟩ := hle d.instant ⟨d, hclean ▸ hstamp, by omega⟩
      refine ⟨e, ?_, hle'⟩
      show flushCol loaded.sessionInvalidatedAt row.sessionInvalidatedAt _ = _
      rw [hclean, flushCol_clean, he]
    · refine ⟨d, ?_, by omega⟩
      show flushCol loaded.sessionInvalidatedAt row.sessionInvalidatedAt _ = _
      rw [flushCol_dirty hclean, hstamp]
  · simp [Sys.committed, setStage_self] at hdone

/-- A row that revokes everything up to `σ` refuses every token of its user
minted by then. -/
theorem session_revoked (hj : JwtLaws env) {t : UserTable} {u : User} {σ : Int} {clock mint : Nat}
    {creds : Credentials} {email : Text} {role : UserRole} {userId : Int}
    (hu : t.find userId = some u) (hstamped : u.Stamped σ) (hmint : (mint : Int) ≤ σ)
    (htoken : creds.token = some (mintSessionToken env mint userId email role)) :
    acceptsSession env t clock creds = false := by
  by_contra haccepted
  obtain ⟨token, v, htok, hs, -⟩ := acceptsSession_some (Bool.not_eq_false _ ▸ haccepted)
  obtain rfl := Option.some.inj (htok.symm.trans htoken)
  obtain ⟨claims, hverify, hsub, hv, hrevoked⟩ := sessionUser_some hs
  obtain ⟨rfl, -⟩ := verify_mint_some hj hverify
  have hid : userId = v.id := Option.some.inj ((parseInt_strInt userId).symm.trans hsub)
  rw [← hid, hu] at hv
  obtain rfl := Option.some.inj hv
  obtain ⟨d, hd, hσ⟩ := hstamped
  rw [hd, isRevoked_some, mintedClaims_instant, decide_eq_false_iff_not] at hrevoked
  have hfloor : mint / second * second ≤ mint := Nat.div_mul_le_self ..
  have : ((mint / second : Nat) * second : Int) ≤ mint := by exact_mod_cast hfloor
  omega

/-- **A sign-out is final.** In a run of any interleaving that commits no logout
stamp older than the stored one: once a logout that took the stamp `σ` has
committed, no session of its user minted at or before `σ` is accepted in any
later state. -/
theorem signed_out_for_good (hj : JwtLaws env) {pre post : List (Action ρ)} {r σ : Nat}
    {nextId userId : Int} {m m' : Sys ρ} (h₀ : s₀.Idle)
    (hfresh : AllSteps (step env) (fun s a => staleStamp s a = false) s₀
      (pre ++ .commit r nextId :: post))
    (hpre : exec (step env) s₀ pre = some m)
    (hlogout : m.logoutStamp r = some (userId, utcNow σ))
    (hcommit : step env m (.commit r nextId) = some m') (hdone : m'.committed r = true)
    (hpost : exec (step env) m' post = some s) {mint : Nat} (hmint : mint ≤ σ) {email : Text}
    {role : UserRole} {creds : Credentials}
    (htoken : creds.token = some (mintSessionToken env mint userId email role)) :
    acceptsSession env s.users s.clock creds = false := by
  have htail := allSteps_right hfresh hpre
  have hm : m.Traced env ∧ CopiesBehind m := by
    refine exec_inv (I := fun s => s.Traced env ∧ CopiesBehind s)
      (fun s a s' hf hI hstep => ⟨traced_step hI.1 hstep, copiesBehind_step hI.1 hI.2 hf hstep⟩)
      (allSteps_left hfresh) ⟨traced_of_idle h₀, fun r f hf => ?_⟩ hpre
    rw [h₀ r] at hf
    cases hf
  -- From the commit on, the row stays stamped.
  have hs : s.Traced env ∧ ∃ u, s.users.find userId = some u ∧ u.Stamped σ := by
    refine exec_inv (I := fun s => s.Traced env ∧ ∃ u, s.users.find userId = some u ∧ u.Stamped σ)
      ?_ (allSteps_cons htail hcommit) ⟨traced_step hm.1 hcommit, ?_⟩ hpost
    · intro s a s' hf hI hstep
      obtain ⟨htraced, u, hu, hstamped⟩ := hI
      obtain ⟨u', hu', hle⟩ := step_stamped htraced hf hstep hu
      exact ⟨traced_step htraced hstep, u', hu', hle σ hstamped⟩
    · simpa using logout_stamped hm.2 hlogout hcommit hdone
  obtain ⟨-, u, hu, hstamped⟩ := hs
  exact session_revoked hj hu hstamped (by exact_mod_cast hmint) htoken

/-- Request `r` of user 1 signs out, up to its commit. -/
def signingOut (r : Nat) : List (Action Unit) :=
  [.guard r (signedInAs 1 .admin) .logout, .load r, .assign r drawA]

/-- One logout, five seconds after the sign-in. -/
theorem signed_out_once :
    ∃ s, exec (step sampleEnv) twoAdmins
      (.tick 5000000 :: signingOut 0 ++ .commit 0 0 :: [.tick 1]) = some s ∧
      acceptsSession sampleEnv s.users s.clock (signedInAs 1 .admin) = false := by
  have hrun : ((exec (step sampleEnv) twoAdmins
      (.tick 5000000 :: signingOut 0 ++ .commit 0 0 :: [.tick 1])).map fun _ => true) =
      some true := by
    decide +kernel
  have hpreTest : ((exec (step sampleEnv) twoAdmins (.tick 5000000 :: signingOut 0)).map
      fun m => decide (m.logoutStamp 0 = some (1, utcNow 5000000)) &&
        ((step sampleEnv m (.commit 0 0)).map fun m' => m'.committed 0) = some true) =
      some true := by
    decide +kernel
  obtain ⟨s, hs, -⟩ := exec_of_test hrun
  obtain ⟨m, hm, htest⟩ := exec_of_test hpreTest
  rw [Bool.and_eq_true, decide_eq_true_eq, decide_eq_true_eq, Option.map_eq_some_iff] at htest
  obtain ⟨hstamp, m', hcommit, hdone⟩ := htest
  obtain ⟨m₁, hm₁, hrest⟩ := exec_append_some.mp hs
  obtain rfl := Option.some.inj (hm.symm.trans hm₁)
  obtain ⟨m₂, hm₂, hpost⟩ := exec_cons_some.mp hrest
  obtain rfl := Option.some.inj (hcommit.symm.trans hm₂)
  have htoken : (signedInAs 1 .admin).token =
      some (mintSessionToken sampleEnv 0 1 (strInt 1) .admin) := by
    decide +kernel
  exact ⟨s, hs, signed_out_for_good sampleEnv_jwt (fun _ => rfl) (by decide +kernel) hm hstamp
    hcommit hdone hpost (by omega) htoken⟩

/-- The session of a sign-in of user 1 at two seconds. -/
def sessionAtTwoSeconds : Credentials :=
  ⟨none, some (mintSessionToken sampleEnv 2000000 1 (strInt 1) .admin), none⟩

/-- One logout takes its stamp at one second, another at three, and they commit
in the opposite order: a token minted at two seconds is accepted again. -/
theorem overlapping_logouts :
    twoAdmins.Idle ∧ ∃ m m' s,
      exec (step sampleEnv) twoAdmins
        (.tick 1000000 :: signingOut 0 ++ .tick 2000000 :: signingOut 1) = some m ∧
      m.logoutStamp 1 = some (1, utcNow 3000000) ∧
      step sampleEnv m (.commit 1 0) = some m' ∧ m'.committed 1 = true ∧
      exec (step sampleEnv) m' [.commit 0 0] = some s ∧
      acceptsSession sampleEnv s.users s.clock sessionAtTwoSeconds = true := by
  have hpreTest : ((exec (step sampleEnv) twoAdmins
      (.tick 1000000 :: signingOut 0 ++ .tick 2000000 :: signingOut 1)).map
      fun m => decide (m.logoutStamp 1 = some (1, utcNow 3000000)) &&
        decide (((step sampleEnv m (.commit 1 0)).map fun m' => m'.committed 1 &&
          ((exec (step sampleEnv) m' [.commit 0 0]).map fun s =>
            acceptsSession sampleEnv s.users s.clock sessionAtTwoSeconds) = some true) =
          some true)) = some true := by
    decide +kernel
  obtain ⟨m, hm, htest⟩ := exec_of_test hpreTest
  rw [Bool.and_eq_true, decide_eq_true_eq, decide_eq_true_eq, Option.map_eq_some_iff] at htest
  obtain ⟨hstamp, m', hcommit, htest'⟩ := htest
  rw [Bool.and_eq_true, decide_eq_true_eq] at htest'
  obtain ⟨s, hs, haccepted⟩ := exec_of_test htest'.2
  exact ⟨fun _ => rfl, m, m', s, hm, hstamp, hcommit, htest'.1, hs, haccepted⟩

end SarkariWorld.Auth
