import SarkariWorld.Auth.System

/-!
# Who changes roles

Two copies of a row can be in flight at once, a sign-in's and a role change's,
and each is flushed into whatever the row holds by then. `step_role` says what
one step can do to a stored role; it is the only place below that looks at
requests and flushes.

* `role_changes_only_by_admin`: a role changes only at the commit of a role
  change whose actor, another user, was an admin when its guard ran. A new
  account starts at `user`.
* `admin_remains`: the guard of a role change is not repeated at its commit. In
  a run where no role is taken by someone who has lost the admin role meanwhile,
  an admin always remains; `admins_demote_each_other` is a run without that
  condition, and it ends without an admin.

Both results are about runs of `Auth.System` of any length and any interleaving. The
condition of the second is one on the steps of the run (`staleDemotion`), read off the
state before each of them.
-/

namespace SarkariWorld.Auth

open SarkariWorld.Lib

variable {ρ : Type} {env : Env} {s₀ s s' : Sys ρ} {as : List (Action ρ)} {a : Action ρ}

/-- The step `a` is the commit of a request of `actor` to give `userId` the role
`role`. -/
def CommitsRole (s : Sys ρ) (a : Action ρ) (actor : User) (userId : Int) (role : UserRole) : Prop :=
  ∃ r nextId write secret, a = .commit r nextId ∧
    s.stage r = .active ⟨.updateRole userId role, some actor, .assigned write secret⟩

/-- A role change in flight was loaded for another user than its actor, who was
an admin. -/
theorem updateRole_assigned {userId : Int} {role : UserRole} {actor : Option User}
    {loaded row : User} {secret : Text}
    (hf : InFlight.Traced env
      (⟨.updateRole userId role, actor, .assigned (.update loaded row) secret⟩ : InFlight ρ)) :
    ∃ who, actor = some who ∧ who.role = .admin ∧ who.id ≠ userId ∧ loaded.id = userId := by
  obtain ⟨⟨t, clock, creds, hguard⟩, copy, clock', draw, ⟨t', hload⟩, hassign⟩ := hf
  obtain ⟨who, via, hactor, -, hrole⟩ := guardRequest_admin rfl hguard
  change actor = some who at hactor
  subst hactor
  obtain ⟨hne, u, hcopy, -, hid⟩ := loadTarget_updateRole hload
  obtain ⟨hloaded, -⟩ := assignWrite_update hassign
  rw [hcopy, Option.some.injEq] at hloaded
  exact ⟨who, rfl, hrole, hne, hloaded ▸ hid⟩

/-- **What one step can do to a role.** A stored user is still there, with its
role as it was unless the step commits a role change for it; a user that was not
there is a plain user. -/
theorem step_role (hs : s.Traced env) (h : step env s a = some s') (i : Int) :
    (∀ u, s.users.find i = some u → ∃ u', s'.users.find i = some u' ∧
      (u'.role = u.role ∨ ∃ actor, CommitsRole s a actor i u'.role ∧
        actor.role = .admin ∧ actor.id ≠ i)) ∧
    (s.users.find i = none → ∀ u', s'.users.find i = some u' → u'.role = .user) := by
  have hkeep : s'.users.find i = s.users.find i →
      (∀ u, s.users.find i = some u → ∃ u', s'.users.find i = some u' ∧
        (u'.role = u.role ∨ ∃ actor, CommitsRole s a actor i u'.role ∧
          actor.role = .admin ∧ actor.id ≠ i)) ∧
      (s.users.find i = none → ∀ u', s'.users.find i = some u' → u'.role = .user) := by
    intro hfind
    rw [hfind]
    exact ⟨fun u hu => ⟨u, hu, Or.inl rfl⟩, fun hnone u' hu' => by rw [hnone] at hu'; cases hu'⟩
  rcases step_users h with hsame | ⟨r, nextId, request, actor, write, secret, written, hact, hstage,
    hcommit, -⟩
  · exact hkeep (by rw [hsame])
  have htraced := hs r _ hstage
  have hfind := commitWrite_find hcommit i
  -- A commit touches the row `i` only if that is the row it writes.
  cases write with
  | nothing => exact hkeep hfind
  | insert row =>
    obtain ⟨-, copy, clock, draw, -, hassign⟩ := htraced
    obtain ⟨profile, -, -, rfl⟩ := assignWrite_insert hassign
    change _ = if i = nextId then _ else _ at hfind
    by_cases hi : i = nextId
    · rw [if_pos hi] at hfind
      rw [hi, commitWrite_insert_fresh hcommit, ← hi, hfind]
      refine ⟨fun u hu => (nomatch hu), fun _ u' hu' => ?_⟩
      rw [← Option.some.inj hu']
      rfl
    · rw [if_neg hi] at hfind
      exact hkeep hfind
  | update loaded row =>
    change _ = if i = loaded.id then _ else _ at hfind
    by_cases hi : i = loaded.id
    · rw [if_pos hi] at hfind
      refine ⟨fun u hu => ?_, fun hnone u' hu' => ?_⟩
      · rw [hu, Option.map_some] at hfind
        refine ⟨_, hfind, ?_⟩
        by_cases hclean : row.role = loaded.role
        · -- The column is not written, whatever it holds by now.
          left
          show flushCol loaded.role row.role u.role = u.role
          rw [hclean, flushCol_clean]
        · -- Only a role change assigns the column, and its trace knows the actor.
          right
          have hdirty : (User.flush loaded row u).role = row.role := flushCol_dirty hclean
          obtain ⟨-, copy, clock, draw, -, hassign⟩ := id htraced
          obtain ⟨userId, rfl⟩ := (assignWrite_role hassign).resolve_left hclean
          obtain ⟨who, rfl, hrole, hne, hid⟩ := updateRole_assigned htraced
          obtain rfl : i = userId := hi.trans hid
          rw [hdirty]
          exact ⟨who, ⟨r, nextId, _, secret, hact, hstage⟩, hrole, hne⟩
      · rw [hnone, Option.map_none] at hfind
        rw [hfind] at hu'
        cases hu'
    · rw [if_neg hi] at hfind
      exact hkeep hfind

/-! ## Privilege integrity -/

/-- **Privilege integrity.** At any step of any run that starts with no request in
flight, a user that the step creates is a plain user, and a stored role changes
only if the step commits a role change for it whose actor is another user and
was resolved as an admin by the guard of that request. Sign-ins change no role. -/
theorem role_changes_only_by_admin (h₀ : s₀.Idle) (hrun : exec (step env) s₀ as = some s)
    (hstep : step env s a = some s') :
    (∀ u' ∈ s'.users.rows, s.users.find u'.id = none → u'.role = .user) ∧
    (∀ u ∈ s.users.rows, ∃ u', s'.users.find u.id = some u' ∧ (u'.role ≠ u.role →
      ∃ r nextId actor via write secret pre creds post m,
        a = .commit r nextId ∧
        s.stage r = .active ⟨.updateRole u.id u'.role, some actor, .assigned write secret⟩ ∧
        actor.id ≠ u.id ∧
        as = pre ++ .guard r creds (.updateRole u.id u'.role) :: post ∧
        exec (step env) s₀ pre = some m ∧
        currentUser env m.users m.clock creds = .ok (some (actor, via)) ∧
        actor.role = .admin)) ∧
    (∀ r nextId profile who progress, a = .commit r nextId →
      s.stage r = .active ⟨.signIn profile, who, progress⟩ →
      ∀ u ∈ s.users.rows, ∃ u', s'.users.find u.id = some u' ∧ u'.role = u.role) := by
  have htraced := exec_traced h₀ hrun
  refine ⟨fun u' hu' hnew => ?_, fun u hu => ?_,
    fun r nextId profile who progress hact hstage u hu => ?_⟩
  · exact (step_role htraced hstep u'.id).2 hnew u' (UserTable.find_of_mem hu')
  · obtain ⟨u', hu', hrole⟩ := (step_role htraced hstep u.id).1 u (UserTable.find_of_mem hu)
    refine ⟨u', hu', fun hne => ?_⟩
    obtain ⟨actor, ⟨r, nextId, write, secret, hact, hstage⟩, hadmin, hother⟩ :=
      hrole.resolve_left hne
    -- the guard that let the request in is a moment of this run
    obtain ⟨pre, creds, post, m, has, hpre, hguard⟩ := exec_guarded h₀ hrun hstage
    obtain ⟨who, via, hwho, hresolved, -⟩ := guardRequest_admin rfl hguard
    obtain rfl : actor = who := Option.some.inj hwho
    exact ⟨r, nextId, actor, via, write, secret, pre, creds, post, m, hact, hstage, hother, has,
      hpre, hresolved, hadmin⟩
  · obtain ⟨u', hu', hrole⟩ := (step_role htraced hstep u.id).1 u (UserTable.find_of_mem hu)
    refine ⟨u', hu', hrole.resolve_right fun hbad => ?_⟩
    obtain ⟨actor, ⟨i, n, write, secret, hact', hstage'⟩, -⟩ := hbad
    rw [hact, Action.commit.injEq] at hact'
    rw [← hact'.1, hstage, Stage.active.injEq, InFlight.mk.injEq] at hstage'
    exact nomatch hstage'.1

/-- The admin 1 demotes the admin 2. -/
theorem demotion_by_other_admin :
    ∃ s s', exec (step sampleEnv) twoAdmins (roleChange 0 1 2 .user) = some s ∧
      step sampleEnv s (.commit 0 0) = some s' ∧
      ∃ u', s'.users.find 2 = some u' ∧ (u'.role ≠ .admin → ∃ (actor : User) (via : AuthVia)
        (creds : Credentials) (m : Sys Unit),
          currentUser sampleEnv m.users m.clock creds = .ok (some (actor, via)) ∧
          actor.role = .admin ∧ actor.id ≠ 2) := by
  have hrun : ((exec (step sampleEnv) twoAdmins (roleChange 0 1 2 .user ++ [.commit 0 0])).map
      fun _ => true) = some true := by
    decide +kernel
  obtain ⟨s', hs', -⟩ := exec_of_test hrun
  obtain ⟨s, hs, hcommit⟩ := exec_snoc_some.mp hs'
  have htwo : sampleUser 2 .admin ∈ s.users.rows := by
    have hrows : (exec (step sampleEnv) twoAdmins (roleChange 0 1 2 .user)).map
        (fun s => decide (sampleUser 2 .admin ∈ s.users.rows)) = some true := by
      decide +kernel
    rw [hs, Option.map_some, Option.some.injEq] at hrows
    exact of_decide_eq_true hrows
  obtain ⟨u', hu', hrole⟩ :=
    (role_changes_only_by_admin (fun _ => rfl) hs hcommit).2.1 _ htwo
  refine ⟨s, s', hs, hcommit, u', hu', fun hne => ?_⟩
  obtain ⟨r, nextId, actor, via, write, secret, pre, creds, post, m, -, -, hother, -, -, hresolved,
    hadmin⟩ := hrole hne
  exact ⟨actor, via, creds, m, hresolved, hadmin, hother⟩

/-! ## The last admin -/

/-- At least one user holds the admin role. -/
def HasAdmin (s : Sys ρ) : Prop := ∃ u ∈ s.users.rows, u.role = .admin

instance (s : Sys ρ) : Decidable (HasAdmin s) :=
  inferInstanceAs (Decidable (∃ u ∈ s.users.rows, u.role = .admin))

/-- The stored role of a user is admin. -/
def holdsAdmin (t : UserTable) (userId : Int) : Bool := (t.find userId).any fun u => u.role = .admin

/-- The step takes the admin role from a user on the word of someone who holds
it no longer. -/
def staleDemotion (s : Sys ρ) : Action ρ → Bool
  | .commit r _ =>
    match s.stage r with
    | .active ⟨.updateRole userId role, some actor, .assigned _ _⟩ =>
      role ≠ .admin && holdsAdmin s.users userId && !holdsAdmin s.users actor.id
    | _ => false
  | _ => false

/-- The test a step makes, read as a statement about the stored row. -/
theorem holdsAdmin_iff {t : UserTable} {userId : Int} :
    holdsAdmin t userId = true ↔ ∃ u, t.find userId = some u ∧ u.role = .admin := by
  simp only [holdsAdmin, Option.any_eq_true, decide_eq_true_eq]

/-- A step that demotes nobody on the word of a former admin leaves an admin. -/
theorem hasAdmin_step (hs : s.Traced env) (hadmin : HasAdmin s)
    (hfresh : staleDemotion s a = false) (h : step env s a = some s') : HasAdmin s' := by
  obtain ⟨u, hu, hrole⟩ := hadmin
  obtain ⟨u', hu', hcase⟩ := (step_role hs h u.id).1 u (UserTable.find_of_mem hu)
  -- Either the admin at hand stays one, or the actor of the demotion is another.
  by_cases hkept : u'.role = .admin
  · exact ⟨u', (UserTable.find_eq_some.mp hu').1, hkept⟩
  obtain ⟨actor, ⟨r, n, write, secret, hact, hstage⟩, -, hother⟩ :=
    hcase.resolve_left (by rw [hrole]; exact hkept)
  -- The actor still holds the role, and the step is not about the actor.
  have hactor : holdsAdmin s.users actor.id = true := by
    have htarget : holdsAdmin s.users u.id = true :=
      holdsAdmin_iff.mpr ⟨u, UserTable.find_of_mem hu, hrole⟩
    simpa [staleDemotion, hact, hstage, hkept, htarget] using hfresh
  obtain ⟨v, hv, hvrole⟩ := holdsAdmin_iff.mp hactor
  obtain ⟨v', hv', hvcase⟩ := (step_role hs h actor.id).1 v hv
  refine ⟨v', (UserTable.find_eq_some.mp hv').1, ?_⟩
  rcases hvcase with hsame | ⟨actor', ⟨r', n', write', secret', hact', hstage'⟩, -⟩
  · rw [hsame, hvrole]
  · rw [hact, Action.commit.injEq] at hact'
    rw [← hact'.1, hstage, Stage.active.injEq, InFlight.mk.injEq,
      Request.updateRole.injEq] at hstage'
    exact absurd hstage'.1.1.symm hother

/-- **An admin always remains** in every run, whatever the interleaving, whose
role changes never take the admin role on the word of someone who has lost it
since their guard ran. -/
theorem admin_remains (h₀ : s₀.Idle) (hadmin : HasAdmin s₀)
    (hfresh : AllSteps (step env) (fun s a => staleDemotion s a = false) s₀ as)
    (hrun : exec (step env) s₀ as = some s) : HasAdmin s := by
  have hinv : s.Traced env ∧ HasAdmin s := by
    refine exec_inv (I := fun s => s.Traced env ∧ HasAdmin s) ?_ hfresh
      ⟨traced_of_idle h₀, hadmin⟩ hrun
    exact fun s a s' hf hI hstep => ⟨traced_step hI.1 hstep, hasAdmin_step hI.1 hI.2 hf hstep⟩
  exact hinv.2

/-- One admin demotes the other, and the plain user that is left is promoted
again. -/
theorem admin_remains_in_sequence :
    ∃ s, exec (step sampleEnv) twoAdmins
      (roleChange 0 1 2 .user ++ [.commit 0 0] ++ roleChange 1 1 2 .editor ++ [.commit 1 0])
        = some s ∧
      HasAdmin s := by
  have hrun : ((exec (step sampleEnv) twoAdmins (roleChange 0 1 2 .user ++ [.commit 0 0] ++
      roleChange 1 1 2 .editor ++ [.commit 1 0])).map fun _ => true) = some true := by
    decide +kernel
  obtain ⟨s, hs, -⟩ := exec_of_test hrun
  exact ⟨s, hs, admin_remains (fun _ => rfl) (by decide) (by decide +kernel) hs⟩

/-- Two admins demote each other: both guards pass before either commit, and no
admin is left. -/
theorem admins_demote_each_other :
    twoAdmins.Idle ∧ HasAdmin twoAdmins ∧ ∃ s, exec (step sampleEnv) twoAdmins
      (roleChange 0 1 2 .user ++ roleChange 1 2 1 .user ++ [.commit 0 0, .commit 1 0]) = some s ∧
      ¬HasAdmin s := by
  have hrun : ((exec (step sampleEnv) twoAdmins (roleChange 0 1 2 .user ++
      roleChange 1 2 1 .user ++ [.commit 0 0, .commit 1 0])).map fun s => decide (HasAdmin s)) =
      some false := by
    decide +kernel
  obtain ⟨s, hs, hnone⟩ := exec_of_test hrun
  exact ⟨fun _ => rfl, by decide, s, hs, of_decide_eq_false hnone⟩

end SarkariWorld.Auth
