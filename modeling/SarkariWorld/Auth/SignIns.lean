import SarkariWorld.Auth.Service

/-!
# Accounts and Google identities

A sign-in finds its account by address and writes Google's subject into it, and
both columns are unique. As long as the two name the same account, or neither
names one, the sign-in commits; where a subject comes back with another address
the unique index refuses it, and where an address comes back with another subject
the account changes hands. Nothing checks what the profile brings before its columns do:
they refuse a name of more than 100 characters, blanks at its end apart (`Takes`), and
any text with U+0000 in it.

`sign_ins_sound_iff`: over whole runs, these are the only ways a sign-in fails or a
subject loses its account. `Linkable` is the condition on one sign-in, and both
directions are proved for one first: `signsIn_of_linkable` carries the profile through
the phases of the request, `linkable_of_signsIn` reads the condition off the table that
the commit has left.
-/

namespace SarkariWorld.Auth

open SarkariWorld.Lib

variable {ρ : Type}

/-- The text a sign-in looks its account up by. -/
def lookupText (env : Env) (profile : OAuthProfile) : Text :=
  env.lower (strip (profile.normalized env))

/-- What `get_by_email` finds for a sign-in. -/
def account (env : Env) (t : UserTable) (profile : OAuthProfile) : Option User :=
  lookup User.emailCol (lookupText env profile) t.rows

/-- The columns take what the profile brings, under this name. -/
def Takeable (profile : OAuthProfile) (name : Text) : Prop :=
  Takes nameMax name ∧ Storable profile.subject ∧ ∀ picture ∈ profile.picture, Storable picture

instance decidableTakeable (profile : OAuthProfile) (name : Text) :
    Decidable (Takeable profile name) :=
  inferInstanceAs (Decidable (_ ∧ _ ∧ ∀ picture ∈ profile.picture, Storable picture))

/-- Address and subject of the profile name the same account, or none, and what it
writes fits its columns. -/
def Linkable (env : Env) (t : UserTable) (profile : OAuthProfile) : Prop :=
  match account env t profile with
  | some u =>
    (u.googleId = some profile.subject ∨ u.googleId = none ∧ profile.subject ≠ []) ∧
      (∀ v ∈ t.rows, v.googleId = some profile.subject → v.id = u.id) ∧
      Takeable profile profile.name
  | none =>
    (∀ v ∈ t.rows, v.email ≠ profile.normalized env ∧ v.googleId ≠ some profile.subject) ∧
      Takeable profile (newOauthUser env profile 0).name ∧
      ((profile.normalized env).length ≤ emailMax ∧ Storable (profile.normalized env)) ∧
      Storable (lookupText env profile)

instance decidableLinkable (env : Env) (t : UserTable) (profile : OAuthProfile) :
    Decidable (Linkable env t profile) :=
  match h : account env t profile with
  | some u =>
    decidable_of_iff
      ((u.googleId = some profile.subject ∨ u.googleId = none ∧ profile.subject ≠ []) ∧
        (∀ v ∈ t.rows, v.googleId = some profile.subject → v.id = u.id) ∧
        Takeable profile profile.name)
      (by rw [Linkable, h])
  | none =>
    decidable_of_iff
      ((∀ v ∈ t.rows, v.email ≠ profile.normalized env ∧ v.googleId ≠ some profile.subject) ∧
        Takeable profile (newOauthUser env profile 0).name ∧
        ((profile.normalized env).length ≤ emailMax ∧ Storable (profile.normalized env)) ∧
        Storable (lookupText env profile))
      (by rw [Linkable, h])

/-- Every row that carries a subject still does. -/
def KeepsLinks (t t' : UserTable) : Prop :=
  ∀ i u subject, t.find i = some u → u.googleId = some subject →
    ∃ u', t'.find i = some u' ∧ u'.googleId = some subject

/-- The call commits, and answers with a session of the account of its subject. -/
def SignsIn (env : Env) (s : Service ρ) (c : Call ρ) (profile : OAuthProfile) : Prop :=
  ∃ s' u, perform env s c =
      .ok (s', .session u.id (mintSessionToken env s.clock u.id u.email u.role)) ∧
    s'.users.find u.id = some u ∧ u.googleId = some profile.subject

theorem KeepsLinks.refl (t : UserTable) : KeepsLinks t t := fun _ u _ hu hlink => ⟨u, hu, hlink⟩

theorem KeepsLinks.trans {t t' t'' : UserTable} (h : KeepsLinks t t') (h' : KeepsLinks t' t'') :
    KeepsLinks t t'' := by
  intro i u subject hu hlink
  obtain ⟨u', hu', hlink'⟩ := h i u subject hu hlink
  exact h' i u' subject hu' hlink'

/-! ## One sign-in -/

section SignIn

variable {env : Env} {s s' : Service ρ} {c : Call ρ} {profile : OAuthProfile} {t : UserTable}
  {clock : Nat} {nextId : Int}

/-- A sign-in loads the account of its address, and fails if the address cannot be bound. -/
theorem loadTarget_signIn {actor copy : Option User} :
    loadTarget env t actor (.signIn profile : Request ρ) = .ok copy ↔
      Storable (lookupText env profile) ∧ account env t profile = copy := by
  simp only [loadTarget]
  constructor
  · intro h
    split at h
    next => cases h
    next found hfound =>
      obtain ⟨hstorable, rfl⟩ := getByEmail_ok hfound
      exact ⟨hstorable, Except.ok.inj h⟩
  · rintro ⟨hstorable, rfl⟩
    rw [getByEmail_eq hstorable]
    rfl

/-- The texts of a row that a sign-in may write, and those of its key. -/
theorem forall_texts {u : User} {P : Text → Prop} :
    (∀ x ∈ u.texts, P x) ↔
      P u.name ∧ P u.email ∧ P u.authProvider ∧ (∀ x ∈ u.googleId, P x) ∧
        (∀ x ∈ u.pictureUrl, P x) ∧ (∀ x ∈ u.apiKeyPrefix, P x) ∧ (∀ x ∈ u.apiKeyHash, P x) ∧
        ∀ x ∈ u.apiKeyName, P x := by
  simp only [User.texts, List.forall_mem_append, List.forall_mem_cons, List.not_mem_nil,
    false_imp_iff, implies_true, and_true, Option.mem_toList, Option.mem_def, and_assoc]

theorem google_storable : Storable ['g', 'o', 'o', 'g', 'l', 'e'] := by decide

/-- **A first sign-in commits** if neither its address nor its subject is taken. -/
theorem commit_newUser (hint : Int4 nextId) (hfresh : t.find nextId = none)
    (hfree : ∀ v ∈ t.rows, v.email ≠ profile.normalized env ∧ v.googleId ≠ some profile.subject)
    (htakes : Takeable profile (newOauthUser env profile 0).name)
    (hemail : (profile.normalized env).length ≤ emailMax ∧ Storable (profile.normalized env)) :
    ∃ t', commitWrite t (.insert (newOauthUser env profile clock)) nextId =
      .ok (t', some nextId) := by
  -- the row fits its columns: the texts by assumption, the dates because they are rounded
  have hnew : ({ (newOauthUser env profile clock).asStored with id := nextId } : User).Fits := by
    obtain ⟨hname, hsubject, hpicture⟩ := htakes
    refine ⟨hint, hname.1, hemail.1, fun d hd => ?_, forall_texts.mpr ?_⟩
    · simp only [User.asStored, newOauthUser, List.mem_cons, List.not_mem_nil, or_false] at hd
      rcases hd with rfl | rfl | rfl | rfl
      · rfl
      · rfl
      · rfl
      · exact congrArg some (timestamp3_idem _)
    · refine ⟨storable_varchar.mpr hname.2, hemail.2, google_storable, ?_, hpicture, ?_, ?_, ?_⟩
      · intro x hx
        exact Option.some.inj hx ▸ hsubject
      all_goals
        intro x hx
        cases hx
  -- and it shares no unique column: the number and the address are new, and it has no key
  have hkeyed :
      Keyed (t.rows ++ [{ (newOauthUser env profile clock).asStored with id := nextId }]) := by
    refine ⟨uniqueCol_append t.keyed.id fun v hv u hu he => ?_,
      uniqueCol_append t.keyed.email fun v hv u hu he => ?_,
      uniqueCol_append t.keyed.googleId fun v hv u hu he => ?_,
      uniqueCol_append t.keyed.apiKeyPrefix fun v hv u hu he => ?_⟩
    · rw [User.idCol_eq_some] at hv he
      exact UserTable.find_eq_none.mp hfresh u hu (he.trans hv.symm)
    · rw [User.emailCol_eq_some] at hv he
      exact (hfree u hu).1 (he.trans hv.symm)
    · exact (hfree u hu).2 (he.trans hv.symm)
    · cases hv
  obtain ⟨t', hwrite⟩ := UserTable.write_of (fun u hu => (List.mem_append.mp hu).elim (t.fits u)
    fun hu => List.mem_singleton.mp hu ▸ hnew) hkeyed
  exact ⟨t', commitWrite_insert.mpr ⟨hwrite, rfl⟩⟩

section Refreshed

variable {u : User}

/-- The texts a refresh leaves in the row. -/
theorem flush_texts :
    (User.flush u (refreshProfile u profile clock) u).name =
        flushColWith (varchar nameMax) u.name
          (if profile.name ≠ [] then profile.name else u.name) u.name ∧
      (User.flush u (refreshProfile u profile clock) u).email = u.email ∧
      (User.flush u (refreshProfile u profile clock) u).authProvider =
        ['g', 'o', 'o', 'g', 'l', 'e'] ∧
      (User.flush u (refreshProfile u profile clock) u).googleId =
        (if profile.subject ≠ [] then some profile.subject else u.googleId) ∧
      (User.flush u (refreshProfile u profile clock) u).pictureUrl =
        (if profile.picture.getD [] ≠ [] then profile.picture else u.pictureUrl) :=
  ⟨rfl, flushCol_self, flushCol_self, flushCol_self, flushCol_self⟩

/-- The key of the row is not among them. -/
theorem flush_keyTexts :
    (User.flush u (refreshProfile u profile clock) u).apiKeyPrefix = u.apiKeyPrefix ∧
      (User.flush u (refreshProfile u profile clock) u).apiKeyHash = u.apiKeyHash ∧
      (User.flush u (refreshProfile u profile clock) u).apiKeyName = u.apiKeyName :=
  ⟨flushCol_clean, flushCol_clean, flushCol_clean⟩

/-- A name that is written, or not because it is the stored one, or not because it is
empty. -/
theorem flush_name_takes (hfits : u.Fits) :
    ((flushColWith (varchar nameMax) u.name
        (if profile.name ≠ [] then profile.name else u.name) u.name).length ≤ nameMax ∧
      Storable (flushColWith (varchar nameMax) u.name
        (if profile.name ≠ [] then profile.name else u.name) u.name)) ↔
      Takes nameMax profile.name := by
  obtain ⟨-, hlength, -, -, htexts⟩ := hfits
  have hstored : u.name.length ≤ nameMax ∧ Storable u.name :=
    ⟨hlength, (forall_texts.mp htexts).1⟩
  by_cases hempty : profile.name = []
  · have hnil : Takes nameMax [] := by decide
    rw [if_neg (not_not_intro hempty), flushColWith_clean, hempty]
    exact iff_of_true hstored hnil
  · rw [if_pos hempty]
    by_cases hsame : profile.name = u.name
    · rw [hsame, flushColWith_clean, Takes, varchar_of_le hlength]
    · rw [flushColWith_dirty hsame, Takes, storable_varchar]

/-- **The row a known user is left with fits** exactly if the columns take what the
profile brings. -/
theorem flush_refreshed (hfits : u.Fits) :
    (User.flush u (refreshProfile u profile clock) u).Fits ↔ Takeable profile profile.name := by
  obtain ⟨hname', hemail', hprovider', hgoogle', hpicture'⟩ :=
    @flush_texts profile clock u
  obtain ⟨hprefix', hhash', hkeyName'⟩ := @flush_keyTexts profile clock u
  have hname := @flush_name_takes profile u hfits
  obtain ⟨hid, hold, hemail, hdates, htexts⟩ := hfits
  obtain ⟨holdName, holdEmail, -, holdGoogle, holdPicture, hprefix, hhash, hkeyName⟩ :=
    forall_texts.mp htexts
  constructor
  · rintro ⟨-, hlength, -, -, hnew⟩
    obtain ⟨hstorable, -, -, hgoogle, hpicture, -⟩ := forall_texts.mp hnew
    rw [hname'] at hlength hstorable
    rw [hgoogle'] at hgoogle
    rw [hpicture'] at hpicture
    refine ⟨hname.mp ⟨hlength, hstorable⟩, ?_, fun picture hmem => ?_⟩
    · by_cases hempty : profile.subject = []
      · rw [hempty]
        decide
      · rw [if_pos hempty] at hgoogle
        exact hgoogle _ rfl
    · by_cases hempty : profile.picture.getD [] = []
      · rw [hmem] at hempty
        have hnil : picture = [] := hempty
        rw [hnil]
        decide
      · rw [if_pos hempty] at hpicture
        exact hpicture picture hmem
  · rintro ⟨htakes, hsubject, hpicture⟩
    obtain ⟨hlength, hstorable⟩ := hname.mpr htakes
    refine ⟨hid, hname' ▸ hlength, hemail' ▸ hemail, fun d hd => ?_, forall_texts.mpr ?_⟩
    · simp only [User.flush, refreshProfile, flushColWith_clean, List.mem_cons, List.not_mem_nil,
        or_false] at hd
      rcases hd with rfl | rfl | rfl | rfl
      · exact hdates _ (List.mem_cons_self ..)
      · exact hdates _ (List.mem_cons_of_mem _ (List.mem_cons_self ..))
      · exact hdates _ (List.mem_cons_of_mem _ (List.mem_cons_of_mem _ (List.mem_cons_self ..)))
      · -- The login is stamped, in milliseconds.
        unfold flushColWith
        split
        next => exact hdates _ (List.mem_cons_of_mem _ (List.mem_cons_of_mem _
          (List.mem_cons_of_mem _ (List.mem_cons_self ..))))
        next => exact congrArg some (timestamp3_idem _)
    · rw [hname', hemail', hprovider', hgoogle', hpicture', hprefix', hhash', hkeyName']
      refine ⟨hstorable, holdEmail, google_storable, ?_, ?_, ?_, ?_, ?_⟩
      · split
        next =>
          intro x hx
          exact Option.some.inj hx ▸ hsubject
        next => exact holdGoogle
      · split
        next => exact hpicture
        next => exact holdPicture
      · exact hprefix
      · exact hhash
      · exact hkeyName

end Refreshed

/-- What the flush leaves in `google_id`: the subject of the profile, unless it is empty. -/
theorem flush_googleId {u : User} :
    (User.flush u (refreshProfile u profile clock) u).googleId =
      if profile.subject ≠ [] then some profile.subject else u.googleId := flushCol_self

/-- **A sign-in of a known address commits** if its account carries the subject or
none, and no other account carries it. -/
theorem commit_knownUser {u : User} (hu : u ∈ t.rows)
    (hcarries : u.googleId = some profile.subject ∨ u.googleId = none ∧ profile.subject ≠ [])
    (halone : ∀ v ∈ t.rows, v.googleId = some profile.subject → v.id = u.id)
    (htakes : Takeable profile profile.name) :
    ∃ t', commitWrite t (.update u (refreshProfile u profile clock)) nextId =
      .ok (t', some u.id) := by
  have hlinked : (refreshProfile u profile clock).googleId = some profile.subject := by
    show (if profile.subject ≠ [] then some profile.subject else u.googleId) = _
    rcases hcarries with hsame | ⟨-, hsubject⟩
    · split
      next => rfl
      next => exact hsame
    · exact if_pos hsubject
  have hgoogle : ∀ v ∈ t.rows, v.id ≠ u.id → ∀ g,
      (refreshProfile u profile clock).googleId = some g → v.googleId ≠ some g := by
    intro v hv hid g hg he
    rw [hlinked] at hg
    exact hid (halone v hv (he.trans hg.symm))
  obtain ⟨t', hcommit⟩ := commitRow_current _ nextId hu ((flush_refreshed (t.fits u hu)).mpr htakes)
    rfl hgoogle fun v hv hid _ hp => UserTable.other_ne t.keyed.apiKeyPrefix hu hv hid hp
  exact ⟨t', commitWrite_update.mpr ⟨hcommit, rfl⟩⟩

/-- What a sign-in assigns. -/
def signInWrite (env : Env) (clock : Nat) (profile : OAuthProfile) : Option User → Write
  | none => .insert (newOauthUser env profile clock)
  | some u => .update u (refreshProfile u profile clock)

/-- A sign-in writes the profile into the account it has found, or makes an account of it. -/
theorem assignWrite_signIn {copy : Option User} {draw : KeyDraw} :
    assignWrite env clock (.signIn profile : Request ρ) copy draw =
      .ok (signInWrite env clock profile copy, []) := by
  cases copy with
  | none => rfl
  | some u => rfl

/-- **A sign-in is answered exactly if its commit succeeds**, with a session of the
row it wrote. -/
theorem perform_signIn_iff (hreq : c.request = .signIn profile) {response : Response} :
    perform env s c = .ok (s', response) ↔ Storable (lookupText env profile) ∧
      ∃ i u, commitWrite s.users (signInWrite env s.clock profile (account env s.users profile))
          c.nextId = .ok (s'.users, some i) ∧ s'.users.find i = some u ∧
        response = .session u.id (mintSessionToken env s.clock u.id u.email u.role) ∧
        s' = { s with
          users := s'.users, log := ⟨c.request, some i, s.clock, response⟩ :: s.log } := by
  have hrest : c.request.writeRest s.rest = s.rest := by
    rw [hreq]
    rfl
  constructor
  · intro h
    obtain ⟨actor, copy, write, secret, users, written, -, hload, hassign, hcommit, hrespond,
      rfl⟩ := perform_ok h
    rw [hreq] at hload
    obtain ⟨hstorable, rfl⟩ := loadTarget_signIn.mp hload
    rw [hreq, assignWrite_signIn] at hassign
    obtain ⟨rfl, rfl⟩ := Prod.mk.inj (Except.ok.inj hassign)
    rw [hreq] at hrespond
    obtain ⟨u, hrefresh, rfl⟩ := map_eq_ok.mp hrespond
    unfold refresh at hrefresh
    split at hrefresh
    next v hfound =>
      obtain rfl := Except.ok.inj hrefresh
      obtain ⟨i, rfl, hfind⟩ := Option.bind_eq_some_iff.mp hfound
      exact ⟨hstorable, i, v, hcommit, hfind, rfl, by rw [hrest]⟩
    next => cases hrefresh
  · rintro ⟨hstorable, i, u, hcommit, hfind, rfl, hs'⟩
    have hguard : guardRequest env s.users s.clock c.creds c.request = .ok none := by
      rw [hreq]
      rfl
    have hload : loadTarget env s.users none c.request = .ok (account env s.users profile) := by
      rw [hreq]
      exact loadTarget_signIn.mpr ⟨hstorable, rfl⟩
    have hassign : assignWrite env s.clock c.request (account env s.users profile) c.draw =
        .ok (signInWrite env s.clock profile (account env s.users profile), []) := by
      rw [hreq]
      exact assignWrite_signIn
    have hrespond : respond env s'.users s.clock c.request (some i) [] =
        .ok (.session u.id (mintSessionToken env s.clock u.id u.email u.role)) := by
      rw [hreq]
      have hrefresh : refresh s'.users (some i) = .ok u := by
        simp only [refresh, Option.bind_some, hfind]
      exact map_eq_ok.mpr ⟨u, hrefresh, rfl⟩
    -- The phases, one after the other.
    refine bind_eq_ok.mpr ⟨none, hguard, bind_eq_ok.mpr ⟨_, hload, bind_eq_ok.mpr ⟨_, hassign,
      bind_eq_ok.mpr ⟨_, mapError_eq_ok.mpr hcommit, bind_eq_ok.mpr ⟨_,
        mapError_eq_ok.mpr hrespond, ?_⟩⟩⟩⟩⟩
    rw [hs', hrest]
    rfl

theorem account_mem {u : User} (h : account env t profile = some u) : u ∈ t.rows :=
  (mem_of_lookup h).1

/-- The text an account was found by is its address. -/
theorem lookupText_storable {u : User} (h : account env t profile = some u) :
    Storable (lookupText env profile) := by
  obtain ⟨hmem, hemail⟩ := mem_of_lookup h
  rw [← User.emailCol_eq_some.mp hemail]
  exact (forall_texts.mp (t.fits u hmem).2.2.2.2).2.1

/-- If the commit goes through and the row has the subject of the profile, the sign-in does what it
should. -/
theorem signsIn_of_commit (hreq : c.request = .signIn profile) {t' : UserTable} {i : Int} {u : User}
    (hstorable : Storable (lookupText env profile))
    (hcommit : commitWrite s.users (signInWrite env s.clock profile (account env s.users profile))
      c.nextId = .ok (t', some i)) (hfind : t'.find i = some u)
    (hlink : u.googleId = some profile.subject) : SignsIn env s c profile := by
  obtain ⟨hmem, rfl⟩ := UserTable.find_eq_some.mp hfind
  let answer : Response := .session u.id (mintSessionToken env s.clock u.id u.email u.role)
  exact ⟨{ s with users := t', log := ⟨c.request, some u.id, s.clock, answer⟩ :: s.log }, u,
    (perform_signIn_iff hreq).mpr ⟨hstorable, u.id, u, hcommit, hfind, rfl, rfl⟩, hfind, hlink⟩

/-- A new account displaces nobody. -/
theorem keepsLinks_insert {row : User} {t' : UserTable} {written : Option Int}
    (h : commitWrite t (.insert row) nextId = .ok (t', written)) : KeepsLinks t t' := by
  intro i u subject hu hlink
  have hne : i ≠ nextId := by
    rintro rfl
    cases (commitWrite_insert_fresh h).symm.trans hu
  refine ⟨u, ?_, hlink⟩
  rw [commitWrite_find h, Write.onRow, if_neg hne]
  exact hu

/-- An update displaces nobody that its copy does not. -/
theorem keepsLinks_update {loaded row : User} {t' : UserTable} {written : Option Int}
    (hstored : loaded ∈ t.rows)
    (hkeeps : ∀ subject, loaded.googleId = some subject → row.googleId = some subject)
    (h : commitWrite t (.update loaded row) nextId = .ok (t', written)) : KeepsLinks t t' := by
  intro i u subject hu hlink
  by_cases hi : i = loaded.id
  · subst hi
    obtain rfl := Option.some.inj ((UserTable.find_of_mem hstored).symm.trans hu)
    refine ⟨User.flush loaded row loaded, ?_, ?_⟩
    · rw [commitWrite_find h, Write.onRow, if_pos rfl, hu]
      rfl
    · exact (flushCol_self : _ = row.googleId).trans (hkeeps subject hlink)
  · refine ⟨u, ?_, hlink⟩
    rw [commitWrite_find h, Write.onRow, if_neg hi]
    exact hu

/-- A refresh keeps the subject of an account that carries the profile's or none. -/
theorem refreshProfile_keeps {u : User} {subject : Text}
    (hcarries : u.googleId = some profile.subject ∨ u.googleId = none ∧ profile.subject ≠ [])
    (hlink : u.googleId = some subject) :
    (refreshProfile u profile clock).googleId = some subject := by
  have hsame : profile.subject = subject := by
    rcases hcarries with hsubject | ⟨hnone, -⟩
    · exact Option.some.inj (hsubject.symm.trans hlink)
    · cases hnone.symm.trans hlink
  obtain rfl := hsame
  show (if profile.subject ≠ [] then some profile.subject else u.googleId) = _
  rw [hlink, ite_self]

/-- The row of a known user after the commit. -/
theorem commit_known_find {u : User} (hu : u ∈ t.rows) {t' : UserTable} {written : Option Int}
    (h : commitWrite t (.update u (refreshProfile u profile clock)) nextId = .ok (t', written)) :
    t'.find u.id = some (User.flush u (refreshProfile u profile clock) u) := by
  rw [commitWrite_find h, Write.onRow, if_pos rfl, UserTable.find_of_mem hu]
  rfl

/-- **Sufficient**: a linkable profile signs in, and no subject loses its account. -/
theorem signsIn_of_linkable (hreq : c.request = .signIn profile) (hint : Int4 c.nextId)
    (hfresh : s.users.find c.nextId = none) (h : Linkable env s.users profile) :
    SignsIn env s c profile ∧
      ∀ s' response, perform env s c = .ok (s', response) → KeepsLinks s.users s'.users := by
  unfold Linkable at h
  split at h
  -- the address has an account: the profile is written onto its row
  next u haccount =>
    obtain ⟨hcarries, halone, htakes⟩ := h
    have hmem := account_mem haccount
    constructor
    · obtain ⟨t', hcommit⟩ : ∃ t', commitWrite s.users
          (.update u (refreshProfile u profile s.clock)) c.nextId = .ok (t', some u.id) :=
        commit_knownUser hmem hcarries halone htakes
      refine signsIn_of_commit hreq (lookupText_storable haccount)
        (by rw [haccount]; exact hcommit) (commit_known_find hmem hcommit) ?_
      rw [flush_googleId]
      rcases hcarries with hsubject | ⟨-, hsubject⟩
      · rw [hsubject, ite_self]
      · exact if_pos hsubject
    · intro s' response hperform
      obtain ⟨-, i, v, hcommit, -⟩ := (perform_signIn_iff hreq).mp hperform
      rw [haccount] at hcommit
      exact keepsLinks_update hmem (fun _ hlink => refreshProfile_keeps hcarries hlink) hcommit
  -- the address is new: so must be the subject, and a row is added
  next haccount =>
    obtain ⟨hfree, htakes, hemail, hstorable⟩ := h
    constructor
    · obtain ⟨t', hcommit⟩ : ∃ t', commitWrite s.users (.insert (newOauthUser env profile s.clock))
          c.nextId = .ok (t', some c.nextId) := commit_newUser hint hfresh hfree htakes hemail
      have hfind : t'.find c.nextId = some
          { (newOauthUser env profile s.clock).asStored with id := c.nextId } := by
        rw [commitWrite_find hcommit, Write.onRow, if_pos rfl]
      exact signsIn_of_commit hreq hstorable (by rw [haccount]; exact hcommit) hfind rfl
    · intro s' response hperform
      obtain ⟨-, i, v, hcommit, -⟩ := (perform_signIn_iff hreq).mp hperform
      rw [haccount] at hcommit
      exact keepsLinks_insert hcommit

/-- The schema took a first sign-in: its address and its subject were free, and its
columns took what the profile brought. -/
theorem free_of_commit {t' : UserTable} {written : Option Int}
    (h : commitWrite t (.insert (newOauthUser env profile clock)) nextId = .ok (t', written)) :
    (∀ v ∈ t.rows, v.email ≠ profile.normalized env ∧ v.googleId ≠ some profile.subject) ∧
      Takeable profile (newOauthUser env profile 0).name ∧
      (profile.normalized env).length ≤ emailMax ∧ Storable (profile.normalized env) := by
  obtain ⟨hrow, -⟩ := commitWrite_insert.mp h
  obtain ⟨hrows, -⟩ := commitRow_insert hrow
  have hnew := t'.fits _ (hrows ▸ List.mem_append_right _ (List.mem_singleton_self _))
  obtain ⟨hname, hemail, -, hsubject, hpicture, -⟩ := forall_texts.mp hnew.2.2.2.2
  have hemails := t'.keyed.email
  have hgoogle := t'.keyed.googleId
  rw [hrows] at hemails hgoogle
  refine ⟨fun x hx => ⟨fun he => ?_, fun he => ?_⟩,
    ⟨⟨hnew.2.1, storable_varchar.mp hname⟩, hsubject _ rfl, hpicture⟩,
    hnew.2.2.1, hemail⟩
  · exact col_ne_of_append hemails rfl x hx (congrArg some he)
  · exact col_ne_of_append hgoogle rfl x hx he

/-- A refresh that leaves the subject with the account of its address, and takes no
account's subject away, found them together. -/
theorem carries_of_commit {u : User} (hu : u ∈ t.rows) {t' : UserTable} {written : Option Int}
    (h : commitWrite t (.update u (refreshProfile u profile clock)) nextId = .ok (t', written))
    (hlink : (User.flush u (refreshProfile u profile clock) u).googleId = some profile.subject)
    (hkept : KeepsLinks t t') :
    (u.googleId = some profile.subject ∨ u.googleId = none ∧ profile.subject ≠ []) ∧
      (∀ v ∈ t.rows, v.googleId = some profile.subject → v.id = u.id) ∧
      Takeable profile profile.name := by
  have hfound := commit_known_find hu h
  have hwritten := (UserTable.find_eq_some.mp hfound).1
  refine ⟨?_, fun x hx he => ?_, ?_⟩
  · cases hold : u.googleId with
    | none =>
      refine .inr ⟨rfl, fun hempty => ?_⟩
      rw [flush_googleId, if_neg (not_not_intro hempty), hold] at hlink
      cases hlink
    | some subject =>
      obtain ⟨x, hx, hxlink⟩ := hkept u.id u subject (UserTable.find_of_mem hu) hold
      obtain rfl := Option.some.inj (hfound.symm.trans hx)
      exact .inl (hxlink.symm.trans hlink)
  · -- A row that the update does not touch would carry the subject as well.
    by_contra hne
    have hkeptRow : x ∈ t'.rows := by
      rw [commitRow_update (commitWrite_update.mp h).1]
      exact mem_updateWhere_of_ne hx (by rw [ne_eq, User.idCol_eq_some]; exact hne)
    have hsame := eq_of_uniqueCol t'.keyed.googleId hkeptRow hwritten he hlink
    rw [hsame] at hne
    exact hne rfl
  · exact (flush_refreshed (t.fits u hu)).mp (t'.fits _ hwritten)

/-- **Necessary**: whoever signs in and displaces nobody is linkable. -/
theorem linkable_of_signsIn (hreq : c.request = .signIn profile)
    (h : SignsIn env s c profile)
    (hkeeps : ∀ s' response, perform env s c = .ok (s', response) → KeepsLinks s.users s'.users) :
    Linkable env s.users profile := by
  obtain ⟨s', u, hperform, hfind, hlink⟩ := h
  have hkept := hkeeps s' _ hperform
  obtain ⟨hstorable, i, v, hcommit, hv, hresponse, -⟩ := (perform_signIn_iff hreq).mp hperform
  unfold Linkable
  split
  next w haccount =>
    rw [haccount] at hcommit
    have hmem := account_mem haccount
    -- The answer is about the account.
    have hid : u.id = w.id := by
      have hsame := (Response.session.inj hresponse).1
      rw [hsame, (UserTable.find_eq_some.mp hv).2]
      exact Option.some.inj (commitWrite_update.mp hcommit).2
    rw [hid, commit_known_find hmem hcommit] at hfind
    obtain rfl := Option.some.inj hfind
    exact carries_of_commit hmem hcommit hlink hkept
  next haccount =>
    rw [haccount] at hcommit
    obtain ⟨hfree, htakes, hemail⟩ := free_of_commit hcommit
    exact ⟨hfree, htakes, hemail, hstorable⟩

/-- Any other call leaves the subjects alone. -/
theorem keepsLinks_of_other {response : Response} (hother : ∀ profile, c.request ≠ .signIn profile)
    (h : perform env s c = .ok (s', response)) : KeepsLinks s.users s'.users := by
  obtain ⟨actor, copy, write, secret, users, written, hguard, hload, hassign, hcommit, -, rfl⟩ :=
    perform_ok h
  cases write with
  | nothing =>
    obtain ⟨rfl, -⟩ := Prod.mk.inj (Except.ok.inj hcommit)
    exact .refl _
  | insert row =>
    obtain ⟨profile, hreq, -⟩ := assignWrite_insert hassign
    exact absurd hreq (hother profile)
  | update loaded row =>
    obtain ⟨rfl, hcases⟩ := assignWrite_update hassign
    have hstored : loaded ∈ s.users.rows := by
      rcases loadTarget_some hload with rfl | hrow
      · exact guardRequest_mem hguard
      · exact hrow
    refine keepsLinks_update hstored (fun subject hlink => ?_) hcommit
    rcases hcases with ⟨_, _, -, rfl⟩ | ⟨_, _, -, hissue⟩ | ⟨_, -, rfl⟩ | ⟨-, rfl⟩ |
      ⟨profile, hreq, -⟩
    · exact hlink
    · rw [(issue_ok hissue).2.2]
      exact hlink
    · exact hlink
    · exact hlink
    · exact absurd hreq (hother profile)

end SignIn

/-! ## Runs -/

/-- The profile of a sign-in. -/
def Event.profile : Event ρ → Option (Call ρ × OAuthProfile)
  | .call c =>
    match c.request with
    | .signIn profile => some (c, profile)
    | _ => none
  | .tick _ => none

/-- The sequence has a number left for a new account. -/
def drawsFresh (s : Service ρ) (e : Event ρ) : Prop :=
  ∀ signIn ∈ e.profile, Int4 signIn.1.nextId ∧ s.users.find signIn.1.nextId = none

/-- Whoever signs in is linkable. -/
def linkableAt (env : Env) (s : Service ρ) (e : Event ρ) : Prop :=
  ∀ signIn ∈ e.profile, Linkable env s.users signIn.2

/-- Whoever signs in succeeds. -/
def signsInAt (env : Env) (s : Service ρ) (e : Event ρ) : Prop :=
  ∀ signIn ∈ e.profile, SignsIn env s signIn.1 signIn.2

instance decidableDraws (s : Service ρ) (e : Event ρ) : Decidable (drawsFresh s e) :=
  inferInstanceAs (Decidable (∀ signIn ∈ e.profile,
    Int4 signIn.1.nextId ∧ s.users.find signIn.1.nextId = none))

instance decidableLinkableAt (env : Env) (s : Service ρ) (e : Event ρ) :
    Decidable (linkableAt env s e) :=
  inferInstanceAs (Decidable (∀ signIn ∈ e.profile, Linkable env s.users signIn.2))

/-- Sign-ins over a run: none of them fails, and a subject that has an account keeps
it. -/
structure SignInsSound (env : Env) (s : Service ρ) (events : List (Event ρ)) : Prop where
  works : AllSteps (serve env) (signsInAt env) s events
  linked : ∀ pre mid post m m', events = pre ++ mid ++ post → exec (serve env) s pre = some m →
    exec (serve env) m mid = some m' → KeepsLinks m.users m'.users

section Runs

variable {env : Env} {s s' : Service ρ} {c : Call ρ} {profile : OAuthProfile} {e : Event ρ}
  {events : List (Event ρ)}

theorem profile_eq_some (h : e.profile = some (c, profile)) :
    e = .call c ∧ c.request = .signIn profile := by
  cases e with
  | tick microseconds => cases h
  | call c' =>
    simp only [Event.profile] at h
    split at h
    next profile' hreq =>
      obtain ⟨rfl, rfl⟩ := Prod.mk.inj (Option.some.inj h)
      exact ⟨rfl, hreq⟩
    next => cases h

theorem profile_of_signIn (hreq : c.request = .signIn profile) :
    Event.profile (.call c) = some (c, profile) := by
  simp only [Event.profile, hreq]

/-- An event whose draw is fresh and whose sign-in, if it is one, is linkable takes no link from an
account. -/
theorem keepsLinks_step (hdraws : drawsFresh s e) (hlinkable : linkableAt env s e)
    (h : serve env s e = some s') : KeepsLinks s.users s'.users := by
  rcases serve_cases h with ⟨d, rfl, rfl⟩ | ⟨c, rfl, rfl⟩ | ⟨c, response, rfl, hperform⟩
  · exact .refl _
  · exact .refl _
  · by_cases hsignIn : ∃ profile, c.request = .signIn profile
    · obtain ⟨profile, hreq⟩ := hsignIn
      have hprofile := profile_of_signIn hreq
      obtain ⟨hint, hfresh⟩ := hdraws (c, profile) hprofile
      exact (signsIn_of_linkable hreq hint hfresh (hlinkable (c, profile) hprofile)).2 s' response
        hperform
    · exact keepsLinks_of_other (fun profile hreq => hsignIn ⟨profile, hreq⟩) hperform

/-- **Sign-ins are sound exactly in the runs in which every profile is linkable when
it signs in.** -/
theorem sign_ins_sound_iff (hdraws : AllSteps (serve env) drawsFresh s events) :
    SignInsSound env s events ↔ AllSteps (serve env) (linkableAt env) s events := by
  constructor
  · intro hsound
    rw [allSteps_iff]
    rintro pre e post m hevents hpre ⟨c, profile⟩ hprofile
    obtain ⟨rfl, hreq⟩ := profile_eq_some hprofile
    have hworks : SignsIn env m c profile :=
      allSteps_iff.mp hsound.works pre (.call c) post m hevents hpre (c, profile) hprofile
    refine linkable_of_signsIn hreq hworks fun s' response hperform => ?_
    refine hsound.linked pre [.call c] post m s' ?_ hpre ?_
    · rw [hevents, List.append_assoc]
      rfl
    · refine exec_cons_some.mpr ⟨s', ?_, rfl⟩
      simp only [serve, hperform]
  -- sign-ins work at every step, and a link, once made, is kept by every step
  · intro hlinkable
    have hboth := allSteps_and hdraws hlinkable
    refine ⟨allSteps_mono ?_ hboth, ?_⟩
    · rintro m e ⟨hfreshAt, hlinkableAt⟩ ⟨c, profile⟩ hprofile
      obtain ⟨rfl, hreq⟩ := profile_eq_some hprofile
      obtain ⟨hint, hfresh⟩ := hfreshAt (c, profile) hprofile
      exact (signsIn_of_linkable hreq hint hfresh (hlinkableAt (c, profile) hprofile)).1
    · rintro pre mid post m m' rfl hpre hmid
      have hmiddle := allSteps_right (allSteps_left hboth) hpre
      refine exec_inv (I := fun s : Service ρ => KeepsLinks m.users s.users)
        (fun s e s' h hkept hstep => ?_) hmiddle (.refl _) hmid
      exact hkept.trans (keepsLinks_step h.1 h.2 hstep)

end Runs

/-! ## A subject and two addresses -/

/-- Google's profile of one person, under the address it verified. -/
def profileAt (address : Int) (name : Text) : OAuthProfile := ⟨strInt address, name, ['g'], none⟩

/-- A sign-in, with the number the sequence gives a new account. -/
def signInAs (profile : OAuthProfile) (nextId : Int) : Call Unit :=
  ⟨⟨none, none, none⟩, .signIn profile, drawA, nextId⟩

/-- With one address, before and after a promotion: both sign-ins are sound. -/
theorem sign_ins_of_one_address :
    SignInsSound sampleEnv sampleService
      [.call (signInAs (profileAt 3 ['c']) 3), .call (adminCall (.updateRole 3 .editor)),
        .tick 1000000, .call (signInAs (profileAt 3 ['d']) 4)] :=
  (sign_ins_sound_iff (by decide +kernel)).mpr (by decide +kernel)

/-- With another address the unique index on the subject refuses the sign-in, and a
name of 101 characters is refused by its column. -/
theorem other_address_refused :
    (∃ s, exec (serve sampleEnv) sampleService [.call (signInAs (profileAt 3 ['c']) 3)] = some s ∧
      perform sampleEnv s (signInAs (profileAt 4 ['c']) 4) = .error (.raised .integrityError)) ∧
    perform sampleEnv sampleService (signInAs (profileAt 3 (List.replicate 101 'c')) 3) =
      .error (.raised .dataError) ∧
    ¬ SignInsSound sampleEnv sampleService
      [.call (signInAs (profileAt 3 ['c']) 3), .call (signInAs (profileAt 4 ['c']) 4)] := by
  have hrun : ((exec (serve sampleEnv) sampleService
      [.call (signInAs (profileAt 3 ['c']) 3)]).map fun s =>
        decide (errorOf (perform sampleEnv s (signInAs (profileAt 4 ['c']) 4)) =
          some (.raised .integrityError))) = some true := by
    decide +kernel
  have hlong : errorOf (perform sampleEnv sampleService
      (signInAs (profileAt 3 (List.replicate 101 'c')) 3)) = some (.raised .dataError) := by
    decide +kernel
  obtain ⟨s, hs, hraised⟩ := exec_of_test hrun
  have hfails := errorOf_eq_some.mp (of_decide_eq_true hraised)
  refine ⟨⟨s, hs, hfails⟩, errorOf_eq_some.mp hlong, fun hsound => ?_⟩
  have hsecond := allSteps_iff.mp hsound.works [.call (signInAs (profileAt 3 ['c']) 3)]
    (.call (signInAs (profileAt 4 ['c']) 4)) [] s rfl hs
  obtain ⟨s', u, hperform, -⟩ := hsecond _ (profile_of_signIn rfl)
  cases hfails.symm.trans hperform

end SarkariWorld.Auth
