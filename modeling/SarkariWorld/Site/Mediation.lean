import SarkariWorld.Site.Permanence

/-!
# Nothing changes unasked

However requests overlap, every change of the database was asked for, by a request whose
guard let its caller through at an earlier moment of the run. `Mediated` says so table
by table: who may have asked for what.

`authorize` is the guard of the handlers, run on the database and at the clock of that
moment. The caller may have lost the privilege since, which is why the moment belongs to
the statement.

The proof compares the database before and after one commit. What a licence knows of the
commit names the request and its guard; what the flush does says which rows differ. The
lemmas on clean columns carry the case of an update: a column whose value on the loaded
object has not been touched is not part of the `UPDATE`, so it cannot be what differs.
-/

namespace SarkariWorld.Site.Threads

open SarkariWorld.Lib SarkariWorld.Auth SarkariWorld.Content

/-- The columns of an API key. -/
def keyColumns (u : User) :
    Option Text × Option Text × Option Text × Option Int × Option Int × Option Int :=
  (u.apiKeyPrefix, u.apiKeyHash, u.apiKeyName, u.apiKeyCreatedAt, u.apiKeyLastUsedAt,
    u.apiKeyRevokedAt)

/-- The columns a sign-in refreshes. -/
def profileColumns (u : User) : Text × Option Text × Option Text × Text × Option Int :=
  (u.name, u.googleId, u.pictureUrl, u.authProvider, u.lastLoginAt)

section Mediation

variable (auth : Auth.Env) (content : Content.Env) (s₀ : Traffic) (moves : List SiteMove)

/-- A request was received, and its caller let through by the guard, so. -/
def WasAsked (guard : Guard) (p : User → WriteRequest → Prop) : Prop :=
  ∃ r asked actor m, Move.start r asked ∈ moves ∧
    PassedThrough store (program auth content) s₀ moves m ∧
    authorize ((⟨auth, content, asked.creds, asked.draw⟩ : Origin).at m.clock) guard m.stored =
      .ok actor ∧
    p actor asked.request

/-- A sign-in with a verified profile was received. -/
def SignedIn (p : OAuthProfile → Prop) : Prop :=
  ∃ r asked profile, Move.start r asked ∈ moves ∧ asked.request = .signIn (.ok profile) ∧ p profile

/-- What may have happened to the articles. -/
structure ArticlesMediated (t t' : ArticleTable) : Prop where
  changed : t' ≠ t → ∃ method, WasAsked auth content s₀ moves (.manage method)
    fun actor request => actor.role ∈ staffRoles ∧ ∃ post, request = .post post
  removed : ∀ a ∈ t.rows, (∀ a' ∈ t'.rows, a'.id ≠ a.id) →
    WasAsked auth content s₀ moves (.manage .delete)
      fun actor request => actor.role = .admin ∧ ∃ slug, request = .post (.deletePost slug)

/-- What may have happened to the list of URLs. Anyone on the staff may add to it and mark it as
viewed; removing takes an admin, who named the row. -/
structure WebUrlsMediated (t t' : WebUrlTable) : Prop where
  changed : t' ≠ t → ∃ method, WasAsked auth content s₀ moves (.manage method)
    fun actor _ => actor.role ∈ staffRoles
  removed : ∀ w ∈ t.rows, (∀ w' ∈ t'.rows, w'.id ≠ w.id) →
    WasAsked auth content s₀ moves (.manage .delete)
      fun actor request => actor.role = .admin ∧ request = .deleteWebUrl w.id

/-- A reader's bookmarks are changed by the reader alone. -/
def BookmarksMediated (t t' : BookmarkTable) : Prop :=
  ∀ userId, bookmarksOf t' userId ≠ bookmarksOf t userId →
    WasAsked auth content s₀ moves .auth
      fun actor request => actor.id = userId ∧ ∃ slug, request = .toggleBookmark slug

/-- What may have happened to an account. -/
structure AccountMediated (u u' : User) : Prop where
  role : u'.role ≠ u.role → WasAsked auth content s₀ moves (.admin .patch)
    fun actor request =>
      actor.role = .admin ∧ actor.id ≠ u.id ∧ request = .updateRole u.id u'.role
  key : keyColumns u' ≠ keyColumns u → ∃ method, WasAsked auth content s₀ moves (.admin method)
    fun actor request => actor.role = .admin ∧
      ((∃ name, request = .issueApiKey u.id name) ∨ request = .revokeApiKey u.id)
  sessions : u'.sessionInvalidatedAt ≠ u.sessionInvalidatedAt →
    WasAsked auth content s₀ moves .auth
      fun actor request => actor.id = u.id ∧ request = .logout
  profile : profileColumns u' ≠ profileColumns u → SignedIn moves
    fun profile => u.email = auth.lower (strip (profile.normalized auth))

/-- What may have happened to the accounts. An account that is new has the least role and no key,
and its address is one that signed in. -/
structure UsersMediated (t t' : UserTable) : Prop where
  account : ∀ u ∈ t.rows, ∀ u' ∈ t'.rows, u'.id = u.id →
    AccountMediated auth content s₀ moves u u'
  newcomer : ∀ u' ∈ t'.rows, (∀ u ∈ t.rows, u.id ≠ u'.id) →
    u'.role = .user ∧ keyColumns u' = (none, none, none, none, none, none) ∧
      SignedIn moves fun profile => u'.email = profile.normalized auth

/-- Every difference of the two databases was asked for. -/
structure Mediated (d d' : Database) : Prop where
  users : UsersMediated auth content s₀ moves d.users d'.users
  articles : ArticlesMediated auth content s₀ moves d.articles d'.articles
  bookmarks : BookmarksMediated auth content s₀ moves d.bookmarks d'.bookmarks
  webUrls : WebUrlsMediated auth content s₀ moves d.webUrls d'.webUrls

end Mediation

section Unchanged

variable {auth : Auth.Env} {content : Content.Env} {s₀ : Traffic} {moves : List SiteMove}

/-- An account that has not changed needs nobody to have asked. -/
theorem accountMediated_refl (u : User) : AccountMediated auth content s₀ moves u u where
  role h := absurd rfl h
  key h := absurd rfl h
  sessions h := absurd rfl h
  profile h := absurd rfl h

/-- Accounts that have not changed need nobody to have asked. Two rows with one `id` are one row. -/
theorem usersMediated_refl (t : UserTable) : UsersMediated auth content s₀ moves t t where
  account u hu u' hu' hid := by
    rw [eq_of_uniqueCol t.keyed.id hu' hu (User.idCol_eq_some.mpr hid) rfl]
    exact accountMediated_refl u
  newcomer u hu hnew := absurd rfl (hnew u hu)

theorem articlesMediated_refl (t : ArticleTable) : ArticlesMediated auth content s₀ moves t t where
  changed h := absurd rfl h
  removed a ha hgone := absurd rfl (hgone a ha)

theorem webUrlsMediated_refl (t : WebUrlTable) : WebUrlsMediated auth content s₀ moves t t where
  changed h := absurd rfl h
  removed w hw hgone := absurd rfl (hgone w hw)

theorem bookmarksMediated_refl (t : BookmarkTable) : BookmarksMediated auth content s₀ moves t t :=
  fun _ h => absurd rfl h

end Unchanged

/-! ## Guards -/

section Guards

variable {ctx : Context} {d : Database} {method : Method} {actor : User}

/-- Whoever is let through has passed the check of the guard's role. -/
theorem authorize_check {guard : Guard} (h : authorize ctx guard d = .ok actor) :
    ∃ found, guard.check found = .ok actor := by
  unfold authorize at h
  split at h
  next => cases h
  next found _ => exact ⟨found.map Prod.fst, mapError_eq_ok.mp h⟩

/-- Who the guard of the admin routes lets through. -/
theorem authorize_manage (h : authorize ctx (.manage method) d = .ok actor) :
    actor.role ∈ staffRoles ∧ (method = .delete → actor.role = .admin) := by
  obtain ⟨found, hcheck⟩ := authorize_check h
  obtain ⟨u, -, hmanage⟩ := bind_eq_ok.mp hcheck
  exact (requireManage_ok hmanage).2

/-- The admin guard lets admins through and nobody else. -/
theorem authorize_admin (h : authorize ctx (.admin method) d = .ok actor) :
    actor.role = .admin := by
  obtain ⟨found, hcheck⟩ := authorize_check h
  exact (guardCheck_admin hcheck).2

end Guards

/-! ## One commit -/

section Commit

variable {auth : Auth.Env} {content : Content.Env} {s₀ s s' : Traffic} {moves : List SiteMove}
  {r : Nat} {asked : Asked} {seen : Moments} {clock : Nat} {number : Int} {d' : Database}

/-- The moments at which a request read are moments of the run. -/
theorem wasAsked_of_admitted {guard : Guard} {actor : User} {p : User → WriteRequest → Prop}
    (hstart : Move.start r asked ∈ moves)
    (hseen : SeenIn store (program auth content) s₀ moves seen)
    (hactor : Admitted ⟨auth, content, asked.creds, asked.draw⟩ seen guard actor)
    (hp : p actor asked.request) : WasAsked auth content s₀ moves guard p := by
  obtain ⟨d, clock, hmoment, hactor⟩ := hactor
  obtain ⟨m, hm, heq⟩ := hseen.passed _ hmoment
  obtain ⟨rfl, rfl⟩ := Prod.mk.inj heq
  exact ⟨r, asked, actor, m, hstart, hm, hactor, hp⟩

/-- The `manage` guard, for whoever is staff. -/
theorem wasAsked_of_manage {method : Method} {actor : User} {p : User → WriteRequest → Prop}
    (hstart : Move.start r asked ∈ moves)
    (hseen : SeenIn store (program auth content) s₀ moves seen)
    (hactor : Admitted ⟨auth, content, asked.creds, asked.draw⟩ seen (.manage method) actor)
    (hp : actor.role ∈ staffRoles → (method = .delete → actor.role = .admin) →
      p actor asked.request) : WasAsked auth content s₀ moves (.manage method) p := by
  obtain ⟨d, clock, hmoment, hadmitted⟩ := hactor
  obtain ⟨hstaff, hdelete⟩ := authorize_manage hadmitted
  exact wasAsked_of_admitted hstart hseen ⟨d, clock, hmoment, hadmitted⟩ (hp hstaff hdelete)

/-- A commit behind the admin guard was asked for by an admin. The moment of the guard is one the
request has seen, and so one of the run. -/
theorem wasAsked_of_admin {method : Method} {actor : User} {p : User → WriteRequest → Prop}
    (hstart : Move.start r asked ∈ moves)
    (hseen : SeenIn store (program auth content) s₀ moves seen)
    (hactor : Admitted ⟨auth, content, asked.creds, asked.draw⟩ seen (.admin method) actor)
    (hp : actor.role = .admin → p actor asked.request) :
    WasAsked auth content s₀ moves (.admin method) p := by
  obtain ⟨d, clock, hmoment, hadmitted⟩ := hactor
  exact wasAsked_of_admitted hstart hseen ⟨d, clock, hmoment, hadmitted⟩
    (hp (authorize_admin hadmitted))

/-! Columns an update does not assign are left as they are stored. -/

section Clean

variable {loaded row : User}

/-- An update that leaves the loaded role alone does not write the column. -/
theorem role_clean (h : row.role = loaded.role) (u : User) :
    (User.flush loaded row u).role = u.role := by
  show flushCol loaded.role row.role u.role = u.role
  rw [h, flushCol_clean]

theorem sessions_clean (h : row.sessionInvalidatedAt = loaded.sessionInvalidatedAt) (u : User) :
    (User.flush loaded row u).sessionInvalidatedAt = u.sessionInvalidatedAt := by
  show flushCol loaded.sessionInvalidatedAt row.sessionInvalidatedAt u.sessionInvalidatedAt = _
  rw [h, flushCol_clean]

theorem keyColumns_clean (h : keyColumns row = keyColumns loaded) (u : User) :
    keyColumns (User.flush loaded row u) = keyColumns u := by
  simp only [keyColumns, Prod.mk.injEq] at h
  obtain ⟨hpre, hhash, hname, hcreated, hused, hrevoked⟩ := h
  simp only [keyColumns, User.flush, hpre, hhash, hname, hcreated, hused, hrevoked,
    flushCol_clean, flushColWith_clean]

theorem profileColumns_clean (h : profileColumns row = profileColumns loaded) (u : User) :
    profileColumns (User.flush loaded row u) = profileColumns u := by
  simp only [profileColumns, Prod.mk.injEq] at h
  obtain ⟨hname, hgoogle, hpicture, hprovider, hlogin⟩ := h
  simp only [profileColumns, User.flush, hname, hgoogle, hpicture, hprovider, hlogin,
    flushCol_clean, flushColWith_clean]

end Clean

section Users

variable {t t' : UserTable} {written : Option Int}

/-- A committed update concerns one account, and every other is as it was. It is enough to account
for the columns of that one. -/
theorem usersMediated_update {loaded row : User}
    (hcommit : commitWrite t (.update loaded row) number = .ok (t', written))
    (h : ∀ u ∈ t.rows, loaded.id = u.id →
      AccountMediated auth content s₀ moves u (User.flush loaded row u)) :
    UsersMediated auth content s₀ moves t t' := by
  have hrows := commitRow_update (commitWrite_update.mp hcommit).1
  refine ⟨fun u hu u' hu' hid => ?_, fun u' hu' hnew => ?_⟩
  · rw [hrows] at hu'
    obtain ⟨x, hx, rfl⟩ := mem_updateWhere.mp hu'
    by_cases hloaded : User.idCol x = some loaded.id
    · rw [if_pos hloaded] at hid ⊢
      -- the number is the account's own, so the row that was there is this one
      have hsame : x = u :=
        eq_of_uniqueCol t.keyed.id hx hu (User.idCol_eq_some.mpr hid) rfl
      rw [← hsame]
      exact h x hx (User.idCol_eq_some.mp hloaded).symm
    · rw [if_neg hloaded] at hid ⊢
      rw [eq_of_uniqueCol t.keyed.id hx hu (User.idCol_eq_some.mpr hid) rfl]
      exact accountMediated_refl u
  · rw [hrows] at hu'
    obtain ⟨x, hx, rfl⟩ := mem_updateWhere.mp hu'
    refine absurd ?_ (hnew x hx)
    split
    · rfl
    · rfl

/-- A committed insertion adds the account of a sign-in, whose row is a new user's. -/
theorem usersMediated_insert {profile : OAuthProfile} {clock : Nat}
    (hcommit : commitWrite t (.insert (newOauthUser auth profile clock)) number =
      .ok (t', written))
    (hsignIn : SignedIn moves (· = profile)) : UsersMediated auth content s₀ moves t t' := by
  obtain ⟨hrows, hfresh⟩ := commitRow_insert (commitWrite_insert.mp hcommit).1
  refine ⟨fun u hu u' hu' hid => ?_, fun u' hu' hnew => ?_⟩
  · rw [hrows] at hu'
    rcases List.mem_append.mp hu' with hold | hlast
    · rw [eq_of_uniqueCol t.keyed.id hold hu (User.idCol_eq_some.mpr hid) rfl]
      exact accountMediated_refl u
    · obtain rfl := List.mem_singleton.mp hlast
      exact absurd hid.symm (hfresh u hu)
  · rw [hrows] at hu'
    rcases List.mem_append.mp hu' with hold | hlast
    · exact absurd rfl (hnew u' hold)
    · obtain rfl := List.mem_singleton.mp hlast
      obtain ⟨r, asked, profile', hstart, hrequest, rfl⟩ := hsignIn
      exact ⟨rfl, rfl, r, asked, profile', hstart, hrequest, rfl⟩

end Users

/-! The rows a statement leaves, by their numbers. -/

theorem articles_kept {write : ArticleWrite} {t t' : ArticleTable}
    (h : Effect t t' clock number write) {a : Article} (ha : a ∈ t.rows)
    (hgone : ∀ a' ∈ t'.rows, a'.id ≠ a.id) : ∃ loaded, write = .delete loaded := by
  cases h with
  | insert data row hrow hrows =>
    refine absurd rfl (hgone a ?_)
    rw [hrows]
    exact List.mem_append_left _ ha
  | same loaded hrows =>
    refine absurd rfl (hgone a ?_)
    rw [hrows]
    exact ha
  | update loaded assigned encoded hencoded hrows =>
    refine absurd ?_ (hgone (if ArticleOf.idCol a = some loaded.id then
      flushArticle loaded assigned encoded a else a) ?_)
    · split
      · rfl
      · rfl
    · rw [hrows]
      exact mem_updateWhere.mpr ⟨a, ha, rfl⟩
  | delete loaded hrows => exact ⟨loaded, rfl⟩

/-- Only a deletion makes a web URL go away, and it is the one that was loaded. -/
theorem webUrls_kept {write : WebUrlWrite} {t t' : WebUrlTable} {row : Option WebUrl}
    (h : commitWebUrl t clock number write = .ok (t', row)) {w : WebUrl} (hw : w ∈ t.rows)
    (hgone : ∀ w' ∈ t'.rows, w'.id ≠ w.id) :
    ∃ loaded, write = .delete loaded ∧ loaded.id = w.id := by
  cases write with
  | insert url domain title =>
    obtain ⟨t₁, hwrite, hend⟩ := bind_eq_ok.mp h
    obtain ⟨rfl, -⟩ := Prod.mk.inj (Except.ok.inj hend)
    refine absurd rfl (hgone w ?_)
    rw [WebUrlTable.write_ok hwrite]
    exact List.mem_append_left _ hw
  | view loaded stamped =>
    simp only [commitWebUrl] at h
    split at h
    next => cases h
    next =>
      split at h
      next =>
        obtain ⟨rfl, -⟩ := Prod.mk.inj (Except.ok.inj h)
        exact absurd rfl (hgone w hw)
      next =>
        obtain ⟨t₁, hwrite, hend⟩ := bind_eq_ok.mp h
        obtain ⟨rfl, -⟩ := Prod.mk.inj (Except.ok.inj hend)
        refine absurd ?_ (hgone (if WebUrl.idCol w = some loaded.id then w.stamp stamped else w) ?_)
        · split
          · rfl
          · rfl
        · rw [WebUrlTable.write_ok hwrite]
          exact mem_updateWhere.mpr ⟨w, hw, rfl⟩
  | viewAll stamped =>
    obtain ⟨t₁, hwrite, hend⟩ := bind_eq_ok.mp h
    obtain ⟨rfl, -⟩ := Prod.mk.inj (Except.ok.inj hend)
    refine absurd ?_ (hgone (w.stamp stamped) ?_)
    · rfl
    · rw [WebUrlTable.write_ok hwrite]
      exact List.mem_map_of_mem hw
  | delete loaded =>
    obtain ⟨t₁, hwrite, hend⟩ := bind_eq_ok.mp h
    obtain ⟨rfl, -⟩ := Prod.mk.inj (Except.ok.inj hend)
    -- only the row with the deleted number is taken out
    refine ⟨loaded, rfl, Decidable.byContradiction fun hne => ?_⟩
    refine absurd rfl (hgone w ?_)
    rw [WebUrlTable.write_ok hwrite]
    exact List.mem_filter.mpr ⟨hw, decide_eq_true fun he => hne he.symm⟩

/-- A new bookmark changes the list of the reader it is for, and no other. -/
theorem bookmarksOf_insert {userId articleId : Int} {t t' : BookmarkTable}
    (h : commitBookmark t clock number (.insert userId articleId) = .ok t') {reader : Int}
    (hchanged : bookmarksOf t' reader ≠ bookmarksOf t reader) : userId = reader := by
  refine Decidable.byContradiction fun hne => hchanged ?_
  unfold bookmarksOf
  rw [(commit_insert h).1, List.filter_append, List.filter_singleton, decide_eq_false hne]
  exact List.append_nil _

/-- A deleted bookmark changes the list of the reader it was for. -/
theorem bookmarksOf_delete {existing : Bookmark} {t : BookmarkTable} {reader : Int}
    (hsame : ∀ b ∈ t.rows, b.id = existing.id → b = existing)
    (hchanged : bookmarksOf (t.delete existing.id) reader ≠ bookmarksOf t reader) :
    existing.userId = reader := by
  refine Decidable.byContradiction fun hne => hchanged ?_
  show ((t.rows.filter fun b => b.id ≠ existing.id).filter fun b => b.userId = reader) = _
  rw [List.filter_filter]
  refine List.filter_congr fun b hb => ?_
  by_cases hreader : b.userId = reader
  · have hid : b.id ≠ existing.id := fun hid => hne (hsame b hb hid ▸ hreader)
    simp only [hreader, hid, ne_eq, not_false_eq_true, decide_true, Bool.and_self]
  · simp only [hreader, decide_false, Bool.false_and]

/-! A change of one table leaves the others alone. -/

section Tables

variable {d : Database}

/-- A commit that touched accounts alone is accounted for by its accounts. -/
theorem mediated_users (hrest : d' = { d with users := d'.users })
    (h : UsersMediated auth content s₀ moves d.users d'.users) :
    Mediated auth content s₀ moves d d' := by
  refine ⟨h, ?_, ?_, ?_⟩
  · rw [hrest]
    exact articlesMediated_refl _
  · rw [hrest]
    exact bookmarksMediated_refl _
  · rw [hrest]
    exact webUrlsMediated_refl _

theorem mediated_articles (hrest : d' = { d with articles := d'.articles })
    (h : ArticlesMediated auth content s₀ moves d.articles d'.articles) :
    Mediated auth content s₀ moves d d' := by
  refine ⟨?_, h, ?_, ?_⟩
  · rw [hrest]
    exact usersMediated_refl _
  · rw [hrest]
    exact bookmarksMediated_refl _
  · rw [hrest]
    exact webUrlsMediated_refl _

theorem mediated_bookmarks (hrest : d' = { d with bookmarks := d'.bookmarks })
    (h : BookmarksMediated auth content s₀ moves d.bookmarks d'.bookmarks) :
    Mediated auth content s₀ moves d d' := by
  refine ⟨?_, ?_, h, ?_⟩
  · rw [hrest]
    exact usersMediated_refl _
  · rw [hrest]
    exact articlesMediated_refl _
  · rw [hrest]
    exact webUrlsMediated_refl _

theorem mediated_webUrls (hrest : d' = { d with webUrls := d'.webUrls })
    (h : WebUrlsMediated auth content s₀ moves d.webUrls d'.webUrls) :
    Mediated auth content s₀ moves d d' := by
  refine ⟨?_, ?_, ?_, h⟩
  · rw [hrest]
    exact usersMediated_refl _
  · rw [hrest]
    exact articlesMediated_refl _
  · rw [hrest]
    exact bookmarksMediated_refl _

theorem mediated_refl (d : Database) : Mediated auth content s₀ moves d d :=
  mediated_users rfl (usersMediated_refl _)

end Tables

/-- A commit to the articles that its request's guard has let through. -/
theorem articlesMediated_of (post : PostRequest) {actor : User} {write : ArticleWrite}
    {t t' : ArticleTable} (hstart : Move.start r asked ∈ moves)
    (hseen : SeenIn store (program auth content) s₀ moves seen)
    (hrequest : asked.request = .post post)
    (hactor : Admitted ⟨auth, content, asked.creds, asked.draw⟩ seen (.manage (postMethod post))
      actor)
    (hdelete : ∀ loaded, write = .delete loaded → ∃ slug, post = .deletePost slug)
    (heffect : Effect t t' clock number write) :
    ArticlesMediated auth content s₀ moves t t' where
  changed _ := ⟨_, wasAsked_of_manage hstart hseen hactor
    fun hstaff _ => ⟨hstaff, post, hrequest⟩⟩
  removed a ha hgone := by
    obtain ⟨loaded, hwrite⟩ := articles_kept heffect ha hgone
    obtain ⟨slug, rfl⟩ := hdelete loaded hwrite
    exact wasAsked_of_manage hstart hseen hactor fun _ hadmin => ⟨hadmin rfl, slug, hrequest⟩

/-- A commit to the list of URLs that its request's guard has let through. -/
theorem webUrlsMediated_of {method : Method} {actor : User} {write : WebUrlWrite}
    {t t' : WebUrlTable} (hstart : Move.start r asked ∈ moves)
    (hseen : SeenIn store (program auth content) s₀ moves seen)
    (hactor : Admitted ⟨auth, content, asked.creds, asked.draw⟩ seen (.manage method) actor)
    (hdelete : ∀ loaded, write = .delete loaded →
      method = .delete ∧ asked.request = .deleteWebUrl loaded.id)
    (hcase : webUrlClean write = true ∧ t' = t ∨
      ∃ row, commitWebUrl t clock number write = .ok (t', row)) :
    WebUrlsMediated auth content s₀ moves t t' := by
  rcases hcase with ⟨-, hsame⟩ | ⟨row, hcommit⟩
  · rw [hsame]
    exact webUrlsMediated_refl t
  · refine ⟨fun _ => ⟨_, wasAsked_of_manage hstart hseen hactor fun hstaff _ => hstaff⟩,
      fun w hw hgone => ?_⟩
    obtain ⟨loaded, hwrite, hid⟩ := webUrls_kept hcommit hw hgone
    obtain ⟨rfl, hrequest⟩ := hdelete loaded hwrite
    rw [← hid]
    exact wasAsked_of_manage hstart hseen hactor fun _ hadmin => ⟨hadmin rfl, hrequest⟩

/-- **A licensed commit was asked for.** -/
theorem Licence.mediated {change : Change} (hstart : Move.start r asked ∈ moves)
    (hseen : SeenIn store (program auth content) s₀ moves seen)
    (hlicence : Licence ⟨auth, content, asked.creds, asked.draw⟩ seen asked.request change)
    (hfollows : ∀ m, PassedThrough store (program auth content) s₀ moves m →
      Below m.stored m.next ∧ Follows m s)
    (hflush : flush clock number s.stored change = .ok d') :
    Mediated auth content s₀ moves s.stored d' := by
  generalize hrequest : asked.request = request at hlicence
  cases hlicence with
  | addArticle post actor data hactor hadds =>
    obtain ⟨heffect, hrest⟩ := flush_article hflush
    exact mediated_articles hrest (articlesMediated_of post hstart hseen hrequest hactor
      (fun loaded hwrite => by cases hwrite) heffect)
  | editArticle post actor a assigned hactor hedits ha hcreated =>
    obtain ⟨heffect, hrest⟩ := flush_article hflush
    exact mediated_articles hrest (articlesMediated_of post hstart hseen hrequest hactor
      (fun loaded hwrite => by cases hwrite) heffect)
  | deleteArticle slug actor a hactor ha =>
    obtain ⟨heffect, hrest⟩ := flush_article hflush
    exact mediated_articles hrest (articlesMediated_of (.deletePost slug) hstart hseen
      hrequest hactor (fun loaded _ => ⟨slug, rfl⟩) heffect)
  | addBookmark slug actor a hactor ha hslug =>
    obtain ⟨hcommit, hrest⟩ := flush_bookmark hflush
    refine mediated_bookmarks hrest fun reader hchanged => ?_
    exact wasAsked_of_admitted hstart hseen hactor
      ⟨bookmarksOf_insert hcommit hchanged, slug, hrequest⟩
  | removeBookmark slug actor existing hactor hb howner =>
    obtain ⟨hcommit, hrest⟩ := flush_bookmark hflush
    refine mediated_bookmarks hrest fun reader hchanged => ?_
    rw [← Except.ok.inj hcommit] at hchanged
    -- The row of that number is still the bookmark that was looked up.
    obtain ⟨d, time, hmoment, hmem⟩ := hb
    obtain ⟨m, hm, heq⟩ := hseen.passed _ hmoment
    obtain ⟨rfl, rfl⟩ := Prod.mk.inj heq
    obtain ⟨hbelow, hafter⟩ := hfollows m hm
    have hsame : ∀ b ∈ s.stored.bookmarks.rows, b.id = existing.id → b = existing :=
      fun b hb hid => (hafter.permanent hbelow).bookmarks existing hmem b hb hid
    exact wasAsked_of_admitted hstart hseen hactor
      ⟨howner.symm.trans (bookmarksOf_delete hsame hchanged), slug, hrequest⟩
  | addWebUrl payload actor parsed hactor hparsed =>
    obtain ⟨hcase, hrest⟩ := flush_webUrl hflush
    exact mediated_webUrls hrest (webUrlsMediated_of hstart hseen hactor
      (fun loaded hwrite => by cases hwrite) hcase)
  | viewWebUrl webUrlId actor w stamped hactor hw =>
    obtain ⟨hcase, hrest⟩ := flush_webUrl hflush
    exact mediated_webUrls hrest (webUrlsMediated_of hstart hseen hactor
      (fun loaded hwrite => by cases hwrite) hcase)
  | viewAll actor stamped hactor =>
    obtain ⟨hcase, hrest⟩ := flush_webUrl hflush
    exact mediated_webUrls hrest (webUrlsMediated_of hstart hseen hactor
      (fun loaded hwrite => by cases hwrite) hcase)
  | deleteWebUrl webUrlId actor w hactor hw hid =>
    obtain ⟨hcase, hrest⟩ := flush_webUrl hflush
    refine mediated_webUrls hrest (webUrlsMediated_of hstart hseen hactor ?_ hcase)
    intro loaded hwrite
    obtain rfl := WebUrlWrite.delete.inj hwrite
    rw [hid]
    exact ⟨rfl, hrequest⟩
  | updateRole userId role actor user hactor huser hid hother =>
    obtain ⟨written, hcommit, hrest⟩ := flush_user hflush
    refine mediated_users hrest (usersMediated_update hcommit fun u hu hloaded =>
      ⟨fun hrole => ?_, fun h => absurd (keyColumns_clean rfl u) h,
        fun h => absurd (sessions_clean rfl u) h, fun h => absurd (profileColumns_clean rfl u) h⟩)
    obtain rfl : u.id = userId := hloaded.symm.trans hid
    have hassigned : flushCol user.role role u.role = role := by
      refine flushCol_dirty fun he => hrole ?_
      have hclean : ({ user with role := role } : User).role = user.role := he
      exact role_clean hclean u
    exact wasAsked_of_admin hstart hseen hactor fun hadmin =>
      ⟨hadmin, hother, hrequest.trans (congrArg (WriteRequest.updateRole u.id) hassigned.symm)⟩
  | issueApiKey userId name actor user row secret time hactor huser hid hissue =>
    obtain ⟨written, hcommit, hrest⟩ := flush_user hflush
    obtain ⟨-, -, rfl⟩ := issue_ok hissue
    refine mediated_users hrest (usersMediated_update hcommit fun u hu hloaded =>
      ⟨fun h => absurd (role_clean rfl u) h, fun _ => ?_, fun h => absurd (sessions_clean rfl u) h,
        fun h => absurd (profileColumns_clean rfl u) h⟩)
    obtain rfl : u.id = userId := hloaded.symm.trans hid
    exact ⟨_, wasAsked_of_admin hstart hseen hactor fun hadmin => ⟨hadmin, .inl ⟨name, hrequest⟩⟩⟩
  | revokeApiKey userId actor user time hactor huser hid =>
    obtain ⟨written, hcommit, hrest⟩ := flush_user hflush
    refine mediated_users hrest (usersMediated_update hcommit fun u hu hloaded =>
      ⟨fun h => absurd (role_clean rfl u) h, fun _ => ?_, fun h => absurd (sessions_clean rfl u) h,
        fun h => absurd (profileColumns_clean rfl u) h⟩)
    obtain rfl : u.id = userId := hloaded.symm.trans hid
    exact ⟨_, wasAsked_of_admin hstart hseen hactor fun hadmin => ⟨hadmin, .inr hrequest⟩⟩
  | newAccount profile time =>
    obtain ⟨written, hcommit, hrest⟩ := flush_user hflush
    exact mediated_users hrest (usersMediated_insert hcommit
      ⟨r, asked, profile, hstart, hrequest, rfl⟩)
  | knownAccount profile time user huser hemail =>
    obtain ⟨written, hcommit, hrest⟩ := flush_user hflush
    refine mediated_users hrest (usersMediated_update hcommit fun u hu hloaded =>
      ⟨fun h => absurd (role_clean rfl u) h, fun h => absurd (keyColumns_clean rfl u) h,
        fun h => absurd (sessions_clean rfl u) h, fun _ => ?_⟩)
    -- The account still has the address it was found by.
    obtain ⟨d, time', hmoment, hmem⟩ := huser
    obtain ⟨m, hm, heq⟩ := hseen.passed _ hmoment
    obtain ⟨rfl, rfl⟩ := Prod.mk.inj heq
    obtain ⟨v, hv, hid, hsame⟩ := (hfollows m hm).2.accounts user hmem
    have huv : v = u :=
      eq_of_uniqueCol s.stored.users.keyed.id hv hu (User.idCol_eq_some.mpr (hid.trans hloaded)) rfl
    exact ⟨r, asked, profile, hstart, hrequest, huv ▸ hsame.trans hemail⟩
  | logout actor time hactor hstored =>
    obtain ⟨written, hcommit, hrest⟩ := flush_user hflush
    refine mediated_users hrest (usersMediated_update hcommit fun u hu hloaded =>
      ⟨fun h => absurd (role_clean rfl u) h, fun h => absurd (keyColumns_clean rfl u) h,
        fun _ => ?_, fun h => absurd (profileColumns_clean rfl u) h⟩)
    exact wasAsked_of_admitted hstart hseen hactor ⟨hloaded, hrequest⟩

end Commit

/-- **Nothing changes unasked**: in any run of overlapping requests, every difference a
move makes to the database was asked for by a request received earlier, whose caller the
guard let through at a moment of the run. -/
theorem changes_mediated {auth : Auth.Env} {content : Content.Env} {s₀ s s' : Traffic}
    {moves : List SiteMove} {action : SiteMove} (h₀ : s₀.Fresh) (hbelow : Below s₀.stored s₀.next)
    (h : exec (siteMove auth content) s₀ moves = some s)
    (hmove : siteMove auth content s action = some s') :
    Mediated auth content s₀ moves s.stored s'.stored := by
  rcases site_moved h₀ h hmove with ⟨hstored, -⟩ | ⟨r, number, asked, change, seen, -, hstart,
    hseen, hlicence, -, hflush, -⟩
  · rw [hstored]
    exact mediated_refl _
  · exact hlicence.mediated hstart hseen (exec_follows h₀ hbelow h) hflush

/-- Up to the commit of the logout. -/
def revokedBeforehand : List SiteMove := revokedMeanwhile.take 11

/-- A logout that was let through before its key was revoked and commits after that. The sign-out it
writes was asked for all the same. -/
theorem late_logout_mediated :
    ∃ s s', exec (siteMove Auth.sampleEnv Content.sampleEnv) quietSite revokedBeforehand =
        some s ∧ siteMove Auth.sampleEnv Content.sampleEnv s (.go 2 1) = some s' ∧
      s'.log.map Lib.Entry.request = [1, 2] ∧
      Mediated Auth.sampleEnv Content.sampleEnv quietSite revokedBeforehand s.stored
        s'.stored := by
  have hrun : (exec (siteMove Auth.sampleEnv Content.sampleEnv) quietSite
      (revokedBeforehand ++ [.go 2 1])).map
        (fun s' => decide (s'.log.map Lib.Entry.request = [1, 2])) = some true := by
    decide +kernel
  obtain ⟨s', hs', hlog⟩ := exec_of_test hrun
  obtain ⟨s, hs, hmove⟩ := exec_snoc_some.mp hs'
  exact ⟨s, s', hs, hmove, of_decide_eq_true hlog,
    changes_mediated quietSite_fresh quietSite_below hs hmove⟩

end SarkariWorld.Site.Threads
