import SarkariWorld.Content.StatusChanges
import SarkariWorld.Site.Threads

/-!
# What a request may write

`Licence` lists, request by request, every write a handler can come to and what it has
read by then that allows it: the caller its guard let through and the row it loaded.
`handleWrite_licensed` says that the list is complete. Each handler has its lemma, which
follows the handler's steps.

A licence speaks of moments: of databases and clocks that the request has seen at its
exchanges so far, the latest first. It says what was true then, not now. What has become
of it by the time of the commit is for the results about runs to show, from what no commit
undoes (`Site.Permanence`).

The lemmas are read from the top of a handler to its commit. `licensed_authed` opens every
one of them with what the guard has established, each query adds a moment, and at `save`
the matching constructor is filled in from the hypotheses that have come together. What
follows the commit writes nothing (`Quiet`).
-/

namespace SarkariWorld.Site.Threads

open SarkariWorld.Lib SarkariWorld.Auth SarkariWorld.Content
open SarkariWorld.Lib.Thread

/-- What a request has seen so far, the database and the clock at each of its exchanges. The latest
stands first. -/
abbrev Moments := List (Database × Nat)

/-- The guard let the caller through, at one of the moments. -/
def Admitted (o : Origin) (seen : Moments) (guard : Guard) (actor : User) : Prop :=
  ∃ d clock, (d, clock) ∈ seen ∧ authorize (o.at clock) guard d = .ok actor

/-- The row was stored, at one of the moments. -/
def Stored {τ : Type} (rows : Database → List τ) (seen : Moments) (row : τ) : Prop :=
  ∃ d clock, (d, clock) ∈ seen ∧ row ∈ rows d

/-- An account was stored so when the request looked. -/
abbrev StoredUser := Stored fun d => d.users.rows

/-- An article was stored so when the request looked. -/
abbrev StoredArticle := Stored fun d => d.articles.rows

/-- An article was stored so, and published, when the request looked. -/
abbrev PublishedArticle := Stored fun d => published d.articles.rows

/-- A bookmark was stored when the request looked. -/
abbrev StoredBookmark := Stored fun d => d.bookmarks.rows

/-- A web URL was stored so when the request looked. -/
abbrev StoredWebUrl := Stored fun d => d.webUrls.rows

/-- The clock showed this, at the last of the moments. -/
def Told (seen : Moments) (clock : Nat) : Prop := ∃ d earlier, seen = (d, clock) :: earlier

/-- The requests that change an article that is there. -/
def editsArticle : PostRequest → Bool
  | .updatePost _ _ | .updatePostStatus _ _ => true
  | .createPost _ | .publishArticle _ | .deletePost _ => false

/-- Which change a request may commit, and what it knows by then. One constructor stands for one
kind of statement of one endpoint; together they are all the statements the write endpoints can
send. The actor is the caller as the guard loaded it. -/
inductive Licence (o : Origin) (seen : Moments) : WriteRequest → Change → Prop where
  | addArticle (post : PostRequest) (actor : User) (data : ArticleData)
      (hactor : Admitted o seen (.manage (postMethod post)) actor)
      (hadds : addsArticle post = true) : Licence o seen (.post post) (.article (.insert data))
  | editArticle (post : PostRequest) (actor : User) (a : Article) (assigned : ArticleObject)
      (hactor : Admitted o seen (.manage (postMethod post)) actor)
      (hedits : editsArticle post = true) (ha : StoredArticle seen a)
      (hcreated : assigned.createdAt = a.createdAt)
      (hstamped : assigned.updatedAt = a.updatedAt ∨
        ∃ clock, Told seen clock ∧ assigned.updatedAt = nowIst clock) :
      Licence o seen (.post post) (.article (.update a.load assigned))
  | deleteArticle (slug : Text) (actor : User) (a : Article)
      (hactor : Admitted o seen (.manage .delete) actor) (ha : StoredArticle seen a) :
      Licence o seen (.post (.deletePost slug)) (.article (.delete a.load))
  | addBookmark (slug : Text) (actor : User) (a : Article)
      (hactor : Admitted o seen .auth actor) (ha : PublishedArticle seen a)
      (hslug : a.slug = slug) :
      Licence o seen (.toggleBookmark slug) (.bookmark (.insert actor.id a.id))
  | removeBookmark (slug : Text) (actor : User) (existing : Bookmark)
      (hactor : Admitted o seen .auth actor) (hb : StoredBookmark seen existing)
      (howner : existing.userId = actor.id) :
      Licence o seen (.toggleBookmark slug) (.bookmark (.delete existing))
  | addWebUrl (payload : WebUrlCreate) (actor : User) (parsed : ParsedUrl)
      (hactor : Admitted o seen (.manage .post) actor)
      (hparsed : parseHttpUrl o.content payload.url = some parsed) :
      Licence o seen (.createWebUrl payload)
        (.webUrl (.insert parsed.url parsed.domain
          ((strip (payload.title.getD [])).take webUrlTitleMax)))
  | viewWebUrl (webUrlId : Int) (actor : User) (w : WebUrl) (clock : Nat)
      (hactor : Admitted o seen (.manage .post) actor) (hw : StoredWebUrl seen w)
      (hclock : Told seen clock) :
      Licence o seen (.markViewed webUrlId) (.webUrl (.view w (nowIst clock)))
  | viewAll (actor : User) (clock : Nat) (hactor : Admitted o seen (.manage .post) actor)
      (hclock : Told seen clock) :
      Licence o seen .markAllViewed (.webUrl (.viewAll (nowIst clock)))
  | deleteWebUrl (webUrlId : Int) (actor : User) (w : WebUrl)
      (hactor : Admitted o seen (.manage .delete) actor) (hw : StoredWebUrl seen w)
      (hid : w.id = webUrlId) :
      Licence o seen (.deleteWebUrl webUrlId) (.webUrl (.delete w))
  | updateRole (userId : Int) (role : UserRole) (actor user : User)
      (hactor : Admitted o seen (.admin .patch) actor) (huser : StoredUser seen user)
      (hid : user.id = userId) (hother : actor.id ≠ userId) :
      Licence o seen (.updateRole userId role) (.user (.update user { user with role := role }))
  | issueApiKey (userId : Int) (name : Option Text) (actor user row : User) (secret : Text)
      (clock : Nat) (hactor : Admitted o seen (.admin .post) actor)
      (huser : StoredUser seen user) (hid : user.id = userId)
      (hissue : issue o.auth user name clock o.draw = .ok (row, secret))
      (hclock : Told seen clock) :
      Licence o seen (.issueApiKey userId name) (.user (.update user row))
  | revokeApiKey (userId : Int) (actor user : User) (clock : Nat)
      (hactor : Admitted o seen (.admin .delete) actor) (huser : StoredUser seen user)
      (hid : user.id = userId) (hclock : Told seen clock) :
      Licence o seen (.revokeApiKey userId) (.user (.update user (revoke user clock)))
  | newAccount (profile : OAuthProfile) (clock : Nat) (hclock : Told seen clock) :
      Licence o seen (.signIn (.ok profile)) (.user (.insert (newOauthUser o.auth profile clock)))
  | knownAccount (profile : OAuthProfile) (clock : Nat) (user : User)
      (huser : StoredUser seen user)
      (hemail : user.email = o.auth.lower (strip (profile.normalized o.auth)))
      (hclock : Told seen clock) :
      Licence o seen (.signIn (.ok profile))
        (.user (.update user (refreshProfile user profile clock)))
  | logout (actor : User) (clock : Nat) (hactor : Admitted o seen .auth actor)
      (hstored : StoredUser seen actor) (hclock : Told seen clock) :
      Licence o seen .logout (.user (.update actor (invalidateSessions actor clock)))

section Handlers

variable {o : Origin} {seen : Moments} {guard : Guard} {actor : User}

/-- A handler that goes on once its guard has let the caller through. -/
theorem licensed_authed {request : WriteRequest} {α : Type} {f : User → Steps α}
    (h : ∀ actor d clock, Admitted o [(d, clock)] guard actor → StoredUser [(d, clock)] actor →
      (f actor).Justified (Licence o · request) [(d, clock)]) :
    (authed o guard >>= f).Justified (Licence o · request) [] := by
  refine justified_read fun d clock actor hactor => ?_
  have hmem : actor ∈ d.users.rows := (UserTable.find_eq_some.mp (authorize_find hactor)).1
  exact h actor d clock ⟨d, clock, List.mem_singleton_self _, hactor⟩
    ⟨d, clock, List.mem_singleton_self _, hmem⟩

/-- What was read earlier has been read. -/
theorem Admitted.cons (h : Admitted o seen guard actor) (moment : Database × Nat) :
    Admitted o (moment :: seen) guard actor := by
  obtain ⟨d, clock, hseen, hactor⟩ := h
  exact ⟨d, clock, List.mem_cons_of_mem _ hseen, hactor⟩

/-- What was stored at a moment was stored at it, however many came after. -/
theorem Stored.cons {τ : Type} {rows : Database → List τ} {row : τ} (h : Stored rows seen row)
    (moment : Database × Nat) : Stored rows (moment :: seen) row := by
  obtain ⟨d, clock, hseen, hrow⟩ := h
  exact ⟨d, clock, List.mem_cons_of_mem _ hseen, hrow⟩

/-- What the latest query returned was stored at the latest moment. -/
theorem stored_now {τ : Type} {rows : Database → List τ} {row : τ} {d : Database} {clock : Nat}
    (h : row ∈ rows d) : Stored rows ((d, clock) :: seen) row :=
  ⟨d, clock, List.mem_cons_self .., h⟩

theorem told_now {d : Database} {clock : Nat} : Told ((d, clock) :: seen) clock :=
  ⟨d, seen, rfl⟩

/-- Reading back what was written raises only what the database may raise. -/
theorem quiet_refreshed {ρ α : Type} {p : Database → Option ρ} {f : ρ → Steps α}
    (hf : ∀ row, (f row).Quiet store.Late) :
    ((read fun d _ => refreshed (p d)) >>= f).Quiet store.Late := by
  refine quiet_read (fun d clock e he => ?_) hf
  cases hrow : p d with
  | none =>
    rw [hrow] at he
    exact ⟨.invalidRequestError, (Except.error.inj he).symm⟩
  | some row =>
    rw [hrow] at he
    cases he

/-- The refresh after the commit writes nothing, and raises nothing of the application. -/
theorem refreshArticle_quiet (id : Int) : (refreshArticle id).Quiet store.Late :=
  quiet_refreshed fun row => quiet_pure (Answer.article row)

theorem refreshWebUrl_quiet (id : Int) : (refreshWebUrl id).Quiet store.Late :=
  quiet_refreshed fun row => quiet_pure (Answer.webUrl row)

/-! ## Articles -/

/-- The guard admits a member of staff, the slug is looked up, and what is inserted is built from
the payload. -/
theorem createPost_licensed (payload : ArticleCreate) :
    (createPost o payload).Justified (Licence o · (.post (.createPost payload))) [] := by
  refine licensed_authed fun actor d clock hactor _ => justified_read fun d' clock' taken _ => ?_
  split
  next => exact justified_raise _
  next =>
    refine justified_now fun d'' clock'' => justified_save ?_ fun _ =>
      (refreshArticle_quiet _).justified
    exact .addArticle _ actor _ ((hactor.cons _).cons _) rfl

/-- The assignments of an update leave the two stamps alone. -/
theorem stampUpdated_licensed (post : PostRequest) {a : Article} {assigned : ArticleObject}
    {clock : Nat} (hactor : Admitted o seen (.manage (postMethod post)) actor)
    (hedits : editsArticle post = true) (ha : StoredArticle seen a)
    (hcreated : assigned.createdAt = a.createdAt) (hupdated : assigned.updatedAt = a.updatedAt)
    (hclock : Told seen clock) :
    Licence o seen (.post post) (.article (stampUpdated a.load assigned (nowIst clock))) := by
  refine .editArticle post actor a _ hactor hedits ha ?_ ?_
  · split
    · exact hcreated
    · exact hcreated
  · split
    · exact .inr ⟨clock, hclock, rfl⟩
    · exact .inl hupdated

/-- The check of a slug reads once, or not at all. -/
theorem justified_checkSlug {α : Type} {J : Moments → Change → Prop} {a : Article}
    {slug : Option Text} {p : Steps α} (h : p.Justified J seen)
    (hread : ∀ moment, p.Justified J (moment :: seen)) :
    (do checkSlug a slug; p : Steps α).Justified J seen := by
  cases slug with
  | none => exact h
  | some slug =>
    unfold checkSlug
    rw [bind_bind]
    refine justified_read fun d clock taken _ => ?_
    split
    next => exact justified_raise _
    next => exact hread (d, clock)

/-- The article was loaded after the guard, so it is stored at the second moment. Its `created_at`
is among the columns no payload reaches. -/
theorem updatePost_licensed (slug : Text) (payload : ArticleUpdate) :
    (updatePost o slug payload).Justified (Licence o · (.post (.updatePost slug payload))) [] := by
  refine licensed_authed fun actor d clock hactor _ => justified_read fun d' clock' a ha => ?_
  have hactor := hactor.cons (d', clock')
  have ha : StoredArticle ((d', clock') :: [(d, clock)]) a := stored_now (getArticle_ok ha).1
  have hedit : ∀ {seen data time}, Admitted o seen (.manage .put) actor → StoredArticle seen a →
      Told seen time → Licence o seen (.post (.updatePost slug payload))
        (.article (update time a.load data)) := fun hactor ha hclock =>
    stampUpdated_licensed (.updatePost slug payload) hactor rfl ha rfl rfl hclock
  refine justified_checkSlug ?_ fun moment => ?_
  · exact justified_now fun _ _ => justified_now fun _ _ => justified_save
      (hedit ((hactor.cons _).cons _) ((ha.cons _).cons _) told_now) fun _ =>
        (refreshArticle_quiet _).justified
  · exact justified_now fun _ _ => justified_now fun _ _ => justified_save
      (hedit (((hactor.cons _).cons _).cons _) (((ha.cons _).cons _).cons _) told_now) fun _ =>
        (refreshArticle_quiet _).justified

/-- The status is set on a loaded article, at a time the request has read. -/
theorem updatePostStatus_licensed (slug : Text) (status : ArticleStatus) :
    (updatePostStatus o slug status).Justified
      (Licence o · (.post (.updatePostStatus slug status))) [] := by
  refine licensed_authed fun actor d clock hactor _ => justified_read fun d' clock' a ha => ?_
  refine justified_now fun _ _ => justified_save ?_ fun _ => (refreshArticle_quiet _).justified
  refine stampUpdated_licensed (.updatePostStatus slug status) ((hactor.cons _).cons _) rfl
    ((stored_now (getArticle_ok ha).1).cons _) ?_ ?_ told_now
  all_goals
    unfold ArticleOf.assignStatus
    dsimp only
    split
    · rfl
    · rfl

/-- A deletion needs the `DELETE` guard and a row that was there. -/
theorem deletePost_licensed (slug : Text) :
    (deletePost o slug).Justified (Licence o · (.post (.deletePost slug))) [] := by
  refine licensed_authed fun actor d clock hactor _ => justified_read fun d' clock' a ha => ?_
  exact justified_save (.deleteArticle slug actor a (hactor.cons _)
    (stored_now (getArticle_ok ha).1)) fun _ => trivial

theorem publishArticle_licensed (payload : ArticlePublish) :
    (publishArticle o payload).Justified (Licence o · (.post (.publishArticle payload))) [] := by
  refine licensed_authed fun actor d clock hactor _ => ?_
  split
  next => exact justified_raise _
  next =>
    refine justified_read fun d' clock' taken _ => ?_
    split
    next => exact justified_raise _
    next =>
      exact justified_save (.addArticle _ actor _ (hactor.cons _) rfl) fun _ =>
        (refreshArticle_quiet _).justified

theorem handlePost_licensed (request : PostRequest) :
    (handlePost o request).Justified (Licence o · (.post request)) [] := by
  cases request with
  | createPost payload => exact createPost_licensed payload
  | updatePost slug payload => exact updatePost_licensed slug payload
  | updatePostStatus slug status => exact updatePostStatus_licensed slug status
  | deletePost slug => exact deletePost_licensed slug
  | publishArticle payload => exact publishArticle_licensed payload

/-! ## Bookmarks and web URLs -/

/-- The article a reader's path names is published, under that slug. -/
theorem published_found {t : ArticleTable} {slug : Text} {a : Article}
    (h : findPublishedBySlug t slug = .ok (some a)) : a ∈ published t.rows ∧ a.slug = slug := by
  unfold findPublishedBySlug at h
  split at h
  next =>
    rw [scalarOneOrNone_whereEq (published_uniqueSlug t)] at h
    obtain ⟨hmem, hslug⟩ := mem_of_lookup (Except.ok.inj h)
    exact ⟨hmem, Option.some.inj hslug⟩
  next => cases h

/-- The article was published when it was looked up. If a bookmark was found it is the caller's own,
and it goes; otherwise one is added for the caller. -/
theorem toggleBookmark_licensed (slug : Text) :
    (toggleBookmark o slug).Justified (Licence o · (.toggleBookmark slug)) [] := by
  refine licensed_authed fun user d clock huser _ => justified_read fun d' clock' found hread => ?_
  cases found with
  | none => exact justified_raise _
  | some article =>
    refine justified_read fun d'' clock'' write hwrite => ?_
    obtain rfl := Except.ok.inj hwrite
    refine justified_save ?_ fun _ => trivial
    unfold toggle
    split
    next existing hfound =>
      obtain ⟨hmem, hpair⟩ := mem_of_lookup hfound
      exact .removeBookmark slug user existing ((huser.cons _).cons _) (stored_now hmem)
        (Bookmark.pairCol_eq_some.mp hpair).1
    next =>
      obtain ⟨hpublished, hslug⟩ := published_found (mapError_eq_ok.mp hread)
      have harticle : PublishedArticle ((d', clock') :: [(d, clock)]) article :=
        stored_now hpublished
      exact .addBookmark slug user article ((huser.cons _).cons _) (harticle.cons _) hslug

/-- The row that is inserted has the parts of the URL as it was parsed from the payload. -/
theorem createWebUrl_licensed (payload : WebUrlCreate) :
    (createWebUrl o payload).Justified (Licence o · (.createWebUrl payload)) [] := by
  refine licensed_authed fun actor d clock hactor _ => ?_
  split
  next => exact justified_raise _
  next parsed hparsed =>
    split
    next => exact justified_raise _
    next =>
      refine justified_read fun d' clock' found _ => ?_
      cases found with
      | some row => exact justified_raise _
      | none =>
        exact justified_save (.addWebUrl payload actor parsed (hactor.cons _) hparsed) fun _ =>
          (refreshWebUrl_quiet _).justified

/-- The web URL that is found has the number it was asked for by. -/
theorem getWebUrl_id {t : WebUrlTable} {webUrlId : Int} {w : WebUrl}
    (h : getWebUrl t webUrlId = .ok w) : w.id = webUrlId := by
  unfold getWebUrl at h
  split at h
  next =>
    split at h
    next => cases h
    next x hx =>
      obtain rfl := Except.ok.inj h
      exact (WebUrlTable.find_eq_some.mp hx).2
  next => cases h

/-- The URL was stored when it was loaded, and the time is read after that. -/
theorem markViewed_licensed (webUrlId : Int) :
    (markViewed o webUrlId).Justified (Licence o · (.markViewed webUrlId)) [] := by
  refine licensed_authed fun actor d clock hactor _ => justified_read fun d' clock' w hw => ?_
  have hmem : w ∈ d'.webUrls.rows := (WebUrlTable.find_eq_some.mp (getWebUrl_ok hw)).1
  exact justified_now fun _ _ => justified_save (.viewWebUrl webUrlId actor w _
    ((hactor.cons _).cons _) ((stored_now hmem).cons _) told_now) fun _ =>
      (refreshWebUrl_quiet _).justified

/-- No row is loaded; the statement is over the whole table. -/
theorem markAllViewed_licensed : (markAllViewed o).Justified (Licence o · .markAllViewed) [] :=
  licensed_authed fun actor _ _ hactor _ => justified_now fun _ _ =>
    justified_save (.viewAll actor _ (hactor.cons _) told_now) fun _ => trivial

theorem deleteWebUrl_licensed (webUrlId : Int) :
    (deleteWebUrl o webUrlId).Justified (Licence o · (.deleteWebUrl webUrlId)) [] := by
  refine licensed_authed fun actor d clock hactor _ => justified_read fun d' clock' w hw => ?_
  have hmem : w ∈ d'.webUrls.rows := (WebUrlTable.find_eq_some.mp (getWebUrl_ok hw)).1
  exact justified_save (.deleteWebUrl webUrlId actor w (hactor.cons _) (stored_now hmem)
    (getWebUrl_id hw)) fun _ => trivial

/-! ## Users -/

/-- A loaded user is a stored row: the caller's own, or one read now. -/
theorem stored_getUser {d : Database} (clock : Nat) {userId : Int} {user : User}
    (hactor : StoredUser seen actor) (h : getUser d.users (some actor) userId = .ok user) :
    user.id = userId ∧ StoredUser ((d, clock) :: seen) user := by
  obtain ⟨hid, hfrom⟩ := getUser_ok h
  refine ⟨hid, ?_⟩
  rcases hfrom with hsame | hfind
  · obtain rfl := Option.some.inj hsame
    exact hactor.cons _
  · exact stored_now (UserTable.find_eq_some.mp hfind).1

/-- The account whose role changes is not the caller's. That is looked at before the row is loaded,
and an `id` does not change. -/
theorem updateRole_licensed (userId : Int) (role : UserRole) :
    (updateRole o userId role).Justified (Licence o · (.updateRole userId role)) [] := by
  refine licensed_authed fun actor d clock hactor hstored => ?_
  split
  next => exact justified_raise _
  next hother =>
    refine justified_read fun d' clock' user huser => ?_
    obtain ⟨hid, huser⟩ := stored_getUser clock' hstored huser
    exact justified_save (.updateRole userId role actor user (hactor.cons _) huser hid hother)
      fun _ => (quiet_refreshed fun row => quiet_pure (Answer.auth (.user row))).justified

/-- The key is made from the row as it was loaded and from the draw of the request. -/
theorem issueApiKey_licensed (userId : Int) (name : Option Text) :
    (issueApiKey o userId name).Justified (Licence o · (.issueApiKey userId name)) [] := by
  refine licensed_authed fun actor d clock hactor hstored => ?_
  refine justified_read fun d' clock' user huser => justified_now fun d'' clock'' => ?_
  obtain ⟨hid, huser⟩ := stored_getUser clock' hstored huser
  cases hissue : issue o.auth user name clock'' o.draw with
  | error e => exact justified_raise _
  | ok issued =>
    exact justified_save (.issueApiKey userId name actor user issued.1 issued.2 clock''
      ((hactor.cons _).cons _) (huser.cons _) hid hissue told_now) fun _ => trivial

theorem revokeApiKey_licensed (userId : Int) :
    (revokeApiKey o userId).Justified (Licence o · (.revokeApiKey userId)) [] := by
  refine licensed_authed fun actor d clock hactor hstored => ?_
  refine justified_read fun d' clock' user huser => ?_
  obtain ⟨hid, huser⟩ := stored_getUser clock' hstored huser
  split
  next => exact justified_raise _
  next =>
    exact justified_now fun _ _ => justified_save (.revokeApiKey userId actor user _
      ((hactor.cons _).cons _) (huser.cons _) hid told_now) fun _ => trivial

/-- A verified profile is all a sign-in needs. Whether it inserts or updates depends on whether its
address was found. -/
theorem signIn_licensed (verified : Except Failure OAuthProfile) :
    (signIn o verified).Justified (Licence o · (.signIn verified)) [] := by
  cases verified with
  | error e => exact justified_raise e
  | ok profile =>
    refine justified_read fun d clock found hfound => justified_now fun d' clock' => ?_
    have hlookup := mapError_eq_ok.mp hfound
    obtain ⟨-, hlookup⟩ := getByEmail_ok hlookup
    have hlater : ∀ receipt, Thread.Quiet store.Late (do
        let user ← refreshUser ((found.map User.id).getD receipt)
        let clock ← now
        pure (Answer.auth
          (.session user.id (mintSessionToken o.auth clock user.id user.email user.role)))) :=
      fun _ => quiet_refreshed fun _ => quiet_now fun _ => trivial
    cases found with
    | none =>
      exact justified_save (.newAccount profile clock' told_now) fun _ => (hlater _).justified
    | some user =>
      obtain ⟨hmem, hemail⟩ := mem_of_lookup hlookup.symm
      refine justified_save ?_ fun _ => (hlater 0).justified
      exact .knownAccount profile clock' user ((stored_now hmem).cons _)
        (User.emailCol_eq_some.mp hemail) told_now

theorem logout_licensed : (logout o).Justified (Licence o · .logout) [] :=
  licensed_authed fun actor _ _ hactor hstored => justified_now fun _ _ =>
    justified_save (.logout actor _ (hactor.cons _) (hstored.cons _) told_now) fun _ => trivial

/-- **The list is complete**: whatever a write request comes to commit, a licence covers it. -/
theorem handleWrite_licensed (request : WriteRequest) :
    (handleWrite o request).Justified (Licence o · request) [] := by
  cases request with
  | post request => exact handlePost_licensed request
  | toggleBookmark slug => exact toggleBookmark_licensed slug
  | createWebUrl payload => exact createWebUrl_licensed payload
  | markViewed webUrlId => exact markViewed_licensed webUrlId
  | markAllViewed => exact markAllViewed_licensed
  | deleteWebUrl webUrlId => exact deleteWebUrl_licensed webUrlId
  | updateRole userId role => exact updateRole_licensed userId role
  | issueApiKey userId name => exact issueApiKey_licensed userId name
  | revokeApiKey userId => exact revokeApiKey_licensed userId
  | signIn verified => exact signIn_licensed verified
  | logout => exact logout_licensed

end Handlers

end SarkariWorld.Site.Threads
