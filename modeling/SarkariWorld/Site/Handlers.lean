import SarkariWorld.Lib.UnitOfWork
import SarkariWorld.Site.Writes

/-!
# The handlers

Each write endpoint as the program it is: what it asks the database, where it
raises, what it stages, where it commits and what it reads back. The session is
the one `get_session` yields: it does not flush before a query
(`autoflush=False`), and what a handler has not committed when it raises is
rolled back.

`failed_writes_change_nothing` says that whatever goes wrong, and wherever, a
request is carried out as a whole, by its one commit, or not at all.

A handler is a program over a session: it reads, stages statements, commits and raises.
Its rows live in the session between the load and the flush, and that is why a handler may
go on changing an object it has loaded without a statement of its own. The words of the
source are kept: one definition for each endpoint, one for each helper of the service
layer that asks the database.

The lemmas follow the endpoints. `..._transacts` says of one handler that it either leaves
the database alone and answers with an error, or carries out what `plan` says the request
is to do and answers; the refreshes after the commit cannot fail, for the row was just
written. The theorem at the end collects them.
-/

namespace SarkariWorld.Site

open SarkariWorld.Lib SarkariWorld.Auth SarkariWorld.Content Program

/-- A handler: queries, staged changes and commits over the database, with the service's failures.
-/
abbrev Handler := Program Database Change Failure

/-- What an endpoint that writes answers with, before it is rendered. -/
inductive Answer where
  | article (row : Article)
  | bookmark (slug : Text) (bookmarked : Bool)
  | webUrl (row : WebUrl)
  | markedViewed (count : Nat)
  | auth (response : Auth.Response)
  deriving DecidableEq, Repr

section Handlers

variable (ctx : Context)

/-- The guards of a route. -/
def authed (guard : Guard) : Handler User := read (authorize ctx guard)

/-- `session.refresh`, on the row read again. -/
def refreshed {α : Type} : Option α → Except Failure α
  | some row => .ok row
  | none => .error (.raised .invalidRequestError)

/-! ## Articles -/

/-- `session.refresh(article)`: the row is read again by its `id`. -/
def refreshArticle (id : Int) : Handler Answer := do
  let row ← read fun d => refreshed (d.articles.find id)
  pure (.article row)

/-- The article the path names, or the 404. -/
def getPost (slug : Text) : Handler Article := read fun d => Content.getArticle d.articles slug

/-- `POST /v1/admin/posts`: the slug must be free. An article that is published without a date is
dated by the request's clock. -/
def createPost (payload : ArticleCreate) : Handler Answer := do
  let actor ← authed ctx (.manage .post)
  let taken ← read fun d => .ok (slugExists d.articles payload.slug none)
  if taken then raise (slugInUse payload.slug)
  else do
    let data := buildArticleData ctx.content payload.dump (some (author actor)) none
    stage (.article (.insert (if data.undatedPublish then data.stamp ctx.clock else data)))
    commit (flush ctx.clock ctx.nextId)
    refreshArticle ctx.nextId

/-- The check of a slug that an update brings along. -/
def checkSlug (article : Article) (slug : Option Text) : Handler Unit :=
  match slug with
  | none => pure ()
  | some slug => do
    let taken ← read fun d => .ok (slugExists d.articles slug (some article.id))
    if taken then raise (slugInUse slug) else pure ()

/-- `PUT /v1/admin/posts/{slug}`: the keys that were sent are applied, with the caller as author,
and a new slug must be free or the article's own. -/
def updatePost (slug : Text) (payload : ArticleUpdate) : Handler Answer := do
  let actor ← authed ctx (.manage .put)
  let article ← getPost slug
  checkSlug article payload.slug.get
  let data := buildArticleData ctx.content payload.dump (some (author actor)) none
  let data :=
    if data.undatedPublish ∧ article.publishedAt = none then data.stamp ctx.clock else data
  stage (.article (update ctx.clock article.load data))
  commit (flush ctx.clock ctx.nextId)
  refreshArticle article.id

/-- `PATCH /v1/admin/posts/{slug}/status`: the status, and the date of the first publication. -/
def updatePostStatus (slug : Text) (status : ArticleStatus) : Handler Answer := do
  let _ ← authed ctx (.manage .patch)
  let article ← getPost slug
  stage (.article (setStatus article.load status (nowIst ctx.clock)))
  commit (flush ctx.clock ctx.nextId)
  refreshArticle article.id

/-- `DELETE /v1/admin/posts/{slug}`. The article's bookmarks stay. -/
def deletePost (slug : Text) : Handler Answer := do
  let _ ← authed ctx (.manage .delete)
  let article ← getPost slug
  stage (.article (.delete article.load))
  commit (flush ctx.clock ctx.nextId)
  pure (.auth .noContent)

/-- `POST /v1/admin/publish/articles`: an article in markdown, always stored as a draft. -/
def publishArticle (payload : ArticlePublish) : Handler Answer := do
  let actor ← authed ctx (.manage .post)
  if payload.slug.length > slugMax then raise (.app (conflictError "Slug is too long."))
  else do
    let taken ← read fun d => .ok (slugExists d.articles payload.slug none)
    if taken then raise (slugInUse payload.slug)
    else do
      let data := buildArticleData ctx.content payload.dump (some (author actor))
        (some (payload.content.get.getD []))
      stage (.article (.insert { data with articleStatus := some .draft }))
      commit (flush ctx.clock ctx.nextId)
      refreshArticle ctx.nextId

/-- The five endpoints that write articles. -/
def handlePost : PostRequest → Handler Answer
  | .createPost payload => createPost ctx payload
  | .updatePost slug payload => updatePost ctx slug payload
  | .updatePostStatus slug status => updatePostStatus ctx slug status
  | .deletePost slug => deletePost ctx slug
  | .publishArticle payload => publishArticle ctx payload

/-! ## Bookmarks and web URLs -/

/-- `POST /v1/account/bookmarks/toggle`: a published article is looked up by its slug, and the
caller's bookmark of it is added or removed. -/
def toggleBookmark (slug : Text) : Handler Answer := do
  let user ← authed ctx .auth
  let found ← read fun d => (findPublishedBySlug d.articles slug).mapError .raised
  match found with
  | none => raise (.app (notFoundError ("Article not found: " ++ String.ofList slug)))
  | some article => do
    let write ← read fun d => .ok (toggle d.bookmarks user.id article.id)
    stage (.bookmark write)
    commit (flush ctx.clock ctx.nextId)
    pure (.bookmark slug write.bookmarked)

/-- `session.refresh(web_url)`. -/
def refreshWebUrl (id : Int) : Handler Answer := do
  let row ← read fun d => refreshed (d.webUrls.find id)
  pure (.webUrl row)

/-- `POST /v1/admin/web-urls`: the URL is parsed and normalised first, and must not be on the list
yet. A title that is too long is cut. -/
def createWebUrl (payload : WebUrlCreate) : Handler Answer := do
  let _ ← authed ctx (.manage .post)
  match parseHttpUrl ctx.content payload.url with
  | none => raise (.app (validationError "A valid http(s) URL is required."))
  | some parsed =>
    if parsed.domain.length > webUrlDomainMax then
      raise (.app (validationError "Domain is too long."))
    else do
      let found ← read fun d => (findByUrl d.webUrls parsed.url).mapError .raised
      match found with
      | some _ => raise urlInList
      | none => do
        stage (.webUrl (.insert parsed.url parsed.domain
          ((strip (payload.title.getD [])).take webUrlTitleMax)))
        commit (flush ctx.clock ctx.nextId)
        refreshWebUrl ctx.nextId

/-- `POST /v1/admin/web-urls/{web_url_id}/view`. -/
def markViewed (webUrlId : Int) : Handler Answer := do
  let _ ← authed ctx (.manage .post)
  let webUrl ← read fun d => getWebUrl d.webUrls webUrlId
  stage (.webUrl (.view webUrl (nowIst ctx.clock)))
  commit (flush ctx.clock ctx.nextId)
  refreshWebUrl webUrl.id

/-- `POST /v1/admin/web-urls/mark-all-viewed`: one `UPDATE` over the table, sent at once and not
staged; its row count is the answer. -/
def markAllViewed : Handler Answer := do
  let _ ← authed ctx (.manage .post)
  let count ← execute (flush ctx.clock ctx.nextId) (fun d => d.webUrls.rows.length)
    (.webUrl (.viewAll (nowIst ctx.clock)))
  commit (flush ctx.clock ctx.nextId)
  pure (.markedViewed count)

/-- `DELETE /v1/admin/web-urls/{web_url_id}`. -/
def deleteWebUrl (webUrlId : Int) : Handler Answer := do
  let _ ← authed ctx (.manage .delete)
  let webUrl ← read fun d => getWebUrl d.webUrls webUrlId
  stage (.webUrl (.delete webUrl))
  commit (flush ctx.clock ctx.nextId)
  pure (.auth .noContent)

/-! ## Users -/

/-- `session.refresh(user)`. -/
def refreshUser (id : Int) : Handler User := read fun d => refreshed (d.users.find id)

/-- `get_by_id` inside a request whose session holds the caller, and its 404. -/
def loadUser (actor : User) (userId : Int) : Handler User :=
  read fun d => getUser d.users (some actor) userId

/-- `PATCH /v1/admin/users/{user_id}/role`. One's own role is refused before the target is loaded.
-/
def updateRole (userId : Int) (role : UserRole) : Handler Answer := do
  let actor ← authed ctx (.admin .patch)
  if actor.id = userId then raise (.app (conflictError "You cannot change your own role."))
  else do
    let user ← loadUser actor userId
    stage (.user (.update user { user with role := role }))
    commit (flush ctx.clock ctx.nextId)
    let user ← refreshUser user.id
    pure (.auth (.user user))

/-- `POST /v1/admin/users/{user_id}/api-key`. A key the account already has is replaced. -/
def issueApiKey (userId : Int) (name : Option Text) : Handler Answer := do
  let actor ← authed ctx (.admin .post)
  let user ← loadUser actor userId
  match issue ctx.auth user name ctx.clock ctx.draw with
  | .error e => raise (.app e)
  | .ok (row, secret) => do
    stage (.user (.update user row))
    commit (flush ctx.clock ctx.nextId)
    pure (.auth (.apiKey secret))

/-- `DELETE /v1/admin/users/{user_id}/api-key`. -/
def revokeApiKey (userId : Int) : Handler Answer := do
  let actor ← authed ctx (.admin .delete)
  let user ← loadUser actor userId
  if user.apiKeyHash = none then raise (.app (notFoundError "That user holds no API key."))
  else do
    stage (.user (.update user (revoke user ctx.clock)))
    commit (flush ctx.clock ctx.nextId)
    pure (.auth .noContent)

/-- What a sign-in stages, and the row its refresh reads. -/
def signInWrite (profile : OAuthProfile) : Option User → Auth.Write × Int
  | none => (.insert (newOauthUser ctx.auth profile ctx.clock), ctx.nextId)
  | some user => (.update user (refreshProfile user profile ctx.clock), user.id)

/-- `POST /v1/auth/{provider}`: the account with the verified address is created, or its profile is
refreshed, and a session is opened. -/
def signIn (verified : Except Failure OAuthProfile) : Handler Answer :=
  match verified with
  | .error e => raise e
  | .ok profile => do
    let found ← read fun d =>
      (getByEmail ctx.auth d.users (profile.normalized ctx.auth)).mapError .raised
    stage (.user (signInWrite ctx profile found).1)
    commit (flush ctx.clock ctx.nextId)
    let user ← refreshUser (signInWrite ctx profile found).2
    pure (.auth (.session user.id
      (mintSessionToken ctx.auth ctx.clock user.id user.email user.role)))

/-- `POST /v1/auth/logout`. -/
def logout : Handler Answer := do
  let user ← authed ctx .auth
  stage (.user (.update user (invalidateSessions user ctx.clock)))
  commit (flush ctx.clock ctx.nextId)
  pure (.auth .noContent)

/-- The handler of a write request. -/
def handleWrite : WriteRequest → Handler Answer
  | .post request => handlePost ctx request
  | .toggleBookmark slug => toggleBookmark ctx slug
  | .createWebUrl payload => createWebUrl ctx payload
  | .markViewed webUrlId => markViewed ctx webUrlId
  | .markAllViewed => markAllViewed ctx
  | .deleteWebUrl webUrlId => deleteWebUrl ctx webUrlId
  | .updateRole userId role => updateRole ctx userId role
  | .issueApiKey userId name => issueApiKey ctx userId name
  | .revokeApiKey userId => revokeApiKey ctx userId
  | .signIn verified => signIn ctx verified
  | .logout => logout ctx

end Handlers

/-! ## Reading back what was written -/

section Written

variable {d d' : Database} {clock : Nat} {nextId id : Int}

/-- A refresh cannot fail where the row is stored, so a handler that refreshes after its commit
still answers. -/
theorem serves_refreshed {ρ : Type} {p : Database → Option ρ} {f : ρ → Handler Answer}
    (hrow : ∃ row, p d = some row) (hf : ∀ row, Serves d (f row)) :
    Serves d (do let row ← read fun d => refreshed (p d); f row) := by
  obtain ⟨row, hrow⟩ := hrow
  exact serves_read (a := row) (by rw [hrow]; rfl) (hf row)

theorem refreshArticle_serves (h : ∃ row, d.articles.find id = some row) :
    Serves d (refreshArticle id) :=
  serves_refreshed (p := fun d => d.articles.find id) h fun _ => serves_pure _

theorem refreshWebUrl_serves (h : ∃ row, d.webUrls.find id = some row) :
    Serves d (refreshWebUrl id) :=
  serves_refreshed (p := fun d => d.webUrls.find id) h fun _ => serves_pure _

/-- The refresh of an account whose row is there, with an answer made from it. -/
theorem refreshUser_serves {f : User → Answer} (h : ∃ row, d.users.find id = some row) :
    Serves d (do let user ← refreshUser id; pure (f user)) :=
  serves_refreshed (p := fun d => d.users.find id) h fun _ => serves_pure _

/-- An edited article is still found under its number after the flush. -/
theorem flush_updateArticle_find {a : Article} {assigned : ArticleObject}
    (ha : a ∈ d.articles.rows)
    (h : flush clock nextId d (.article (.update a.load assigned)) = .ok d') :
    ∃ row, d'.articles.find a.id = some row := by
  have hstored : d.articles.find a.load.id = some a := ArticleTable.find_eq_some.mpr ⟨ha, rfl⟩
  exact effect_update_find hstored (flush_article h).1

/-- A new web URL is found under the number it was given. -/
theorem flush_insertWebUrl_find {url domain title : Text}
    (h : flush clock nextId d (.webUrl (.insert url domain title)) = .ok d') :
    ∃ row, d'.webUrls.find nextId = some row := by
  rcases (flush_webUrl h).1 with ⟨hclean, -⟩ | ⟨row, hcommit⟩
  · cases hclean
  · obtain ⟨t, hwrite, hend⟩ := bind_eq_ok.mp hcommit
    obtain ⟨rfl, -⟩ := Prod.mk.inj (Except.ok.inj hend)
    refine ⟨⟨nextId, url, title, domain, none, timestamp3 (nowIst clock),
      timestamp3 (nowIst clock)⟩, WebUrlTable.find_eq_some.mpr ⟨?_, rfl⟩⟩
    rw [WebUrlTable.write_ok hwrite]
    exact List.mem_append_right _ (List.mem_singleton_self _)

theorem flush_view_find {w : WebUrl} {stamped : Int} (hw : d.webUrls.find w.id = some w)
    (h : flush clock nextId d (.webUrl (.view w stamped)) = .ok d') :
    ∃ row, d'.webUrls.find w.id = some row := by
  rcases (flush_webUrl h).1 with ⟨-, hsame⟩ | ⟨row, hcommit⟩
  · exact ⟨w, hsame ▸ hw⟩
  · simp only [commitWebUrl, hw] at hcommit
    split at hcommit
    next =>
      obtain ⟨hsame, -⟩ := Prod.mk.inj (Except.ok.inj hcommit)
      exact ⟨w, hsame ▸ hw⟩
    next =>
      obtain ⟨t, hwrite, hend⟩ := bind_eq_ok.mp hcommit
      obtain ⟨rfl, -⟩ := Prod.mk.inj (Except.ok.inj hend)
      obtain ⟨hmem, -⟩ := WebUrlTable.find_eq_some.mp hw
      refine ⟨w.stamp stamped, WebUrlTable.find_eq_some.mpr ⟨?_, rfl⟩⟩
      rw [WebUrlTable.write_ok hwrite]
      exact mem_updateWhere_of_eq hmem (WebUrl.idCol_eq_some.mpr rfl)

/-- A new account is found under the number it was given. -/
theorem flush_insertUser_find {row : User}
    (h : flush clock nextId d (.user (.insert row)) = .ok d') :
    ∃ row, d'.users.find nextId = some row := by
  obtain ⟨written, hcommit, -⟩ := flush_user h
  obtain ⟨t, hrow, hend⟩ := map_eq_ok.mp hcommit
  obtain ⟨rfl, -⟩ := Prod.mk.inj hend
  exact ⟨_, (commitRow_insert_find hrow).2⟩

theorem flush_updateUser_find {user row : User} (hstored : d.users.find user.id = some user)
    (h : flush clock nextId d (.user (.update user row)) = .ok d') :
    ∃ row, d'.users.find user.id = some row := by
  obtain ⟨written, hcommit, -⟩ := flush_user h
  obtain ⟨t, hrow, hend⟩ := map_eq_ok.mp hcommit
  obtain ⟨rfl, -⟩ := Prod.mk.inj hend
  exact ⟨_, by rw [commitRow_update_find hrow, hstored]; rfl⟩

end Written

/-! ## Each handler carries its request out -/

section Carried

variable {ctx : Context} {d : Database}

/-- What is stored once the request has been carried out as a whole. -/
def CarriedOut (ctx : Context) (d : Database) (request : WriteRequest) (d' : Database) : Prop :=
  carryOut ctx d request = .ok d'

/-- What the request planned and the database accepted is what carrying it out means. -/
theorem carriedOut_of_plan {request : WriteRequest} {change : Change} {d' : Database}
    (hplan : plan ctx d request = .ok change)
    (hflush : flush ctx.clock ctx.nextId d change = .ok d') : CarriedOut ctx d request d' :=
  bind_eq_ok.mpr ⟨change, hplan, hflush⟩

/-- The plan of an article request, from its guard and from what the endpoint prepares. -/
theorem plan_post {request : PostRequest} {actor : User} {write : ArticleWrite}
    (hactor : authorize ctx (.manage (postMethod request)) d = .ok actor)
    (hwrite : prepare ctx.content d.articles ctx.clock (author actor) request = .ok write) :
    plan ctx d (.post request) = .ok (.article write) :=
  bind_eq_ok.mpr ⟨actor, hactor, bind_eq_ok.mpr ⟨write, hwrite, rfl⟩⟩

/-- The handler raises before it has staged anything, or stages exactly the planned insert.
`createPost`'s own lookup of the slug and the planned one are the same question. -/
theorem createPost_transacts (payload : ArticleCreate) :
    Transacts d (createPost ctx payload) (CarriedOut ctx d (.post (.createPost payload))) := by
  refine transacts_read fun actor hactor => transacts_read fun taken htaken => ?_
  obtain rfl := Except.ok.inj htaken
  split
  next => exact transacts_raise _
  next hfree =>
    refine transacts_commit fun d' hflush => ?_
    exact ⟨refreshArticle_serves (effect_insert_find (flush_article hflush).1),
      carriedOut_of_plan (plan_post hactor (if_neg hfree)) hflush⟩

/-- The check of an update's slug reads, at most. -/
theorem checkSlug_transacts {article : Article} {slug : Option Text} {p : Handler Answer}
    {post : Database → Prop}
    (hp : (slug.filter fun s => slugExists d.articles s (some article.id)) = none →
      Transacts d p post) : Transacts d (do checkSlug article slug; p) post := by
  cases slug with
  | none => exact hp rfl
  | some slug =>
    unfold checkSlug
    rw [bind_bind]
    refine transacts_read fun taken htaken => ?_
    obtain rfl := Except.ok.inj htaken
    split
    next => exact transacts_raise _
    next hfree => exact hp (by simp [Option.filter, hfree])

/-- The same for an edit; every check comes before the staging. -/
theorem updatePost_transacts (slug : Text) (payload : ArticleUpdate) :
    Transacts d (updatePost ctx slug payload)
      (CarriedOut ctx d (.post (.updatePost slug payload))) := by
  refine transacts_read fun actor hactor => transacts_read fun article harticle => ?_
  refine checkSlug_transacts fun hfree => transacts_commit fun d' hflush => ?_
  refine ⟨refreshArticle_serves (flush_updateArticle_find (getArticle_ok harticle).1 hflush),
    carriedOut_of_plan (plan_post hactor (bind_eq_ok.mpr ⟨article, harticle, ?_⟩)) hflush⟩
  rw [hfree]
  rfl

/-- The same for a change of status, which has no check of its own. -/
theorem updatePostStatus_transacts (slug : Text) (status : ArticleStatus) :
    Transacts d (updatePostStatus ctx slug status)
      (CarriedOut ctx d (.post (.updatePostStatus slug status))) := by
  refine transacts_read fun actor hactor => transacts_read fun article harticle => ?_
  refine transacts_commit fun d' hflush => ?_
  exact ⟨refreshArticle_serves (flush_updateArticle_find (getArticle_ok harticle).1 hflush),
    carriedOut_of_plan (plan_post hactor (bind_eq_ok.mpr ⟨article, harticle, rfl⟩)) hflush⟩

theorem deletePost_transacts (slug : Text) :
    Transacts d (deletePost ctx slug) (CarriedOut ctx d (.post (.deletePost slug))) := by
  refine transacts_read fun actor hactor => transacts_read fun article harticle => ?_
  refine transacts_commit fun d' hflush => ⟨serves_pure _, ?_⟩
  exact carriedOut_of_plan (plan_post hactor (bind_eq_ok.mpr ⟨article, harticle, rfl⟩)) hflush

theorem publishArticle_transacts (payload : ArticlePublish) :
    Transacts d (publishArticle ctx payload)
      (CarriedOut ctx d (.post (.publishArticle payload))) := by
  refine transacts_read fun actor hactor => ?_
  split
  next => exact transacts_raise _
  next hlength =>
    refine transacts_read fun taken htaken => ?_
    obtain rfl := Except.ok.inj htaken
    split
    next => exact transacts_raise _
    next hfree =>
      refine transacts_commit fun d' hflush => ?_
      exact ⟨refreshArticle_serves (effect_insert_find (flush_article hflush).1), carriedOut_of_plan
        (plan_post hactor ((if_neg hlength).trans (if_neg hfree))) hflush⟩

/-- Every endpoint that writes articles is carried out as a whole or not at all. -/
theorem handlePost_transacts (request : PostRequest) :
    Transacts d (handlePost ctx request) (CarriedOut ctx d (.post request)) := by
  cases request with
  | createPost payload => exact createPost_transacts payload
  | updatePost slug payload => exact updatePost_transacts slug payload
  | updatePostStatus slug status => exact updatePostStatus_transacts slug status
  | deletePost slug => exact deletePost_transacts slug
  | publishArticle payload => exact publishArticle_transacts payload

/-- A toggle of an unpublished or unknown slug stages nothing; any other stages the planned write.
-/
theorem toggleBookmark_transacts (slug : Text) :
    Transacts d (toggleBookmark ctx slug) (CarriedOut ctx d (.toggleBookmark slug)) := by
  refine transacts_read fun user huser => transacts_read fun found hfound => ?_
  have hfound := mapError_eq_ok.mp hfound
  cases found with
  | none => exact transacts_raise _
  | some article =>
    refine transacts_read fun write hwrite => ?_
    obtain rfl := Except.ok.inj hwrite
    refine transacts_commit fun d' hflush => ⟨serves_pure _, carriedOut_of_plan ?_ hflush⟩
    refine bind_eq_ok.mpr ⟨user, huser, bind_eq_ok.mpr ⟨_, ?_, rfl⟩⟩
    simp only [Content.toggleBookmark, hfound]

/-- Three refusals, each before anything is staged, and then the insert. -/
theorem createWebUrl_transacts (payload : WebUrlCreate) :
    Transacts d (createWebUrl ctx payload) (CarriedOut ctx d (.createWebUrl payload)) := by
  refine transacts_read fun actor hactor => ?_
  split
  next => exact transacts_raise _
  next parsed hparsed =>
    split
    next => exact transacts_raise _
    next hshort =>
      refine transacts_read fun found hfound => ?_
      have hfound := mapError_eq_ok.mp hfound
      cases found with
      | some row => exact transacts_raise _
      | none =>
        refine transacts_commit fun d' hflush => ?_
        refine ⟨refreshWebUrl_serves (flush_insertWebUrl_find hflush),
          carriedOut_of_plan ?_ hflush⟩
        refine bind_eq_ok.mpr ⟨actor, hactor, bind_eq_ok.mpr ⟨_, ?_, rfl⟩⟩
        simp only [Content.createWebUrl, hparsed, if_neg hshort, hfound]

/-- A web URL that was loaded is stored under its own number. -/
theorem getWebUrl_ok {webUrlId : Int} {w : WebUrl} (h : getWebUrl d.webUrls webUrlId = .ok w) :
    d.webUrls.find w.id = some w := by
  unfold getWebUrl at h
  split at h
  next =>
    split at h
    next => cases h
    next x hx =>
      obtain rfl := Except.ok.inj h
      rw [(WebUrlTable.find_eq_some.mp hx).2]
      exact hx
  next => cases h

/-- The view of a URL that exists is committed, and an unknown number is a 404. -/
theorem markViewed_transacts (webUrlId : Int) :
    Transacts d (markViewed ctx webUrlId) (CarriedOut ctx d (.markViewed webUrlId)) := by
  refine transacts_read fun actor hactor => transacts_read fun w hw => ?_
  refine transacts_commit fun d' hflush => ?_
  refine ⟨refreshWebUrl_serves (flush_view_find (getWebUrl_ok hw) hflush),
    carriedOut_of_plan ?_ hflush⟩
  exact bind_eq_ok.mpr ⟨actor, hactor, bind_eq_ok.mpr ⟨_, map_eq_ok.mpr ⟨w, hw, rfl⟩, rfl⟩⟩

/-- The one statement that goes to the database before the commit; until the commit it is as
revocable as a staged one. -/
theorem markAllViewed_transacts :
    Transacts d (markAllViewed ctx) (CarriedOut ctx d .markAllViewed) := by
  refine transacts_read fun actor hactor => transacts_execute fun n d' hflush => ?_
  exact ⟨serves_pure _, carriedOut_of_plan (bind_eq_ok.mpr ⟨actor, hactor, rfl⟩) hflush⟩

theorem deleteWebUrl_transacts (webUrlId : Int) :
    Transacts d (deleteWebUrl ctx webUrlId) (CarriedOut ctx d (.deleteWebUrl webUrlId)) := by
  refine transacts_read fun actor hactor => transacts_read fun w hw => ?_
  refine transacts_commit fun d' hflush => ⟨serves_pure _, carriedOut_of_plan ?_ hflush⟩
  exact bind_eq_ok.mpr ⟨actor, hactor, bind_eq_ok.mpr ⟨_, map_eq_ok.mpr ⟨w, hw, rfl⟩, rfl⟩⟩

/-! ## The requests that write users -/

/-- The guard of the handlers and the one of `Auth.Requests` are one guard, read through two models.
-/
theorem guardRequest_of_authorize {request : Auth.Request Unit} {guard : Guard} {actor : User}
    (hguard : request.guard = some guard) (h : authorize ctx guard d = .ok actor) :
    guardRequest ctx.auth d.users ctx.clock ctx.creds request = .ok (some actor) := by
  unfold authorize at h
  split at h
  next => cases h
  next found hfound => simp only [guardRequest, hguard, hfound, mapError_eq_ok.mp h]

/-- The caller is a stored row. -/
theorem authorize_find {guard : Guard} {actor : User} (h : authorize ctx guard d = .ok actor) :
    d.users.find actor.id = some actor := by
  have hguard : guardRequest ctx.auth d.users ctx.clock ctx.creds
      (.content (some guard) id : Auth.Request Unit) = .ok (some actor) :=
    guardRequest_of_authorize rfl h
  exact UserTable.find_of_mem (guardRequest_mem hguard)

/-- The plan of a request about accounts, from its guard, the row it loads and what it assigns. -/
theorem planUser_ok {request : Auth.Request Unit} {actor copy : Option User} {write : Auth.Write}
    {secret : Text}
    (hactor : guardRequest ctx.auth d.users ctx.clock ctx.creds request = .ok actor)
    (hcopy : loadTarget ctx.auth d.users actor request = .ok copy)
    (hassign : assignWrite ctx.auth ctx.clock request copy ctx.draw = .ok (write, secret)) :
    planUser ctx d request = .ok (.user write) :=
  bind_eq_ok.mpr ⟨actor, hactor, bind_eq_ok.mpr ⟨copy, hcopy,
    bind_eq_ok.mpr ⟨(write, secret), hassign, rfl⟩⟩⟩

/-- A loaded user is a stored row. -/
theorem loadUser_find {guard : Guard} {actor user : User} {userId : Int}
    (hactor : authorize ctx guard d = .ok actor)
    (h : getUser d.users (some actor) userId = .ok user) :
    d.users.find user.id = some user := by
  obtain ⟨hid, hfrom⟩ := getUser_ok h
  rcases hfrom with hsame | hfind
  · rw [← Option.some.inj hsame]
    exact authorize_find hactor
  · rw [hid]
    exact hfind

/-- A refusal of one's own role, a 404, or the planned change of the role. -/
theorem updateRole_transacts (userId : Int) (role : UserRole) :
    Transacts d (updateRole ctx userId role) (CarriedOut ctx d (.updateRole userId role)) := by
  refine transacts_read fun actor hactor => ?_
  split
  next => exact transacts_raise _
  next hother =>
    refine transacts_read fun user huser => transacts_commit fun d' hflush => ?_
    refine ⟨refreshUser_serves (flush_updateUser_find (loadUser_find hactor huser) hflush),
      carriedOut_of_plan ?_ hflush⟩
    have hload : loadTarget ctx.auth d.users (some actor)
        (.updateRole userId role : Auth.Request Unit) = .ok (some user) :=
      (if_neg fun he => hother (Option.some.inj he)).trans (map_eq_ok.mpr ⟨user, huser, rfl⟩)
    exact planUser_ok (guardRequest_of_authorize rfl hactor) hload rfl

/-- A key that may not be issued is an error before anything is staged. -/
theorem issueApiKey_transacts (userId : Int) (name : Option Text) :
    Transacts d (issueApiKey ctx userId name) (CarriedOut ctx d (.issueApiKey userId name)) := by
  refine transacts_read fun actor hactor => transacts_read fun user huser => ?_
  split
  next => exact transacts_raise _
  next row secret hissue =>
    refine transacts_commit fun d' hflush => ⟨serves_pure _, carriedOut_of_plan ?_ hflush⟩
    have hassign : assignWrite ctx.auth ctx.clock (.issueApiKey userId name : Auth.Request Unit)
        (some user) ctx.draw = .ok (.update user row, secret) := by
      simp only [assignWrite, hissue]
    exact planUser_ok (guardRequest_of_authorize rfl hactor)
      (map_eq_ok.mpr ⟨user, huser, rfl⟩) hassign

/-- A 404 for an account that holds no key, or the planned revocation. -/
theorem revokeApiKey_transacts (userId : Int) :
    Transacts d (revokeApiKey ctx userId) (CarriedOut ctx d (.revokeApiKey userId)) := by
  refine transacts_read fun actor hactor => transacts_read fun user huser => ?_
  split
  next => exact transacts_raise _
  next hkey =>
    refine transacts_commit fun d' hflush => ⟨serves_pure _, carriedOut_of_plan ?_ hflush⟩
    exact planUser_ok (guardRequest_of_authorize rfl hactor)
      (bind_eq_ok.mpr ⟨user, huser, if_neg hkey⟩) rfl

/-- An unverified sign-in never reaches the database. A verified one inserts or updates the account
its address names. -/
theorem signIn_transacts (verified : Except Failure OAuthProfile) :
    Transacts d (signIn ctx verified) (CarriedOut ctx d (.signIn verified)) := by
  cases verified with
  | error e => exact transacts_raise e
  | ok profile =>
    refine transacts_read fun found hfound => ?_
    have hfound := mapError_eq_ok.mp hfound
    have hload : loadTarget ctx.auth d.users none (.signIn profile : Auth.Request Unit) =
        .ok found := by
      simp only [loadTarget, hfound]
    refine transacts_commit fun d' hflush => ?_
    cases found with
    | none =>
      exact ⟨refreshUser_serves (flush_insertUser_find hflush),
        carriedOut_of_plan (planUser_ok rfl hload rfl) hflush⟩
    | some user =>
      have hstored : d.users.find user.id = some user := by
        obtain ⟨-, hlookup⟩ := getByEmail_ok hfound
        exact UserTable.find_of_mem (mem_of_lookup hlookup.symm).1
      exact ⟨refreshUser_serves (flush_updateUser_find hstored hflush),
        carriedOut_of_plan (planUser_ok rfl hload rfl) hflush⟩

theorem logout_transacts : Transacts d (logout ctx) (CarriedOut ctx d .logout) := by
  refine transacts_read fun user huser => transacts_commit fun d' hflush => ⟨serves_pure _, ?_⟩
  exact carriedOut_of_plan (planUser_ok (guardRequest_of_authorize rfl huser) rfl rfl) hflush

/-- Every write endpoint is carried out by its one commit or leaves the database as it was. The
cases are the endpoints, each closed by its own lemma. -/
theorem handleWrite_transacts (request : WriteRequest) :
    Transacts d (handleWrite ctx request) (CarriedOut ctx d request) := by
  cases request with
  | post request => exact handlePost_transacts request
  | toggleBookmark slug => exact toggleBookmark_transacts slug
  | createWebUrl payload => exact createWebUrl_transacts payload
  | markViewed webUrlId => exact markViewed_transacts webUrlId
  | markAllViewed => exact markAllViewed_transacts
  | deleteWebUrl webUrlId => exact deleteWebUrl_transacts webUrlId
  | updateRole userId role => exact updateRole_transacts userId role
  | issueApiKey userId name => exact issueApiKey_transacts userId name
  | revokeApiKey userId => exact revokeApiKey_transacts userId
  | signIn verified => exact signIn_transacts verified
  | logout => exact logout_transacts

end Carried

/-- A request from its first query to its end, with what goes wrong between the
service and its database. -/
def serveWrite (ctx : Context) (d : Database) (faults : List (Option PyError))
    (request : WriteRequest) : Except Failure Answer × Session Database Change Failure :=
  (handleWrite ctx request).run (.begin d (faults.map (Option.map Failure.raised)))

/-- **Failed writes change nothing.** A request that raises has changed nothing,
unless its one commit was through and the database failed it afterwards; a
request that answers has been carried out as a whole by exactly one commit. -/
theorem failed_writes_change_nothing (ctx : Context) (d : Database)
    (faults : List (Option PyError)) (request : WriteRequest) :
    let ended := serveWrite ctx d faults request
    (∀ e, ended.1 = .error (.app e) → ended.2.commits = 0 ∧ ended.2.stored = d) ∧
      (∀ e, ended.1 = .error e → ended.2.commits = 0 ∧ ended.2.stored = d ∨
        ended.2.commits = 1 ∧ ∃ fault, some fault ∈ faults ∧ e = .raised fault) ∧
      ∀ answer, ended.1 = .ok answer → ended.2.commits = 1 ∧ ended.2.Settled ∧
        carryOut ctx d request = .ok ended.2.stored := by
  intro ended
  -- the only errors that come after the commit are faults of the database
  have hfault : ∀ e, some e ∈ faults.map (Option.map Failure.raised) →
      ∃ fault, some fault ∈ faults ∧ e = .raised fault := by
    intro e he
    obtain ⟨f, hf, hmap⟩ := List.mem_map.mp he
    obtain ⟨fault, rfl, rfl⟩ := Option.map_eq_some_iff.mp hmap
    exact ⟨fault, hf, rfl⟩
  rcases handleWrite_transacts request (.begin d (faults.map (Option.map Failure.raised)))
    ⟨rfl, rfl, rfl, rfl⟩ with ⟨⟨e, herror⟩, hcommits, hstored⟩ | ⟨hcommits, hsettled, hpost, hlate⟩
  · refine ⟨fun _ _ => ⟨hcommits, hstored⟩, fun _ _ => .inl ⟨hcommits, hstored⟩,
      fun answer hok => ?_⟩
    cases herror.symm.trans hok
  · refine ⟨fun e herror => ?_, fun e herror => .inr ⟨hcommits, hfault e (hlate e herror)⟩,
      fun answer _ => ⟨hcommits, hsettled, hpost⟩⟩
    obtain ⟨fault, -, he⟩ := hfault _ (hlate _ herror)
    cases he

end SarkariWorld.Site
