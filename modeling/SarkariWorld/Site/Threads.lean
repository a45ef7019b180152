import SarkariWorld.Lib.Interleaving
import SarkariWorld.Site.Handlers

/-!
# The handlers, exchange by exchange

Each write endpoint again, now cut where it waits: at its queries, at its readings of
the clock and at its commit. Under a server that interleaves any number of them, a
request sees at each exchange what the others have stored by then, and what time it
is by then.

`handleWrite_refines` says that on its own each of them does what the handler of
`Site.Handlers` does.

The order of the exchanges is the source's: the guard reads the account first, then come
the lookups, then the clock where the handler reads it, and the commit last. Between two
of them the event loop may serve anyone else. What a handler computes from its request
alone needs no exchange and stands in plain `let`s.

The second half of the module makes a server of these threads (`siteMove`) by giving
`Lib.Interleaving` the database, its flush and its sequences, and shows endpoint by
endpoint that a thread nobody interrupts does what the handler does.
-/

namespace SarkariWorld.Site.Threads

open SarkariWorld.Lib SarkariWorld.Auth SarkariWorld.Content
open SarkariWorld.Lib.Thread

/-- A handler as the exchanges it has with the database and the clock. -/
abbrev Steps := Thread Database Change Failure

/-- What a request depends on from its start to its end. -/
structure Origin where
  auth : Auth.Env
  content : Content.Env
  creds : Credentials
  draw : KeyDraw

/-- The request at one moment. -/
def Origin.at (o : Origin) (clock : Nat) : Context :=
  ⟨o.auth, o.content, clock, o.creds, o.draw, 0⟩

section Handlers

variable (o : Origin)

/-- The guards of a route. -/
def authed (guard : Guard) : Steps User := read fun d clock => authorize (o.at clock) guard d

/-! ## Articles -/

/-- `session.refresh` of the article after the commit, which is what the answer shows. -/
def refreshArticle (id : Int) : Steps Answer := do
  let row ← read fun d _ => refreshed (d.articles.find id)
  pure (.article row)

/-- The article the path names, or the 404. -/
def getPost (slug : Text) : Steps Article := read fun d _ => Content.getArticle d.articles slug

/-- `POST /v1/admin/posts`. The slug is looked up in one exchange and inserted in another, so a
request for the same slug may come between them. -/
def createPost (payload : ArticleCreate) : Steps Answer := do
  let actor ← authed o (.manage .post)
  let taken ← read fun d _ => .ok (slugExists d.articles payload.slug none)
  if taken then raise (slugInUse payload.slug)
  else do
    let data := buildArticleData o.content payload.dump (some (author actor)) none
    let clock ← now
    let receipt ← save
      (.article (.insert (if data.undatedPublish then data.stamp clock else data)))
    refreshArticle receipt.number

/-- The check of a slug that an update brings along. -/
def checkSlug (article : Article) (slug : Option Text) : Steps Unit :=
  match slug with
  | none => pure ()
  | some slug => do
    let taken ← read fun d _ => .ok (slugExists d.articles slug (some article.id))
    if taken then raise (slugInUse slug) else pure ()

/-- `PUT /v1/admin/posts/{slug}`. The article is loaded in one exchange and written in the last, so
what is written was decided on a row that may have changed since. -/
def updatePost (slug : Text) (payload : ArticleUpdate) : Steps Answer := do
  let actor ← authed o (.manage .put)
  let article ← getPost slug
  checkSlug article payload.slug.get
  let data := buildArticleData o.content payload.dump (some (author actor)) none
  let clock ← now
  let data := if data.undatedPublish ∧ article.publishedAt = none then data.stamp clock else data
  -- `services.articles.update` reads the clock for itself.
  let clock ← now
  let _ ← save (.article (update clock article.load data))
  refreshArticle article.id

/-- `PATCH /v1/admin/posts/{slug}/status`. Whether `published_at` is stamped is decided on the
loaded row. -/
def updatePostStatus (slug : Text) (status : ArticleStatus) : Steps Answer := do
  let _ ← authed o (.manage .patch)
  let article ← getPost slug
  let clock ← now
  let _ ← save (.article (setStatus article.load status (nowIst clock)))
  refreshArticle article.id

/-- `DELETE /v1/admin/posts/{slug}`. -/
def deletePost (slug : Text) : Steps Answer := do
  let _ ← authed o (.manage .delete)
  let article ← getPost slug
  let _ ← save (.article (.delete article.load))
  pure (.auth .noContent)

/-- `POST /v1/admin/publish/articles`, the ingest of an article in markdown, which is always
stored as a draft. -/
def publishArticle (payload : ArticlePublish) : Steps Answer := do
  let actor ← authed o (.manage .post)
  if payload.slug.length > slugMax then raise (.app (conflictError "Slug is too long."))
  else do
    let taken ← read fun d _ => .ok (slugExists d.articles payload.slug none)
    if taken then raise (slugInUse payload.slug)
    else do
      let data := buildArticleData o.content payload.dump (some (author actor))
        (some (payload.content.get.getD []))
      let receipt ← save (.article (.insert { data with articleStatus := some .draft }))
      refreshArticle receipt.number

/-- The five endpoints that write articles. -/
def handlePost : PostRequest → Steps Answer
  | .createPost payload => createPost o payload
  | .updatePost slug payload => updatePost o slug payload
  | .updatePostStatus slug status => updatePostStatus o slug status
  | .deletePost slug => deletePost o slug
  | .publishArticle payload => publishArticle o payload

/-! ## Bookmarks and web URLs -/

/-- `POST /v1/account/bookmarks/toggle`. Three exchanges with the database stand between the caller
and the change: the guard, the article and the bookmark. -/
def toggleBookmark (slug : Text) : Steps Answer := do
  let user ← authed o .auth
  let found ← read fun d _ => (findPublishedBySlug d.articles slug).mapError .raised
  match found with
  | none => raise (.app (notFoundError ("Article not found: " ++ String.ofList slug)))
  | some article => do
    let write ← read fun d _ => .ok (toggle d.bookmarks user.id article.id)
    let _ ← save (.bookmark write)
    pure (.bookmark slug write.bookmarked)

/-- `session.refresh` of the web URL after the commit. -/
def refreshWebUrl (id : Int) : Steps Answer := do
  let row ← read fun d _ => refreshed (d.webUrls.find id)
  pure (.webUrl row)

/-- `POST /v1/admin/web-urls`. As with articles, the lookup of the URL and its insertion are two
exchanges; the unique index is what stands between two requests for one URL. -/
def createWebUrl (payload : WebUrlCreate) : Steps Answer := do
  let _ ← authed o (.manage .post)
  match parseHttpUrl o.content payload.url with
  | none => raise (.app (validationError "A valid http(s) URL is required."))
  | some parsed =>
    if parsed.domain.length > webUrlDomainMax then
      raise (.app (validationError "Domain is too long."))
    else do
      let found ← read fun d _ => (findByUrl d.webUrls parsed.url).mapError .raised
      match found with
      | some _ => raise urlInList
      | none => do
        let receipt ← save (.webUrl (.insert parsed.url parsed.domain
          ((strip (payload.title.getD [])).take webUrlTitleMax)))
        refreshWebUrl receipt.number

/-- `POST /v1/admin/web-urls/{web_url_id}/view`. -/
def markViewed (webUrlId : Int) : Steps Answer := do
  let _ ← authed o (.manage .post)
  let webUrl ← read fun d _ => getWebUrl d.webUrls webUrlId
  let clock ← now
  let _ ← save (.webUrl (.view webUrl (nowIst clock)))
  refreshWebUrl webUrl.id

/-- The statement holds its rows until the commit that follows it at once, and the
two are one exchange here. -/
def markAllViewed : Steps Answer := do
  let _ ← authed o (.manage .post)
  let clock ← now
  let receipt ← save (.webUrl (.viewAll (nowIst clock)))
  pure (.markedViewed receipt.matched)

/-- `DELETE /v1/admin/web-urls/{web_url_id}`. -/
def deleteWebUrl (webUrlId : Int) : Steps Answer := do
  let _ ← authed o (.manage .delete)
  let webUrl ← read fun d _ => getWebUrl d.webUrls webUrlId
  let _ ← save (.webUrl (.delete webUrl))
  pure (.auth .noContent)

/-! ## Users -/

/-- `session.refresh` of the account after the commit. -/
def refreshUser (id : Int) : Steps User := read fun d _ => refreshed (d.users.find id)

/-- `get_by_id` inside a request whose session holds the caller, and its 404. -/
def loadUser (actor : User) (userId : Int) : Steps User :=
  read fun d _ => getUser d.users (some actor) userId

/-- `PATCH /v1/admin/users/{user_id}/role`. The caller's own role is not read again after the guard.
-/
def updateRole (userId : Int) (role : UserRole) : Steps Answer := do
  let actor ← authed o (.admin .patch)
  if actor.id = userId then raise (.app (conflictError "You cannot change your own role."))
  else do
    let user ← loadUser actor userId
    let _ ← save (.user (.update user { user with role := role }))
    let user ← refreshUser user.id
    pure (.auth (.user user))

/-- `POST /v1/admin/users/{user_id}/api-key`. The secret is drawn at the start of the request
(`draw`) and shown once, in the answer. -/
def issueApiKey (userId : Int) (name : Option Text) : Steps Answer := do
  let actor ← authed o (.admin .post)
  let user ← loadUser actor userId
  let clock ← now
  match issue o.auth user name clock o.draw with
  | .error e => raise (.app e)
  | .ok (row, secret) => do
    let _ ← save (.user (.update user row))
    pure (.auth (.apiKey secret))

/-- `DELETE /v1/admin/users/{user_id}/api-key`, a 404 for an account without a key. -/
def revokeApiKey (userId : Int) : Steps Answer := do
  let actor ← authed o (.admin .delete)
  let user ← loadUser actor userId
  if user.apiKeyHash = none then raise (.app (notFoundError "That user holds no API key."))
  else do
    let clock ← now
    let _ ← save (.user (.update user (revoke user clock)))
    pure (.auth .noContent)

/-- What a sign-in saves. -/
def signInWrite (profile : OAuthProfile) (clock : Nat) : Option User → Auth.Write
  | none => .insert (newOauthUser o.auth profile clock)
  | some user => .update user (refreshProfile user profile clock)

/-- `POST /v1/auth/{provider}`, once the provider's token has been verified. The token of the
session is minted after the commit, at a reading of the clock of its own. -/
def signIn (verified : Except Failure OAuthProfile) : Steps Answer :=
  match verified with
  | .error e => raise e
  | .ok profile => do
    let found ← read fun d _ =>
      (getByEmail o.auth d.users (profile.normalized o.auth)).mapError .raised
    let clock ← now
    let receipt ← save (.user (signInWrite o profile clock found))
    let user ← refreshUser ((found.map User.id).getD receipt.number)
    let clock ← now
    pure (.auth (.session user.id (mintSessionToken o.auth clock user.id user.email user.role)))

/-- `POST /v1/auth/logout`, which ends every session of the caller. -/
def logout : Steps Answer := do
  let user ← authed o .auth
  let clock ← now
  let _ ← save (.user (.update user (invalidateSessions user clock)))
  pure (.auth .noContent)

/-- The thread of a write request. -/
def handleWrite : WriteRequest → Steps Answer
  | .post request => handlePost o request
  | .toggleBookmark slug => toggleBookmark o slug
  | .createWebUrl payload => createWebUrl o payload
  | .markViewed webUrlId => markViewed o webUrlId
  | .markAllViewed => markAllViewed o
  | .deleteWebUrl webUrlId => deleteWebUrl o webUrlId
  | .updateRole userId role => updateRole o userId role
  | .issueApiKey userId name => issueApiKey o userId name
  | .revokeApiKey userId => revokeApiKey o userId
  | .signIn verified => signIn o verified
  | .logout => logout o

end Handlers

/-! ## The server -/

/-- The four `id` sequences. -/
inductive Sequence where
  | user
  | article
  | bookmark
  | webUrl
  deriving DecidableEq, Repr

/-- The sequence a statement draws the `id` of its row from. Only inserts draw one. -/
def sequenceOf : Change → Option Sequence
  | .user (.insert _) => some .user
  | .article (.insert _) => some .article
  | .bookmark (.insert _ _) => some .bookmark
  | .webUrl (.insert _ _ _) => some .webUrl
  | _ => none

/-- The rows an `UPDATE` without a condition matches; every other statement is for one
row. -/
def matchedRows (d : Database) : Change → Nat
  | .webUrl (.viewAll _) => d.webUrls.rows.length
  | _ => 1

/-- The database the requests share. A change is flushed at the clock of its commit, and that
is what a new row gets in the columns whose `server_default` is `now()`. Postgres gives them
the start of the transaction, an earlier moment of the same request. The results about these
columns bound them from above or say that nothing writes them again, so they hold of either. -/
def store : Store Database Change Failure Sequence PyError where
  apply := flush
  matched := matchedRows
  sequence := sequenceOf
  fault := .raised

/-- A request as it is received. -/
structure Asked where
  creds : Credentials
  draw : KeyDraw
  request : WriteRequest

/-- The service in the middle of its work: the database, the clock, and the requests under way with
what each still has to do. -/
abbrev Traffic := Server Asked Database Change Failure Sequence Answer

/-- What may happen next: a request arrives, one of them makes an exchange or is cut off by a fault,
or the clock goes on. -/
abbrev SiteMove := Move Asked PyError

/-- The thread a request starts. -/
def program (auth : Auth.Env) (content : Content.Env) (asked : Asked) : Steps Answer :=
  handleWrite ⟨auth, content, asked.creds, asked.draw⟩ asked.request

/-- One move of the service. -/
def siteMove (auth : Auth.Env) (content : Content.Env) : Traffic → SiteMove → Option Traffic :=
  move store (program auth content)

/-! ## Uninterrupted -/

/-- What a request of `ctx` depends on from its start to its end. -/
def originOf (ctx : Context) : Origin := ⟨ctx.auth, ctx.content, ctx.creds, ctx.draw⟩

section Uninterrupted

variable {α β γ : Type} {ctx : Context}

/-- On its own and with nothing going wrong, the thread does what the handler does. -/
def Refines (ctx : Context) (t : Steps α) (p : Handler α) : Prop :=
  ∀ s : Session Database Change Failure, s.faults = [] → s.Settled →
    t.alone store ctx.clock ctx.nextId s.stored = ((p.run s).1, (p.run s).2.stored)

theorem refines_pure (a : α) : Refines ctx (pure a) (pure a) := fun _ _ _ => rfl

theorem refines_raise (e : Failure) : Refines ctx (Thread.raise e : Steps α) (Program.raise e) :=
  fun _ _ _ => rfl

/-- A thread that is not interrupted reads the time at which the request was received, so the
handler's fixed clock is what it sees. -/
theorem refines_now {f : Nat → Steps α} {p : Handler α} (h : Refines ctx (f ctx.clock) p) :
    Refines ctx (now >>= f) p := h

/-- A query of the thread is the handler's query at that clock. -/
theorem refines_read {query : Database → Nat → Except Failure β} {f : β → Steps α}
    {g : β → Handler α} (h : ∀ b, Refines ctx (f b) (g b)) :
    Refines ctx (Thread.read query >>= f) (Program.read (fun d => query d ctx.clock) >>= g) := by
  intro s hfree hsettled
  rw [alone_read]
  cases hquery : query s.stored ctx.clock with
  | ok b =>
    rw [Program.run_read_free hfree (hsettled.2 ▸ hquery)]
    exact h b s hfree hsettled
  | error e =>
    have hrun : (Program.read (fun d => query d ctx.clock) : Handler β).run s = (.error e, s) := by
      simp only [Program.read, Program.exchange, hfree, hsettled.2, hquery]
    rw [Program.run_bind_error hrun]

/-- A commit leaves the session settled, so that what follows it can be compared. -/
theorem refines_of_commit {change : Change} {f : Receipt → Steps α} {p : Handler α}
    {s : Session Database Change Failure} (hfree : s.faults = [])
    (hdue : s.pending.foldlM (flush ctx.clock ctx.nextId) s.tx =
      flush ctx.clock ctx.nextId s.stored change)
    (h : Refines ctx (f ⟨ctx.nextId, matchedRows s.stored change⟩) p) :
    (save change >>= f).alone store ctx.clock ctx.nextId s.stored =
      ((do Program.commit (flush ctx.clock ctx.nextId); p : Handler α).run s |>.1,
        ((do Program.commit (flush ctx.clock ctx.nextId); p : Handler α).run s).2.stored) := by
  rw [alone_save]
  simp only [store]
  cases hflush : flush ctx.clock ctx.nextId s.stored change with
  | ok d =>
    have hrun : (Program.commit (flush ctx.clock ctx.nextId) : Handler Unit).run s =
        (.ok (), ⟨d, d, [], s.commits + 1, []⟩) := by
      simp only [Program.commit, Program.exchange, hfree, hdue, hflush]
    rw [Program.run_bind_ok hrun]
    exact h ⟨d, d, [], s.commits + 1, []⟩ rfl ⟨rfl, rfl⟩
  | error e =>
    have hrun : (Program.commit (flush ctx.clock ctx.nextId) : Handler Unit).run s =
        (.error e, s) := by
      simp only [Program.commit, Program.exchange, hfree, hdue, hflush]
    rw [Program.run_bind_error hrun]

/-- The thread's one commit is the handler's staging and commit, and the receipt names the row with
the next free number. -/
theorem refines_save {change : Change} {f : Receipt → Steps α} {p : Handler α}
    (h : ∀ matched, Refines ctx (f ⟨ctx.nextId, matched⟩) p) :
    Refines ctx (save change >>= f)
      (do Program.stage change; Program.commit (flush ctx.clock ctx.nextId); p) := by
  intro s hfree hsettled
  have hstaged : (do Program.stage change; Program.commit (flush ctx.clock ctx.nextId); p :
      Handler α).run s = (do Program.commit (flush ctx.clock ctx.nextId); p : Handler α).run
        { s with pending := s.pending ++ [change] } := Program.run_bind_ok rfl
  rw [hstaged]
  refine refines_of_commit (s := { s with pending := s.pending ++ [change] }) hfree ?_ (h _)
  show (s.pending ++ [change]).foldlM _ s.tx = _
  rw [hsettled.1, hsettled.2, List.nil_append, List.foldlM_cons]
  cases flush ctx.clock ctx.nextId s.stored change <;> rfl

/-- The statement that is sent at once. -/
theorem refines_execute {change : Change} {f : Receipt → Steps α} {g : Nat → Handler α}
    (h : ∀ matched, Refines ctx (f ⟨ctx.nextId, matched⟩) (g matched)) :
    Refines ctx (save change >>= f) (do
      let n ← Program.execute (flush ctx.clock ctx.nextId) (fun d => matchedRows d change) change
      Program.commit (flush ctx.clock ctx.nextId)
      g n) := by
  -- the statement is sent before the commit, which then has nothing more to flush
  intro s hfree hsettled
  cases hflush : flush ctx.clock ctx.nextId s.stored change with
  | ok d =>
    have hrun : (Program.execute (flush ctx.clock ctx.nextId) (fun d => matchedRows d change)
        change : Handler Nat).run s = (.ok (matchedRows s.stored change), { s with tx := d }) := by
      simp only [Program.execute, Program.exchange, hfree, hsettled.2, hflush]
    rw [Program.run_bind_ok hrun]
    refine refines_of_commit (s := { s with tx := d }) hfree ?_ (h _)
    show s.pending.foldlM _ d = _
    rw [hsettled.1, hflush]
    rfl
  | error e =>
    have hrun : (Program.execute (flush ctx.clock ctx.nextId) (fun d => matchedRows d change)
        change : Handler Nat).run s = (.error e, s) := by
      simp only [Program.execute, Program.exchange, hfree, hsettled.2, hflush]
    rw [Program.run_bind_error hrun]
    rw [alone_save]
    simp only [store, hflush]

/-! Each handler, step by step. -/

theorem refreshArticle_refines (id : Int) :
    Refines ctx (refreshArticle id) (Site.refreshArticle id) :=
  refines_read fun row => refines_pure (Answer.article row)

theorem refreshWebUrl_refines (id : Int) : Refines ctx (refreshWebUrl id) (Site.refreshWebUrl id) :=
  refines_read fun row => refines_pure (Answer.webUrl row)

/-- Guard, lookup and commit stand in the same order, and the stamp of an undated publication reads
the same clock. -/
theorem createPost_refines (payload : ArticleCreate) :
    Refines ctx (createPost (originOf ctx) payload) (Site.createPost ctx payload) := by
  refine refines_read fun actor => refines_read fun taken => ?_
  split
  next => exact refines_raise _
  next => exact refines_now (refines_save fun _ => refreshArticle_refines _)

/-- The two readings of the clock in `update_post` and `services.articles.update` fall together
here. -/
theorem updatePost_refines (slug : Text) (payload : ArticleUpdate) :
    Refines ctx (updatePost (originOf ctx) slug payload) (Site.updatePost ctx slug payload) := by
  refine refines_read fun actor => refines_read fun article => ?_
  -- after the slug the two agree: the clock is asked twice, for the date and for the stamp
  have hrest : ∀ data : ArticleData, Refines ctx (do
      let clock ← now
      let data :=
        if data.undatedPublish ∧ article.publishedAt = none then data.stamp clock else data
      let clock ← now
      let _ ← save (.article (update clock article.load data))
      refreshArticle article.id) (do
      let data :=
        if data.undatedPublish ∧ article.publishedAt = none then data.stamp ctx.clock else data
      Program.stage (.article (update ctx.clock article.load data))
      Program.commit (flush ctx.clock ctx.nextId)
      Site.refreshArticle article.id) := fun data =>
    refines_now (refines_now (refines_save fun _ => refreshArticle_refines _))
  cases payload.slug.get with
  | none => exact hrest _
  | some slug =>
    show Refines ctx ((do
      let taken ← Thread.read fun d _ => .ok (slugExists d.articles slug (some article.id))
      if taken then Thread.raise (slugInUse slug) else pure ()) >>= fun _ => _) ((do
      let taken ← Program.read fun d => .ok (slugExists d.articles slug (some article.id))
      if taken then Program.raise (slugInUse slug) else pure ()) >>= fun _ => _)
    rw [Thread.bind_bind, Program.bind_bind]
    refine refines_read fun taken => ?_
    split
    next => exact refines_raise _
    next => exact hrest _

theorem updatePostStatus_refines (slug : Text) (status : ArticleStatus) :
    Refines ctx (updatePostStatus (originOf ctx) slug status)
      (Site.updatePostStatus ctx slug status) :=
  refines_read fun _ => refines_read fun _ =>
    refines_now (refines_save fun _ => refreshArticle_refines _)

theorem deletePost_refines (slug : Text) :
    Refines ctx (deletePost (originOf ctx) slug) (Site.deletePost ctx slug) :=
  refines_read fun _ => refines_read fun _ => refines_save fun _ => refines_pure _

/-- The length of the slug is looked at before the database is asked. -/
theorem publishArticle_refines (payload : ArticlePublish) :
    Refines ctx (publishArticle (originOf ctx) payload) (Site.publishArticle ctx payload) := by
  refine refines_read fun actor => ?_
  split
  next => exact refines_raise _
  next =>
    refine refines_read fun taken => ?_
    split
    next => exact refines_raise _
    next => exact refines_save fun _ => refreshArticle_refines _

theorem handlePost_refines (request : PostRequest) :
    Refines ctx (handlePost (originOf ctx) request) (Site.handlePost ctx request) := by
  cases request with
  | createPost payload => exact createPost_refines payload
  | updatePost slug payload => exact updatePost_refines slug payload
  | updatePostStatus slug status => exact updatePostStatus_refines slug status
  | deletePost slug => exact deletePost_refines slug
  | publishArticle payload => exact publishArticle_refines payload

/-- Two queries decide what is staged; the answer is known before the commit. -/
theorem toggleBookmark_refines (slug : Text) :
    Refines ctx (toggleBookmark (originOf ctx) slug) (Site.toggleBookmark ctx slug) := by
  refine refines_read fun user => refines_read fun found => ?_
  cases found with
  | none => exact refines_raise _
  | some article => exact refines_read fun write => refines_save fun _ => refines_pure _

/-- Two refusals come before the first query: the URL and the length of its domain. -/
theorem createWebUrl_refines (payload : WebUrlCreate) :
    Refines ctx (createWebUrl (originOf ctx) payload) (Site.createWebUrl ctx payload) := by
  refine refines_read fun actor => ?_
  dsimp only [originOf]
  cases parseHttpUrl ctx.content payload.url with
  | none => exact refines_raise _
  | some parsed =>
    dsimp only
    split
    next => exact refines_raise _
    next =>
      refine refines_read fun found => ?_
      cases found with
      | some row => exact refines_raise _
      | none => exact refines_save fun _ => refreshWebUrl_refines _

/-- The refusal of one's own id comes between the guard and the second query. -/
theorem updateRole_refines (userId : Int) (role : UserRole) :
    Refines ctx (updateRole (originOf ctx) userId role) (Site.updateRole ctx userId role) := by
  refine refines_read fun actor => ?_
  split
  next => exact refines_raise _
  next =>
    exact refines_read fun user => refines_save fun _ => refines_read fun row => refines_pure _

/-- A key that cannot be issued ends both without a commit. -/
theorem issueApiKey_refines (userId : Int) (name : Option Text) :
    Refines ctx (issueApiKey (originOf ctx) userId name) (Site.issueApiKey ctx userId name) := by
  refine refines_read fun actor => refines_read fun user => refines_now ?_
  show Refines ctx (match issue ctx.auth user name ctx.clock ctx.draw with
    | .error e => Thread.raise (.app e)
    | .ok (row, secret) => _) (match issue ctx.auth user name ctx.clock ctx.draw with
    | .error e => Program.raise (.app e)
    | .ok (row, secret) => _)
  cases issue ctx.auth user name ctx.clock ctx.draw with
  | error e => exact refines_raise _
  | ok issued => exact refines_save fun _ => refines_pure _

/-- An account without a key ends both with the same 404. -/
theorem revokeApiKey_refines (userId : Int) :
    Refines ctx (revokeApiKey (originOf ctx) userId) (Site.revokeApiKey ctx userId) := by
  refine refines_read fun actor => refines_read fun user => ?_
  split
  next => exact refines_raise _
  next => exact refines_now (refines_save fun _ => refines_pure _)

/-- A new account is read back under the number the insert drew, a known one under its own. -/
theorem signIn_refines (verified : Except Failure OAuthProfile) :
    Refines ctx (signIn (originOf ctx) verified) (Site.signIn ctx verified) := by
  cases verified with
  | error e => exact refines_raise e
  | ok profile =>
    refine refines_read fun found => refines_now ?_
    cases found with
    | none =>
      exact refines_save fun _ => refines_read fun user => refines_now (refines_pure _)
    | some user =>
      exact refines_save fun _ => refines_read fun user => refines_now (refines_pure _)

/-- Served on its own and without a fault, every write request leaves the database, and gives the
answer, that its handler in `Site.Handlers` does. -/
theorem handleWrite_refines (request : WriteRequest) :
    Refines ctx (handleWrite (originOf ctx) request) (Site.handleWrite ctx request) := by
  cases request with
  | post request => exact handlePost_refines request
  | toggleBookmark slug => exact toggleBookmark_refines slug
  | createWebUrl payload => exact createWebUrl_refines payload
  | markViewed webUrlId =>
    exact refines_read fun _ => refines_read fun _ =>
      refines_now (refines_save fun _ => refreshWebUrl_refines _)
  | markAllViewed =>
    exact refines_read fun _ => refines_now (refines_execute fun _ => refines_pure _)
  | deleteWebUrl webUrlId =>
    exact refines_read fun _ => refines_read fun _ => refines_save fun _ => refines_pure _
  | updateRole userId role => exact updateRole_refines userId role
  | issueApiKey userId name => exact issueApiKey_refines userId name
  | revokeApiKey userId => exact revokeApiKey_refines userId
  | signIn verified => exact signIn_refines verified
  | logout => exact refines_read fun _ => refines_now (refines_save fun _ => refines_pure _)

end Uninterrupted

end SarkariWorld.Site.Threads
