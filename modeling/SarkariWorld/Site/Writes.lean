import SarkariWorld.Auth.Requests
import SarkariWorld.Content.Posts
import SarkariWorld.Site.Database

/-!
# The write requests of the API

Every request that writes, in two halves: `plan` is what it decides from what it
reads (its guard, its checks, the objects its session will flush), and `flush` is
what its commit does. `carryOut` runs them back to back.

Each endpoint keeps the halves it has in its own module; here they are put over
the whole database, so that runs can mix them.

The split follows what a handler does with its session. Until the commit nothing is sent
that could change a row, so the whole of `plan` is a question to the database; the commit
flushes the one change that was staged. Requests about accounts go through
`Auth.Requests`, whose assignment is the same function of the loaded row.
-/

namespace SarkariWorld.Site

open SarkariWorld.Lib SarkariWorld.Auth SarkariWorld.Content

/-- Everything a request depends on besides the database. -/
structure Context where
  auth : Auth.Env
  content : Content.Env
  clock : Nat
  creds : Credentials
  /-- What `issue` draws. -/
  draw : KeyDraw
  /-- The number a sequence gives a new row. -/
  nextId : Int

/-- The requests that write. A sign-in comes with the outcome of verifying its credential. -/
inductive WriteRequest where
  | post (request : PostRequest)
  | toggleBookmark (slug : Text)
  | createWebUrl (payload : WebUrlCreate)
  | markViewed (webUrlId : Int)
  | markAllViewed
  | deleteWebUrl (webUrlId : Int)
  | updateRole (userId : Int) (role : UserRole)
  | issueApiKey (userId : Int) (name : Option Text)
  | revokeApiKey (userId : Int)
  /-- With what `verify_credential` returned or raised. -/
  | signIn (verified : Except Failure OAuthProfile)
  | logout

/-- What a session flushes. -/
inductive Change where
  | user (write : Auth.Write)
  | article (write : ArticleWrite)
  | bookmark (write : BookmarkWrite)
  | webUrl (write : WebUrlWrite)

/-! ## Deciding -/

/-- The guards of a route, on the caller they resolve. -/
def authorize (ctx : Context) (guard : Guard) (d : Database) : Except Failure User :=
  match currentUser ctx.auth d.users ctx.clock ctx.creds with
  | .error e => .error (.raised e)
  | .ok found => (guard.check (found.map Prod.fst)).mapError .app

/-- What `build_article_data` reads of the caller. -/
def author (actor : User) : Author := ⟨actor.id, actor.name⟩

/-- The method of the route, on which its guard depends. -/
def postMethod : PostRequest → Method
  | .createPost _ | .publishArticle _ => .post
  | .updatePost _ _ => .put
  | .updatePostStatus _ _ => .patch
  | .deletePost _ => .delete

/-- The requests that write the `User` table. -/
def planUser (ctx : Context) (d : Database) (request : Auth.Request Unit) :
    Except Failure Change := do
  let actor ← guardRequest ctx.auth d.users ctx.clock ctx.creds request
  let copy ← loadTarget ctx.auth d.users actor request
  let assigned ← assignWrite ctx.auth ctx.clock request copy ctx.draw
  pure (.user assigned.1)

/-- A request up to its commit. -/
def plan (ctx : Context) (d : Database) : WriteRequest → Except Failure Change
  | .post request => do
    let actor ← authorize ctx (.manage (postMethod request)) d
    let write ← prepare ctx.content d.articles ctx.clock (author actor) request
    pure (.article write)
  | .toggleBookmark slug => do
    let actor ← authorize ctx .auth d
    let write ← Content.toggleBookmark d.bookmarks d.articles actor.id slug
    pure (.bookmark write)
  | .createWebUrl payload => do
    let _ ← authorize ctx (.manage .post) d
    let write ← Content.createWebUrl ctx.content d.webUrls payload
    pure (.webUrl write)
  | .markViewed webUrlId => do
    let _ ← authorize ctx (.manage .post) d
    let write ← Content.markViewed d.webUrls ctx.clock webUrlId
    pure (.webUrl write)
  | .markAllViewed => do
    let _ ← authorize ctx (.manage .post) d
    pure (.webUrl (Content.markAllViewed ctx.clock))
  | .deleteWebUrl webUrlId => do
    let _ ← authorize ctx (.manage .delete) d
    let write ← Content.deleteWebUrl d.webUrls webUrlId
    pure (.webUrl write)
  | .updateRole userId role => planUser ctx d (.updateRole userId role)
  | .issueApiKey userId name => planUser ctx d (.issueApiKey userId name)
  | .revokeApiKey userId => planUser ctx d (.revokeApiKey userId)
  | .signIn verified => do
    let profile ← verified
    planUser ctx d (.signIn profile)
  | .logout => planUser ctx d .logout

/-! ## Committing -/

/-- An update that changed nothing sends nothing. -/
def articleClean : ArticleWrite → Bool
  | .update loaded assigned => assigned = loaded
  | _ => false

/-- The update changes nothing of the loaded object, and so no statement is sent. -/
def webUrlClean : WebUrlWrite → Bool
  | .view loaded stamped => loaded.lastViewedAt = some stamped
  | _ => false

/-- `session.commit()`. -/
def flush (clock : Nat) (nextId : Int) (d : Database) : Change → Except Failure Database
  | .user write =>
    ((commitWrite d.users write nextId).mapError .raised).map fun r => { d with users := r.1 }
  | .article write =>
    if articleClean write then .ok d
    else ((commitArticle d.articles clock nextId write).mapError .raised).map fun r =>
      { d with articles := r.1 }
  | .bookmark write =>
    ((commitBookmark d.bookmarks clock nextId write).mapError .raised).map fun t =>
      { d with bookmarks := t }
  | .webUrl write =>
    if webUrlClean write then .ok d
    else ((commitWebUrl d.webUrls clock nextId write).mapError .raised).map fun r =>
      { d with webUrls := r.1 }

/-- The whole effect of a request. -/
def carryOut (ctx : Context) (d : Database) (request : WriteRequest) : Except Failure Database := do
  let change ← plan ctx d request
  flush ctx.clock ctx.nextId d change

/-! ## What a commit leaves -/

section Flush

variable {clock : Nat} {nextId : Int} {d d' : Database}

theorem flush_user {write : Auth.Write} (h : flush clock nextId d (.user write) = .ok d') :
    ∃ written, commitWrite d.users write nextId = .ok (d'.users, written) ∧
      d' = { d with users := d'.users } := by
  obtain ⟨⟨t, written⟩, hcommit, rfl⟩ := map_eq_ok.mp h
  exact ⟨written, mapError_eq_ok.mp hcommit, rfl⟩

theorem flush_bookmark {write : BookmarkWrite}
    (h : flush clock nextId d (.bookmark write) = .ok d') :
    commitBookmark d.bookmarks clock nextId write = .ok d'.bookmarks ∧
      d' = { d with bookmarks := d'.bookmarks } := by
  obtain ⟨t, hcommit, rfl⟩ := map_eq_ok.mp h
  exact ⟨mapError_eq_ok.mp hcommit, rfl⟩

/-- A flushed article write does to the rows what `commitArticle` does: nothing, if
there is nothing to send. -/
theorem flush_article {write : ArticleWrite} (h : flush clock nextId d (.article write) = .ok d') :
    Content.Effect d.articles d'.articles clock nextId write ∧
      d' = { d with articles := d'.articles } := by
  simp only [flush] at h
  split at h
  next hclean =>
    obtain rfl := Except.ok.inj h
    refine ⟨?_, rfl⟩
    cases write with
    | insert data => cases hclean
    | delete loaded => cases hclean
    | update loaded assigned =>
      obtain rfl : assigned = loaded := of_decide_eq_true hclean
      exact .same assigned rfl
  next =>
    obtain ⟨⟨t, row⟩, hcommit, rfl⟩ := map_eq_ok.mp h
    exact ⟨commitArticle_effect (mapError_eq_ok.mp hcommit), rfl⟩

/-- The same for the web URLs, where an object that has not changed is not flushed. -/
theorem flush_webUrl {write : WebUrlWrite} (h : flush clock nextId d (.webUrl write) = .ok d') :
    (webUrlClean write = true ∧ d'.webUrls = d.webUrls ∨
      ∃ row, commitWebUrl d.webUrls clock nextId write = .ok (d'.webUrls, row)) ∧
      d' = { d with webUrls := d'.webUrls } := by
  simp only [flush] at h
  split at h
  next hclean =>
    obtain rfl := Except.ok.inj h
    exact ⟨.inl ⟨hclean, rfl⟩, rfl⟩
  next =>
    obtain ⟨⟨t, row⟩, hcommit, rfl⟩ := map_eq_ok.mp h
    exact ⟨.inr ⟨row, mapError_eq_ok.mp hcommit⟩, rfl⟩

end Flush

/-! ## What a request plans -/

section Plan

variable {ctx : Context} {d : Database} {request : WriteRequest} {change : Change}

/-- Which request a planned change comes from, and what it had passed by then. -/
inductive Planned (ctx : Context) (d : Database) : WriteRequest → Change → Prop where
  | article (post : PostRequest) (actor : User) (write : ArticleWrite)
      (hactor : authorize ctx (.manage (postMethod post)) d = .ok actor)
      (hprepare : prepare ctx.content d.articles ctx.clock (author actor) post = .ok write) :
      Planned ctx d (.post post) (.article write)
  | bookmark (slug : Text) (actor : User) (write : BookmarkWrite)
      (hactor : authorize ctx .auth d = .ok actor)
      (htoggle : Content.toggleBookmark d.bookmarks d.articles actor.id slug = .ok write) :
      Planned ctx d (.toggleBookmark slug) (.bookmark write)
  | webUrl (request : WriteRequest) (write : WebUrlWrite) : Planned ctx d request (.webUrl write)
  | user (request : WriteRequest) (write : Auth.Write) : Planned ctx d request (.user write)

/-- What a request about accounts plans was decided by its guard, its target and its assignment. -/
theorem planUser_planned {userRequest : Auth.Request Unit}
    (h : planUser ctx d userRequest = .ok change) : Planned ctx d request change := by
  obtain ⟨actor, -, h⟩ := bind_eq_ok.mp h
  obtain ⟨copy, -, h⟩ := bind_eq_ok.mp h
  obtain ⟨assigned, -, h⟩ := bind_eq_ok.mp h
  obtain rfl := Except.ok.inj h
  exact .user request assigned.1

/-- The web URL requests have a guard and one step more. -/
theorem webUrl_planned {α : Type} {guarded : Except Failure α} {write : Except Failure WebUrlWrite}
    (h : (do let _ ← guarded; let w ← write; pure (Change.webUrl w)) = .ok change) :
    Planned ctx d request change := by
  obtain ⟨actor, -, h⟩ := bind_eq_ok.mp h
  obtain ⟨w, -, h⟩ := bind_eq_ok.mp h
  obtain rfl := Except.ok.inj h
  exact .webUrl request w

/-- **What a request plans**, with everything that was found out on the way. One constructor for
each kind of request. -/
theorem plan_planned (h : plan ctx d request = .ok change) : Planned ctx d request change := by
  cases request with
  | post request =>
    obtain ⟨actor, hactor, h⟩ := bind_eq_ok.mp h
    obtain ⟨write, hprepare, h⟩ := bind_eq_ok.mp h
    obtain rfl := Except.ok.inj h
    exact .article request actor write hactor hprepare
  | toggleBookmark slug =>
    obtain ⟨actor, hactor, h⟩ := bind_eq_ok.mp h
    obtain ⟨write, htoggle, h⟩ := bind_eq_ok.mp h
    obtain rfl := Except.ok.inj h
    exact .bookmark slug actor write hactor htoggle
  | createWebUrl payload => exact webUrl_planned h
  | markViewed webUrlId => exact webUrl_planned h
  | markAllViewed =>
    obtain ⟨actor, -, h⟩ := bind_eq_ok.mp h
    obtain rfl := Except.ok.inj h
    exact .webUrl _ _
  | deleteWebUrl webUrlId => exact webUrl_planned h
  | updateRole userId role => exact planUser_planned h
  | issueApiKey userId name => exact planUser_planned h
  | revokeApiKey userId => exact planUser_planned h
  | signIn verified =>
    obtain ⟨profile, -, h⟩ := bind_eq_ok.mp h
    exact planUser_planned h
  | logout => exact planUser_planned h

end Plan

end SarkariWorld.Site
