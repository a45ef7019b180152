import SarkariWorld.Content.ArticleWrites

/-!
# The article endpoints

`routers/v1/admin/posts.py` over `services/articles.py`. A request has two
halves: `prepare` checks it against the table and builds what its session will
write, and `commitArticle` writes it. `perform` runs them back to back, and
`serve` is the service as its clients see it when requests do not overlap: a
request that fails, in either half, changes nothing.

`perform_effect` says what a successful request does to the rows, one case for
each kind of write; an invariant of the table is a case analysis over it.

The author of an article is the actor of the last request that brought data for it:
`build_article_data` sets the two columns from the caller, and the status endpoint does
not call it. A handler commits once, so that `perform` needs no more than the write it
prepared.
-/

namespace SarkariWorld.Content

open SarkariWorld.Lib

inductive PostRequest where
  | createPost (payload : ArticleCreate)
  | updatePost (slug : Text) (payload : ArticleUpdate)
  | updatePostStatus (slug : Text) (status : ArticleStatus)
  | deletePost (slug : Text)
  | publishArticle (payload : ArticlePublish)

/-! ## Queries -/

/-- `slug_exists`. -/
def slugExists (t : ArticleTable) (slug : Text) (exceptId : Option Int) : Bool :=
  (whereEq ArticleOf.slugCol slug t.rows).any fun a => exceptId ≠ some a.id

/-- `find_by_slug`. -/
def findBySlug (t : ArticleTable) (slug : Text) : Except PyError (Option Article) :=
  if Storable slug then scalarOneOrNone (whereEq ArticleOf.slugCol slug t.rows)
  else .error .dataError

def slugInUse (slug : Text) : Failure :=
  .app (conflictError ("Slug already in use: " ++ String.ofList slug))

/-- The article the path names, or the 404. -/
def getArticle (t : ArticleTable) (slug : Text) : Except Failure Article :=
  match findBySlug t slug with
  | .error e => .error (.raised e)
  | .ok none => .error (.app (notFoundError ("Article not found: " ++ String.ofList slug)))
  | .ok (some a) => .ok a

/-! ## What a request writes -/

/-- `data["published_at"] = now_ist()`. -/
def ArticleData.stamp (data : ArticleData) (clock : Nat) : ArticleData :=
  { data with publishedAt := some (some (naive (nowIst clock))) }

/-- `data.get("article_status") is PUBLISHED and not data.get("published_at")`. -/
def ArticleData.undatedPublish (data : ArticleData) : Prop :=
  data.articleStatus = some .published ∧ data.publishedAt.getD none = none

instance (data : ArticleData) : Decidable data.undatedPublish :=
  inferInstanceAs (Decidable (_ ∧ _))

/-- `create_post`, up to its commit. -/
def createPost (env : Env) (t : ArticleTable) (clock : Nat) (actor : Author)
    (payload : ArticleCreate) : Except Failure ArticleWrite :=
  if slugExists t payload.slug none then .error (slugInUse payload.slug)
  else
    let data := buildArticleData env payload.dump (some actor) none
    .ok (.insert (if data.undatedPublish then data.stamp clock else data))

/-- `if session.is_modified(article): article.updated_at = now`, and the commit. -/
def stampUpdated (article assigned : ArticleObject) (now : Int) : ArticleWrite :=
  .update article (if assigned ≠ article then { assigned with updatedAt := now } else assigned)

/-- `services.articles.update`. -/
def update (clock : Nat) (article : ArticleObject) (data : ArticleData) : ArticleWrite :=
  stampUpdated article (data.assign article) (nowIst clock)

/-- `update_post`. -/
def updatePost (env : Env) (t : ArticleTable) (clock : Nat) (actor : Author) (slug : Text)
    (payload : ArticleUpdate) : Except Failure ArticleWrite := do
  let article ← getArticle t slug
  -- The article may keep its own slug.
  match payload.slug.get.filter fun s => slugExists t s (some article.id) with
  | some taken => .error (slugInUse taken)
  | none =>
    let data := buildArticleData env payload.dump (some actor) none
    -- First transition to published stamps the date.
    let data :=
      if data.undatedPublish ∧ article.publishedAt = none then data.stamp clock else data
    pure (update clock article.load data)

/-- The copy with its new status, dated on its first publication. -/
def ArticleOf.assignStatus (article : ArticleObject) (status : ArticleStatus) (now : Int) :
    ArticleObject :=
  let assigned := { article with articleStatus := status }
  -- The date of an earlier publication stays.
  if status = .published ∧ assigned.publishedAt = none then
    { assigned with publishedAt := some (naive now) }
  else assigned

/-- `services.articles.set_status`. -/
def setStatus (article : ArticleObject) (status : ArticleStatus) (now : Int) : ArticleWrite :=
  stampUpdated article (article.assignStatus status now) now

/-- `update_post_status`. -/
def updatePostStatus (t : ArticleTable) (clock : Nat) (slug : Text) (status : ArticleStatus) :
    Except Failure ArticleWrite := do
  let article ← getArticle t slug
  pure (setStatus article.load status (nowIst clock))

/-- `delete_post`. -/
def deletePost (t : ArticleTable) (slug : Text) : Except Failure ArticleWrite := do
  let article ← getArticle t slug
  pure (.delete article.load)

/-- `publish_article`: whatever the body says, the row is a draft. -/
def publishArticle (env : Env) (t : ArticleTable) (actor : Author) (payload : ArticlePublish) :
    Except Failure ArticleWrite :=
  if payload.slug.length > slugMax then .error (.app (conflictError "Slug is too long."))
  else if slugExists t payload.slug none then .error (slugInUse payload.slug)
  else
    let data := buildArticleData env payload.dump (some actor) (some (payload.content.get.getD []))
    .ok (.insert { data with articleStatus := some .draft })

def prepare (env : Env) (t : ArticleTable) (clock : Nat) (actor : Author) :
    PostRequest → Except Failure ArticleWrite
  | .createPost payload => createPost env t clock actor payload
  | .updatePost slug payload => updatePost env t clock actor slug payload
  | .updatePostStatus slug status => updatePostStatus t clock slug status
  | .deletePost slug => deletePost t slug
  | .publishArticle payload => publishArticle env t actor payload

/-! ## The service -/

/-- A request with its staff caller and the id the sequence would give a new
row. -/
structure PostCall where
  actor : Author
  request : PostRequest
  nextId : Int

structure Posts where
  articles : ArticleTable
  clock : Nat

inductive PostEvent where
  | call (c : PostCall)
  | tick (microseconds : Nat)

/-- A request from its checks to its answer: the new table and the row it
answers with. -/
def perform (env : Env) (s : Posts) (c : PostCall) :
    Except Failure (ArticleTable × Option Article) := do
  let write ← prepare env s.articles s.clock c.actor c.request
  (commitArticle s.articles s.clock c.nextId write).mapError Failure.raised

def serve (env : Env) (s : Posts) : PostEvent → Option Posts
  | .call c =>
    match perform env s c with
    | .ok (articles, _) => some { s with articles := articles }
    | .error _ => some s
  | .tick microseconds => some { s with clock := s.clock + microseconds }

/-! ## What a request does -/

variable {env : Env} {t t' : ArticleTable} {clock : Nat} {nextId : Int} {answer : Option Article}

/-- The path names at most one article. -/
theorem getArticle_ok {slug : Text} {a : Article} (h : getArticle t slug = .ok a) :
    a ∈ t.rows ∧ a.slug = slug ∧ lookup ArticleOf.slugCol slug t.rows = some a := by
  unfold getArticle at h
  split at h
  next => cases h
  next => cases h
  next x hx =>
    obtain rfl := Except.ok.inj h
    rw [findBySlug, scalarOneOrNone_whereEq t.uniqueSlug] at hx
    have hfound : lookup ArticleOf.slugCol slug t.rows = some x := by
      split at hx
      next => exact Except.ok.inj hx
      next => cases hx
    obtain ⟨hmem, hslug⟩ := mem_of_lookup hfound
    exact ⟨hmem, ArticleOf.slugCol_eq_some.mp hslug, hfound⟩

/-- The rows after a successful write. -/
inductive Effect (t t' : ArticleTable) (clock : Nat) (nextId : Int) : ArticleWrite → Prop where
  | insert (data : ArticleData) (row : Article) (hrow : newRow data nextId clock = .ok row)
      (hrows : t'.rows = t.rows ++ [row]) : Effect t t' clock nextId (.insert data)
  | same (loaded : ArticleObject) (hrows : t'.rows = t.rows) :
      Effect t t' clock nextId (.update loaded loaded)
  | update (loaded assigned : ArticleObject) (encoded : Option Int)
      (hencoded : encodeChanged loaded assigned = .ok encoded)
      (hrows : t'.rows
        = updateWhere ArticleOf.idCol loaded.id (flushArticle loaded assigned encoded) t.rows) :
      Effect t t' clock nextId (.update loaded assigned)
  | delete (loaded : ArticleObject)
      (hrows : t'.rows = t.rows.filter fun a => a.id ≠ loaded.id) :
      Effect t t' clock nextId (.delete loaded)

theorem commitArticle_effect {write : ArticleWrite}
    (h : commitArticle t clock nextId write = .ok (t', answer)) :
    Effect t t' clock nextId write := by
  cases write with
  | insert data =>
    obtain ⟨row, hrow, h⟩ := bind_eq_ok.mp h
    obtain ⟨t₁, hwrite, h⟩ := bind_eq_ok.mp h
    obtain ⟨rfl, -⟩ := Prod.mk.inj (Except.ok.inj h)
    exact .insert data row hrow (ArticleTable.write_ok hwrite)
  | update loaded assigned =>
    simp only [commitArticle] at h
    split at h
    next => cases h
    next stored _ =>
      split at h
      -- no attribute has changed, so no statement is sent
      next hclean =>
        obtain ⟨rfl, -⟩ := Prod.mk.inj (Except.ok.inj h)
        rw [hclean]
        exact .same loaded rfl
      next =>
        obtain ⟨encoded, hencoded, h⟩ := bind_eq_ok.mp h
        obtain ⟨t₁, hwrite, h⟩ := bind_eq_ok.mp h
        obtain ⟨rfl, -⟩ := Prod.mk.inj (Except.ok.inj h)
        exact .update loaded assigned encoded hencoded (ArticleTable.write_ok hwrite)
  | delete loaded =>
    obtain ⟨t₁, hwrite, h⟩ := bind_eq_ok.mp h
    obtain ⟨rfl, -⟩ := Prod.mk.inj (Except.ok.inj h)
    exact .delete loaded (ArticleTable.write_ok hwrite)

theorem newRow_id {data : ArticleData} {row : Article} (h : newRow data nextId clock = .ok row) :
    row.id = nextId := by
  obtain ⟨encoded, -, h⟩ := bind_eq_ok.mp h
  split at h
  next => cases h
  next => rw [← Except.ok.inj h]

/-- A new row is found under the number it was given. -/
theorem effect_insert_find {data : ArticleData} (h : Effect t t' clock nextId (.insert data)) :
    ∃ row, t'.find nextId = some row := by
  cases h with
  | insert data row hrow hrows =>
    refine ⟨row, ArticleTable.find_eq_some.mpr ⟨?_, newRow_id hrow⟩⟩
    rw [hrows]
    exact List.mem_append_right _ (List.mem_singleton_self row)

/-- An updated row is still there. -/
theorem effect_update_find {loaded assigned : ArticleObject} {stored : Article}
    (hstored : t.find loaded.id = some stored)
    (h : Effect t t' clock nextId (.update loaded assigned)) :
    ∃ row, t'.find loaded.id = some row := by
  obtain ⟨hmem, hid⟩ := ArticleTable.find_eq_some.mp hstored
  cases h with
  | same loaded hrows =>
    refine ⟨stored, ArticleTable.find_eq_some.mpr ⟨?_, hid⟩⟩
    rw [hrows]
    exact hmem
  | update loaded assigned encoded hencoded hrows =>
    refine ⟨flushArticle loaded assigned encoded stored, ArticleTable.find_eq_some.mpr ⟨?_, hid⟩⟩
    rw [hrows]
    exact mem_updateWhere_of_eq hmem (ArticleOf.idCol_eq_some.mpr hid)

/-- **What a successful request does to the rows.** -/
theorem perform_effect {s : Posts} {c : PostCall} (h : perform env s c = .ok (t', answer)) :
    ∃ write, prepare env s.articles s.clock c.actor c.request = .ok write ∧
      Effect s.articles t' s.clock c.nextId write := by
  obtain ⟨write, hprepare, h⟩ := bind_eq_ok.mp h
  exact ⟨write, hprepare, commitArticle_effect (mapError_eq_ok.mp h)⟩

/-- An event either leaves the table alone or is a successful request. -/
theorem serve_cases {s s' : Posts} {e : PostEvent} (h : serve env s e = some s') :
    s'.articles = s.articles ∨
      ∃ c answer, e = .call c ∧ perform env s c = .ok (s'.articles, answer) ∧
        s'.clock = s.clock := by
  cases e with
  | tick microseconds =>
    obtain rfl := Option.some.inj h
    exact .inl rfl
  | call c =>
    simp only [serve] at h
    split at h
    next articles answer hperform =>
      obtain rfl := Option.some.inj h
      exact .inr ⟨c, answer, rfl, hperform, rfl⟩
    next =>
      obtain rfl := Option.some.inj h
      exact .inl rfl

end SarkariWorld.Content
