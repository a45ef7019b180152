import SarkariWorld.Content.Payload
import SarkariWorld.Lib.Sort

/-!
# The queries behind the public pages

The readers' half of `services/articles.py`, and the dashboard's counters. Four
queries select articles for the public: three share `published`, and the search
is one raw statement with a filter of its own. What Postgres contributes to the
search (text search, trigrams, and which of equally ranked rows come first) is
a `SearchEngine`.

`scheduled_hidden_iff` compares the two sides. The dashboard counts published
articles dated forward as scheduled, "so the public site has not surfaced it
yet"; the queries look at the status alone.

Each query is a function of the table, and where the database may choose it chooses by a
parameter: the order of a scan, the scores of a search. So a statement about a query is
one about every choice Postgres can make.

`find_published_by_slug` answers with one row or none, because slugs are unique; the model
keeps `scalar_one_or_none`, which would raise on two. A page of a category and its total
come from one filtered list, though the source sends two statements: nothing is written
between them here, for a reading request is served at one moment.
-/

namespace SarkariWorld.Content

open SarkariWorld.Lib Std

/-! ## Published articles -/

/-- `_published`. -/
def published (rows : List Article) : List Article :=
  rows.filter fun a => a.articleStatus = .published

/-- The rows of the first three queries are those with the status, whatever else they have. -/
@[simp] theorem mem_published {a : Article} {rows : List Article} :
    a ∈ published rows ↔ a ∈ rows ∧ a.articleStatus = .published := by
  simp [published]

/-- `ORDER BY published_at DESC NULLS LAST, id DESC`. -/
def newestFirst : Article → Article → Ordering :=
  compareLex (descOn ArticleOf.publishedAt) (descOn ArticleOf.id)

instance : TransCmp newestFirst := inferInstanceAs (TransCmp (compareLex _ _))

/-- An order that ends in the primary key leaves no ties. -/
theorem separates_of_id {cmp : Article → Article → Ordering} {rows : List Article}
    (hid : UniqueCol ArticleOf.idCol rows) (hcmp : ∀ a b, cmp a b = .eq → a.id = b.id) :
    Separates cmp rows := by
  intro a ha b hb he
  exact eq_of_uniqueCol hid ha hb rfl (congrArg some (hcmp a b he).symm)

/-- `find_published_by_slug`, which is also `find_published_article_by_slug`. -/
def findPublishedBySlug (t : ArticleTable) (slug : Text) : Except PyError (Option Article) :=
  if Storable slug then scalarOneOrNone (whereEq ArticleOf.slugCol slug (published t.rows))
  else .error .dataError

/-- The rows `find_category_page` counts and cuts its page from. -/
def inCategory (t : ArticleTable) (category : ArticleCategory) : List Article :=
  (published t.rows).filter fun a => a.category = category

/-- `find_category_page`: a page of the category's published articles, newest first, and how many
there are. -/
def findCategoryPage (t : ArticleTable) (category : ArticleCategory) (limit offset : Nat) :
    List Article × Nat :=
  let rows := inCategory t category
  (page limit offset (orderBy newestFirst rows), rows.length)

def sitemapMaxRows : Nat := 50000

/-- The rows `list_for_sitemap` selects its four columns of. -/
def listForSitemap (t : ArticleTable) (limit : Nat) : List Article :=
  (orderBy newestFirst (published t.rows)).take limit

/-- `count_published`, which the sitemap compares with its limit. -/
def countPublished (t : ArticleTable) : Nat := (published t.rows).length

/-! ## Search -/

/-- A floating-point score, as a whole number in the same order. -/
abbrev Score := Int

/-- What `_SEARCH_SQL` asks of Postgres. Both generated columns it reads are
functions of the title. -/
structure SearchEngine where
  /-- `title_search @@ plainto_tsquery('simple', q)`. -/
  exactHit : Text → Text → Bool
  /-- `qnorm <% title_normalized`. -/
  fuzzyHit : Text → Text → Bool
  /-- `title_normalized ILIKE '%' || needle || '%'`. -/
  contains : Text → Text → Bool
  /-- `ts_rank`. -/
  exactScore : Text → Text → Score
  /-- `word_similarity`. -/
  fuzzyScore : Text → Text → Score
  /-- `exact_score * 0.65 + fuzzy_score * 0.35`. -/
  blend : Score → Score → Score
  /-- The order in which the `LIMIT` of the prefilter meets equally ranked rows. -/
  scan : List Article → List Article
  /-- The same, for the outer `ORDER BY`. -/
  rescan : List Article → List Article
  scan_perm : ∀ rows, (scan rows).Perm rows
  rescan_perm : ∀ rows, (rescan rows).Perm rows
  /-- Ties are broken by the rows themselves. -/
  scan_congr : ∀ rows rows', UniqueCol ArticleOf.idCol rows → rows.Perm rows' →
    scan rows = scan rows'

def searchQueryMax : Nat := 100
def searchResultMax : Nat := 250
/-- The prefilter's `LIMIT`. -/
def candidatesMax : Nat := 200

/-- `re.sub("[…]+", " ", t)`, for the characters in `p`; the flag says that the run
being passed over has been written already. -/
def blankRuns (p : Char → Bool) : Bool → Text → Text
  | _, [] => []
  | inRun, c :: cs =>
    if p c then if inRun then blankRuns p true cs else ' ' :: blankRuns p true cs
    else c :: blankRuns p false cs

/-- `[^a-z0-9 ]`, on one character. -/
def nonAlnum (c : Char) : Bool := !(c.isLower || c.isDigit || c == ' ')

/-- `_normalise_query`. -/
def normaliseQuery (env : Env) (query : Text) : Text :=
  strip (blankRuns isSpace false (blankRuns nonAlnum false (env.lower query)))

/-- The `WHERE` of the prefilter. -/
def matchesQuery (engine : SearchEngine) (q qnorm : Text) (a : Article) : Bool :=
  a.articleStatus = .published && (engine.exactHit q a.title || engine.fuzzyHit qnorm a.title ||
    engine.contains qnorm a.title)

/-- `exact_hit DESC, substr_hit DESC`. -/
def prefilterOrder (engine : SearchEngine) (q qnorm : Text) : Article → Article → Ordering :=
  compareLex (descOn fun a => engine.exactHit q a.title)
    (descOn fun a => engine.contains qnorm a.title)

/-- The five keys of the outer `ORDER BY`. -/
def searchOrder (engine : SearchEngine) (q qnorm : Text) (tokens : List Text) :
    Article → Article → Ordering :=
  compareLex (descOn fun a => engine.contains qnorm a.title) <|
    compareLex (descOn fun a => tokens.countP fun token => engine.contains token a.title) <|
      compareLex (descOn fun a =>
          engine.blend (engine.exactScore q a.title) (engine.fuzzyScore qnorm a.title)) <|
        compareLex (descOn fun a => engine.fuzzyScore qnorm a.title)
          (descOn ArticleOf.publishedAt)

/-- `_SEARCH_SQL`. -/
def searchSql (engine : SearchEngine) (t : ArticleTable) (q qnorm : Text) (tokens : List Text)
    (limit : Nat) : List Article :=
  let matching := t.rows.filter (matchesQuery engine q qnorm)
  let candidates := (orderBy (prefilterOrder engine q qnorm) (engine.scan matching)).take
    candidatesMax
  (orderBy (searchOrder engine q qnorm tokens) (engine.rescan candidates)).take limit

/-- `search_published`: the text is stripped and cut, one that is too short finds nothing, and the
rest is one statement. -/
def searchPublished (env : Env) (engine : SearchEngine) (t : ArticleTable) (query : Text)
    (limit : Int) : Except PyError (List Article) :=
  let trimmed := (strip query).take searchQueryMax
  if trimmed.length < 2 then .ok []
  else
    let normalized := normaliseQuery env trimmed
    if normalized = [] then .ok []
    else if Storable trimmed then
      .ok (searchSql engine t trimmed normalized (normalized.splitOn ' ')
        (max 1 (min limit searchResultMax)).toNat)
    else .error .dataError

/-! ## The dashboard -/

def staleDraftDays : Nat := 30
def activityWindowDays : Nat := 7

def day : Nat := 86400 * second

/-- The counters of the dashboard. -/
structure AdminStats where
  total : Nat
  published : Nat
  draft : Nat
  archived : Nat
  scheduled : Nat
  staleDrafts : Nat
  createdRecently : Nat
  publishedRecently : Nat
  activityWindowDays : Nat
  staleDraftDays : Nat
  deriving DecidableEq, Repr

/-- The `FILTER` of the `scheduled` counter. -/
def scheduled (now : Int) (a : Article) : Bool :=
  a.articleStatus = .published && a.publishedAt.any fun p => now < p

/-- `get_admin_stats`: eight aggregates over the whole table, at one moment. -/
def getAdminStats (t : ArticleTable) (clock : Nat) : AdminStats :=
  let now := nowIst clock
  let activitySince := now - activityWindowDays * day
  let staleBefore := now - staleDraftDays * day
  { total := t.rows.length
    published := t.rows.countP fun a => a.articleStatus = .published
    draft := t.rows.countP fun a => a.articleStatus = .draft
    archived := t.rows.countP fun a => a.articleStatus = .archived
    scheduled := t.rows.countP (scheduled now)
    staleDrafts := t.rows.countP fun a => a.articleStatus = .draft && a.updatedAt < staleBefore
    createdRecently := t.rows.countP fun a => activitySince ≤ a.createdAt
    publishedRecently := t.rows.countP fun a => a.articleStatus = .published &&
      a.publishedAt.any fun p => activitySince ≤ p && p ≤ now
    activityWindowDays := activityWindowDays
    staleDraftDays := staleDraftDays }

/-! ## What the public can reach -/

/-- The queries of the public router. -/
inductive PublicQuery where
  | search (query : Text) (limit : Int)
  | categoryPage (category : ArticleCategory) (limit offset : Nat)
  | sitemap (limit : Nat)
  | bySlug (slug : Text)

section PublicQuery

variable (env : Env) (engine : SearchEngine) (t : ArticleTable)

/-- The rows a query returns, if it does not fail. -/
def PublicQuery.rows : PublicQuery → Except PyError (List Article)
  | .search query limit => searchPublished env engine t query limit
  | .categoryPage category limit offset => .ok (findCategoryPage t category limit offset).1
  | .sitemap limit => .ok (listForSitemap t limit)
  | .bySlug slug => (findPublishedBySlug t slug).map Option.toList

/-- The query returns this article. -/
def PublicQuery.Returns (query : PublicQuery) (a : Article) : Prop :=
  ∃ rows, query.rows env engine t = .ok rows ∧ a ∈ rows

end PublicQuery

variable {env : Env} {engine : SearchEngine} {t : ArticleTable} {a : Article}

/-- Among the published articles, too, a slug is unique. -/
theorem published_uniqueSlug (t : ArticleTable) :
    UniqueCol ArticleOf.slugCol (published t.rows) :=
  t.uniqueSlug.sublist List.filter_sublist

theorem findPublishedBySlug_eq {slug : Text} (h : Storable slug) :
    findPublishedBySlug t slug = .ok (lookup ArticleOf.slugCol slug (published t.rows)) :=
  (if_pos h).trans (scalarOneOrNone_whereEq (published_uniqueSlug t) slug)

theorem findPublishedBySlug_ok {slug : Text} (h : findPublishedBySlug t slug = .ok (some a)) :
    a ∈ t.rows ∧ a.articleStatus = .published := by
  unfold findPublishedBySlug at h
  split at h
  next =>
    rw [scalarOneOrNone_whereEq (published_uniqueSlug t)] at h
    exact mem_published.mp (mem_of_lookup (Except.ok.inj h)).1
  next => cases h

/-- A published article answers to its slug, whatever its date. -/
theorem bySlug_returns (ha : a ∈ t.rows) (hpub : a.articleStatus = .published) :
    (PublicQuery.bySlug a.slug).Returns env engine t a := by
  have hstorable : Storable a.slug :=
    (t.fits a ha).2.2.2.2 a.slug (by simp [ArticleOf.texts])
  have hfound : lookup ArticleOf.slugCol a.slug (published t.rows) = some a :=
    lookup_of_mem (published_uniqueSlug t) (mem_published.mpr ⟨ha, hpub⟩) rfl
  refine ⟨[a], ?_, List.mem_singleton_self a⟩
  rw [PublicQuery.rows, findPublishedBySlug_eq hstorable, hfound]
  rfl

theorem scheduled_iff {now : Int} :
    scheduled now a = true ↔ a.articleStatus = .published ∧ ∃ p ∈ a.publishedAt, now < p := by
  simp [scheduled, Option.any_eq_true]

/-- **Scheduled articles stay hidden exactly when there are none**: every published
article can be read under its slug, and the clock plays no part in it. -/
theorem scheduled_hidden_iff (env : Env) (engine : SearchEngine) (t : ArticleTable)
    (clock : Nat) :
    (∀ a ∈ t.rows, scheduled (nowIst clock) a = true →
        ∀ query : PublicQuery, ¬ query.Returns env engine t a) ↔
      ∀ a ∈ t.rows, a.articleStatus = .published → ∀ p ∈ a.publishedAt, p ≤ nowIst clock := by
  constructor
  · intro hhidden a ha hpub p hp
    refine Int.not_lt.mp fun hlt => ?_
    exact hhidden a ha (scheduled_iff.mpr ⟨hpub, p, hp, hlt⟩) (.bySlug a.slug)
      (bySlug_returns ha hpub)
  · intro hdated a ha hscheduled
    obtain ⟨hpub, p, hp, hlt⟩ := scheduled_iff.mp hscheduled
    exact absurd (hdated a ha hpub p hp) (Int.not_le.mpr hlt)

/-- An article of the blog, untouched since the epoch. -/
def sampleArticle (id : Int) (slug : Text) (status : ArticleStatus) (publishedAt : Option Int) :
    Article where
  id := id
  title := slug
  description := []
  slug := slug
  category := .blog
  htmlContent := []
  articleStatus := status
  publishedAt := publishedAt
  createdAt := 0
  updatedAt := 0
  authorId := none
  authorName := none
  instagramPostUrl := []
  youtubeVideoUrl := []
  faq := []
  links := []
  coverImageUrl := none
  searchKeyword := []
  metaTitle := none
  metaDescription := none

/-- A table with one published article. -/
def sampleTable : ArticleTable :=
  ⟨[sampleArticle 1 "result".toList .published (some 0)], by decide, by decide, by decide⟩

/-- One article, published today and dated tomorrow. -/
def datedForward : ArticleTable :=
  ⟨[sampleArticle 1 "result".toList .published (some (nowIst 0 + day))], by decide, by decide,
    by decide⟩

/-- A search that finds titles the query is the beginning of, oldest row first. -/
def sampleEngine : SearchEngine where
  exactHit q title := q.isPrefixOf title
  fuzzyHit q title := q.isPrefixOf title
  contains q title := q.isPrefixOf title
  exactScore q _ := q.length
  fuzzyScore q _ := q.length
  blend exact fuzzy := exact + fuzzy
  scan := orderBy (compareOn ArticleOf.id)
  rescan := orderBy (compareOn ArticleOf.id)
  scan_perm := orderBy_perm _
  rescan_perm := orderBy_perm _
  scan_congr _ _ hid hperm :=
    orderBy_eq_of_perm (separates_of_id hid fun _ _ he => LawfulEqOrd.eq_of_compare he) hperm

/-- The dashboard counts it as not surfaced yet, and the public reads it. -/
theorem scheduled_article_is_public :
    (getAdminStats datedForward 0).scheduled = 1 ∧ ∀ env : Env,
      ¬ ∀ a ∈ datedForward.rows, scheduled (nowIst 0) a = true →
        ∀ query : PublicQuery, ¬ query.Returns env sampleEngine datedForward a := by
  refine ⟨by decide, fun env hhidden => ?_⟩
  have hmem := List.mem_singleton_self
    (sampleArticle 1 "result".toList .published (some (nowIst 0 + day)))
  exact hhidden _ hmem (by decide) (.bySlug _) (bySlug_returns hmem rfl)

end SarkariWorld.Content
