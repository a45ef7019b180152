import SarkariWorld.Admin.Listings
import SarkariWorld.Admin.Timelines
import SarkariWorld.Lib.Rankings
import SarkariWorld.Lib.TopRows

/-!
# The bookmark overview

`overview` of `services/bookmarks.py`: the totals, the articles bookmarked most, the
readers with the most bookmarks, the latest bookmarks and the timeline, each a query of
its own. `overview_exact` says what an admin can rely on in the answer, and that the
counts in it are those of the listings the same admin can open.

The order in which the database scans and groups is a parameter (`Lib.Groups`), and what
is said holds for every one. It shows in one place: groups are sorted by their size and
then by a number, but `_RECENT` leaves rows of the same millisecond in any order.

The statements are raw SQL in the source, and each is one definition here. `_TOP_ARTICLES`
and `_TOP_USERS` group by the columns of an outer join besides the number; since a number
has one row at most, these columns add no groups, which is what `TopLines` rests on.
`_RECENT` sorts by the date alone. The limits come from the query string, within the
bounds of the route.
-/

namespace SarkariWorld.Admin

open SarkariWorld.Lib SarkariWorld.Content Std

/-! ## The queries -/

/-- `_OVERVIEW_TOTALS`: all bookmarks, and how many readers and articles there are among them. -/
structure BookmarkTotals where
  bookmarks : Nat
  users : Nat
  articles : Nat
  deriving DecidableEq, Repr

/-- A line of `_TOP_ARTICLES`. The slug, the title and the category are those of the article, if it
still exists. -/
structure TopArticle where
  articleId : Int
  count : Nat
  slug : Option Text
  title : Option Text
  category : Option Text
  deriving DecidableEq, Repr

/-- A line of `_TOP_USERS`, with the address of the account if there is one. -/
structure TopUser where
  userId : Int
  count : Nat
  email : Option Text
  deriving DecidableEq, Repr

/-- A line of `_RECENT`, with the time as `to_ist_iso` prints it. -/
structure RecentBookmark where
  userId : Int
  articleId : Int
  createdAt : Option Text
  deriving DecidableEq, Repr

/-- The answer of `GET /admin/bookmarks/overview`, part by part. -/
structure BookmarkOverview where
  totals : BookmarkTotals
  topArticles : List TopArticle
  topUsers : List TopUser
  recent : List RecentBookmark
  timeline : List BookmarkPoint
  windowDays : Nat
  deriving DecidableEq, Repr

/-- The parameters of `GET /admin/bookmarks/overview`, as FastAPI accepts them. -/
structure OverviewQuery where
  articleLimit : Nat
  userLimit : Nat
  recentLimit : Nat
  days : Nat
  articleLimit_valid : 1 ≤ articleLimit ∧ articleLimit ≤ 200
  userLimit_valid : 1 ≤ userLimit ∧ userLimit ≤ 200
  recentLimit_valid : 1 ≤ recentLimit ∧ recentLimit ≤ 200
  days_valid : 1 ≤ days ∧ days ≤ 365

/-- `_OVERVIEW_TOTALS`. -/
def overviewTotals (t : BookmarkTable) : BookmarkTotals where
  bookmarks := t.rows.length
  users := (t.rows.map Bookmark.userId).dedup.length
  articles := (t.rows.map Bookmark.articleId).dedup.length

/-- `b."article_id", a."slug", a."title", a."category"`, of a bookmark joined with its
article, if there still is one. -/
abbrev ArticleKey := Int × Option (Text × Text × ArticleCategory)

/-- What `_TOP_ARTICLES` groups by: the article's number, with the three columns its outer join
finds. -/
def articleKey (articles : ArticleTable) (b : Bookmark) : ArticleKey :=
  (b.articleId, (articles.find b.articleId).map fun a => (a.slug, a.title, a.category))

/-- A group of bookmarks as a line of the answer. -/
def topArticle (g : ArticleKey × Nat) : TopArticle where
  articleId := g.1.1
  count := g.2
  slug := g.1.2.map fun a => a.1
  title := g.1.2.map fun a => a.2.1
  -- `_slugify_category`
  category := g.1.2.map fun a => categoryEnumToSlug a.2.2

/-- `b."user_id", u."email"`. -/
abbrev UserKey := Int × Option Text

/-- What `_TOP_USERS` groups by: the reader's number, with the address its outer join finds. -/
def userKey (users : Auth.UserTable) (b : Bookmark) : UserKey :=
  (b.userId, (users.find b.userId).map Auth.User.email)

/-- A group of one reader's bookmarks as a line of the answer. -/
def topUser (g : UserKey × Nat) : TopUser := ⟨g.1.1, g.2, g.1.2⟩

/-- A bookmark as a line of the answer. -/
def recentBookmark (b : Bookmark) : RecentBookmark :=
  ⟨b.userId, b.articleId, toIstIso (naive b.createdAt)⟩

/-- The orders the database happens to group and scan in. -/
structure OverviewOrders where
  articles : GroupOrder (ArticleKey × Nat)
  users : GroupOrder (UserKey × Nat)
  scan : GroupOrder Bookmark

/-- `overview`. -/
def overview (orders : OverviewOrders) (t : BookmarkTable) (articles : ArticleTable)
    (users : Auth.UserTable) (query : OverviewQuery) (clock : Nat) : BookmarkOverview where
  totals := overviewTotals t
  topArticles := (ranking orders.articles Prod.fst (articleKey articles) t.rows
    query.articleLimit).map topArticle
  topUsers := (ranking orders.users Prod.fst (userKey users) t.rows query.userLimit).map topUser
  recent := ((orderBy (descOn Bookmark.createdAt) (orders.scan.arrange t.rows)).take
    query.recentLimit).map recentBookmark
  timeline := bookmarkTimeline t query.days clock
  windowDays := query.days

/-! ## What they answer -/

/-- The lines are the values of `column` with the most bookmarks: each with their number,
in the right order, and none better left out. -/
structure TopLines {τ : Type} (id : τ → Int) (count : τ → Nat) (column : Bookmark → Int)
    (t : BookmarkTable) (limit : Nat) (lines : List τ) : Prop where
  length : lines.length = min limit (t.rows.map column).dedup.length
  counts : ∀ l ∈ lines, (∃ b ∈ t.rows, column b = id l) ∧
    count l = t.rows.countP fun b => column b = id l
  ordered : lines.Pairwise fun l l' => count l' < count l ∨ count l' = count l ∧ id l < id l'
  best : ∀ b ∈ t.rows, (∀ l ∈ lines, id l ≠ column b) → ∀ l ∈ lines,
    t.rows.countP (fun b' => column b' = column b) < count l ∨
      t.rows.countP (fun b' => column b' = column b) = count l ∧ id l < column b
  sum : (lines.map count).sum ≤ t.rows.length ∧
    ((t.rows.map column).dedup.length ≤ limit → (lines.map count).sum = t.rows.length)

section TopLines

variable {τ κ : Type} [DecidableEq κ] {id : τ → Int} {count : τ → Nat} {column : Bookmark → Int}
  {t : BookmarkTable} {limit : Nat}

/-- A ranking by a key that the column determines. -/
theorem topLines_of_ranking (order : GroupOrder ((Int × κ) × Nat)) (extra : Int → κ)
    (line : (Int × κ) × Nat → τ) (hid : ∀ g, id (line g) = g.1.1)
    (hcount : ∀ g, count (line g) = g.2) :
    TopLines id count column t limit
      ((ranking order Prod.fst (fun b => (column b, extra (column b))) t.rows limit).map line) := by
  -- the further columns of the group are a function of the number and split no group
  have hkey : ∀ {b b'}, (column b, extra (column b)) = (column b', extra (column b')) ↔
      column b = column b' :=
    ⟨fun h => congrArg Prod.fst h, fun h => by rw [h]⟩
  -- so there are as many groups as numbers
  have hdistinct : (t.rows.map fun b => (column b, extra (column b))).dedup.length =
      (t.rows.map column).dedup.length := by
    have hmap : (t.rows.map fun b => (column b, extra (column b))) =
        (t.rows.map column).map fun i => (i, extra i) := by
      rw [List.map_map]
      rfl
    rw [hmap, List.dedup_map_of_injective fun i j h => congrArg Prod.fst h, List.length_map]
  have hcountP : ∀ b, t.rows.countP (fun b' => (column b', extra (column b')) =
      (column b, extra (column b))) = t.rows.countP fun b' => column b' = column b := fun b =>
    List.countP_congr fun b' _ => by rw [decide_eq_true_eq, decide_eq_true_eq, hkey]
  have hranked : Ranked Prod.fst (fun b => (column b, extra (column b))) t.rows limit
      (ranking order Prod.fst (fun b => (column b, extra (column b))) t.rows limit) :=
    ranked_ranking fun a _ b _ h => hkey.mpr h
  obtain ⟨hle, heq⟩ := ranking_sum order Prod.fst (fun b => (column b, extra (column b))) t.rows
    limit
  refine ⟨?_, fun l hl => ?_, ?_, fun b hb hout l hl => ?_, ?_⟩
  · rw [List.length_map, hranked.length, hdistinct]
  · obtain ⟨g, hg, rfl⟩ := List.mem_map.mp hl
    obtain ⟨⟨b, hb, hbkey⟩, hcounted⟩ := hranked.counts g hg
    have hcolumn : column b = id (line g) := by rw [hid, ← hbkey]
    refine ⟨⟨b, hb, hcolumn⟩, ?_⟩
    rw [hcount, hcounted, ← hbkey, hcountP, hcolumn]
  · refine List.pairwise_map.mpr (hranked.ordered.imp fun habove => ?_)
    rw [hcount, hcount, hid, hid]
    exact habove
  · obtain ⟨g, hg, rfl⟩ := List.mem_map.mp hl
    have habove := hranked.best b hb (fun g' hg' he => hout (line g')
      (List.mem_map_of_mem hg') ((hid g').trans (congrArg Prod.fst he))) g hg
    rw [hcount, hid, ← hcountP]
    exact habove
  · have hcounts : ∀ gs : List ((Int × κ) × Nat), (gs.map line).map count = gs.map Prod.snd := by
      intro gs
      rw [List.map_map]
      exact List.map_congr_left fun g _ => hcount g
    rw [hcounts, ← hdistinct]
    exact ⟨hle, heq⟩

end TopLines

/-- The listing of one article: the total is the number of its bookmarks. -/
theorem listAll_article {t : BookmarkTable} {i : Int} (hfits : Int4 i) (params : PageParams) :
    ∃ rows, listAll t none (some i) params =
      .ok (rows, t.rows.countP fun b => b.articleId = i) := by
  have hfilters : (∀ j ∈ (none : Option Int), Int4 j) ∧ ∀ j ∈ some i, Int4 j := by
    constructor
    · intro j hj
      cases hj
    · intro j hj
      cases hj
      exact hfits
  refine ⟨params.slice (orderBy latestFirst (t.rows.filter fun b => b.articleId = i)), ?_⟩
  rw [listAll, if_pos hfilters, List.countP_eq_length_filter]
  rfl

/-- What an admin can rely on. -/
structure OverviewExact (t : BookmarkTable) (articles : ArticleTable) (users : Auth.UserTable)
    (query : OverviewQuery) (o : BookmarkOverview) : Prop where
  topArticles : TopLines TopArticle.articleId TopArticle.count Bookmark.articleId t
    query.articleLimit o.topArticles
  topUsers : TopLines TopUser.userId TopUser.count Bookmark.userId t query.userLimit o.topUsers
  /-- An article is named as long as it is there, whatever its status. -/
  named : ∀ l ∈ o.topArticles, l.slug = (articles.find l.articleId).map ArticleOf.slug ∧
    l.title = (articles.find l.articleId).map ArticleOf.title ∧
    l.category = (articles.find l.articleId).map fun a => categoryEnumToSlug a.category
  addressed : ∀ l ∈ o.topUsers, l.email = (users.find l.userId).map Auth.User.email
  recent : ∃ rows, FirstRows (descOn Bookmark.createdAt) query.recentLimit t.rows rows ∧
    o.recent = rows.map recentBookmark
  totals : o.totals.bookmarks = t.rows.length ∧ o.topArticles.length ≤ o.totals.articles ∧
    o.topUsers.length ≤ o.totals.users
  /-- The counts are the totals of the listings of the article and of the reader. -/
  listed : (∀ l ∈ o.topArticles, ∀ params, ∃ rows,
      listAll t none (some l.articleId) params = .ok (rows, l.count)) ∧
    ∀ l ∈ o.topUsers, ∀ params, (listByUser t articles l.userId params).2 = l.count

/-- **The overview is exact**, in whatever orders the database groups and scans. -/
theorem overview_exact (orders : OverviewOrders) (t : BookmarkTable) (articles : ArticleTable)
    (users : Auth.UserTable) (query : OverviewQuery) (clock : Nat) :
    OverviewExact t articles users query (overview orders t articles users query clock) := by
  have htopArticles : TopLines TopArticle.articleId TopArticle.count Bookmark.articleId t
      query.articleLimit (overview orders t articles users query clock).topArticles :=
    topLines_of_ranking orders.articles
      (fun i => (articles.find i).map fun a => (a.slug, a.title, a.category)) topArticle
      (fun _ => rfl) fun _ => rfl
  have htopUsers : TopLines TopUser.userId TopUser.count Bookmark.userId t query.userLimit
      (overview orders t articles users query clock).topUsers :=
    topLines_of_ranking orders.users (fun i => (users.find i).map Auth.User.email) topUser
      (fun _ => rfl) fun _ => rfl
  refine ⟨htopArticles, htopUsers, fun l hl => ?_, fun l hl => ?_,
    ⟨_, firstRows_orderBy (orders.scan.perm _), rfl⟩, ⟨rfl, ?_, ?_⟩, fun l hl params => ?_,
    fun l hl params => ?_⟩
  -- a line's labels are those of the row its number joins, when there is one
  · obtain ⟨g, hg, rfl⟩ := List.mem_map.mp hl
    obtain ⟨⟨b, -, hkey⟩, -⟩ := ranking_counts hg
    unfold topArticle
    rw [← hkey]
    exact ⟨Option.map_map .., Option.map_map .., Option.map_map ..⟩
  · obtain ⟨g, hg, rfl⟩ := List.mem_map.mp hl
    obtain ⟨⟨b, -, hkey⟩, -⟩ := ranking_counts hg
    unfold topUser
    rw [← hkey]
    rfl
  · rw [htopArticles.length]
    exact Nat.min_le_right ..
  · rw [htopUsers.length]
    exact Nat.min_le_right ..
  · obtain ⟨⟨b, hb, hcolumn⟩, hcount⟩ := htopArticles.counts l hl
    rw [hcount]
    exact listAll_article (hcolumn ▸ (t.fits b hb).2.2.1) params
  · rw [(htopUsers.counts l hl).2, List.countP_eq_length_filter]
    rfl

end SarkariWorld.Admin
