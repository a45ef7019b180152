import SarkariWorld.Content.Listing
import SarkariWorld.Content.Pagination

/-!
# Bookmarks

The `Bookmark` table, `services/bookmarks.py` and the two endpoints of
`routers/v1/account.py`. A bookmark points at its article by number, without a
foreign key: articles come and go under it.

`toggle` has the two halves of every write, so that calls can overlap: it looks
for the bookmark and decides (`toggle`), and its commit carries the decision
out (`commitBookmark`).

Two unique columns are part of the table: the number, and the pair of reader and article.
It is the second that two overlapping toggles run into. Deleting an article leaves its
bookmarks where they are, and the list of a reader shows such a bookmark without its
article.

`list_by_user` joins on the number of the article alone. That the joined article may be a
draft by then is a fact about the code, and the lists of this module show it; what it
means for readers is in `Site.BookmarkLists`.
-/

namespace SarkariWorld.Content

open SarkariWorld.Lib Std

/-- A row of the table. `user_id` and `article_id` are plain integers. -/
structure Bookmark where
  id : Int
  userId : Int
  articleId : Int
  createdAt : Int
  deriving DecidableEq, Repr

/-! ## The table -/

/-- The primary key, as a column. -/
def Bookmark.idCol (b : Bookmark) : Option Int := some b.id

/-- `(user_id, article_id)`, as a column. -/
def Bookmark.pairCol (b : Bookmark) : Option (Int × Int) := some (b.userId, b.articleId)

@[simp] theorem Bookmark.idCol_eq_some {b : Bookmark} {i : Int} : b.idCol = some i ↔ b.id = i := by
  simp [Bookmark.idCol]

@[simp] theorem Bookmark.pairCol_eq_some {b : Bookmark} {userId articleId : Int} :
    b.pairCol = some (userId, articleId) ↔ b.userId = userId ∧ b.articleId = articleId := by
  simp [Bookmark.pairCol]

/-- The row fits its columns: three `Integer` and a `TIMESTAMP(3)`. -/
def Bookmark.Fits (b : Bookmark) : Prop :=
  Int4 b.id ∧ Int4 b.userId ∧ Int4 b.articleId ∧ timestamp3 b.createdAt = b.createdAt

instance Bookmark.decidableFits (b : Bookmark) : Decidable b.Fits :=
  inferInstanceAs (Decidable (_ ∧ _ ∧ _ ∧ _))

/-- The table: rows that fit, with unique numbers and pairs. -/
structure BookmarkTable where
  rows : List Bookmark
  fits : ∀ b ∈ rows, b.Fits
  uniqueId : UniqueCol Bookmark.idCol rows
  uniquePair : UniqueCol Bookmark.pairCol rows

/-- A table without rows. -/
def BookmarkTable.empty : BookmarkTable := ⟨[], by simp, List.nodup_nil, List.nodup_nil⟩

/-- Store a new version of the table, unless the schema refuses it. -/
def BookmarkTable.write (rows : List Bookmark) : Except PyError BookmarkTable :=
  if hfits : ∀ b ∈ rows, b.Fits then
    if hunique : UniqueCol Bookmark.idCol rows ∧ UniqueCol Bookmark.pairCol rows then
      .ok ⟨rows, hfits, hunique.1, hunique.2⟩
    else .error .integrityError
  else .error .dataError

theorem BookmarkTable.write_ok {rows : List Bookmark} {t : BookmarkTable}
    (h : BookmarkTable.write rows = .ok t) : t.rows = rows := by
  unfold BookmarkTable.write at h
  split at h
  next =>
    split at h
    next => rw [← Except.ok.inj h]
    next => cases h
  next => cases h

/-- `DELETE … WHERE id = …`. Without such a row it deletes none. -/
def BookmarkTable.delete (t : BookmarkTable) (id : Int) : BookmarkTable where
  rows := t.rows.filter fun b => b.id ≠ id
  fits := fun b hb => t.fits b (List.mem_filter.mp hb).1
  uniqueId := t.uniqueId.sublist List.filter_sublist
  uniquePair := t.uniquePair.sublist List.filter_sublist

/-! ## Toggling -/

/-- What `toggle` has decided on: to take the bookmark it found away, or to make one. -/
inductive BookmarkWrite where
  /-- `session.delete(existing)`. -/
  | delete (existing : Bookmark)
  /-- `session.add(Bookmark(…))`. -/
  | insert (userId articleId : Int)
  deriving DecidableEq, Repr

/-- `toggle`, up to its commit. -/
def toggle (t : BookmarkTable) (userId articleId : Int) : BookmarkWrite :=
  match lookup Bookmark.pairCol (userId, articleId) t.rows with
  | some existing => .delete existing
  | none => .insert userId articleId

/-- What `toggle` returns. -/
def BookmarkWrite.bookmarked : BookmarkWrite → Bool
  | .delete _ => false
  | .insert _ _ => true

/-- `session.commit()`. -/
def commitBookmark (t : BookmarkTable) (clock : Nat) (nextId : Int) :
    BookmarkWrite → Except PyError BookmarkTable
  | .delete existing => .ok (t.delete existing.id)
  | .insert userId articleId =>
    BookmarkTable.write (t.rows ++ [⟨nextId, userId, articleId, timestamp3 (nowIst clock)⟩])

/-! ## The reader's list -/

/-- What a reader's list shows of an article. -/
structure BookmarkedArticle where
  slug : Text
  title : Text
  category : Text
  deriving DecidableEq, Repr

/-- A line of a reader's list. The article may be gone. -/
structure BookmarkItem where
  articleId : Int
  createdAt : Text
  article : Option BookmarkedArticle
  deriving DecidableEq, Repr

/-- `category_enum_to_slug`. -/
def categoryEnumToSlug (category : ArticleCategory) : Text :=
  replaceAll (literal "_".toList) "-".toList category.value

/-- `ORDER BY created_at DESC, id DESC`. -/
def latestFirst : Bookmark → Bookmark → Ordering :=
  compareLex (descOn Bookmark.createdAt) (descOn Bookmark.id)

/-- The rows `list_by_user` counts and pages through. -/
def bookmarksOf (t : BookmarkTable) (userId : Int) : List Bookmark :=
  t.rows.filter fun b => b.userId = userId

/-- `list_by_user`. The join is on the articles' primary key, so it gives each
bookmark one row. -/
def listByUser (bookmarks : BookmarkTable) (articles : ArticleTable) (userId : Int)
    (params : PageParams) : List (Bookmark × Option Article) × Nat :=
  let rows := bookmarksOf bookmarks userId
  (params.slice ((orderBy latestFirst rows).map fun b => (b, articles.find b.articleId)),
    rows.length)

/-- A bookmark, with what the join has found, as a line of the list. -/
def bookmarkItem (bookmark : Bookmark) (article : Option Article) : BookmarkItem where
  articleId := bookmark.articleId
  createdAt := toIstIso (naive bookmark.createdAt)
  article := article.map fun a => ⟨a.slug, a.title, categoryEnumToSlug a.category⟩

/-- `list_bookmarks`, for the caller's id. -/
def listBookmarks (bookmarks : BookmarkTable) (articles : ArticleTable) (userId : Int)
    (page perPage : Option Int) : PublicPage BookmarkItem :=
  let params := publicPageParams page perPage
  let (rows, total) := listByUser bookmarks articles userId params
  .build (rows.map fun row => bookmarkItem row.1 row.2) total params

/-- `toggle_bookmark` up to its commit, for the caller's id. -/
def toggleBookmark (bookmarks : BookmarkTable) (articles : ArticleTable) (userId : Int)
    (slug : Text) : Except Failure BookmarkWrite :=
  match findPublishedBySlug articles slug with
  | .error e => .error (.raised e)
  | .ok none => .error (.app (notFoundError ("Article not found: " ++ String.ofList slug)))
  | .ok (some article) => .ok (toggle bookmarks userId article.id)

/-- Reader 7 has bookmarked article 2. -/
def sampleBookmarks : BookmarkTable := ⟨[⟨1, 7, 2, 0⟩], by decide, by decide, by decide⟩

end SarkariWorld.Content
