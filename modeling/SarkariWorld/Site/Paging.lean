import SarkariWorld.Site.Public

/-!
# Walking a listing

A category's articles and a reader's bookmarks are the two public listings.
Both hand out consecutive pages of their sorted rows, so what is known of a walk
along `next_page` holds of them: `walks_cover_iff`.

The two endpoints build their pages from `PageParams` in different ways, one through
`PublicPage.build` and one inline. `Pages` (in `Content.Pagination`) is what both come to:
page `n` is the `n`-th slice of one list. From there on the walk is the same for both.
-/

namespace SarkariWorld.Site

open SarkariWorld.Lib SarkariWorld.Content Std

/-- One request of a walk through a category. -/
def categoryPages (env : Env) (t : ArticleTable) (category : Text) (perPage : Option Int)
    (page : Int) : Except Failure (PublicPage ArticleCard) :=
  (listCategory env t category (some page) perPage).map CategoryPage.page

/-- One request of a walk through the caller's bookmarks. -/
def bookmarkPages (d : Database) (userId : Int) (perPage : Option Int) (page : Int) :
    Except Failure (PublicPage BookmarkItem) :=
  .ok (listBookmarks d.bookmarks d.articles userId (some page) perPage)

/-- The items of a reader's list, in no particular order. -/
def bookmarkItems (d : Database) (userId : Int) : List BookmarkItem :=
  (bookmarksOf d.bookmarks userId).map fun b => bookmarkItem b (d.articles.find b.articleId)

variable {env : Env} (d : Database) (perPage : Option Int)

/-- Rendering the rows of a page renders a page of the rendered rows. -/
theorem slice_map {α β : Type} (params : PageParams) (f : α → β) (rows : List α) :
    (params.slice rows).map f = params.slice (rows.map f) := by
  simp only [PageParams.slice, Lib.page, List.map_take, List.map_drop]

/-- The pages of a category slice its published articles, newest first. -/
theorem categoryPages_pages {category : Text} {resolved : ArticleCategory}
    (h : categorySlugToEnum env (some category) = some resolved) :
    Pages (categoryPages env d.articles category perPage) perPage
      ((orderBy newestFirst (inCategory d.articles resolved)).map articleCard) := by
  intro page _ params
  rw [← slice_map, List.length_map, orderBy_length]
  simp only [categoryPages, listCategory, h, findCategoryPage, Except.map]
  rfl

/-- The pages of a reader slice the reader's bookmarks, latest first. -/
theorem bookmarkPages_pages (userId : Int) :
    Pages (bookmarkPages d userId perPage) perPage
      ((orderBy latestFirst (bookmarksOf d.bookmarks userId)).map fun b =>
        bookmarkItem b (d.articles.find b.articleId)) := by
  intro page _ params
  simp only [bookmarkPages, listBookmarks, listByUser, slice_map, List.map_map, List.length_map,
    orderBy_length]
  rfl

/-- A walk through a category shows every article once, exactly if the category fits into the pages
that can be asked for. -/
theorem category_walk_iff {category : Text} {resolved : ArticleCategory}
    (h : categorySlugToEnum env (some category) = some resolved) :
    Covers (categoryPages env d.articles category perPage)
        ((inCategory d.articles resolved).map articleCard) ↔
      (inCategory d.articles resolved).length ≤ maxListPage * pageSize perPage := by
  have hwalk := walk_covers_iff (categoryPages_pages d perPage h)
  rw [List.length_map, orderBy_length] at hwalk
  rw [← hwalk]
  exact covers_perm ((orderBy_perm newestFirst _).map articleCard).symm

theorem bookmark_walk_iff (userId : Int) :
    Covers (bookmarkPages d userId perPage) (bookmarkItems d userId) ↔
      (bookmarksOf d.bookmarks userId).length ≤ maxListPage * pageSize perPage := by
  have hwalk := walk_covers_iff (bookmarkPages_pages d perPage userId)
  rw [List.length_map, orderBy_length] at hwalk
  rw [← hwalk]
  exact covers_perm ((orderBy_perm latestFirst _).map _).symm

/-- **A walk along `next_page` receives every row of a listing once exactly when
the rows fit on the thousand pages that can be shown.** -/
theorem walks_cover_iff (env : Env) (d : Database) (perPage : Option Int) :
    (∀ category resolved, categorySlugToEnum env (some category) = some resolved →
      (Covers (categoryPages env d.articles category perPage)
          ((inCategory d.articles resolved).map articleCard) ↔
        (inCategory d.articles resolved).length ≤ maxListPage * pageSize perPage)) ∧
    ∀ userId, Covers (bookmarkPages d userId perPage) (bookmarkItems d userId) ↔
      (bookmarksOf d.bookmarks userId).length ≤ maxListPage * pageSize perPage :=
  ⟨fun _ _ h => category_walk_iff d perPage h, fun userId => bookmark_walk_iff d perPage userId⟩

/-- A short listing is covered. -/
theorem blog_walk_covers :
    Covers (categoryPages sampleEnv busySite.articles "blog".toList (some 1))
      ((inCategory busySite.articles .blog).map articleCard) :=
  ((walks_cover_iff sampleEnv busySite (some 1)).1 "blog".toList .blog (by decide)).mpr (by decide)

/-- Reader 7 bookmarks the articles from 0 on. -/
def firstBookmarks (n : Nat) : List Bookmark :=
  (List.range n).map fun i : Nat => ⟨i, 7, i, 0⟩

/-- The rows of the example are rows the table can hold. -/
theorem firstBookmarks_fits {n : Nat} (hn : n ≤ 2147483648) : ∀ b ∈ firstBookmarks n, b.Fits := by
  intro b hb
  obtain ⟨i, hi, rfl⟩ := List.mem_map.mp hb
  have hlt : i < n := List.mem_range.mp hi
  have hint : Int4 i := ⟨by omega, by omega⟩
  have hreader : Int4 7 := by decide
  exact ⟨hint, hreader, hint, rfl⟩

/-- No two of them share a key that tells their numbers apart. -/
theorem firstBookmarks_unique {κ : Type} [DecidableEq κ] {key : Bookmark → κ} (n : Nat)
    (hkey : ∀ i j : Nat, key ⟨i, 7, i, 0⟩ = key ⟨j, 7, j, 0⟩ → i = j) :
    UniqueCol (fun b => some (key b)) (firstBookmarks n) := by
  have hmap : (firstBookmarks n).filterMap (fun b => some (key b)) =
      (List.range n).map fun i : Nat => key ⟨i, 7, i, 0⟩ := by
    rw [firstBookmarks, List.filterMap_map]
    exact congrFun List.filterMap_eq_map _
  rw [UniqueCol, hmap]
  exact List.nodup_range.map (fun i j he => hkey i j he)

/-- A site where reader 7 has `n` bookmarks. -/
def collectorSite (n : Nat) (hn : n ≤ 2147483648) : Database where
  users := sampleSite.users
  articles := .empty
  bookmarks := {
    rows := firstBookmarks n
    fits := firstBookmarks_fits hn
    uniqueId := firstBookmarks_unique n fun _ _ he => Int.ofNat.inj he
    uniquePair := firstBookmarks_unique n fun _ _ he => Int.ofNat.inj (Prod.mk.inj he).2 }
  webUrls := .empty

theorem firstBookmarks_length (n : Nat) : (firstBookmarks n).length = n := by
  rw [firstBookmarks, List.length_map, List.length_range]

theorem collectorSite_bookmarks {n : Nat} (hn : n ≤ 2147483648) :
    bookmarksOf (collectorSite n hn).bookmarks 7 = firstBookmarks n := by
  refine List.filter_eq_self.mpr fun b hb => decide_eq_true ?_
  obtain ⟨i, -, rfl⟩ := List.mem_map.mp hb
  rfl

/-- A thousand and one bookmarks, one at a time, never come to an end. -/
theorem bookmark_walk_endless :
    ¬ Covers (bookmarkPages (collectorSite 1001 (by omega)) 7 (some 1))
      (bookmarkItems (collectorSite 1001 (by omega)) 7) := by
  rw [bookmark_walk_iff, collectorSite_bookmarks, firstBookmarks_length]
  decide

end SarkariWorld.Site
