import SarkariWorld.Admin.Listings
import SarkariWorld.Lib.Pages

/-!
# Six listings in pages

Every paged query ends its `ORDER BY` in the primary key, "so paging over rows sharing a
timestamp is still stable". `listings_partition` is what that is for: one arrangement of
the rows, cut into pages that neither repeat a row nor leave one out, as far as the
thousandth page.

The argument is the same six times, so it is made once. A `Listing` is a query with its
rows, its order and its pages; it is `Regular` if the order is strict on the rows and the
pages are slices of the ordered rows. From that follows `Partitioned`, and what remains
for each listing is to say why its order is strict: the last column of every one is a
primary key.

The limit of a thousand pages is the `clamp` of `schemas/pagination.py`. Beyond it a
client is given page 1000 again, which is why the statement stops there.

The six are the four of the console, the pages of a category and a reader's bookmarks. The
search, the sitemap and the recent articles are no pages: they have a limit and no offset.
-/

namespace SarkariWorld.Admin

open SarkariWorld.Lib SarkariWorld.Content SarkariWorld.Site Std

/-- A paged query: the rows its filters leave, their order, and the page it answers with. -/
structure Listing (ε α : Type) where
  rows : Except ε (List α)
  /-- The primary key. -/
  key : α → Int
  order : α → α → Ordering
  /-- The clamping of the router that calls it. -/
  params : Option Int → Option Int → PageParams
  fetch : PageParams → Except ε (List α × Nat)

namespace Listing

variable {ε α : Type} (l : Listing ε α) (perPage : Option Int)

/-- The page size a request gets. -/
def size : Nat := (l.params none perPage).perPage.toNat

/-- `min(total_pages, 1000)`. -/
def shown (total : Nat) : Nat := (min ((l.params none perPage).totalPages total) maxListPage).toNat

/-- The pages from 1 to `count`, as they are requested. -/
def receive (count : Nat) : Except ε (List (List α)) :=
  (List.range count).mapM fun n : Nat => (l.fetch (l.params (some (n + 1)) perPage)).map Prod.fst

/-- What paging through a listing promises. -/
structure Partitioned : Prop where
  /-- The `ORDER BY` is a strict total order on rows with distinct keys. -/
  strict : StrictTotal l.order l.key
  /-- A filter that fails, fails on every page. -/
  failed : ∀ e, l.rows = .error e → ∀ params, l.fetch params = .error e
  single : ∀ rows, l.rows = .ok rows → ∀ xs ys, Arranged l.order rows xs →
    Arranged l.order rows ys → xs = ys
  pages : ∀ rows, l.rows = .ok rows → ∀ perPage, ∃ pages,
    l.receive perPage (l.shown perPage rows.length) = .ok pages ∧
      pages.Pairwise List.Disjoint ∧
      (∀ page ∈ pages.dropLast, page.length = l.size perPage) ∧
      ∀ sorted, Arranged l.order rows sorted →
        pages.flatten = sorted.take (min rows.length (1000 * l.size perPage))

/-- How the six are written. -/
structure Regular : Prop where
  answers : ∀ params, l.fetch params =
    l.rows.map fun rows => (params.slice (orderBy l.order rows), rows.length)
  unique : ∀ rows, l.rows = .ok rows → UniqueCol (fun x => some (l.key x)) rows
  /-- The key breaks every tie. -/
  keyed : ∀ a b, l.order a b = .eq → l.key a = l.key b
  size_pos : ∀ perPage, 1 ≤ (l.params none perPage).perPage
  clamps : ∀ page : Int, 1 ≤ page → page ≤ maxListPage → ∀ perPage,
    l.params (some page) perPage = ⟨page, (l.params none perPage).perPage⟩

end Listing

/-! ## Pages -/

section Partition

variable {ε α : Type} {l : Listing ε α} {rows : List α}

theorem mapM_ok {β : Type} {f : β → Except ε α} {g : β → α} {xs : List β}
    (h : ∀ x ∈ xs, f x = .ok (g x)) : xs.mapM f = .ok (xs.map g) := by
  induction xs with
  | nil => rfl
  | cons x xs ih =>
    rw [List.mapM_cons, h x List.mem_cons_self, ih fun y hy => h y (List.mem_cons_of_mem x hy)]
    rfl

/-- The order of a regular listing leaves no two rows level, since its last key is the primary key.
-/
theorem Listing.Regular.separates (hreg : l.Regular) (hrows : l.rows = .ok rows) :
    Separates l.order rows := by
  intro a ha b hb heq
  have hkey : some (l.key b) = some (l.key a) := congrArg some (hreg.keyed a b heq).symm
  exact eq_of_uniqueCol (hreg.unique rows hrows) ha hb rfl hkey

/-- A page is followed by another exactly if there are rows beyond it: what `has_more` and the page
counter of the console rest on. -/
theorem page_lt_totalPages {params : PageParams} {page total : Int} (hpage : 1 ≤ page)
    (hsize : 1 ≤ params.perPage) :
    page < params.totalPages total ↔ page * params.perPage < total :=
  @lt_totalPages ⟨page, params.perPage⟩ total hpage hsize

/-- The last page that is shown starts among the rows, and holds the rest of them unless
it is the thousandth. -/
theorem shown_bounds (hreg : l.Regular) (perPage : Option Int) (total : Nat) :
    l.shown perPage total ≤ 1000 ∧ (l.shown perPage total - 1) * l.size perPage ≤ total ∧
      (l.shown perPage total < 1000 → total ≤ l.shown perPage total * l.size perPage) := by
  have hpos := hreg.size_pos perPage
  generalize hparams : l.params none perPage = params at hpos
  have hpages : 1 ≤ params.totalPages total := Int.le_max_left ..
  have hcap : maxListPage = 1000 := rfl
  have hshown : (l.shown perPage total : Int) = min (params.totalPages total) 1000 := by
    rw [Listing.shown, hparams]
    omega
  have hsize : (l.size perPage : Int) = params.perPage := by
    rw [Listing.size, hparams]
    omega
  generalize l.shown perPage total = shown at hshown ⊢
  generalize l.size perPage = size at hsize ⊢
  refine ⟨by omega, ?_, fun hfew => ?_⟩
  -- the last page that is shown is not empty, unless it is the first
  · by_cases hone : shown ≤ 1
    · have hzero : shown - 1 = 0 := by omega
      rw [hzero, Nat.zero_mul]
      exact Nat.zero_le _
    · have hmore : (shown : Int) - 1 < params.totalPages total := by omega
      have hstart := (page_lt_totalPages (by omega) hpos).mp hmore
      have hcast : ((shown - 1 : Nat) : Int) = shown - 1 := by omega
      refine Nat.le_of_lt (Int.ofNat_lt.mp ?_)
      rw [Int.natCast_mul, hcast, hsize]
      exact hstart
  -- and below the cap nothing is behind it
  · have hlast : ¬ (shown : Int) < params.totalPages total := by omega
    rw [page_lt_totalPages (by omega) hpos] at hlast
    refine Int.ofNat_le.mp ?_
    rw [Int.natCast_mul, hsize]
    exact Int.not_lt.mp hlast

/-- What the requests for the first thousand pages receive. -/
theorem receive_eq (hreg : l.Regular) (hrows : l.rows = .ok rows) (perPage : Option Int)
    {count : Nat} (hcount : count ≤ 1000) :
    l.receive perPage count = .ok (firstPages (l.size perPage) count (orderBy l.order rows)) := by
  unfold Listing.receive firstPages
  refine mapM_ok fun n hn => ?_
  have hlt := List.mem_range.mp hn
  have hcap : maxListPage = 1000 := rfl
  have hpos := hreg.size_pos perPage
  rw [hreg.answers, hrows, hreg.clamps (n + 1) (by omega) (by omega)]
  have hoffset : (PageParams.mk (n + 1) (l.params none perPage).perPage).offset.toNat =
      n * l.size perPage := by
    show (((n : Int) + 1 - 1) * (l.params none perPage).perPage).toNat = _
    rw [Int.add_sub_cancel, Listing.size, Int.toNat_mul (by omega) (by omega), Int.toNat_natCast]
  show Except.ok (Lib.page _ _ (orderBy l.order rows)) = _
  rw [hoffset]
  rfl

/-- From a strict order and the offset arithmetic: the pages, one after the other, are the ordered
rows, without a gap and without a row twice. -/
theorem Listing.Regular.partitioned [TransCmp l.order] (hreg : l.Regular) : l.Partitioned where
  strict := strictTotal_of_key hreg.keyed
  failed e he params := by
    rw [hreg.answers, he]
    rfl
  single rows hrows xs ys hx hy := arranged_unique (hreg.separates hrows) hx hy
  pages rows hrows perPage := by
    obtain ⟨hcap, hlast, hrest⟩ := shown_bounds hreg perPage rows.length
    have hlength : (orderBy l.order rows).length = rows.length := orderBy_length
    refine ⟨_, receive_eq hreg hrows perPage hcap, ?_, ?_, fun sorted hsorted => ?_⟩
    · refine firstPages_disjoint ((orderBy_perm ..).nodup_iff.mpr ?_)
      exact nodup_of_uniqueCol (hreg.unique rows hrows)
    · exact firstPages_full (by rw [hlength]; exact hlast)
    · rw [arranged_unique (hreg.separates hrows) hsorted arranged_orderBy, flatten_firstPages,
        List.take_eq_take_iff, hlength]
      by_cases hfew : l.shown perPage rows.length < 1000
      · have hall := hrest hfew
        have hmore : l.shown perPage rows.length * l.size perPage ≤ 1000 * l.size perPage :=
          Nat.mul_le_mul_right _ hcap
        omega
      · have hfull : l.shown perPage rows.length = 1000 := by omega
        rw [hfull]
        omega

end Partition

/-! ## The six -/

variable (env : ListingEnv)

/-- The rows of `find_category_page`. -/
def categoryListing (t : ArticleTable) (category : ArticleCategory) :
    Listing ListingError Article where
  rows := .ok (inCategory t category)
  key := ArticleOf.id
  order := newestFirst
  params := publicPageParams
  fetch params := .ok (findCategoryPage t category params.perPage.toNat params.offset.toNat)

/-- The rows of `find_for_admin_page`. -/
def adminListing (t : ArticleTable) (query : Option Text) (category : Option ArticleCategory)
    (status : Option ArticleStatus) (field : DateField) (dateFrom dateTo : Option Text) :
    Listing ListingError Article where
  rows := do
    let first ← dayFilter env dateFrom
    let last ← dayFilter env dateTo
    if Bindable query then
      pure (t.rows.filter (adminFilter env query category status field first last))
    else throw .dataError
  key := ArticleOf.id
  order := adminOrder field
  params := adminPageParams
  fetch := findForAdminPage env t query category status field dateFrom dateTo

/-- The bookmarks of `list_by_user`, each without the article it is joined to. -/
def readerListing (bookmarks : BookmarkTable) (articles : ArticleTable) (userId : Int) :
    Listing ListingError Bookmark where
  rows := .ok (bookmarksOf bookmarks userId)
  key := Bookmark.id
  order := latestFirst
  params := publicPageParams
  fetch params := .ok ((listByUser bookmarks articles userId params).map (List.map Prod.fst) id)

/-- The rows of `list_all`. -/
def allListing (t : BookmarkTable) (userId articleId : Option Int) :
    Listing ListingError Bookmark where
  rows := if (∀ i ∈ userId, Int4 i) ∧ ∀ i ∈ articleId, Int4 i then
      .ok (t.rows.filter fun b =>
        userId.all (fun i => b.userId = i) && articleId.all fun i => b.articleId = i)
    else .error .dataError
  key := Bookmark.id
  order := latestFirst
  params := adminPageParams
  fetch := listAll t userId articleId

/-- The rows of `list_users`. -/
def userListing (t : UserRecords) (query : Option Text) (role : Option Auth.UserRole) :
    Listing ListingError UserRecord where
  rows := if Bindable query then
      .ok (t.rows.filter fun u =>
        textFilter env query (fun u : UserRecord => [u.user.name, u.user.email]) u &&
          role.all fun r => u.user.role = r)
    else .error .dataError
  key u := u.user.id
  order := newestUsersFirst
  params := adminPageParams
  fetch := listUsers env t query role

/-- The rows of `list_urls`. -/
def urlListing (t : WebUrlTable) (query : Option Text) (sort : UrlSort) (viewed : Viewed)
    (notViewedSince : Option Text) : Listing ListingError WebUrl where
  rows := do
    let since ← dayFilter env notViewedSince
    if Bindable query then pure (t.rows.filter (urlFilter env query viewed since))
    else throw .dataError
  key := WebUrl.id
  order := urlOrder sort
  params := adminPageParams
  fetch := listUrls env t query sort viewed notViewedSince

/-! Both routers clamp. -/

/-- A page number between one and a thousand is taken as it is. -/
theorem clamp_page {page : Int} (hlow : 1 ≤ page) (hhigh : page ≤ maxListPage) :
    clamp (some page) 1 1 maxListPage = page := by
  show max 1 (min maxListPage page) = page
  omega

/-- The page of a public listing, as long as there are not more than a thousand. -/
theorem publicPageParams_clamps {page : Int} (hlow : 1 ≤ page) (hhigh : page ≤ maxListPage)
    (perPage : Option Int) : publicPageParams (some page) perPage =
      ⟨page, (publicPageParams none perPage).perPage⟩ :=
  congrArg (PageParams.mk · _) (clamp_page hlow hhigh)

/-- The page of a console listing, as long as there are not more than a thousand. -/
theorem adminPageParams_clamps {page : Int} (hlow : 1 ≤ page) (hhigh : page ≤ maxListPage)
    (perPage : Option Int) : adminPageParams (some page) perPage =
      ⟨page, (adminPageParams none perPage).perPage⟩ :=
  congrArg (PageParams.mk · _) (clamp_page hlow hhigh)

/-- A console page has room for a row, whatever `per_page` says. -/
theorem adminPageParams_pos (perPage : Option Int) :
    1 ≤ (adminPageParams none perPage).perPage := by
  show 1 ≤ clamp perPage adminPageSize 1 adminPageSizeMax
  unfold clamp
  split
  · decide
  · omega

/-! The primary key breaks the ties. -/

/-- Rows that an order with a last key puts level have the same key. -/
theorem keyed_last {α : Type} {key : α → Int} {first : α → α → Ordering} {a b : α}
    (h : compareLex first (descOn key) a b = .eq) : key a = key b :=
  descOn_eq (compareLex_eq_eq.mp h).2

instance (field : DateField) : TransCmp (adminOrder field) :=
  inferInstanceAs (TransCmp (compareLex _ _))

instance : TransCmp newestUsersFirst := inferInstanceAs (TransCmp (compareLex _ _))

instance (sort : UrlSort) : TransCmp (urlOrder sort) := by
  cases sort with
  | oldest => exact inferInstanceAs (TransCmp (compareLex _ _))
  | newest => exact inferInstanceAs (TransCmp (compareLex _ _))

/-- Either of the orders of the URL listing ends in the primary key. -/
theorem urlOrder_keyed {sort : UrlSort} {a b : WebUrl} (h : urlOrder sort a b = .eq) :
    a.id = b.id := by
  cases sort with
  | oldest => exact LawfulEqOrd.eq_of_compare (compareLex_eq_eq.mp (compareLex_eq_eq.mp h).2).2
  | newest => exact LawfulEqOrd.eq_of_compare (compareLex_eq_eq.mp (compareLex_eq_eq.mp h).2).2

instance : TransCmp latestFirst := inferInstanceAs (TransCmp (compareLex _ _))

/-! Each of the six is regular. -/

variable {env : ListingEnv}

/-- The public page of a category: newest first, and then by number. -/
theorem categoryListing_regular (t : ArticleTable) (category : ArticleCategory) :
    (categoryListing t category).Regular where
  answers _ := rfl
  unique rows hrows := by
    obtain rfl := Except.ok.inj hrows
    exact t.uniqueId.sublist (List.filter_sublist.trans List.filter_sublist)
  keyed _ _ := keyed_last
  size_pos := pageSize_pos
  clamps _ := publicPageParams_clamps

/-- The articles of the console, under any of their filters. -/
theorem adminListing_regular (t : ArticleTable) (query : Option Text)
    (category : Option ArticleCategory) (status : Option ArticleStatus) (field : DateField)
    (dateFrom dateTo : Option Text) :
    (adminListing env t query category status field dateFrom dateTo).Regular where
  answers params := by
    show findForAdminPage .. = Except.map _ (adminListing ..).rows
    unfold findForAdminPage adminListing
    -- the days are parsed first, so a bad day fails before a query that cannot be bound
    cases dayFilter env dateFrom with
    | error e => rfl
    | ok first =>
      cases dayFilter env dateTo with
      | error e => rfl
      | ok last =>
        by_cases hbind : Bindable query
        · simp only [if_pos hbind]
          rfl
        · simp only [if_neg hbind]
          rfl
  unique rows hrows := by
    obtain ⟨first, -, hrows⟩ := bind_eq_ok.mp hrows
    obtain ⟨last, -, hrows⟩ := bind_eq_ok.mp hrows
    split at hrows
    next =>
      obtain rfl := Except.ok.inj hrows
      exact t.uniqueId.sublist List.filter_sublist
    next => cases hrows
  keyed _ _ := keyed_last
  size_pos := adminPageParams_pos
  clamps _ := adminPageParams_clamps

/-- A reader's own bookmarks, joined with the articles they point at. The join is outer and on a
primary key, so it neither drops nor repeats a row. -/
theorem readerListing_regular (bookmarks : BookmarkTable) (articles : ArticleTable)
    (userId : Int) : (readerListing bookmarks articles userId).Regular where
  answers params := by
    have hjoined : ∀ rows : List Bookmark,
        (params.slice (rows.map fun b => (b, articles.find b.articleId))).map Prod.fst =
          params.slice rows := by
      intro rows
      simp only [PageParams.slice, Lib.page, ← List.map_take, ← List.map_drop, List.map_map]
      exact List.map_id _
    exact congrArg (fun page => Except.ok (page, _)) (hjoined _)
  unique rows hrows := by
    obtain rfl := Except.ok.inj hrows
    exact bookmarks.uniqueId.sublist List.filter_sublist
  keyed _ _ := keyed_last
  size_pos := pageSize_pos
  clamps _ := publicPageParams_clamps

theorem allListing_regular (t : BookmarkTable) (userId articleId : Option Int) :
    (allListing t userId articleId).Regular where
  answers params := by
    show listAll .. = Except.map _ (ite _ _ _)
    unfold listAll
    split
    · rfl
    · rfl
  unique rows hrows := by
    change (ite _ _ _) = _ at hrows
    split at hrows
    next =>
      obtain rfl := Except.ok.inj hrows
      exact t.uniqueId.sublist List.filter_sublist
    next => cases hrows
  keyed _ _ := keyed_last
  size_pos := adminPageParams_pos
  clamps _ := adminPageParams_clamps

theorem userListing_regular (t : UserRecords) (query : Option Text) (role : Option Auth.UserRole) :
    (userListing env t query role).Regular where
  answers params := by
    show listUsers .. = Except.map _ (ite _ _ _)
    unfold listUsers buildUserListQuery
    split
    · exact congrArg (fun total => Except.ok (_, total)) orderBy_length
    · rfl
  unique rows hrows := by
    change (ite _ _ _) = _ at hrows
    split at hrows
    next =>
      obtain rfl := Except.ok.inj hrows
      have hid : UniqueCol Auth.User.idCol (t.rows.map UserRecord.user) := t.keyed.id
      rw [UniqueCol, List.filterMap_map] at hid
      exact UniqueCol.sublist hid List.filter_sublist
    next => cases hrows
  keyed _ _ := keyed_last
  size_pos := adminPageParams_pos
  clamps _ := adminPageParams_clamps

theorem urlListing_regular (t : WebUrlTable) (query : Option Text) (sort : UrlSort)
    (viewed : Viewed) (notViewedSince : Option Text) :
    (urlListing env t query sort viewed notViewedSince).Regular where
  answers params := by
    show listUrls .. = Except.map _ (urlListing ..).rows
    unfold listUrls urlListing
    cases dayFilter env notViewedSince with
    | error e => rfl
    | ok since =>
      by_cases hbind : Bindable query
      · simp only [if_pos hbind]
        rfl
      · simp only [if_neg hbind]
        rfl
  unique rows hrows := by
    obtain ⟨since, -, hrows⟩ := bind_eq_ok.mp hrows
    split at hrows
    next =>
      obtain rfl := Except.ok.inj hrows
      exact t.uniqueId.sublist List.filter_sublist
    next => cases hrows
  keyed _ _ := urlOrder_keyed
  size_pos := adminPageParams_pos
  clamps _ := adminPageParams_clamps

/-- **Paging partitions every listing**, under any filters. -/
theorem listings_partition (env : ListingEnv) (articles : ArticleTable) (bookmarks : BookmarkTable)
    (users : UserRecords) (urls : WebUrlTable) :
    (∀ category, (categoryListing articles category).Partitioned) ∧
      (∀ query category status field dateFrom dateTo,
        (adminListing env articles query category status field dateFrom dateTo).Partitioned) ∧
      (∀ userId, (readerListing bookmarks articles userId).Partitioned) ∧
      (∀ userId articleId, (allListing bookmarks userId articleId).Partitioned) ∧
      (∀ query role, (userListing env users query role).Partitioned) ∧
      ∀ query sort viewed notViewedSince,
        (urlListing env urls query sort viewed notViewedSince).Partitioned := by
  refine ⟨fun category => ?_, fun query category status field dateFrom dateTo => ?_,
    fun userId => ?_, fun userId articleId => ?_, fun query role => ?_,
    fun query sort viewed notViewedSince => ?_⟩
  -- each listing is regular, and its order is one of those shown total
  · have : TransCmp (categoryListing articles category).order :=
      inferInstanceAs (TransCmp newestFirst)
    exact (categoryListing_regular articles category).partitioned
  · have : TransCmp (adminListing env articles query category status field dateFrom dateTo).order :=
      inferInstanceAs (TransCmp (adminOrder field))
    exact (adminListing_regular ..).partitioned
  · have : TransCmp (readerListing bookmarks articles userId).order :=
      inferInstanceAs (TransCmp latestFirst)
    exact (readerListing_regular bookmarks articles userId).partitioned
  · have : TransCmp (allListing bookmarks userId articleId).order :=
      inferInstanceAs (TransCmp latestFirst)
    exact (allListing_regular bookmarks userId articleId).partitioned
  · have : TransCmp (userListing env users query role).order :=
      inferInstanceAs (TransCmp newestUsersFirst)
    exact (userListing_regular users query role).partitioned
  · have : TransCmp (urlListing env urls query sort viewed notViewedSince).order :=
      inferInstanceAs (TransCmp (urlOrder sort))
    exact (urlListing_regular urls query sort viewed notViewedSince).partitioned

end SarkariWorld.Admin
