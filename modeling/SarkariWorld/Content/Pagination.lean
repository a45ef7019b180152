import SarkariWorld.Lib.Sort

/-!
# Pages

`schemas/pagination.py`. Page parameters are clamped, never rejected, and a
public page tells its reader the number of the next one.

A reader pages through a listing by following `next_page` until `has_more` is
false (`walk`). `walk_covers_iff` says when that works. Pages are clamped to the
first thousand, but `next_page` is not: on a longer listing page 1000 says that
page 1001 is next, and page 1001 is page 1000 again.

The arithmetic is Python's, on integers that may be negative before they are clamped.
Whether a page is the last one is decided by `page < total_pages` alone, so a walk that
follows the numbers can only go wrong where the numbers do.

`PageParams` is what `public_page_params` and its sibling make of a query string. The
number of pages is rounded up, and an empty listing has one page, so a page number always
names something. The cap on the size of a page differs between the public listings and the
console.
-/

namespace SarkariWorld.Content

open SarkariWorld.Lib

/-- The number of a page and its size, after the clamping. -/
structure PageParams where
  page : Int
  perPage : Int
  deriving DecidableEq, Repr

/-- `(page - 1) * per_page`. -/
def PageParams.offset (params : PageParams) : Int := (params.page - 1) * params.perPage

/-- The negated quotient of the negated total is the ceiling: `//` rounds down. -/
def PageParams.totalPages (params : PageParams) (total : Int) : Int :=
  max 1 (-(-total / params.perPage))

/-- `_clamp`. -/
def clamp (value : Option Int) (default low high : Int) : Int :=
  match value with
  | none => default
  | some value => max low (min high value)

def maxListPage : Int := 1000
def publicPageSize : Int := 15
def publicPageSizeMax : Int := 50
def adminPageSize : Int := 24
def adminPageSizeMax : Int := 100

/-- `public_page_params`. -/
def publicPageParams (page perPage : Option Int) : PageParams :=
  ⟨clamp page 1 1 maxListPage, clamp perPage publicPageSize 1 publicPageSizeMax⟩

/-- `admin_page_params`. -/
def adminPageParams (page perPage : Option Int) : PageParams :=
  ⟨clamp page 1 1 maxListPage, clamp perPage adminPageSize 1 adminPageSizeMax⟩

/-- A page of a public listing, with what its reader needs to go on. -/
structure PublicPage (α : Type) where
  items : List α
  page : Int
  perPage : Int
  total : Int
  totalPages : Int
  hasMore : Bool
  nextPage : Option Int
  deriving DecidableEq, Repr

variable {α ε : Type}

/-- `PublicPage.build`. -/
def PublicPage.build (items : List α) (total : Int) (params : PageParams) : PublicPage α :=
  let totalPages := params.totalPages total
  let hasMore : Bool := params.page < totalPages
  { items := items
    page := params.page
    perPage := params.perPage
    total := total
    totalPages := totalPages
    hasMore := hasMore
    nextPage := if hasMore then some (params.page + 1) else none }

/-- The console's envelope, which has no `has_more` and no `next_page`. -/
structure AdminPage (α : Type) where
  items : List α
  total : Int
  page : Int
  perPage : Int
  totalPages : Int
  deriving DecidableEq, Repr

/-- `AdminPage.build`, which computes no next page. -/
def AdminPage.build (items : List α) (total : Int) (params : PageParams) : AdminPage α where
  items := items
  total := total
  page := params.page
  perPage := params.perPage
  totalPages := params.totalPages total

/-- `.limit(params.per_page).offset(params.offset)`. -/
def PageParams.slice (params : PageParams) (rows : List α) : List α :=
  Lib.page params.perPage.toNat params.offset.toNat rows

/-! ## Following `next_page` -/

/-- The pages a reader receives who starts at `page` and requests the next page
until there are no more; `none` if that has not happened after `fuel` requests. -/
def walk (fetch : Int → Except ε (PublicPage α)) : Nat → Int → Option (List (PublicPage α))
  | 0, _ => none
  | fuel + 1, page =>
    match fetch page with
    | .error _ => none
    | .ok received =>
      if received.hasMore then
        received.nextPage.bind fun next => (walk fetch fuel next).map (received :: ·)
      else some [received]

/-- The walk from page 1 ends, and the pages it received hold each of `rows` exactly
once. -/
def Covers (fetch : Int → Except ε (PublicPage α)) (rows : List α) : Prop :=
  ∃ fuel pages, walk fetch fuel 1 = some pages ∧ (pages.flatMap PublicPage.items).Perm rows

/-- The rows may be named in any order. -/
theorem covers_perm {fetch : Int → Except ε (PublicPage α)} {rows rows' : List α}
    (h : rows.Perm rows') : Covers fetch rows ↔ Covers fetch rows' := by
  constructor
  · rintro ⟨fuel, pages, hwalk, hitems⟩
    exact ⟨fuel, pages, hwalk, hitems.trans h⟩
  · rintro ⟨fuel, pages, hwalk, hitems⟩
    exact ⟨fuel, pages, hwalk, hitems.trans h.symm⟩

/-- `fetch` answers with pages of `rows`. -/
def Pages (fetch : Int → Except ε (PublicPage α)) (perPage : Option Int) (rows : List α) : Prop :=
  ∀ page, 1 ≤ page →
    let params := publicPageParams (some page) perPage
    fetch page = .ok (.build (params.slice rows) rows.length params)

/-- The page size a listing uses for a requested one. -/
def pageSize (perPage : Option Int) : Int := clamp perPage publicPageSize 1 publicPageSizeMax

/-- A public page has room for an article, whatever `per_page` says. -/
theorem pageSize_pos (perPage : Option Int) : 1 ≤ pageSize perPage := by
  unfold pageSize clamp
  split
  · decide
  · omega

/-- A page is not the last one exactly if rows are left after it. -/
theorem lt_totalPages {params : PageParams} {total : Int} (hpage : 1 ≤ params.page)
    (hsize : 1 ≤ params.perPage) :
    params.page < params.totalPages total ↔ params.page * params.perPage < total := by
  have hdiv : -total / params.perPage < -params.page ↔ -total < -params.page * params.perPage :=
    Int.ediv_lt_iff_lt_mul (by omega)
  rw [Int.neg_mul] at hdiv
  unfold PageParams.totalPages
  generalize -total / params.perPage = quotient at hdiv ⊢
  generalize params.page * params.perPage = seen at hdiv ⊢
  omega

variable {fetch : Int → Except ε (PublicPage α)} {perPage : Option Int} {rows : List α}

/-- The page a listing shows for a requested one. -/
def shownPage (page : Int) : Int := min maxListPage page

/-- One request of a walk. -/
theorem walk_succ (h : Pages fetch perPage rows) {page : Int} (hpage : 1 ≤ page) (fuel : Nat) :
    let received := PublicPage.build ((publicPageParams (some page) perPage).slice rows)
      rows.length (publicPageParams (some page) perPage)
    walk fetch (fuel + 1) page =
      if shownPage page * pageSize perPage < rows.length then
        (walk fetch fuel (shownPage page + 1)).map (received :: ·)
      else some [received] := by
  intro received
  have hcap : (1 : Int) ≤ maxListPage := by decide
  -- above the largest page the answer is that page, and its successor is what it names
  have hclamp : (publicPageParams (some page) perPage).page = shownPage page := by
    show max 1 (min maxListPage page) = min maxListPage page
    omega
  have hmore : received.hasMore = true ↔ shownPage page * pageSize perPage < rows.length := by
    rw [← hclamp]
    refine decide_eq_true_iff.trans (lt_totalPages ?_ (pageSize_pos perPage))
    rw [hclamp, shownPage]
    omega
  rw [walk, h page hpage]
  show (if received.hasMore = true then _ else _) = _
  split
  next hyes =>
    have hnext : received.nextPage = some (shownPage page + 1) := by
      rw [← hclamp]
      exact if_pos hyes
    rw [if_pos (hmore.mp hyes), hnext, Option.bind_some]
  next hno => rw [if_neg (mt hmore.mpr hno)]

/-- Beyond the last page a listing can show, the walk goes round in circles. -/
theorem walk_endless (h : Pages fetch perPage rows)
    (hlong : maxListPage * pageSize perPage < rows.length) (fuel : Nat) {page : Int}
    (hpage : 1 ≤ page) : walk fetch fuel page = none := by
  induction fuel generalizing page with
  | zero => rfl
  | succ fuel ih =>
    have hsize := pageSize_pos perPage
    have hshown : shownPage page ≤ maxListPage := Int.min_le_left ..
    have hmore : shownPage page * pageSize perPage < rows.length :=
      Int.lt_of_le_of_lt (Int.mul_le_mul_of_nonneg_right hshown (by omega)) hlong
    have hcap : (1 : Int) ≤ maxListPage := by decide
    rw [walk_succ h hpage, if_pos hmore, ih (by unfold shownPage; omega), Option.map_none]

/-- What one request receives, of the rows from its page on. -/
theorem slice_shown {page : Int} (hpage : 1 ≤ page) (hcap : page ≤ maxListPage) :
    (publicPageParams (some page) perPage).slice rows =
      (rows.drop ((page - 1) * pageSize perPage).toNat).take (pageSize perPage).toNat := by
  have hparams : (publicPageParams (some page) perPage).page = page := by
    show max 1 (min maxListPage page) = page
    omega
  rw [PageParams.slice, PageParams.offset, hparams]
  rfl

/-- Where one page ends the next one starts. -/
theorem page_mul_pageSize (page : Int) (perPage : Option Int) :
    page * pageSize perPage = (page - 1) * pageSize perPage + pageSize perPage := by
  rw [Int.sub_mul, Int.one_mul]
  omega

/-- The last page holds all the rows from it on. -/
theorem slice_last {page : Int} (hpage : 1 ≤ page) (hcap : page ≤ maxListPage)
    (hlast : rows.length ≤ page * pageSize perPage) :
    (publicPageParams (some page) perPage).slice rows =
      rows.drop ((page - 1) * pageSize perPage).toNat := by
  rw [page_mul_pageSize] at hlast
  refine (slice_shown hpage hcap).trans (List.take_of_length_le ?_)
  rw [List.length_drop]
  omega

/-- From a page that can be shown, the walk receives the rest of the rows if
`pages` more pages are enough for them. -/
theorem walk_rest (h : Pages fetch perPage rows) (pages : Nat) {page : Int} (hpage : 1 ≤ page)
    (hcap : page + pages ≤ maxListPage)
    (hshort : rows.length ≤ (page + pages) * pageSize perPage) :
    ∃ received, walk fetch (pages + 1) page = some received ∧
      received.flatMap PublicPage.items = rows.drop ((page - 1) * pageSize perPage).toNat := by
  have hshown : shownPage page = page := Int.min_eq_right (by omega)
  induction pages generalizing page with
  | zero =>
    rw [Int.natCast_zero, Int.add_zero] at hshort
    refine ⟨_, (walk_succ h hpage 0).trans (if_neg (by rw [hshown]; omega)), ?_⟩
    rw [List.flatMap_singleton]
    exact slice_last hpage (by omega) hshort
  | succ pages ih =>
    rw [walk_succ h hpage, hshown]
    split
    next hmore =>
      -- there is more: the next page begins where this one ends
      have hnext : page + 1 + (pages : Int) = page + (pages + 1 : Nat) := by omega
      obtain ⟨rest, hrest, hitems⟩ := @ih (page + 1) (by omega) (by omega)
        (by rwa [hnext]) (Int.min_eq_right (by omega))
      refine ⟨_, by rw [hrest, Option.map_some], ?_⟩
      have hsize := pageSize_pos perPage
      have hstart : 0 ≤ (page - 1) * pageSize perPage := Int.mul_nonneg (by omega) (by omega)
      rw [List.flatMap_cons, hitems, Int.add_sub_cancel, page_mul_pageSize,
        Int.toNat_add hstart (by omega), ← List.drop_drop]
      show (publicPageParams (some page) perPage).slice rows ++ _ = _
      rw [slice_shown hpage (by omega), List.take_append_drop]
    next hlast =>
      refine ⟨_, rfl, ?_⟩
      rw [List.flatMap_singleton]
      exact slice_last hpage (by omega) (by omega)

/-- **Following `next_page` covers a listing exactly when it fits on a thousand
pages.** -/
theorem walk_covers_iff (h : Pages fetch perPage rows) :
    Covers fetch rows ↔ rows.length ≤ maxListPage * pageSize perPage := by
  constructor
  · rintro ⟨fuel, received, hwalk, -⟩
    refine Int.not_lt.mp fun hlong => ?_
    rw [walk_endless h hlong fuel (by omega)] at hwalk
    cases hwalk
  · intro hshort
    obtain ⟨received, hwalk, hitems⟩ := walk_rest h 999 (Int.le_refl 1) (by decide) hshort
    rw [Int.sub_self, Int.zero_mul] at hitems
    exact ⟨1000, received, hwalk, by rw [hitems]; rfl⟩

end SarkariWorld.Content
