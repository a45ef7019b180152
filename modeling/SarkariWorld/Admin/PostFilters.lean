import SarkariWorld.Admin.DayFilters

/-!
# No filter is dropped

"The source compares a hyphenated slug against underscore enum values here and silently
drops the filter; callers pass a converted enum instead." The conversion has one answer
for a string that names no category and for no string at all, so such a string still
drops the filter: `listPosts_filters_iff`. The other filters of the listing hold of
every row it returns and counts.

So the listing does two things with a string in `category`, and only one of them is
filtering. The theorem therefore has a condition on that one parameter: it is absent, or
it names a category, or no row passes the other filters anyway. Text, status and days are
conditions whenever they are there.

The sentence quoted above is from `find_for_admin_page`, and it is right about that
function: it compares enumeration values. The string is lost one layer up, where the route
converts it.
-/

namespace SarkariWorld.Admin

open SarkariWorld.Lib SarkariWorld.Content SarkariWorld.Site

variable {env : ListingEnv} {t : ArticleTable} {a : Article}

/-- The article is in the category that is asked for. -/
def InAskedCategory (env : ListingEnv) (category : Option Text) (a : Article) : Prop :=
  ∀ c ∈ supplied category, categorySlugToEnum env.content (some c) = some a.category

/-- The category asked for is one. -/
def KnownCategory (env : ListingEnv) (category : Option Text) : Prop :=
  ∀ c ∈ supplied category, (categorySlugToEnum env.content (some c)).isSome = true

/-- The article passes the other filters: text, status and days. -/
def PassesOthers (env : ListingEnv) (request : ListPosts env.decimals) (a : Article) : Prop :=
  textFilter env request.q (fun a : Article => [a.title, a.slug]) a = true ∧
    (∀ s ∈ request.articleStatus, a.articleStatus = s) ∧
    FromDay env.decimals request.dateFrom (request.dateField.column a) ∧
    UpToDay env.decimals request.dateTo (request.dateField.column a)

/-- It satisfies every filter that is supplied. -/
def Satisfies (env : ListingEnv) (request : ListPosts env.decimals) (a : Article) : Prop :=
  InAskedCategory env request.category a ∧ PassesOthers env request a

instance (category : Option Text) (a : Article) : Decidable (InAskedCategory env category a) :=
  inferInstanceAs (Decidable (∀ c ∈ supplied category, _))

instance (request : ListPosts env.decimals) (a : Article) :
    Decidable (PassesOthers env request a) :=
  inferInstanceAs (Decidable (_ ∧ _ ∧ _ ∧ _))

instance (request : ListPosts env.decimals) (a : Article) : Decidable (Satisfies env request a) :=
  inferInstanceAs (Decidable (_ ∧ _))

variable {request : ListPosts env.decimals}

/-- What the listing asks of a row, with the category apart from the rest. -/
theorem wanted_iff : Wanted env request a ↔
    (∀ c ∈ categoryParameter env request.category, a.category = c) ∧
      PassesOthers env request a := by
  unfold Wanted PassesOthers
  exact and_left_comm

/-- The filter on a category there is. -/
theorem categoryParameter_known {category : Option Text} (h : KnownCategory env category) :
    (∀ c ∈ categoryParameter env category, a.category = c) ↔ InAskedCategory env category a := by
  unfold categoryParameter InAskedCategory
  unfold KnownCategory at h
  cases hsupplied : supplied category with
  | none => exact ⟨fun _ c hc => (nomatch hc), fun _ c hc => (nomatch hc)⟩
  | some c =>
    obtain ⟨known, hknown⟩ := Option.isSome_iff_exists.mp (h c hsupplied)
    rw [Option.bind_some, hknown]
    constructor
    · intro hall c' hc'
      obtain rfl := Option.some.inj hc'
      rw [hknown, hall known rfl]
    · intro hall c' hc'
      obtain rfl := Option.some.inj hc'
      exact (Option.some.inj (hknown.symm.trans (hall c rfl))).symm

/-- On any other string there is no filter, and no row it could mean. -/
theorem categoryParameter_unknown {category : Option Text} (h : ¬ KnownCategory env category) :
    categoryParameter env category = none ∧ ∀ a, ¬ InAskedCategory env category a := by
  unfold KnownCategory at h
  push Not at h
  obtain ⟨c, hc, hunknown⟩ := h
  have hnone : categorySlugToEnum env.content (some c) = none := by
    simpa using hunknown
  constructor
  · unfold categoryParameter
    rw [hc, Option.bind_some, hnone]
  · intro a hall
    have hsome := hall c hc
    rw [hnone] at hsome
    cases hsome

/-- What a listing promises: each row it returns satisfies every filter, and it counts
the rows that do. -/
def KeepsFilters (env : ListingEnv) (t : ArticleTable) (request : ListPosts env.decimals)
    (page : AdminPage AdminArticleCard) : Prop :=
  ∃ rows : List Article, page.items = rows.map adminArticleCard ∧
    (∀ a ∈ rows, a ∈ t.rows ∧ Satisfies env request a) ∧
    page.total = (t.rows.filter fun a => Satisfies env request a).length

/-- Every row of a page is one of the rows it is cut from. -/
theorem mem_of_mem_slice {α : Type} {params : PageParams} {rows : List α} {x : α}
    (h : x ∈ params.slice rows) : x ∈ rows := List.mem_of_mem_drop (List.mem_of_mem_take h)

/-- If the condition the listing asks is the one the request states, for every row of the table, the
page and its total are as they should be. -/
theorem keepsFilters_of_wanted
    (h : ∀ a ∈ t.rows, Wanted env request a ↔ Satisfies env request a) :
    KeepsFilters env t request (wantedPage env t request) := by
  have hfilter : (t.rows.filter fun a => Wanted env request a) =
      t.rows.filter fun a => Satisfies env request a :=
    List.filter_congr fun a ha => decide_eq_decide.mpr (h a ha)
  refine ⟨_, rfl, fun a ha => ?_, ?_⟩
  · obtain ⟨hmem, hwanted⟩ := List.mem_filter.mp (mem_orderBy.mp (mem_of_mem_slice ha))
    exact ⟨hmem, (h a hmem).mp (of_decide_eq_true hwanted)⟩
  · rw [← hfilter]
    rfl

/-- **Which listings keep their filters**: those whose category is one, or is not asked
for; and those on which no row passes the other filters. -/
theorem listPosts_filters_iff {page : AdminPage AdminArticleCard}
    (h : listPosts env t request = .ok page) :
    KeepsFilters env t request page ↔
      KnownCategory env request.category ∨ ∀ a ∈ t.rows, ¬ PassesOthers env request a := by
  obtain rfl := listPosts_wanted h
  by_cases hknown : KnownCategory env request.category
  · refine ⟨fun _ => .inl hknown, fun _ => keepsFilters_of_wanted fun a _ => ?_⟩
    rw [wanted_iff, categoryParameter_known hknown]
    rfl
  · obtain ⟨hdropped, hnone⟩ := categoryParameter_unknown hknown
    have hwanted : ∀ a, Wanted env request a ↔ PassesOthers env request a := by
      intro a
      rw [wanted_iff, hdropped]
      exact and_iff_right fun c hc => nomatch hc
    constructor
    · intro ⟨rows, _, _, htotal⟩
      right
      -- Nothing is to be counted, so nothing is.
      have hempty : (t.rows.filter fun a => Satisfies env request a) = [] :=
        List.filter_eq_nil_iff.mpr fun a _ hs => hnone a (of_decide_eq_true hs).1
      rw [hempty] at htotal
      have hcount : (t.rows.filter fun a => Wanted env request a).length = 0 :=
        Int.ofNat.inj htotal
      intro a ha hpasses
      refine List.filter_eq_nil_iff.mp (List.eq_nil_of_length_eq_zero hcount) a ha ?_
      exact decide_eq_true ((hwanted a).mpr hpasses)
    · intro hcase
      have hothers := hcase.resolve_left hknown
      refine keepsFilters_of_wanted fun a ha => ?_
      exact ⟨fun hw => absurd ((hwanted a).mp hw) (hothers a ha),
        fun hs => absurd hs.2 (hothers a ha)⟩

/-- One result. -/
def resultTable : ArticleTable :=
  ⟨[{ sampleArticle 1 "result".toList .published none with category := .result }], by decide,
    by decide, by decide⟩

/-- A listing without text or days always answers. -/
theorem listPosts_plain (t : ArticleTable) (category : Option Text) : ∃ page,
    listPosts sampleListing t (sampleListPosts category none nofun) = .ok page :=
  (listPosts_ok_iff t).mpr
    ⟨fun _ hq => (nomatch hq), fun _ hs => (nomatch hs), fun _ hs => (nomatch hs)⟩

/-- The category of that slug is asked for. -/
theorem result_listing_keeps_filters : ∃ page,
    listPosts sampleListing resultTable (sampleListPosts (some "result".toList) none nofun) =
        .ok page ∧
      (KeepsFilters sampleListing resultTable
          (sampleListPosts (some "result".toList) none nofun) page ↔
        KnownCategory sampleListing (some "result".toList) ∨ ∀ a ∈ resultTable.rows,
          ¬ PassesOthers sampleListing (sampleListPosts (some "result".toList) none nofun) a) := by
  obtain ⟨page, hpage⟩ := listPosts_plain resultTable (some "result".toList)
  exact ⟨page, hpage, listPosts_filters_iff hpage⟩

/-- "results" is no category, and lists the result. -/
theorem unknown_category_lists_all : ¬ ∀ (env : ListingEnv) (t : ArticleTable)
    (request : ListPosts env.decimals) (page : AdminPage AdminArticleCard),
    listPosts env t request = .ok page → KeepsFilters env t request page := by
  intro hkeeps
  obtain ⟨page, hpage⟩ := listPosts_plain resultTable (some "results".toList)
  obtain ⟨rows, -, -, htotal⟩ := hkeeps _ _ _ page hpage
  rw [listPosts_wanted hpage] at htotal
  exact absurd htotal (by decide)

end SarkariWorld.Admin
