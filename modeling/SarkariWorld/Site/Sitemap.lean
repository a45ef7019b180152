import Mathlib
import SarkariWorld.Site.Public

/-!
# The sitemap and the listings

Four queries describe the published articles to the public: the sitemap's list, its
count, the pages of a category and the article behind a slug. They are written one
by one, each with a filter, an order and a limit of its own, and a crawler that
follows the sitemap relies on all four meaning the same articles.

`public_views_agree` is that agreement, for every table. The order is stated once
more, as a relation on dates and ids (`Newer`), so that the sitemap's rows are
determined by it and not by the sort that makes them. What the other views are
compared with is the list of published rows: the sitemap is its first fifty
thousand in that order, a category's pages together are its rows of that category
(`mem_categorySlugs`), and the eleven categories cut it into disjoint parts
(`categories_total`).
-/

namespace SarkariWorld.Site

open SarkariWorld.Lib SarkariWorld.Content Std

/-! ## The views -/

/-- `published_at` descending with nulls last, then `id` descending. -/
def Newer (a b : Article) : Prop :=
  match a.publishedAt, b.publishedAt with
  | some p, some q => q < p ∨ p = q ∧ b.id < a.id
  | some _, none => True
  | none, some _ => False
  | none, none => b.id < a.id

/-- The slugs of the sitemap response. -/
def sitemapSlugs (t : ArticleTable) : Set Text :=
  { slug | ∃ e ∈ (sitemap t).articles, e.slug = slug }

/-- The slugs `find_category_page` yields over all offsets, in pages of one size. -/
def categorySlugs (t : ArticleTable) (limit : Nat) (category : ArticleCategory) : Set Text :=
  { slug | ∃ offset, ∃ a ∈ (findCategoryPage t category limit offset).1, a.slug = slug }

/-- The four views mean the same articles. -/
structure ViewsAgree (t : ArticleTable) : Prop where
  /-- The sitemap lists the newest published articles, as many as it may. -/
  newest : ∃ rows : List Article, rows.Perm (published t.rows) ∧ rows.Pairwise Newer ∧
    listForSitemap t sitemapMaxRows = rows.take (min 50000 (published t.rows).length)
  /-- It says that it is truncated exactly if an article is missing from it. -/
  truncated_iff : (sitemap t).truncated = true ↔ ∃ a ∈ published t.rows, a.slug ∉ sitemapSlugs t
  /-- The categories are its slugs, each slug in one of them. -/
  categories : (sitemap t).truncated = false → ∀ limit,
    sitemapSlugs t = ⋃ category, categorySlugs t (limit + 1) category
  disjoint : ∀ limit category category', category ≠ category' →
    Disjoint (categorySlugs t limit category) (categorySlugs t limit category')
  /-- The articles that can be read are its slugs. -/
  bySlug : (sitemap t).truncated = false →
    sitemapSlugs t = { slug | ∃ a, findPublishedBySlug t slug = .ok (some a) }
  total : ∀ limit offset, (sitemap t).total =
    (ArticleCategory.all.map fun category => (findCategoryPage t category limit offset).2).sum

/-! ## The order -/

/-- The comparison of the queries decides as `Newer` does, on two different rows. -/
theorem newer_of_isLE {a b : Article} (hle : (newestFirst a b).isLE = true) (hid : a.id ≠ b.id) :
    Newer a b := by
  have hids : (compare b.id a.id).isLE = true → b.id < a.id := by
    intro h
    have hle : b.id ≤ a.id := by rwa [isLE_compare] at h
    omega
  simp only [newestFirst, compareLex, descOn] at hle
  unfold Newer
  cases hp : a.publishedAt with
  | none =>
    cases hq : b.publishedAt with
    | none =>
      rw [hp, hq] at hle
      exact hids hle
    -- NULLS LAST: what has no date comes behind what has one
    | some q =>
      rw [hp, hq] at hle
      cases hle
  | some p =>
    cases hq : b.publishedAt with
    | none => trivial
    | some q =>
      rw [hp, hq] at hle
      have hdates : compare (some q) (some p) = compare q p := rfl
      rw [hdates] at hle
      show q < p ∨ p = q ∧ b.id < a.id
      cases hcmp : compare q p with
      | lt => exact Or.inl (compare_lt_iff_lt.mp hcmp)
      | eq =>
        rw [hcmp] at hle
        exact Or.inr ⟨(LawfulEqOrd.eq_of_compare hcmp).symm, hids hle⟩
      | gt =>
        rw [hcmp] at hle
        cases hle

variable (t : ArticleTable)

/-- Published rows are stored rows, so their numbers tell them apart. -/
theorem published_uniqueId : UniqueCol ArticleOf.idCol (published t.rows) :=
  t.uniqueId.sublist List.filter_sublist

/-- The sitemap's sort puts the published rows in the order of their dates, and of their numbers
where the dates are equal. -/
theorem newest_first : (orderBy newestFirst (published t.rows)).Pairwise Newer := by
  have hperm := orderBy_perm newestFirst (published t.rows)
  have hnodup : (orderBy newestFirst (published t.rows)).Pairwise fun a b => a ≠ b :=
    hperm.nodup_iff.mpr (nodup_of_uniqueCol (published_uniqueId t))
  refine (orderBy_sorted.and hnodup).imp_of_mem fun {a b} ha hb h => ?_
  refine newer_of_isLE h.1 fun hid => h.2 ?_
  exact eq_of_uniqueCol (published_uniqueId t) (hperm.mem_iff.mp ha) (hperm.mem_iff.mp hb) rfl
    (congrArg some hid.symm)

/-! ## The sitemap -/

/-- The slugs of the sitemap are those of the rows it lists. -/
theorem mem_sitemapSlugs {slug : Text} :
    slug ∈ sitemapSlugs t ↔ ∃ a ∈ listForSitemap t sitemapMaxRows, a.slug = slug := by
  constructor
  · rintro ⟨e, he, hslug⟩
    obtain ⟨a, ha, rfl⟩ := List.mem_map.mp he
    exact ⟨a, ha, hslug⟩
  · rintro ⟨a, ha, hslug⟩
    exact ⟨sitemapEntry a, List.mem_map_of_mem ha, hslug⟩

/-- The flag says that there are more published articles than the sitemap has room for. -/
theorem truncated_iff_longer :
    (sitemap t).truncated = true ↔ sitemapMaxRows < (published t.rows).length := by
  have hlength : (listForSitemap t sitemapMaxRows).length =
      min sitemapMaxRows (published t.rows).length := by
    rw [listForSitemap, List.length_take, orderBy_length]
  show decide ((listForSitemap t sitemapMaxRows).length < countPublished t) = true ↔ _
  rw [decide_eq_true_eq, hlength, countPublished]
  omega

/-- A sitemap that has room for every article has every article. -/
theorem listForSitemap_perm (h : (published t.rows).length ≤ sitemapMaxRows) :
    (listForSitemap t sitemapMaxRows).Perm (published t.rows) := by
  unfold listForSitemap
  rw [List.take_of_length_le (by rw [orderBy_length]; exact h)]
  exact orderBy_perm newestFirst _

/-- A sitemap that is not truncated lists every published slug. -/
theorem mem_sitemapSlugs_of_whole (h : (sitemap t).truncated = false) {slug : Text} :
    slug ∈ sitemapSlugs t ↔ ∃ a ∈ published t.rows, a.slug = slug := by
  have hroom : (published t.rows).length ≤ sitemapMaxRows := by
    refine Nat.le_of_not_lt fun hlt => ?_
    rw [(truncated_iff_longer t).mpr hlt] at h
    cases h
  rw [mem_sitemapSlugs]
  simp only [(listForSitemap_perm t hroom).mem_iff]

/-- Slugs are unique, so fifty thousand entries cannot name more articles than that. -/
theorem truncated_iff_missing :
    (sitemap t).truncated = true ↔ ∃ a ∈ published t.rows, a.slug ∉ sitemapSlugs t := by
  constructor
  · intro htruncated
    by_contra hall
    push Not at hall
    have hslugs : (published t.rows).filterMap ArticleOf.slugCol =
        (published t.rows).map ArticleOf.slug := congrFun List.filterMap_eq_map _
    have hnodup : ((published t.rows).map ArticleOf.slug).Nodup := by
      rw [← hslugs]
      exact published_uniqueSlug t
    have hsub : (published t.rows).map ArticleOf.slug ⊆
        (listForSitemap t sitemapMaxRows).map ArticleOf.slug := by
      intro slug hslug
      obtain ⟨a, ha, rfl⟩ := List.mem_map.mp hslug
      obtain ⟨b, hb, hsame⟩ := (mem_sitemapSlugs t).mp (hall a ha)
      exact List.mem_map.mpr ⟨b, hb, hsame⟩
    -- were every slug shown, the published articles could not be more than the limit
    have hle := (List.subperm_of_subset hnodup hsub).length_le
    rw [List.length_map, List.length_map, listForSitemap, List.length_take] at hle
    have hlonger := (truncated_iff_longer t).mp htruncated
    omega
  · rintro ⟨a, ha, hmissing⟩
    by_contra hwhole
    rw [Bool.not_eq_true] at hwhole
    exact hmissing ((mem_sitemapSlugs_of_whole t hwhole).mpr ⟨a, ha, rfl⟩)

/-! ## The categories -/

/-- A category has the published articles that are filed under it. -/
theorem mem_inCategory {a : Article} {category : ArticleCategory} :
    a ∈ inCategory t category ↔ a ∈ published t.rows ∧ a.category = category := by
  rw [inCategory, List.mem_filter, decide_eq_true_eq]

/-- A page holds rows of its category. -/
theorem mem_inCategory_of_page {a : Article} {category : ArticleCategory} {limit offset : Nat}
    (h : a ∈ (findCategoryPage t category limit offset).1) : a ∈ inCategory t category :=
  mem_orderBy.mp (List.mem_of_mem_drop (List.mem_of_mem_take h))

/-- A row of the category begins the page at its own position. -/
theorem mem_page_of_inCategory {a : Article} {category : ArticleCategory} (limit : Nat)
    (h : a ∈ inCategory t category) :
    ∃ offset, a ∈ (findCategoryPage t category (limit + 1) offset).1 := by
  have hsorted : a ∈ orderBy newestFirst (inCategory t category) := mem_orderBy.mpr h
  obtain ⟨offset, hlt, ha⟩ := List.getElem_of_mem hsorted
  refine ⟨offset, ?_⟩
  show a ∈ page (limit + 1) offset (orderBy newestFirst (inCategory t category))
  rw [page, List.drop_eq_getElem_cons hlt, ha, List.take_succ_cons]
  exact List.mem_cons_self

/-- The pages of a category, taken together, show its published articles and no others, whatever the
size of a page. -/
theorem mem_categorySlugs {limit : Nat} {category : ArticleCategory} {slug : Text} :
    slug ∈ categorySlugs t (limit + 1) category ↔
      ∃ a ∈ published t.rows, a.category = category ∧ a.slug = slug := by
  constructor
  · rintro ⟨offset, a, ha, hslug⟩
    obtain ⟨hpub, hcategory⟩ := (mem_inCategory t).mp (mem_inCategory_of_page t ha)
    exact ⟨a, hpub, hcategory, hslug⟩
  · rintro ⟨a, hpub, hcategory, hslug⟩
    obtain ⟨offset, ha⟩ := mem_page_of_inCategory t limit ((mem_inCategory t).mpr ⟨hpub, hcategory⟩)
    exact ⟨offset, a, ha, hslug⟩

/-- An article is in one category, and a slug is one article's. -/
theorem categorySlugs_disjoint {limit : Nat} {category category' : ArticleCategory}
    (hne : category ≠ category') :
    Disjoint (categorySlugs t limit category) (categorySlugs t limit category') := by
  rw [Set.disjoint_left]
  rintro slug ⟨_, a, ha, hslug⟩ ⟨_, b, hb, hslug'⟩
  obtain ⟨hpub, hcategory⟩ := (mem_inCategory t).mp (mem_inCategory_of_page t ha)
  obtain ⟨hpub', hcategory'⟩ := (mem_inCategory t).mp (mem_inCategory_of_page t hb)
  have hsame : a = b := eq_of_uniqueCol (published_uniqueSlug t) hpub hpub' rfl
    (congrArg some (hslug'.trans hslug.symm))
  exact hne (hcategory.symm.trans ((congrArg _ hsame).trans hcategory'))

/-- Every article is in one of the eleven categories. -/
theorem categories_total (rows : List Article) :
    rows.length =
      (ArticleCategory.all.map fun category =>
        (rows.filter fun a => a.category = category).length).sum := by
  induction rows with
  | nil => rfl
  | cons a rows ih =>
    have hone : ∀ category : ArticleCategory,
        ((a :: rows).filter fun x => x.category = category).length =
          (rows.filter fun x => x.category = category).length +
            if a.category = category then 1 else 0 := by
      intro category
      rw [List.filter_cons]
      by_cases hcategory : a.category = category
      · rw [if_pos (decide_eq_true hcategory), if_pos hcategory, List.length_cons]
      · rw [if_neg (by rwa [decide_eq_true_eq]), if_neg hcategory, Nat.add_zero]
    have hits : (ArticleCategory.all.map fun category =>
        if a.category = category then 1 else 0).sum = 1 := by
      cases a.category <;> rfl
    simp only [hone]
    rw [List.sum_map_add, hits, ← ih, List.length_cons]

/-! ## Agreement -/

/-- The slugs that can be opened are those of the published articles. -/
theorem mem_bySlug {slug : Text} :
    (∃ a, findPublishedBySlug t slug = .ok (some a)) ↔ ∃ a ∈ published t.rows, a.slug = slug := by
  constructor
  · rintro ⟨a, ha⟩
    unfold findPublishedBySlug at ha
    split at ha
    next =>
      rw [scalarOneOrNone_whereEq (published_uniqueSlug t)] at ha
      obtain ⟨hpub, hslug⟩ := mem_of_lookup (Except.ok.inj ha)
      exact ⟨a, hpub, Option.some.inj hslug⟩
    next => cases ha
  · rintro ⟨a, hpub, rfl⟩
    have hstorable : Storable a.slug :=
      (t.fits a (mem_published.mp hpub).1).2.2.2.2 a.slug (by simp [ArticleOf.texts])
    refine ⟨a, ?_⟩
    rw [findPublishedBySlug_eq hstorable, lookup_of_mem (published_uniqueSlug t) hpub rfl]

/-- **The public views agree.** -/
theorem public_views_agree : ViewsAgree t where
  newest := by
    refine ⟨orderBy newestFirst (published t.rows), orderBy_perm newestFirst _, newest_first t, ?_⟩
    rw [listForSitemap, List.take_eq_take_iff, orderBy_length]
    show min 50000 _ = _
    omega
  truncated_iff := truncated_iff_missing t
  categories hwhole limit := by
    ext slug
    rw [mem_sitemapSlugs_of_whole t hwhole, Set.mem_iUnion]
    simp only [mem_categorySlugs]
    constructor
    · rintro ⟨a, hpub, hslug⟩
      exact ⟨a.category, a, hpub, rfl, hslug⟩
    · rintro ⟨category, a, hpub, -, hslug⟩
      exact ⟨a, hpub, hslug⟩
  disjoint limit category category' hne := categorySlugs_disjoint t hne
  bySlug hwhole := by
    ext slug
    rw [mem_sitemapSlugs_of_whole t hwhole]
    exact (mem_bySlug t).symm
  total limit offset := categories_total (published t.rows)

end SarkariWorld.Site
