import SarkariWorld.Content.Resave
import SarkariWorld.Site.Reads

/-!
# The limits the form is told

`GET /admin/meta` gives the console its categories and thirteen limits, so that its form
can validate before it sends, "from the same constants the API enforces". The limits are
enforced in two places: the schema refuses a body, and the normalisers cut texts short and
drop entries without a word.

This module looks at the form alone. `ArticleForm.normalised` is what `build_article_data`
makes of it, and `normalised_eq_iff` says when that is what was typed: exactly if the form
keeps to what `meta` announced, provided it was typed tidily, so that the normalisers find
nothing to change but its length. The schema is stricter about some limits and does not know
others; `accepted_of_within` says that a form within all of them passes it.

`StoredForms` takes the form from there to the row.
-/

namespace SarkariWorld.Site

open SarkariWorld.Lib SarkariWorld.Content

/-! ## The form -/

/-- The fields of the console's form that `meta` has a limit for. -/
structure ArticleForm where
  category : Text
  metaTitle : Option Text
  metaDescription : Option Text
  searchKeyword : List Text
  links : List ArticleLink
  faq : List FaqEntry
  instagramPostUrl : List UrlTitle
  youtubeVideoUrl : List UrlTitle
  coverImageUrl : Option Text

/-- The body the form sends: its fields, and the rest as it is. -/
def ArticleForm.body (form : ArticleForm) (rest : ArticleBase) : ArticleBase :=
  { rest with
    category := .value form.category
    metaTitle := .ofSent (some form.metaTitle)
    metaDescription := .ofSent (some form.metaDescription)
    searchKeyword := .value (.list form.searchKeyword)
    links := .value (form.links.map ArticleLink.item)
    faq := .value (form.faq.map FaqEntry.item)
    instagramPostUrl := .value (form.instagramPostUrl.map UrlTitle.dump)
    youtubeVideoUrl := .value (form.youtubeVideoUrl.map UrlTitle.dump)
    coverImageUrl := .ofSent (some form.coverImageUrl) }

/-- What `build_article_data` makes of the form, with the category as the row shows it. -/
def ArticleForm.normalised (env : Env) (form : ArticleForm) : ArticleForm where
  category := categoryEnumToSlug ((categorySlugToEnum env (some form.category)).getD .blog)
  metaTitle := normaliseMetaTitle form.metaTitle
  metaDescription := normaliseMetaDescription form.metaDescription
  searchKeyword := normaliseSearchKeyword env (some (.list form.searchKeyword))
  links := normaliseArticleLinks env (some (form.links.map ArticleLink.item))
  faq := normaliseFaqList (some (form.faq.map FaqEntry.item))
  instagramPostUrl :=
    normaliseUrlTitleList env (some (form.instagramPostUrl.map UrlTitle.dump))
  youtubeVideoUrl := normaliseUrlTitleList env (some (form.youtubeVideoUrl.map UrlTitle.dump))
  coverImageUrl := normaliseCoverImageUrl env form.coverImageUrl

/-- Every text of the form that is stored as one. -/
def ArticleForm.texts (form : ArticleForm) : List Text :=
  form.metaTitle.toList ++ form.metaDescription.toList ++ form.coverImageUrl.toList ++
    form.searchKeyword ++
    (form.instagramPostUrl ++ form.youtubeVideoUrl).flatMap (fun u => [u.url, u.title]) ++
    form.faq.flatMap (fun e => [e.question, e.answer]) ++
    form.links.flatMap fun l => [l.cta, l.url]

/-- The check a client can make of its form with what `meta` announced. -/
structure WithinLimits (info : MetaResponse) (form : ArticleForm) : Prop where
  category : form.category ∈ info.categories
  metaTitle : ∀ t ∈ form.metaTitle, t.length ≤ info.limits.metaTitleMaxLen
  metaDescription : ∀ t ∈ form.metaDescription, t.length ≤ info.limits.metaDescriptionMaxLen
  keywords : form.searchKeyword.length ≤ info.limits.searchKeywordMaxItems
  keyword : ∀ k ∈ form.searchKeyword, k.length ≤ info.limits.searchKeywordItemMaxLen
  links : form.links.length ≤ info.limits.articleLinksMax
  link : ∀ l ∈ form.links, l.cta.length ≤ info.limits.articleLinkCtaMax ∧
    l.url.length ≤ info.limits.articleLinkUrlMax
  faq : form.faq.length ≤ info.limits.faqMaxItems
  entry : ∀ e ∈ form.faq, e.question.length ≤ info.limits.faqMaxQuestionLen ∧
    e.answer.length ≤ info.limits.faqMaxAnswerLen
  instagram : form.instagramPostUrl.length ≤ info.limits.urlTitleListMax ∧
    ∀ u ∈ form.instagramPostUrl, u.title.length ≤ info.limits.urlTitleTitleMax
  youtube : form.youtubeVideoUrl.length ≤ info.limits.urlTitleListMax ∧
    ∀ u ∈ form.youtubeVideoUrl, u.title.length ≤ info.limits.urlTitleTitleMax
  coverImageUrl : ∀ t ∈ form.coverImageUrl, t.length ≤ info.limits.coverImageUrlMax

/-! ## Typing tidily -/

/-- Single blanks between the words, and there is a word. -/
def TidyText (t : Text) : Prop := collapse (some t) = t ∧ t ≠ []

/-- A text that neither begins nor ends blank, as it does without a word. -/
def TidyEnds (t : Text) : Prop := strip t = t ∧ t ≠ []

/-- A URL as `valid_http_url` writes it. -/
def TidyUrl (env : Env) (url : Text) : Prop := validHttpUrl env (some url) = some url ∧ url ≠ []

instance (t : Text) : Decidable (TidyText t) := inferInstanceAs (Decidable (_ ∧ _))

instance (t : Text) : Decidable (TidyEnds t) := inferInstanceAs (Decidable (_ ∧ _))

instance (env : Env) (url : Text) : Decidable (TidyUrl env url) :=
  inferInstanceAs (Decidable (_ ∧ _))

/-- Whatever the normalisers change of the form, they change for its length, and there is
nothing in it that Postgres does not store. -/
structure Tidy (env : Env) (form : ArticleForm) : Prop where
  storable : ∀ t ∈ form.texts, Storable t
  metaTitle : ∀ t ∈ form.metaTitle, TidyText t
  metaDescription : ∀ t ∈ form.metaDescription, TidyText t
  keywords : form.searchKeyword.Nodup
  keyword : ∀ k ∈ form.searchKeyword, TidyText k ∧ env.lower k = k
  link : ∀ l ∈ form.links, TidyEnds l.cta ∧ TidyUrl env l.url
  entry : ∀ e ∈ form.faq, TidyText e.question ∧ TidyEnds e.answer
  instagram : ∀ u ∈ form.instagramPostUrl, TidyUrl env u.url ∧ strip u.title = u.title
  youtube : ∀ u ∈ form.youtubeVideoUrl, TidyUrl env u.url ∧ strip u.title = u.title
  coverImageUrl : ∀ url ∈ form.coverImageUrl, TidyUrl env url

/-! ## One field -/

section Fields

variable {env : Env}

/-- Cutting a text leaves it whole exactly if it was not too long. -/
theorem capped_eq_some {cap : Nat} {t : Text} (hne : t ≠ []) :
    capped cap t = some t ↔ t.length ≤ cap := by
  rw [capped, if_neg hne, Option.some_inj, List.take_eq_self_iff]

/-- An optional text is stored as typed if it keeps to its cap. -/
theorem optional_kept_iff {cap : Nat} {value : Option Text} {f : Option Text → Option Text}
    (hnone : f none = none) (hsome : ∀ t ∈ value, f (some t) = capped cap t)
    (hne : ∀ t ∈ value, t ≠ []) :
    f value = value ↔ ∀ t ∈ value, t.length ≤ cap := by
  cases value with
  | none =>
    rw [hnone]
    refine iff_of_true rfl ?_
    rintro t ⟨⟩
  | some t =>
    rw [hsome t rfl, capped_eq_some (hne t rfl)]
    refine ⟨?_, fun h => h t rfl⟩
    rintro h t' ⟨⟩
    exact h

/-- A list goes through its loop as it is if it is short enough and each entry is kept. -/
theorem collect_kept_iff {α β : Type} {limit : Nat} (hlimit : 0 < limit) {form : α → Option β}
    {back : β → α} {l : List β} : collectUpTo limit (fun _ => form) [] (l.map back) = l ↔
      l.length ≤ limit ∧ ∀ b ∈ l, form (back b) = some b := by
  have hforms : collectUpTo limit (fun _ => form) [] (l.map back) =
      (l.filterMap (form ∘ back)).take limit := by
    rw [collectUpTo_forms _ hlimit, List.nil_append, List.filterMap_map, List.length_nil,
      Nat.sub_zero]
  rw [hforms]
  constructor
  · intro h
    have hlength := congrArg List.length h
    have hle := List.length_filterMap_le (form ∘ back) l
    rw [List.length_take] at hlength
    -- Nothing is dropped, so there is nothing to cut either.
    have hall : (l.filterMap (form ∘ back)).take limit = l.filterMap (form ∘ back) :=
      List.take_of_length_le (by omega)
    exact ⟨by omega, filterMap_self_iff.mp (hall.symm.trans h)⟩
  · intro ⟨hshort, hkept⟩
    have hall : l.filterMap (form ∘ back) = l := filterMap_self_iff.mpr hkept
    rw [hall, List.take_of_length_le hshort]

/-- A tidy entry comes back from `normalise_faq_list` as typed if its two texts are within their
bounds. -/
theorem faq_entry_kept_iff {e : FaqEntry} (hquestion : TidyText e.question)
    (hanswer : TidyEnds e.answer) : faqEntryOf e.item = some e ↔
      e.question.length ≤ faqQuestionMax ∧ e.answer.length ≤ faqAnswerMax := by
  unfold faqEntryOf FaqEntry.item
  dsimp only
  rw [hquestion.1, hanswer.1]
  have hfirst : e.question.take faqQuestionMax ≠ [] := fun h =>
    (List.take_eq_nil_iff.mp h).elim nofun hquestion.2
  have hsecond : e.answer.take faqAnswerMax ≠ [] := fun h =>
    (List.take_eq_nil_iff.mp h).elim nofun hanswer.2
  rw [if_neg (not_or.mpr ⟨hfirst, hsecond⟩), Option.some_inj, FaqEntry.mk.injEq,
    List.take_eq_self_iff, List.take_eq_self_iff]

/-- A tidy link comes back as typed if its label and its URL are within their bounds. -/
theorem link_kept_iff {l : ArticleLink} (hcta : TidyEnds l.cta)
    (hurl : TidyUrl env l.url) : articleLinkOf env l.item = some l ↔
      l.cta.length ≤ linkCtaMax ∧ l.url.length ≤ linkUrlMax := by
  have hstep : articleLinkOf env l.item = some ⟨l.cta.take linkCtaMax, l.url.take linkUrlMax⟩ := by
    unfold articleLinkOf ArticleLink.item
    dsimp only [Option.getD_some]
    rw [hurl.1, hcta.1]
    have hshown : l.cta.take linkCtaMax ≠ [] := fun h =>
      (List.take_eq_nil_iff.mp h).elim nofun hcta.2
    split
    next h => cases h
    next h => exact absurd (Option.some.inj h) hurl.2
    next safe _ h =>
      obtain rfl := Option.some.inj h
      rw [if_neg hshown]
  rw [hstep, Option.some_inj, ArticleLink.mk.injEq, List.take_eq_self_iff, List.take_eq_self_iff]

/-- A tidy entry of the two video lists comes back as typed if its title is within its bound. -/
theorem url_title_kept_iff {u : UrlTitle} (hurl : TidyUrl env u.url)
    (htitle : strip u.title = u.title) :
    urlTitleOf env u.dump = some u ↔ u.title.length ≤ urlTitleTitleMax := by
  have hstep : urlTitleOf env u.dump = some ⟨u.url, u.title.take urlTitleTitleMax⟩ := by
    rw [urlTitleOf_eq, urlAndTitle_dump hurl.2, hurl.1, htitle]
    split
    next h => cases h
    next h => exact absurd (Option.some.inj h) hurl.2
    next safe _ h => rw [Option.some.inj h]
  rw [hstep, Option.some_inj, UrlTitle.mk.injEq, List.take_eq_self_iff]
  exact and_iff_right rfl

/-- The whole list of links comes back, exactly if it is not too long and none of its entries is
changed or dropped. -/
theorem links_kept_iff {links : List ArticleLink}
    (h : ∀ l ∈ links, TidyEnds l.cta ∧ TidyUrl env l.url) :
    normaliseArticleLinks env (some (links.map ArticleLink.item)) = links ↔
      links.length ≤ linksMax ∧
        ∀ l ∈ links, l.cta.length ≤ linkCtaMax ∧ l.url.length ≤ linkUrlMax := by
  refine (collect_kept_iff (by decide)).trans (and_congr_right fun _ => ?_)
  exact forall₂_congr fun l hl => link_kept_iff (h l hl).1 (h l hl).2

theorem faq_kept_iff {faq : List FaqEntry}
    (h : ∀ e ∈ faq, TidyText e.question ∧ TidyEnds e.answer) :
    normaliseFaqList (some (faq.map FaqEntry.item)) = faq ↔ faq.length ≤ faqMaxItems ∧
      ∀ e ∈ faq, e.question.length ≤ faqQuestionMax ∧ e.answer.length ≤ faqAnswerMax := by
  refine (collect_kept_iff (by decide)).trans (and_congr_right fun _ => ?_)
  exact forall₂_congr fun e he => faq_entry_kept_iff (h e he).1 (h e he).2

theorem url_titles_kept_iff {urls : List UrlTitle}
    (h : ∀ u ∈ urls, TidyUrl env u.url ∧ strip u.title = u.title) :
    normaliseUrlTitleList env (some (urls.map UrlTitle.dump)) = urls ↔
      urls.length ≤ urlTitleListMax ∧ ∀ u ∈ urls, u.title.length ≤ urlTitleTitleMax := by
  refine (collect_kept_iff (by decide)).trans (and_congr_right fun _ => ?_)
  exact forall₂_congr fun u hu => url_title_kept_iff (h u hu).1 (h u hu).2

theorem keywords_kept_iff {ks : List Text} (hnodup : ks.Nodup)
    (htidy : ∀ k ∈ ks, TidyText k ∧ env.lower k = k) :
    normaliseSearchKeyword env (some (.list ks)) = ks ↔
      ks.length ≤ searchKeywordMaxItems ∧ ∀ k ∈ ks, k.length ≤ searchKeywordItemMax := by
  -- a tidy keyword is already stripped and lowered, so only the cut can change it
  have hform : ∀ k ∈ ks, keywordForm env k = k.take searchKeywordItemMax := by
    intro k hk
    rw [keywordForm, (htidy k hk).1.1, (htidy k hk).2]
  constructor
  · intro h
    refine ⟨?_, fun k hk => ?_⟩
    · rw [← h]
      exact (normaliseSearchKeyword_spec env (.list ks)).2.2
    · rw [← h] at hk
      obtain ⟨item, -, rfl⟩ := mem_normaliseSearchKeyword.mp hk
      exact List.length_take_le _ _
  · intro ⟨hcount, hshort⟩
    -- nothing is cut, dropped as blank or dropped as a repetition
    have hsame : ∀ k ∈ ks, keywordForm env k = k := fun k hk =>
      (hform k hk).trans (List.take_of_length_le (hshort k hk))
    have hmap : ks.map (keywordForm env) = ks :=
      (List.map_congr_left hsame).trans (List.map_id ks)
    have hkept : ks.filter (fun k => decide (k ≠ [] ∧ k ∉ ([] : List Text))) = ks :=
      List.filter_eq_self.mpr fun k hk => decide_eq_true ⟨(htidy k hk).1.2, List.not_mem_nil⟩
    have hempty : ([] : List Text).length < searchKeywordMaxItems := by decide
    rw [normaliseSearchKeyword_eq, SearchKeyword.items, collectUpTo_keywords env ks hempty,
      freshKeywords, hmap, hkept, eraseDups_of_nodup hnodup, List.nil_append]
    exact List.take_of_length_le hcount

/-- The categories `meta` announces are the slugs of the categories there are. -/
theorem announced_category_iff {slug : Text} :
    slug ∈ metaResponse.categories ↔ ∃ category, categoryEnumToSlug category = slug := by
  have hall : metaResponse.categories = ArticleCategory.all.map categoryEnumToSlug := by decide
  rw [hall, List.mem_map]
  refine exists_congr fun category => and_iff_right ?_
  cases category <;> decide

/-- The slug of a category is read as that category. -/
theorem categorySlugToEnum_slug (hlower : LowersSlugs env) (category : ArticleCategory) :
    categorySlugToEnum env (some (categoryEnumToSlug category)) = some category := by
  have hvalid : ValidSlug (categoryEnumToSlug category) := by cases category <;> decide
  have hfind : (ArticleCategory.all.find? fun c => c.value ==
      replaceAll (literal "-".toList) "_".toList (categoryEnumToSlug category)) =
        some category := by
    cases category <;> decide
  unfold categorySlugToEnum
  split
  next h => cases h
  next h =>
    rw [Option.some.inj h] at hvalid
    exact absurd hvalid.1 (by decide)
  next slug _ h =>
    obtain rfl := Option.some.inj h
    dsimp only
    rw [lower_strip_slug hlower hvalid, hfind]

/-- A category is filed under the slug that was typed if `meta` announces that slug. -/
theorem category_kept_iff (hlower : LowersSlugs env) {slug : Text} :
    categoryEnumToSlug ((categorySlugToEnum env (some slug)).getD .blog) = slug ↔
      slug ∈ metaResponse.categories := by
  rw [announced_category_iff]
  constructor
  · intro h
    exact ⟨_, h⟩
  · rintro ⟨category, rfl⟩
    rw [categorySlugToEnum_slug hlower, Option.getD_some]

end Fields

/-! ## The form and its limits -/

section Limits

variable {env : Env} {form : ArticleForm}

/-- A form within its limits passes the schema. -/
theorem accepted_of_within {rest : ArticleBase} (htidy : Tidy env form)
    (hwithin : WithinLimits metaResponse form) (hrest : rest.Accepted) :
    (form.body rest).Accepted := by
  refine ⟨hrest.1, hrest.2.1, ?_, ?_⟩
  · intro items hitems item hitem
    obtain rfl := Option.some.inj hitems
    obtain ⟨l, hl, rfl⟩ := List.mem_map.mp hitem
    obtain ⟨hcta, hurl⟩ := hwithin.link l hl
    refine ⟨?_, hurl⟩
    rintro t ⟨⟩
    exact hcta
  · intro items hitems item hitem
    obtain rfl := Option.some.inj hitems
    obtain ⟨e, he, rfl⟩ := List.mem_map.mp hitem
    obtain ⟨hquestion, hanswer⟩ := hwithin.entry e he
    have htyped := htidy.entry e he
    exact ⟨List.length_pos_iff.mpr htyped.1.2, hquestion, List.length_pos_iff.mpr htyped.2.2,
      hanswer⟩

/-- **The normalisers leave a tidy form alone exactly if it is within its limits.** -/
theorem normalised_eq_iff (hlower : LowersSlugs env) (htidy : Tidy env form) :
    form.normalised env = form ↔ WithinLimits metaResponse form := by
  -- one equivalence for each field, read in both directions below
  have hmetaTitle := optional_kept_iff (f := normaliseMetaTitle) rfl
    (fun t ht => congrArg (capped metaTitleMax) (htidy.metaTitle t ht).1)
    fun t ht => (htidy.metaTitle t ht).2
  have hmetaDescription := optional_kept_iff (f := normaliseMetaDescription) rfl
    (fun t ht => congrArg (capped metaDescriptionMax) (htidy.metaDescription t ht).1)
    fun t ht => (htidy.metaDescription t ht).2
  have hcover := optional_kept_iff (f := normaliseCoverImageUrl env) rfl
    (fun t ht => by rw [normaliseCoverImageUrl, (htidy.coverImageUrl t ht).1, Option.bind_some])
    fun t ht => (htidy.coverImageUrl t ht).2
  have hkeywords := keywords_kept_iff htidy.keywords htidy.keyword
  have hlinks := links_kept_iff htidy.link
  have hfaq := faq_kept_iff htidy.entry
  have hinstagram := url_titles_kept_iff htidy.instagram
  have hyoutube := url_titles_kept_iff htidy.youtube
  constructor
  · intro h
    have hkeyword := hkeywords.mp (congrArg ArticleForm.searchKeyword h)
    have hlink := hlinks.mp (congrArg ArticleForm.links h)
    have hentry := hfaq.mp (congrArg ArticleForm.faq h)
    exact {
      category := (category_kept_iff hlower).mp (congrArg ArticleForm.category h)
      metaTitle := hmetaTitle.mp (congrArg ArticleForm.metaTitle h)
      metaDescription := hmetaDescription.mp (congrArg ArticleForm.metaDescription h)
      keywords := hkeyword.1
      keyword := hkeyword.2
      links := hlink.1
      link := hlink.2
      faq := hentry.1
      entry := hentry.2
      instagram := hinstagram.mp (congrArg ArticleForm.instagramPostUrl h)
      youtube := hyoutube.mp (congrArg ArticleForm.youtubeVideoUrl h)
      coverImageUrl := hcover.mp (congrArg ArticleForm.coverImageUrl h) }
  · intro h
    have hcategory := (category_kept_iff hlower).mpr h.category
    have htitle := hmetaTitle.mpr h.metaTitle
    have hdescription := hmetaDescription.mpr h.metaDescription
    have hkeyword := hkeywords.mpr ⟨h.keywords, h.keyword⟩
    have hlink := hlinks.mpr ⟨h.links, h.link⟩
    have hentry := hfaq.mpr ⟨h.faq, h.entry⟩
    have hpost := hinstagram.mpr h.instagram
    have hvideo := hyoutube.mpr h.youtube
    have hurl := hcover.mpr h.coverImageUrl
    unfold ArticleForm.normalised
    rw [hcategory, htitle, hdescription, hkeyword, hlink, hentry, hpost, hvideo, hurl]

/-! ## A form -/

/-- A form with a link, a question and two keywords. -/
def resultForm : ArticleForm where
  category := "result".toList
  metaTitle := some "SSC Result".toList
  metaDescription := none
  searchKeyword := ["ssc".toList, "cgl".toList]
  links := [⟨"View".toList, "https://ssc.in".toList⟩]
  faq := [⟨"When?".toList, "In May.".toList⟩]
  instagramPostUrl := []
  youtubeVideoUrl := []
  coverImageUrl := none

/-- The console's libraries, with `urllib.parse` as CPython has it. -/
def formEnv : Env := plainEnv.cpython fun _ => true

/-- The example's `lower` treats slugs as `str.lower` does. -/
theorem formEnv_lowers : LowersSlugs formEnv := plainEnv_lowers

theorem resultForm_tidy : Tidy formEnv resultForm where
  storable := by decide
  metaTitle := by decide
  metaDescription := by decide
  keywords := by decide
  keyword := by decide
  link := by decide
  entry := by decide
  instagram := by decide
  youtube := by decide
  coverImageUrl := by decide

theorem resultForm_within : WithinLimits metaResponse resultForm where
  category := by decide
  metaTitle := by decide
  metaDescription := by decide
  keywords := by decide
  keyword := by decide
  links := by decide
  link := by decide
  faq := by decide
  entry := by decide
  instagram := by decide
  youtube := by decide
  coverImageUrl := by decide

end Limits

end SarkariWorld.Site
