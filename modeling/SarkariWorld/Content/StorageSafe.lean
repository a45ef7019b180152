import SarkariWorld.Content.Uniqueness
import SarkariWorld.Content.PublishedDates
import SarkariWorld.Content.NormalForms

/-!
# What is written can be stored

The caps of an article come from two layers: the schema of a request body and the
normalisers behind it. Between them every text that is written is to keep to the cap
of its column and to be free of U+0000, which Postgres takes neither in `text` nor in
`jsonb`.

The caps hold but for one: nothing cuts the URL of an Instagram or YouTube entry.
U+0000 is no layer's business. It is not white space, so `strip` and `_collapse`
leave it, and `urlparse` only takes it from the front. `storageSafe_iff` says what a
body must be for its data to be storable: its texts are free of U+0000 as far as
they are written, and those URLs keep to their cap.

The two layers are combined field by field, and most of the work is in the loops: an entry
that is dropped may hold anything, so what is asked of the body is asked of the entries
that are kept (`Kept`).

What is dropped or cut is not written, and so need not be storable: a keyword beyond the
limit may hold anything. The condition therefore speaks of what is left of each field, and
it is as sharp as the loops.
-/

namespace SarkariWorld.Content

open Lib

/-! ## The bodies and their data -/

/-- A body of one of the three endpoints that write articles. -/
inductive WriteBody where
  | create (payload : ArticleCreate)
  | update (payload : ArticleUpdate)
  | publish (payload : ArticlePublish)

/-- What is handed to `build_article_data`. -/
def WriteBody.payload : WriteBody → Payload
  | .create payload => payload.dump
  | .update payload => payload.dump
  | .publish payload => payload.dump

/-- `content`, which only the ingest body has. -/
def WriteBody.markdown : WriteBody → Option Text
  | .create _ | .update _ => none
  | .publish payload => some (payload.content.get.getD [])

/-- The data the three handlers make of it. -/
def WriteBody.data (env : Env) (author : Option Author) (body : WriteBody) : ArticleData :=
  buildArticleData env body.payload author body.markdown

theorem WriteBody.accepted (body : WriteBody) : body.payload.Accepted := by
  cases body with
  | create payload => exact payload.accepted
  | update payload => exact payload.accepted
  | publish payload => exact payload.accepted

theorem WriteBody.slug_valid (body : WriteBody) : body.payload.slug.All ValidSlug := by
  cases body with
  | create payload =>
    rintro slug ⟨⟩
    exact payload.slug_valid
  | update payload => exact payload.slug_valid
  | publish payload =>
    rintro slug ⟨⟩
    exact payload.slug_valid

/-- A text a column takes. -/
def FitsCap (cap : Nat) (t : Text) : Prop := Storable t ∧ t.length ≤ cap

/-- Every string of the data can be stored and keeps to its cap. -/
structure StorageSafe (data : ArticleData) : Prop where
  title : ∀ t ∈ data.title, FitsCap 220 t
  description : ∀ t ∈ data.description, FitsCap 2000 t
  slug : ∀ t ∈ data.slug, Storable t
  htmlContent : ∀ t ∈ data.htmlContent, Storable t
  metaTitle : ∀ v ∈ data.metaTitle, ∀ t ∈ v, FitsCap 60 t
  metaDescription : ∀ v ∈ data.metaDescription, ∀ t ∈ v, FitsCap 160 t
  searchKeyword : ∀ l ∈ data.searchKeyword, l.length ≤ 24 ∧ ∀ k ∈ l, FitsCap 80 k
  faq : ∀ l ∈ data.faq, l.length ≤ 30 ∧ ∀ e ∈ l, FitsCap 300 e.question ∧ FitsCap 1500 e.answer
  links : ∀ l ∈ data.links, l.length ≤ 24 ∧ ∀ e ∈ l, FitsCap 60 e.cta ∧ FitsCap 2048 e.url
  instagramPostUrl : ∀ l ∈ data.instagramPostUrl,
    l.length ≤ 20 ∧ ∀ e ∈ l, FitsCap 2048 e.url ∧ FitsCap 200 e.title
  youtubeVideoUrl : ∀ l ∈ data.youtubeVideoUrl,
    l.length ≤ 20 ∧ ∀ e ∈ l, FitsCap 2048 e.url ∧ FitsCap 200 e.title
  coverImageUrl : ∀ v ∈ data.coverImageUrl, ∀ t ∈ v, FitsCap 2048 t
  author : ∀ t ∈ data.authorId.toList ++ data.authorName.toList, Storable t

/-! ## What a body must be -/

/-- `urlparse` drops the blanks and the control characters a URL begins with. -/
def urlTail (url : Text) : Text := (strip url).dropWhile c0OrSpace

/-- The URL and the title of an Instagram or YouTube entry. -/
def Json.urlAndTitle (env : Env) : Json → Text × Text
  | .str raw => (raw, [])
  | .dict entries =>
    ((Json.urlOrLink entries).strOr env, (Json.get entries "title".toList).strOr env)
  | _ => ([], [])

/-- An entry that is kept has no U+0000, and its URL is not too long. -/
def UrlTitlesFit (env : Env) (items : List Json) : Prop :=
  ∀ item, Kept (urlTitleOf env) urlTitleListMax items item →
    Storable (urlTail (item.urlAndTitle env).1) ∧
      (∀ url ∈ validHttpUrl env (some (item.urlAndTitle env).1), url.length ≤ 2048) ∧
      Storable ((strip (item.urlAndTitle env).2).take urlTitleTitleMax)

/-- The texts of a body are free of U+0000 as far as they are written, and no
Instagram or YouTube URL is too long. -/
structure StorableBody (env : Env) (payload : Payload) : Prop where
  title : payload.title.All Storable
  description : payload.description.All Storable
  metaTitle : payload.metaTitle.All fun t => Storable ((collapse (some t)).take metaTitleMax)
  metaDescription : payload.metaDescription.All fun t =>
    Storable ((collapse (some t)).take metaDescriptionMax)
  searchKeyword : payload.searchKeyword.All fun keywords =>
    ∀ item, KeptKeyword env keywords.items item → Storable (keywordForm env item)
  faq : payload.faq.All fun items => ∀ item, Kept faqEntryOf faqMaxItems items item →
    Storable item.question ∧ Storable item.answer
  links : payload.links.All fun items => ∀ item, Kept (articleLinkOf env) linksMax items item →
    Storable (item.cta.getD []) ∧ Storable (urlTail item.url)
  instagramPostUrl : payload.instagramPostUrl.All (UrlTitlesFit env)
  youtubeVideoUrl : payload.youtubeVideoUrl.All (UrlTitlesFit env)
  coverImageUrl : payload.coverImageUrl.All fun value =>
    ∀ url ∈ validHttpUrl env (some value), Storable (url.take coverImageUrlMax)

/-! ## One text -/

theorem fitsCap_take {t : Text} {cap : Nat} : FitsCap cap (t.take cap) ↔ Storable (t.take cap) :=
  and_iff_left (List.length_take_le cap t)

/-- A text within its cap is only trimmed. -/
theorem fitsCap_strip {t : Text} {cap : Nat} (h : t.length ≤ cap) :
    FitsCap cap (strip t) ↔ Storable t :=
  (and_iff_left (Nat.le_trans (strip_length_le t) h)).trans storable_strip

theorem fitsCap_capped {t : Text} {cap : Nat} :
    (∀ s ∈ capped cap t, FitsCap cap s) ↔ Storable (t.take cap) := by
  unfold capped
  split
  next hnil =>
    rw [hnil, List.take_nil]
    exact ⟨fun _ => List.not_mem_nil, fun _ s hs => by cases hs⟩
  next =>
    refine ⟨fun h => fitsCap_take.mp (h _ rfl), ?_⟩
    rintro h s ⟨⟩
    exact fitsCap_take.mpr h

/-- A key's value is normalised, and a null is nothing that could be too long. -/
theorem sent_all {α β : Type} {field : Field α} {normalise : Option α → β} {P : β → Prop}
    {Q : α → Prop} (hnull : P (normalise none))
    (hvalue : ∀ a ∈ field.get, P (normalise (some a)) ↔ Q a) :
    (∀ v ∈ field.sent.map normalise, P v) ↔ field.All Q := by
  cases field with
  | omitted =>
    constructor
    · rintro - a ⟨⟩
    · rintro - v ⟨⟩
  | null =>
    constructor
    · rintro - a ⟨⟩
    · rintro - v ⟨⟩
      exact hnull
  | value a =>
    constructor
    · rintro h b ⟨⟩
      exact (hvalue a rfl).mp (h _ rfl)
    · rintro h v ⟨⟩
      exact (hvalue a rfl).mpr (h a rfl)

/-! ## Lists -/

/-- What holds of the stored entries, said of the items that are kept. -/
theorem forall_collectUpTo {α β : Type} {form : α → Option β} {limit : Nat} {items : List α}
    {P : β → Prop} {Q : α → Prop} (hlimit : 0 < limit)
    (hform : ∀ item ∈ items, ∀ result, form item = some result → (P result ↔ Q item)) :
    (∀ result ∈ collectUpTo limit (fun _ => form) [] items, P result) ↔
      ∀ item, Kept form limit items item → Q item := by
  simp only [mem_collectUpTo_iff hlimit]
  have hmem : ∀ item, Kept form limit items item → item ∈ items := by
    rintro item ⟨-, before, after, rfl, -⟩
    exact List.mem_append_right _ List.mem_cons_self
  constructor
  · intro h item hkept
    obtain ⟨result, hresult⟩ := Option.isSome_iff_exists.mp hkept.1
    exact (hform item (hmem item hkept) result hresult).mp (h result ⟨item, hkept, hresult⟩)
  · rintro h result ⟨item, hkept, hresult⟩
    exact (hform item (hmem item hkept) result hresult).mpr (h item hkept)

/-- A question that is stored fits if its texts can be stored: the schema has bounded them. -/
theorem faqEntryOf_fits {item : FaqItem} {entry : FaqEntry} (hquestion : item.question.length ≤ 300)
    (hanswer : item.answer.length ≤ 1500) (h : faqEntryOf item = some entry) :
    FitsCap 300 entry.question ∧ FitsCap 1500 entry.answer ↔
      Storable item.question ∧ Storable item.answer := by
  unfold faqEntryOf at h
  dsimp only at h
  split at h
  next => cases h
  next =>
    obtain rfl := Option.some.inj h
    have hcollapsed := Nat.le_trans (collapse_length_le item.question) hquestion
    have hstripped := Nat.le_trans (strip_length_le item.answer) hanswer
    refine and_congr (fitsCap_take.trans ?_) (fitsCap_take.trans ?_)
    · rw [List.take_of_length_le hcollapsed, storable_collapse]
    · rw [List.take_of_length_le hstripped, storable_strip]

section Url

variable {env : Env} {checks : Text → Bool}

/-- A link that is stored fits if its texts can be stored. -/
theorem articleLinkOf_fits {item : LinkItem} {link : ArticleLink}
    (hcta : ∀ t ∈ item.cta, t.length ≤ 60) (hurl : item.url.length ≤ 2048)
    (h : articleLinkOf (env.cpython checks) item = some link) :
    FitsCap 60 link.cta ∧ FitsCap 2048 link.url ↔
      Storable (item.cta.getD []) ∧ Storable (urlTail item.url) := by
  unfold articleLinkOf at h
  split at h
  next => cases h
  next => cases h
  -- a link is stored only with a label and an address that is accepted
  next safe _ hsafe =>
    obtain rfl := Option.some.inj h
    have hshort : (strip (item.cta.getD [])).length ≤ 60 := by
      refine Nat.le_trans (strip_length_le _) ?_
      cases hitem : item.cta with
      | none => exact Nat.zero_le _
      | some t => exact hcta t hitem
    have hcanonical : safe.length ≤ 2048 := Nat.le_trans (canonical_length_le hsafe) hurl
    refine and_congr ?_ (fitsCap_take.trans ?_)
    -- the label is never cut: the payload already bounds it
    · have htake : (strip (item.cta.getD [])).take linkCtaMax = strip (item.cta.getD []) :=
        List.take_of_length_le hshort
      dsimp only
      rw [htake, ← storable_strip]
      split
      next hblank =>
        rw [hblank]
        exact ⟨fun _ => List.not_mem_nil, fun _ => ⟨by decide, by decide⟩⟩
      next => exact and_iff_left hshort
    · rw [List.take_of_length_le hcanonical]
      exact storable_canonical hsafe

theorem urlTitleOf_eq (item : Json) : urlTitleOf env item =
    match validHttpUrl env (some (item.urlAndTitle env).1) with
    | none | some [] => none
    | some safe => some ⟨safe, (strip (item.urlAndTitle env).2).take urlTitleTitleMax⟩ := by
  cases item <;> rfl

/-- An entry that is stored fits if its texts can be stored and its URL is not too long, which
nothing has made sure of. -/
theorem urlTitleOf_fits {item : Json} {link : UrlTitle}
    (h : urlTitleOf (env.cpython checks) item = some link) :
    FitsCap 2048 link.url ∧ FitsCap 200 link.title ↔
      Storable (urlTail (item.urlAndTitle (env.cpython checks)).1) ∧
        (∀ url ∈ validHttpUrl (env.cpython checks)
          (some (item.urlAndTitle (env.cpython checks)).1), url.length ≤ 2048) ∧
        Storable ((strip (item.urlAndTitle (env.cpython checks)).2).take urlTitleTitleMax) := by
  rw [urlTitleOf_eq] at h
  split at h
  next => cases h
  next => cases h
  next safe _ hsafe =>
    obtain rfl := Option.some.inj h
    rw [← and_assoc]
    refine and_congr (and_congr (storable_canonical hsafe) ?_) fitsCap_take
    rw [hsafe]
    refine ⟨?_, fun h => h safe rfl⟩
    rintro h url ⟨⟩
    exact h

/-- The entries of a list fit if the ones that are kept do. -/
theorem urlTitles_fit {value : Option (List Json)} :
    ((normaliseUrlTitleList (env.cpython checks) value).length ≤ 20 ∧
      ∀ e ∈ normaliseUrlTitleList (env.cpython checks) value,
        FitsCap 2048 e.url ∧ FitsCap 200 e.title) ↔
      UrlTitlesFit (env.cpython checks) (value.getD []) := by
  have hcount : (normaliseUrlTitleList (env.cpython checks) value).length ≤ 20 :=
    collectUpTo_length _ (by decide)
  exact (and_iff_right hcount).trans
    (forall_collectUpTo (by decide) fun item _ link h => urlTitleOf_fits h)

end Url

/-- The keywords of a body fit if the ones that are kept can be stored. -/
theorem keywords_fit {env : Env} (keywords : SearchKeyword) :
    ((normaliseSearchKeyword env (some keywords)).length ≤ 24 ∧
      ∀ k ∈ normaliseSearchKeyword env (some keywords), FitsCap 80 k) ↔
      ∀ item, KeptKeyword env keywords.items item → Storable (keywordForm env item) := by
  have hcount : (normaliseSearchKeyword env (some keywords)).length ≤ 24 := by
    rw [normaliseSearchKeyword_eq]
    exact collectUpTo_length _ (by decide)
  refine (and_iff_right hcount).trans ?_
  simp only [mem_normaliseSearchKeyword]
  constructor
  · intro h item hkept
    exact (h _ ⟨item, hkept, rfl⟩).1
  · rintro h k ⟨item, hkept, rfl⟩
    exact fitsCap_take.mpr (h item hkept)

/-! ## The other texts -/

/-- What `nh3` answers with is free of U+0000, and so is what is written over it. -/
theorem storable_sanitize {clean : CleanOptions → Text → Text}
    (hclean : ∀ options html, Storable (clean options html)) (html : Option Text) :
    Storable (sanitizeArticleHtml clean html) := by
  unfold sanitizeArticleHtml
  split
  next => exact List.not_mem_nil
  next => exact List.not_mem_nil
  next html _ =>
    intro hmem
    obtain hmem | hmem := mem_replaceFrom hmem
    · exact absurd hmem (by decide)
    · exact hclean _ _ hmem

/-- Sanitised HTML can be stored, as far as the cleaner leaves no U+0000. -/
theorem storable_html {env : Env} (hclean : ∀ options html, Storable (env.clean options html))
    (payload : Payload) (author : Option Author) (markdown : Option Text) :
    ∀ t ∈ (buildArticleData env payload author markdown).htmlContent, Storable t := by
  intro t ht
  cases markdown with
  | none =>
    obtain ⟨html, -, rfl⟩ := Option.map_eq_some_iff.mp ht
    exact storable_sanitize hclean html
  | some markdown =>
    cases ht
    unfold renderMarkdown
    split
    next => exact List.not_mem_nil
    next => exact List.not_mem_nil
    next => exact storable_sanitize hclean _

theorem storable_slug {env : Env} (hslugs : LowersSlugs env) {payload : Payload}
    (hvalid : payload.slug.All ValidSlug) (author : Option Author) (markdown : Option Text) :
    ∀ t ∈ (buildArticleData env payload author markdown).slug, Storable t := by
  intro t ht
  have hdata : (match payload.slug.get with
      | none | some [] => none
      | some slug => some (env.lower (strip slug))) = some t := ht
  split at hdata
  next => cases hdata
  next => cases hdata
  next slug _ hslug =>
    have hslugValid := hvalid slug hslug
    rw [lower_strip_slug hslugs hslugValid] at hdata
    obtain rfl := Option.some.inj hdata
    intro hmem
    have hchar := List.all_eq_true.mp hslugValid.2.2 _ hmem
    cases hchar

theorem storable_strInt (n : Int) : Storable (strInt n) := by
  have hdigits : ∀ m : Nat, '\x00' ∉ Nat.toDigits 10 m := by
    intro m hmem
    have hdigit := Nat.isDigit_of_mem_toDigits (by decide) (by decide) hmem
    cases hdigit
  unfold strInt
  split
  next => exact List.not_mem_cons_of_ne_of_not_mem (by decide) (hdigits _)
  next => exact hdigits _

/-! ## One key -/

section Keys

variable {cap : Nat} {env : Env} {checks : Text → Bool}

theorem fitsCap_none : ∀ t ∈ (none : Option Text), FitsCap cap t := by
  rintro t ⟨⟩

/-- The fields that are stripped: title and description. -/
theorem plain_fits {field : Field Text} (h : field.All fun t => t.length ≤ cap) :
    (∀ t ∈ field.sent.map fun v => strip (v.getD []), FitsCap cap t) ↔ field.All Storable :=
  sent_all ⟨List.not_mem_nil, Nat.zero_le cap⟩ fun t ht => fitsCap_strip (h t ht)

/-- The fields that are collapsed and cut: meta title and meta description. -/
theorem collapsed_fits {field : Field Text} :
    (∀ v ∈ field.sent.map fun v => capped cap (collapse v), ∀ t ∈ v, FitsCap cap t) ↔
      field.All fun t => Storable ((collapse (some t)).take cap) :=
  sent_all fitsCap_none fun _ _ => fitsCap_capped

theorem searchKeyword_fits {field : Field SearchKeyword} :
    (∀ l ∈ field.sent.map (normaliseSearchKeyword env),
      l.length ≤ 24 ∧ ∀ k ∈ l, FitsCap 80 k) ↔
      field.All fun keywords =>
        ∀ item, KeptKeyword env keywords.items item → Storable (keywordForm env item) :=
  sent_all ⟨Nat.zero_le _, by rintro k ⟨⟩⟩ fun keywords _ => keywords_fit keywords

theorem faq_fits {field : Field (List FaqItem)}
    (h : field.All fun es => ∀ e ∈ es, 1 ≤ e.question.length ∧ e.question.length ≤ 300 ∧
      1 ≤ e.answer.length ∧ e.answer.length ≤ 1500) :
    (∀ l ∈ field.sent.map normaliseFaqList,
      l.length ≤ 30 ∧ ∀ e ∈ l, FitsCap 300 e.question ∧ FitsCap 1500 e.answer) ↔
      field.All fun items => ∀ item, Kept faqEntryOf faqMaxItems items item →
        Storable item.question ∧ Storable item.answer := by
  refine sent_all ⟨Nat.zero_le _, by rintro e ⟨⟩⟩ fun items hitems => ?_
  have hcount : (normaliseFaqList (some items)).length ≤ 30 := collectUpTo_length _ (by decide)
  refine (and_iff_right hcount).trans (forall_collectUpTo (by decide) fun item hitem e he => ?_)
  obtain ⟨-, hquestion, -, hanswer⟩ := h items hitems item hitem
  exact faqEntryOf_fits hquestion hanswer he

theorem links_fit {field : Field (List LinkItem)}
    (h : field.All fun ls => ∀ l ∈ ls, (∀ t ∈ l.cta, t.length ≤ 60) ∧ l.url.length ≤ 2048) :
    (∀ l ∈ field.sent.map (normaliseArticleLinks (env.cpython checks)),
      l.length ≤ 24 ∧ ∀ e ∈ l, FitsCap 60 e.cta ∧ FitsCap 2048 e.url) ↔
      field.All fun items => ∀ item, Kept (articleLinkOf (env.cpython checks)) linksMax items item →
        Storable (item.cta.getD []) ∧ Storable (urlTail item.url) := by
  refine sent_all ⟨Nat.zero_le _, by rintro e ⟨⟩⟩ fun items hitems => ?_
  have hcount : (normaliseArticleLinks (env.cpython checks) (some items)).length ≤ 24 :=
    collectUpTo_length _ (by decide)
  refine (and_iff_right hcount).trans (forall_collectUpTo (by decide) fun item hitem e he => ?_)
  obtain ⟨hcta, hurl⟩ := h items hitems item hitem
  exact articleLinkOf_fits hcta hurl he

theorem urlTitleLists_fit {field : Field (List Json)} :
    (∀ l ∈ field.sent.map (normaliseUrlTitleList (env.cpython checks)),
      l.length ≤ 20 ∧ ∀ e ∈ l, FitsCap 2048 e.url ∧ FitsCap 200 e.title) ↔
      field.All (UrlTitlesFit (env.cpython checks)) :=
  sent_all ⟨Nat.zero_le _, by rintro e ⟨⟩⟩ fun _ _ => urlTitles_fit

theorem coverImageUrl_fits {field : Field Text} :
    (∀ v ∈ field.sent.map (normaliseCoverImageUrl (env.cpython checks)),
      ∀ t ∈ v, FitsCap 2048 t) ↔
      field.All fun value => ∀ url ∈ validHttpUrl (env.cpython checks) (some value),
        Storable (url.take coverImageUrlMax) := by
  refine sent_all fitsCap_none fun value _ => ?_
  unfold normaliseCoverImageUrl
  cases validHttpUrl (env.cpython checks) (some value) with
  | none => exact ⟨by rintro - url ⟨⟩, fun _ => fitsCap_none⟩
  | some url =>
    refine fitsCap_capped.trans ⟨?_, fun h => h url rfl⟩
    rintro h safe ⟨⟩
    exact h

end Keys

/-! ## The data -/

section Data

variable {env : Env} {checks : Text → Bool} {author : Option Author}

/-- **The data of a body can be stored within its caps exactly when the body's texts
are free of U+0000 as far as they are written and its Instagram and YouTube URLs are
not too long.** -/
theorem storageSafe_iff (hclean : ∀ options html, Storable (env.clean options html))
    (hslugs : LowersSlugs env) (hauthor : ∀ a ∈ author, Storable a.name) (body : WriteBody) :
    StorageSafe (body.data (env.cpython checks) author) ↔
      StorableBody (env.cpython checks) body.payload := by
  obtain ⟨htitle, hdescription, hlinks, hfaq⟩ := body.accepted
  constructor
  · intro h
    exact
      { title := (plain_fits htitle).mp h.title
        description := (plain_fits hdescription).mp h.description
        metaTitle := collapsed_fits.mp h.metaTitle
        metaDescription := collapsed_fits.mp h.metaDescription
        searchKeyword := searchKeyword_fits.mp h.searchKeyword
        faq := (faq_fits hfaq).mp h.faq
        links := (links_fit hlinks).mp h.links
        instagramPostUrl := urlTitleLists_fit.mp h.instagramPostUrl
        youtubeVideoUrl := urlTitleLists_fit.mp h.youtubeVideoUrl
        coverImageUrl := coverImageUrl_fits.mp h.coverImageUrl }
  · intro h
    exact
      { title := (plain_fits htitle).mpr h.title
        description := (plain_fits hdescription).mpr h.description
        slug := storable_slug hslugs body.slug_valid author body.markdown
        htmlContent := storable_html hclean body.payload author body.markdown
        metaTitle := collapsed_fits.mpr h.metaTitle
        metaDescription := collapsed_fits.mpr h.metaDescription
        searchKeyword := searchKeyword_fits.mpr h.searchKeyword
        faq := (faq_fits hfaq).mpr h.faq
        links := (links_fit hlinks).mpr h.links
        instagramPostUrl := urlTitleLists_fit.mpr h.instagramPostUrl
        youtubeVideoUrl := urlTitleLists_fit.mpr h.youtubeVideoUrl
        coverImageUrl := coverImageUrl_fits.mpr h.coverImageUrl
        -- the author's columns hold a number in decimals and the name of a stored account
        author := by
          intro t ht
          obtain ht | ht := List.mem_append.mp ht
          · obtain ⟨a, -, rfl⟩ := Option.map_eq_some_iff.mp (Option.mem_toList.mp ht)
            exact storable_strInt a.id
          · obtain ⟨a, ha, rfl⟩ := Option.map_eq_some_iff.mp (Option.mem_toList.mp ht)
            exact hauthor a ha }

end Data

/-! ## A title with U+0000 -/

/-- `nh3` drops U+0000 as every HTML parser does. -/
def plainEnv : Env := { sampleEnv with clean := fun _ html => html.filter (· ≠ '\x00') }

theorem plainEnv_clean (options : CleanOptions) (html : Text) :
    Storable (plainEnv.clean options html) := by
  intro hmem
  have hkept := (List.mem_filter.mp hmem).2
  rw [decide_eq_true_eq] at hkept
  exact hkept rfl

theorem plainEnv_lowers : LowersSlugs plainEnv := by
  intro t ht
  refine (List.map_congr_left fun c hc => ?_).trans (List.map_id t)
  refine Char.toLower_eq_of_not_isUpper fun hupper => ?_
  have hcapital : 'A'.val ≤ c.val ∧ c.val ≤ 'Z'.val := of_decide_eq_true hupper
  have hfirst : 65 ≤ c.toNat := UInt32.le_iff_toNat_le.mp hcapital.1
  have hlast : c.toNat ≤ 90 := UInt32.le_iff_toNat_le.mp hcapital.2
  have hclass : (c.isLower = true ∨ c.isDigit = true) ∨ (c == '-') = true := by
    rw [← Bool.or_eq_true, ← Bool.or_eq_true]
    exact List.all_eq_true.mp ht c hc
  rcases hclass with (hlower | hdigit) | hyphen
  · exact Char.not_isUpper_of_isLower hlower hupper
  · have hto : c.toNat ≤ 57 := of_decide_eq_true (Bool.and_eq_true_iff.mp hdigit).2
    omega
  · have hcode : c.toNat = 45 := by
      rw [beq_iff_eq.mp hyphen]
      rfl
    omega

theorem omitted_all {α : Type} {p : α → Prop} : (Field.omitted : Field α).All p := by
  rintro a ⟨⟩

theorem titled_accepted {title : Text} (h : title.length ≤ 220) :
    (sampleBase (.value title) .omitted).Accepted := by
  refine ⟨?_, omitted_all, omitted_all, omitted_all⟩
  rintro t ⟨⟩
  exact h

/-- The body of `PUT /admin/posts/result` with a title. -/
def titleEdit (title : Text) (h : title.length ≤ 220) : WriteBody :=
  .update ⟨sampleBase (.value title) .omitted, .omitted, .omitted, .omitted, titled_accepted h,
    omitted_all, omitted_all⟩

theorem title_storable {title : Text} (h : Storable title) : (Field.value title).All Storable := by
  rintro t ⟨⟩
  exact h

/-- A title without U+0000 is stored. -/
theorem title_is_stored :
    StorageSafe ((titleEdit "Result".toList (by decide)).data (plainEnv.cpython fun _ => true)
      none) :=
  (storageSafe_iff plainEnv_clean plainEnv_lowers (by rintro a ⟨⟩)
    (titleEdit "Result".toList (by decide))).mpr
    { title := title_storable (by decide)
      description := omitted_all
      metaTitle := omitted_all
      metaDescription := omitted_all
      searchKeyword := omitted_all
      faq := omitted_all
      links := omitted_all
      instagramPostUrl := omitted_all
      youtubeVideoUrl := omitted_all
      coverImageUrl := omitted_all }

/-- The body is accepted, and Postgres refuses what is made of it. -/
theorem nul_title_is_written :
    ¬ ∀ body : WriteBody, StorageSafe (body.data (plainEnv.cpython fun _ => true) none) := by
  intro h
  have hsafe := (h (titleEdit ['a', '\x00', 'b'] (by decide))).title
  exact absurd (hsafe ['a', '\x00', 'b'] rfl).1 (by decide)

end SarkariWorld.Content
