import SarkariWorld.Content.AnchorTarget
import SarkariWorld.Content.StorageSafe

/-!
# Saving what was loaded

An editor that saves an article unchanged sends the stored fields back, and
`services.articles.update` takes the article for modified if one of them comes out
of `build_article_data` different. Each normaliser would have to give its own output
back.

Most of them cut last, and the cut can leave what the steps before it take away: a
blank at the end of a meta title, of a keyword or of the title of an entry; white
space at the end of a URL that lost a bare `#`; a cover URL with a bare mark. The
FAQ, the calls to action, the title and the description are cut by the schema first,
and nothing happens to them.

The HTML always comes back. `nh3` escapes `<` in texts and in attribute values, so the
two substitutions around it find nothing but tags: `<a` where an anchor opens, and no
heading of the first level, which is no allowed tag (`occurs_render`).

`resave_noop` has the exact condition for all twelve fields together: no cut of the body
that is saved first leaves something that another step takes away (`FieldsSettled`).
-/

namespace SarkariWorld.Content

open Lib Lib.Html

/-! ## Sending the fields back -/

/-- A key that is sent if there is a value for it. -/
def Field.ofOption {α : Type} : Option α → Field α
  | none => .omitted
  | some a => .value a

/-- A key that is sent if there is one, as null if it has no value. -/
def Field.ofSent {α : Type} : Option (Option α) → Field α
  | none => .omitted
  | some none => .null
  | some (some a) => .value a

/-- A stored entry, as the client sends it back. -/
def UrlTitle.dump (entry : UrlTitle) : Json :=
  .dict [("url".toList, .str entry.url), ("title".toList, .str entry.title)]

/-- A stored question, as the client sends it back. -/
def FaqEntry.item (entry : FaqEntry) : FaqItem := ⟨entry.question, entry.answer⟩

/-- A stored link, as the client sends it back. -/
def ArticleLink.item (link : ArticleLink) : LinkItem := ⟨some link.cta, link.url⟩

/-- The payload that sends the normalised fields back. -/
def ArticleData.resave (data : ArticleData) : Payload where
  title := .ofOption data.title
  description := .ofOption data.description
  category := .omitted
  metaTitle := .ofSent data.metaTitle
  metaDescription := .ofSent data.metaDescription
  searchKeyword := .ofOption (data.searchKeyword.map .list)
  links := .ofOption (data.links.map fun links => links.map ArticleLink.item)
  faq := .ofOption (data.faq.map fun entries => entries.map FaqEntry.item)
  instagramPostUrl := .ofOption (data.instagramPostUrl.map fun entries => entries.map UrlTitle.dump)
  youtubeVideoUrl := .ofOption (data.youtubeVideoUrl.map fun entries => entries.map UrlTitle.dump)
  coverImageUrl := .ofSent data.coverImageUrl
  publishedAt := .omitted
  slug := .ofOption data.slug
  htmlContent := .ofOption data.htmlContent
  articleStatus := .omitted

/-- The eleven normalised fields besides the body are the same in both. -/
structure SameFields (data data' : ArticleData) : Prop where
  title : data'.title = data.title
  description : data'.description = data.description
  slug : data'.slug = data.slug
  metaTitle : data'.metaTitle = data.metaTitle
  metaDescription : data'.metaDescription = data.metaDescription
  searchKeyword : data'.searchKeyword = data.searchKeyword
  links : data'.links = data.links
  faq : data'.faq = data.faq
  instagramPostUrl : data'.instagramPostUrl = data.instagramPostUrl
  youtubeVideoUrl : data'.youtubeVideoUrl = data.youtubeVideoUrl
  coverImageUrl : data'.coverImageUrl = data.coverImageUrl

/-! ## What a body must be -/

/-- A cut at `cap` does not leave white space at the end. -/
def CutsClean (cap : Nat) (t : Text) : Prop := ∀ c ∈ t[cap - 1]?, isSpace c = false

/-- The text does not end in white space. -/
def EndsClean (t : Text) : Prop := ∀ c ∈ t.getLast?, isSpace c = false

/-- A URL that was cut names a host `urlparse` accepts, and no mark in it is left
with nothing behind it. -/
structure CutUrlSettled (checks : Text → Bool) (url : Text) : Prop where
  endsClean : EndsClean url
  netloc : validNetloc checks (splitNetloc (splitScheme url).2).1 = true
  marks : Unbared (splitScheme url).1 (splitNetloc (splitScheme url).2).2

/-- An entry that is kept has a URL and a title that end in no white space, the title
where it is cut. -/
def UrlTitlesSettled (env : Env) (items : List Json) : Prop :=
  ∀ item, Kept (urlTitleOf env) urlTitleListMax items item →
    (∀ url ∈ validHttpUrl env (some (item.urlAndTitle env).1), EndsClean url) ∧
      CutsClean urlTitleTitleMax (strip (item.urlAndTitle env).2)

/-- The values of a body that are normalised to something that stays as it is. -/
structure FieldsSettled (env : Env) (checks : Text → Bool) (payload : Payload) : Prop where
  metaTitle : payload.metaTitle.All fun t => CutsClean metaTitleMax (collapse (some t))
  metaDescription : payload.metaDescription.All fun t =>
    CutsClean metaDescriptionMax (collapse (some t))
  searchKeyword : payload.searchKeyword.All fun keywords =>
    ∀ item, KeptKeyword env keywords.items item →
      CutsClean searchKeywordItemMax (env.lower (collapse (some item)))
  links : payload.links.All fun items => ∀ item, Kept (articleLinkOf env) linksMax items item →
    ∀ url ∈ validHttpUrl env (some item.url), EndsClean url
  instagramPostUrl : payload.instagramPostUrl.All (UrlTitlesSettled env)
  youtubeVideoUrl : payload.youtubeVideoUrl.All (UrlTitlesSettled env)
  coverImageUrl : payload.coverImageUrl.All fun value =>
    ∀ url ∈ validHttpUrl env (some value), CutUrlSettled checks (url.take coverImageUrlMax)

/-- `str.lower` keeps white space and nothing else white, and leaves alone what it
has lowered, in part too. -/
structure LowerLaws (lower : Text → Text) : Prop where
  collapsed : ∀ t, Collapsed t → Collapsed (lower t)
  again : ∀ t n, lower ((lower t).take n) = (lower t).take n

/-! ## One text -/

/-- A stripped text that is cut is still stripped exactly if the cut is not behind a blank. -/
theorem stripped_take {t : Text} {cap : Nat} (hcap : 0 < cap) (h : Stripped t) :
    Stripped (t.take cap) ↔ CutsClean cap t := by
  have hhead : ∀ c ∈ (t.take cap).head?, isSpace c = false := by
    rw [List.head?_take, if_neg (by omega)]
    exact h.1
  have hlast : (t.take cap).getLast? = t[cap - 1]?.or t.getLast? := by
    rw [List.getLast?_take, if_neg (by omega)]
  refine (and_iff_right hhead).trans ?_
  rw [hlast, CutsClean]
  cases hcut : t[cap - 1]? with
  | none =>
    rw [Option.none_or]
    exact iff_of_true h.2 (by rintro c ⟨⟩)
  | some c => rw [Option.some_or]

/-- A trimmed text that is cut and trimmed again. -/
theorem strip_take_iff {t : Text} {cap : Nat} (hcap : 0 < cap) :
    (strip ((strip t).take cap)).take cap = (strip t).take cap ↔ CutsClean cap (strip t) := by
  have hshort : (strip ((strip t).take cap)).length ≤ cap :=
    Nat.le_trans (strip_length_le _) (List.length_take_le cap _)
  rw [List.take_of_length_le hshort, strip_eq_self, stripped_take hcap (strip_stripped t)]

/-- A collapsed text that is cut and collapsed again. -/
theorem collapse_take_iff {value : Option Text} {cap : Nat} (hcap : 0 < cap) :
    (collapse (some ((collapse value).take cap))).take cap = (collapse value).take cap ↔
      CutsClean cap (collapse value) := by
  have hshort : (strip ((collapse value).take cap)).length ≤ cap :=
    Nat.le_trans (strip_length_le _) (List.length_take_le cap _)
  rw [collapse_take, List.take_of_length_le hshort, strip_eq_self,
    stripped_take hcap (collapse_collapsed value).2]

/-! ## One key -/

section Keys

variable {α β γ : Type} {field : Field α} {normalise : Option α → β} {Q : α → Prop}

theorem sent_ofOption (a : Option α) : (Field.ofOption a).sent = a.map some := by
  cases a <;> rfl

theorem sent_ofSent (a : Option (Option α)) : (Field.ofSent a).sent = a := by
  match a with
  | none | some none | some (some _) => rfl

/-- A field comes back as it is exactly if each value that can be in it does. The null is not in the
way. -/
theorem resent_iff {back : β → γ} {again : Option γ → β}
    (hnull : again (some (back (normalise none))) = normalise none)
    (hvalue : ∀ a ∈ field.get,
      again (some (back (normalise (some a)))) = normalise (some a) ↔ Q a) :
    (Field.ofOption ((field.sent.map normalise).map back)).sent.map again =
      field.sent.map normalise ↔ field.All Q := by
  rw [sent_ofOption]
  cases field with
  | omitted => exact iff_of_true rfl omitted_all
  | null =>
    refine iff_of_true (congrArg some hnull) ?_
    rintro a ⟨⟩
  | value a =>
    have hkey : some (again (some (back (normalise (some a))))) = some (normalise (some a)) ↔ Q a :=
      (Option.some_inj).trans (hvalue a rfl)
    refine hkey.trans ⟨?_, fun h => h a rfl⟩
    rintro h b ⟨⟩
    exact h

/-- A nullable column: what is sent back is null where nothing was left. -/
theorem resent_null_iff {normalise : Option α → Option α} (hnull : normalise none = none)
    (hvalue : ∀ a ∈ field.get, normalise (normalise (some a)) = normalise (some a) ↔ Q a) :
    (Field.ofSent (field.sent.map normalise)).sent.map normalise = field.sent.map normalise ↔
      field.All Q := by
  rw [sent_ofSent]
  cases field with
  | omitted => exact iff_of_true rfl omitted_all
  | null =>
    refine iff_of_true (congrArg some ?_) ?_
    · rw [hnull, hnull]
    · rintro a ⟨⟩
  | value a =>
    have hkey : some (normalise (normalise (some a))) = some (normalise (some a)) ↔ Q a :=
      (Option.some_inj).trans (hvalue a rfl)
    refine hkey.trans ⟨?_, fun h => h a rfl⟩
    rintro h b ⟨⟩
    exact h

end Keys

/-! ## One list -/

section Lists

variable {α β : Type}

/-- A loop that skips nothing and changes nothing leaves the list. -/
theorem filterMap_self_iff {again : α → Option α} {l : List α} :
    l.filterMap again = l ↔ ∀ a ∈ l, again a = some a := by
  constructor
  · intro h
    induction l with
    | nil => exact fun a ha => absurd ha List.not_mem_nil
    | cons first l ih =>
      cases hfirst : again first with
      | none =>
        -- Too few are left to be the list.
        rw [List.filterMap_cons_none hfirst] at h
        have hshort := List.length_filterMap_le again l
        rw [h, List.length_cons] at hshort
        omega
      | some b =>
        rw [List.filterMap_cons_some hfirst] at h
        obtain ⟨rfl, hrest⟩ := List.cons.inj h
        intro a ha
        obtain rfl | ha := List.mem_cons.mp ha
        · exact hfirst
        · exact ih hrest a ha
  · intro h
    rw [List.filterMap_congr h, List.filterMap_some]

/-- A list of a loop comes back if each of its entries does. -/
theorem collect_again_iff {limit : Nat} (hlimit : 0 < limit) {form : α → Option β}
    {again : β → Option β} {items : List α} {back : β → α} {form' : α → Option β}
    (hback : ∀ b, form' (back b) = again b) :
    collectUpTo limit (fun _ => form') []
        ((collectUpTo limit (fun _ => form) [] items).map back) =
        collectUpTo limit (fun _ => form) [] items ↔
      ∀ b ∈ collectUpTo limit (fun _ => form) [] items, again b = some b := by
  have hlength : (collectUpTo limit (fun _ => form) [] items).length ≤ limit :=
    collectUpTo_length items hlimit
  generalize collectUpTo limit (fun _ => form) [] items = stored at hlength ⊢
  have hmap : (stored.map back).filterMap form' = stored.filterMap again := by
    rw [List.filterMap_map]
    exact List.filterMap_congr fun b _ => hback b
  have hshort : (stored.filterMap again).length ≤ limit :=
    Nat.le_trans (List.length_filterMap_le again stored) hlength
  rw [collectUpTo_forms _ hlimit, List.nil_append, hmap, List.length_nil, Nat.sub_zero,
    List.take_of_length_le hshort, filterMap_self_iff]

end Lists

/-! ## The entries -/

section Entries

variable {env : Env} {checks : Text → Bool}

/-- Whatever the schema lets through of the FAQ comes back. -/
theorem faqEntryOf_again {item : FaqItem} {entry : FaqEntry}
    (hquestion : item.question.length ≤ 300)
    (hanswer : item.answer.length ≤ 1500) (h : faqEntryOf item = some entry) :
    faqEntryOf entry.item = some entry := by
  have hcollapsed : (collapse (some item.question)).length ≤ 300 :=
    Nat.le_trans (collapse_length_le _) hquestion
  have hstripped : (strip item.answer).length ≤ 1500 := Nat.le_trans (strip_length_le _) hanswer
  -- neither text is cut: the payload bounds them by the widths of the entry
  have hcut : (collapse (some item.question)).take faqQuestionMax = collapse (some item.question) :=
    List.take_of_length_le hcollapsed
  have hcut' : (strip item.answer).take faqAnswerMax = strip item.answer :=
    List.take_of_length_le hstripped
  unfold faqEntryOf at h
  rw [hcut, hcut'] at h
  dsimp only at h
  split at h
  next => cases h
  next hfull =>
    obtain rfl := Option.some.inj h
    have hagain : collapse (some (collapse (some item.question))) = collapse (some item.question) :=
      collapse_of_collapsed (collapse_collapsed _)
    have hagain' : strip (strip item.answer) = strip item.answer :=
      strip_of_stripped (strip_stripped _)
    unfold faqEntryOf FaqEntry.item
    dsimp only
    rw [hagain, hagain', hcut, hcut', if_neg hfull]

/-- A canonical URL within its cap, sent back. -/
theorem canonical_again_iff {value : Option Text} {url : Text}
    (h : validHttpUrl (env.cpython checks) value = some url) {cap : Nat} (hcap : url.length ≤ cap) :
    (∃ safe, validHttpUrl (env.cpython checks) (some url) = some safe ∧ safe.take cap = url) ↔
      EndsClean url := by
  rw [EndsClean, ← validHttpUrl_again h]
  constructor
  · rintro ⟨safe, hsafe, htake⟩
    have hle : safe.length ≤ url.length := canonical_length_le hsafe
    rw [List.take_of_length_le (Nat.le_trans hle hcap)] at htake
    rw [hsafe, htake]
  · intro hsame
    exact ⟨url, hsame, List.take_of_length_le hcap⟩

/-- The call to action a link is stored with. -/
def LinkItem.shownCta (item : LinkItem) : Text :=
  let cta := (strip (item.cta.getD [])).take linkCtaMax
  if cta = [] then "View".toList else cta

/-- The step for a link: the URL decides whether it is kept, and the text in front of it is cut. -/
theorem articleLinkOf_eq (item : LinkItem) : articleLinkOf (env.cpython checks) item =
    (validHttpUrl (env.cpython checks) (some item.url)).map fun safe =>
      ⟨item.shownCta, safe.take linkUrlMax⟩ := by
  unfold articleLinkOf
  split
  next hnone => rw [hnone, Option.map_none]
  next hnil => exact absurd rfl (canonical_ne_nil hnil)
  next safe _ hsafe =>
    rw [hsafe, Option.map_some]
    rfl

/-- The text of a link comes back, since the schema has cut it already. -/
theorem shownCta_again {item : LinkItem} (h : ∀ t ∈ item.cta, t.length ≤ 60) (url : Text) :
    LinkItem.shownCta ⟨some item.shownCta, url⟩ = item.shownCta := by
  have hshort : (strip (item.cta.getD [])).length ≤ 60 := by
    refine Nat.le_trans (strip_length_le _) ?_
    cases hitem : item.cta with
    | none => exact Nat.zero_le _
    | some t => exact h t hitem
  have hcut : (strip (item.cta.getD [])).take linkCtaMax = strip (item.cta.getD []) :=
    List.take_of_length_le hshort
  unfold LinkItem.shownCta
  dsimp only [Option.getD_some]
  rw [hcut]
  split
  next => rfl
  next hne => rw [strip_of_stripped (strip_stripped _), hcut, if_neg hne]

/-- What holds of the URL of a kept item holds of its canonical form. -/
theorem forall_canonical {value : Option Text} {url : Text} {P : Text → Prop}
    (h : validHttpUrl env value = some url) : (∀ u ∈ validHttpUrl env value, P u) ↔ P url := by
  rw [h]
  refine ⟨fun h => h url rfl, ?_⟩
  rintro h u ⟨⟩
  exact h

/-- A link comes back exactly if the end of its URL is clean. -/
theorem articleLinkOf_again {item : LinkItem} {link : ArticleLink}
    (hcta : ∀ t ∈ item.cta, t.length ≤ 60) (hurl : item.url.length ≤ 2048)
    (h : articleLinkOf (env.cpython checks) item = some link) :
    articleLinkOf (env.cpython checks) link.item = some link ↔
      ∀ url ∈ validHttpUrl (env.cpython checks) (some item.url), EndsClean url := by
  rw [articleLinkOf_eq] at h
  obtain ⟨safe, hsafe, rfl⟩ := Option.map_eq_some_iff.mp h
  have hcanonical : safe.length ≤ linkUrlMax := Nat.le_trans (canonical_length_le hsafe) hurl
  rw [forall_canonical hsafe, ← canonical_again_iff hsafe hcanonical, articleLinkOf_eq,
    Option.map_eq_some_iff, List.take_of_length_le hcanonical]
  refine exists_congr fun again => and_congr_right fun _ => ?_
  rw [ArticleLink.mk.injEq]
  exact and_iff_right (shownCta_again hcta safe)

/-- The step for an entry: its URL decides, its title is stripped and cut. -/
theorem urlTitleOf_map (item : Json) : urlTitleOf (env.cpython checks) item =
    (validHttpUrl (env.cpython checks) (some (item.urlAndTitle (env.cpython checks)).1)).map
      fun safe =>
        ⟨safe, (strip (item.urlAndTitle (env.cpython checks)).2).take urlTitleTitleMax⟩ := by
  rw [urlTitleOf_eq]
  split
  next hnone => rw [hnone, Option.map_none]
  next hnil => exact absurd rfl (canonical_ne_nil hnil)
  next safe _ hsafe => rw [hsafe, Option.map_some]

/-- The editor sends an object with both keys. -/
theorem urlAndTitle_dump {entry : UrlTitle} (h : entry.url ≠ []) :
    entry.dump.urlAndTitle env = (entry.url, entry.title) := by
  have hurl : Json.get [("url".toList, .str entry.url), ("title".toList, .str entry.title)]
      "url".toList = .str entry.url := rfl
  have htitle : Json.get [("url".toList, .str entry.url), ("title".toList, .str entry.title)]
      "title".toList = .str entry.title := rfl
  have htruthy : (Json.str entry.url).truthy = true := by
    obtain ⟨c, cs, hcons⟩ := List.exists_cons_of_ne_nil h
    rw [hcons]
    rfl
  rw [UrlTitle.dump, Json.urlAndTitle, Json.urlOrLink, hurl, htitle, strOr_str]
  rw [if_pos htruthy, strOr_str]

/-- An entry comes back exactly if its URL ends cleanly and the cut of its title leaves no blank. -/
theorem urlTitleOf_again {item : Json} {entry : UrlTitle}
    (h : urlTitleOf (env.cpython checks) item = some entry) :
    urlTitleOf (env.cpython checks) entry.dump = some entry ↔
      (∀ url ∈ validHttpUrl (env.cpython checks)
        (some (item.urlAndTitle (env.cpython checks)).1), EndsClean url) ∧
      CutsClean urlTitleTitleMax (strip (item.urlAndTitle (env.cpython checks)).2) := by
  rw [urlTitleOf_map] at h
  obtain ⟨safe, hsafe, rfl⟩ := Option.map_eq_some_iff.mp h
  rw [forall_canonical hsafe, ← canonical_again_iff hsafe (Nat.le_refl safe.length),
    ← strip_take_iff (by decide), urlTitleOf_map, urlAndTitle_dump (canonical_ne_nil hsafe),
    Option.map_eq_some_iff]
  constructor
  · rintro ⟨again, hagain, hentry⟩
    rw [UrlTitle.mk.injEq] at hentry
    obtain ⟨rfl, htitle⟩ := hentry
    exact ⟨⟨again, hagain, List.take_length⟩, htitle⟩
  · rintro ⟨⟨again, hagain, htake⟩, htitle⟩
    have hle : again.length ≤ safe.length := canonical_length_le hagain
    rw [List.take_of_length_le hle] at htake
    exact ⟨again, hagain, by rw [htake, htitle]⟩

end Entries

/-! ## The keywords -/

section Keywords

variable {env : Env}

/-- A keyword comes back unless it was cut behind a blank. -/
theorem keywordForm_again_iff (hlower : LowerLaws env.lower) (item : Text) :
    keywordForm env (keywordForm env item) = keywordForm env item ↔
      CutsClean searchKeywordItemMax (env.lower (collapse (some item))) := by
  have hcollapsed := hlower.collapsed _ (collapse_collapsed (some item))
  have hhead : ∀ c ∈ ((env.lower (collapse (some item))).take searchKeywordItemMax).head?,
      isSpace c = false := by
    rw [List.head?_take, if_neg (by decide)]
    exact hcollapsed.2.1
  have hsqueezed :
      Squeezed false ((env.lower (collapse (some item))).take searchKeywordItemMax) := by
    have hwhole := hcollapsed.1
    rw [← List.take_append_drop searchKeywordItemMax (env.lower (collapse (some item)))] at hwhole
    exact hwhole.left
  have hagain := hlower.again (collapse (some item))
  rw [← stripped_take (by decide) hcollapsed.2, ← strip_eq_self]
  unfold keywordForm
  generalize env.lower (collapse (some item)) = lowered at *
  -- Collapsing the cut text strips it, and what is left is still lowered.
  have hcollapse : collapse (some (lowered.take searchKeywordItemMax)) =
      strip (lowered.take searchKeywordItemMax) := by
    rw [collapse, Option.getD_some, squeeze_of_squeezed hsqueezed]
  have hshort : (strip (lowered.take searchKeywordItemMax)).length ≤ searchKeywordItemMax :=
    Nat.le_trans (strip_length_le _) (List.length_take_le _ _)
  have hlowered : env.lower (strip (lowered.take searchKeywordItemMax)) =
      strip (lowered.take searchKeywordItemMax) := by
    rw [strip_eq_take hhead, List.take_take, hagain]
  rw [hcollapse, hlowered, List.take_of_length_le hshort]

/-- The stored keywords are not empty, and no two are the same. -/
theorem normaliseSearchKeyword_spec (env : Env) (keywords : SearchKeyword) :
    (normaliseSearchKeyword env (some keywords)).Nodup ∧
      (∀ k ∈ normaliseSearchKeyword env (some keywords), k ≠ []) ∧
      (normaliseSearchKeyword env (some keywords)).length ≤ searchKeywordMaxItems := by
  have hempty : ([] : List Text).length < searchKeywordMaxItems := by decide
  refine ⟨?_, fun k hk => ?_, ?_⟩
  · rw [normaliseSearchKeyword_eq, collectUpTo_keywords env keywords.items hempty, List.nil_append]
    exact (nodup_eraseDups _).sublist (List.take_sublist ..)
  · obtain ⟨item, hkept, rfl⟩ := mem_normaliseSearchKeyword.mp hk
    exact hkept.1
  · rw [normaliseSearchKeyword_eq]
    exact collectUpTo_length _ hempty

/-- Keywords come back exactly if each of them is its own form. -/
theorem keywords_again_iff {env : Env} (keywords : SearchKeyword) :
    normaliseSearchKeyword env (some (.list (normaliseSearchKeyword env (some keywords)))) =
        normaliseSearchKeyword env (some keywords) ↔
      ∀ k ∈ normaliseSearchKeyword env (some keywords), keywordForm env k = k := by
  obtain ⟨hnodup, hne, hroom⟩ := normaliseSearchKeyword_spec env keywords
  generalize normaliseSearchKeyword env (some keywords) = stored at *
  have hempty : ([] : List Text).length < searchKeywordMaxItems := by decide
  have hforms : normaliseSearchKeyword env (some (.list stored)) =
      (freshKeywords env [] stored).take searchKeywordMaxItems :=
    (collectUpTo_keywords env stored hempty).trans (List.nil_append _)
  rw [hforms]
  constructor
  · intro h
    -- No form was dropped, so the forms are the keywords one by one.
    have hlength := congrArg List.length h
    have hfresh := eraseDups_sublist ((stored.map (keywordForm env)).filter fun k =>
      decide (k ≠ [] ∧ k ∉ ([] : List Text)))
    have hfilter : ((stored.map (keywordForm env)).filter fun k =>
        decide (k ≠ [] ∧ k ∉ ([] : List Text))).Sublist (stored.map (keywordForm env)) :=
      List.filter_sublist
    have hle := (hfresh.trans hfilter).length_le
    rw [List.length_map] at hle
    rw [List.length_take, freshKeywords] at hlength
    have hall : freshKeywords env [] stored = stored.map (keywordForm env) :=
      (hfresh.trans hfilter).eq_of_length (by rw [List.length_map]; omega)
    rw [hall, List.take_of_length_le (by rw [List.length_map]; exact hroom)] at h
    exact List.map_inj_left.mp (h.trans (List.map_id stored).symm)
  · intro h
    have hmap : stored.map (keywordForm env) = stored :=
      (List.map_congr_left h).trans (List.map_id stored)
    have hkept : stored.filter (fun k => decide (k ≠ [] ∧ k ∉ ([] : List Text))) = stored :=
      List.filter_eq_self.mpr fun k hk => decide_eq_true ⟨hne k hk, List.not_mem_nil⟩
    rw [freshKeywords, hmap, hkept, eraseDups_of_nodup hnodup, List.take_of_length_le hroom]

end Keywords

/-! ## The cover -/

section Cover

variable {env : Env} {checks : Text → Bool}

/-- A URL is a scheme, an authority and what ends it. -/
theorem httpUrl_parts {url : Text} (h : IsHttpUrl url) : ∃ name netloc rest, IsScheme name ∧
    (name = "http".toList ∨ name = "https".toList) ∧ netloc ≠ [] ∧
    (∀ c ∈ netloc, netlocEnd c = false) ∧ (∀ c ∈ rest.head?, netlocEnd c = true) ∧
    url = name ++ "://".toList ++ netloc ++ rest := by
  obtain ⟨before, hbefore, c, tail, hc, rfl⟩ := h
  obtain ⟨name, rfl, hname, hhttp⟩ : ∃ name, before = name ++ "://".toList ∧ IsScheme name ∧
      (name = "http".toList ∨ name = "https".toList) := by
    obtain rfl | rfl := List.mem_pair.mp hbefore
    · exact ⟨"http".toList, rfl, by unfold IsScheme; decide, Or.inl rfl⟩
    · exact ⟨"https".toList, rfl, by unfold IsScheme; decide, Or.inr rfl⟩
  have hjoin := cutAt_append netlocEnd (c :: tail)
  refine ⟨name, (cutAt netlocEnd (c :: tail)).1, (cutAt netlocEnd (c :: tail)).2, hname, hhttp,
    fun hnil => ?_, fun d hd => not_stop_of_cutAt netlocEnd hd, fun d hd => ?_, ?_⟩
  · rw [hnil, List.nil_append] at hjoin
    rw [stop_of_cutAt netlocEnd hjoin] at hc
    cases hc
  · obtain ⟨rest, hrest⟩ := List.head?_eq_some_iff.mp hd
    exact stop_of_cutAt netlocEnd hrest
  · rw [List.append_assoc (name ++ "://".toList), hjoin]

/-- What has to be settled, in terms of the parts of the URL. -/
theorem cutUrlSettled_iff {name netloc rest : Text} (hname : IsScheme name)
    (hnetloc : ∀ c ∈ netloc, netlocEnd c = false) (hrest : ∀ c ∈ rest.head?, netlocEnd c = true) :
    CutUrlSettled checks (name ++ "://".toList ++ netloc ++ rest) ↔
      EndsClean (name ++ "://".toList ++ netloc ++ rest) ∧ validNetloc checks netloc = true ∧
        Unbared name rest := by
  have hjoin : name ++ "://".toList ++ netloc ++ rest =
      name ++ ':' :: ("//".toList ++ netloc ++ rest) := by
    simp only [List.append_assoc]
    rfl
  have hcuts := splitNetloc_eq hnetloc hrest
  constructor
  · rintro ⟨hlast, hvalid, hmarks⟩
    rw [hjoin, splitScheme_eq hname, hcuts] at hvalid hmarks
    exact ⟨hlast, hvalid, hmarks⟩
  · rintro ⟨hlast, hvalid, hmarks⟩
    refine ⟨hlast, ?_, ?_⟩
    · rw [hjoin, splitScheme_eq hname, hcuts]
      exact hvalid
    · rw [hjoin, splitScheme_eq hname, hcuts]
      exact hmarks

/-- A text of the shape of a URL is its own canonical form if the host is accepted
and nothing is dropped from it. -/
theorem validHttpUrl_text_iff {url : Text} (h : IsHttpUrl url)
    (hremoved : ∀ c ∈ url, removedByte c = false) :
    validHttpUrl (env.cpython checks) (some url) = some url ↔ CutUrlSettled checks url := by
  obtain ⟨name, netloc, rest, hname, hhttp, hne, hnetloc, hrest, rfl⟩ := httpUrl_parts h
  -- a text that begins as an address falls into a scheme, a host and a rest
  have hscheme : name ≠ [] := by
    rintro rfl
    cases hname.1
  have hremoved' : ∀ c ∈ netloc ++ rest, removedByte c = false := by
    intro c hc
    refine hremoved c ?_
    rw [List.append_assoc]
    exact List.mem_append_right _ hc
  -- on these parts the parse can be computed: only the host may be refused
  have hparse := urlparse_text checks hname hnetloc hrest hremoved'
  rw [cutUrlSettled_iff hname hnetloc hrest]
  constructor
  -- what comes back unchanged had no blank at its end and no empty query or fragment
  · intro hself
    have hstripped := stripped_of_canonical hself
    obtain ⟨u, hu, hparse', hurl⟩ := validHttpUrl_parts hself
    rw [Option.getD_some, strip_of_stripped hstripped, hparse] at hparse'
    split at hparse'
    next hvalid =>
      obtain rfl := Option.some.inj hparse'
      rw [urlunparse_located hu.parsed hscheme hne] at hurl
      exact ⟨hstripped.2, hvalid, splitRest_rest_iff.mp (List.append_cancel_left hurl).symm⟩
    next => cases hparse'
  · rintro ⟨hlast, hvalid, hmarks⟩
    have hstrip := strip_of_stripped ⟨head_httpUrl h, hlast⟩
    rw [if_pos hvalid] at hparse
    have hu : HttpParts checks (splitRest name netloc rest) :=
      ⟨urlparse_parsed hparse, hhttp, hne⟩
    have hwritten : urlunparse (splitRest name netloc rest) =
        name ++ "://".toList ++ netloc ++ rest := by
      rw [urlunparse_located hu.parsed hscheme hne, splitRest_rest_iff.mpr hmarks]
      rfl
    rw [← hstrip] at hparse
    refine (validHttpUrl_of_parts ?_ hparse hu).trans (congrArg some hwritten)
    rw [hstrip]
    exact ne_nil_of_httpUrl h

/-- A cover URL comes back exactly if what the cut leaves of it is settled. -/
theorem cover_again_iff (value : Text) :
    normaliseCoverImageUrl (env.cpython checks)
        (normaliseCoverImageUrl (env.cpython checks) (some value)) =
        normaliseCoverImageUrl (env.cpython checks) (some value) ↔
      ∀ url ∈ validHttpUrl (env.cpython checks) (some value),
        CutUrlSettled checks (url.take coverImageUrlMax) := by
  cases hvalue : validHttpUrl (env.cpython checks) (some value) with
  | none =>
    have hnone : normaliseCoverImageUrl (env.cpython checks) (some value) = none := by
      rw [normaliseCoverImageUrl, hvalue, Option.bind_none]
    rw [hnone]
    refine iff_of_true rfl ?_
    rintro url ⟨⟩
  | some url =>
    have hstored : normaliseCoverImageUrl (env.cpython checks) (some value) =
        some (url.take coverImageUrlMax) := by
      rw [normaliseCoverImageUrl, hvalue, Option.bind_some, capped,
        if_neg (canonical_ne_nil hvalue)]
    -- the stored text is an address cut off at the width, and still begins like one
    have hhttp : IsHttpUrl (url.take coverImageUrlMax) :=
      (canonical_isHttpUrl hvalue).take (by decide)
    have hremoved : ∀ c ∈ url.take coverImageUrlMax, removedByte c = false := by
      intro c hc
      obtain ⟨u, hu, -, rfl⟩ := validHttpUrl_parts hvalue
      exact removed_urlunparse hu.parsed hu.scheme_ne hu.netloc c (List.mem_of_mem_take hc)
    have hshort : (url.take coverImageUrlMax).length ≤ coverImageUrlMax := List.length_take_le _ _
    have hall : (∀ u ∈ some url, CutUrlSettled checks (u.take coverImageUrlMax)) ↔
        CutUrlSettled checks (url.take coverImageUrlMax) := by
      refine ⟨fun h => h url rfl, ?_⟩
      rintro h u ⟨⟩
      exact h
    rw [hstored, hall]
    generalize url.take coverImageUrlMax = cut at hhttp hremoved hshort
    have hself : normaliseCoverImageUrl (env.cpython checks) (some cut) = some cut ↔
        validHttpUrl (env.cpython checks) (some cut) = some cut := by
      unfold normaliseCoverImageUrl
      cases hcut : validHttpUrl (env.cpython checks) (some cut) with
      | none => exact Iff.rfl
      | some safe =>
        have hle : safe.length ≤ coverImageUrlMax := Nat.le_trans (canonical_length_le hcut) hshort
        rw [Option.bind_some, capped, if_neg (canonical_ne_nil hcut), List.take_of_length_le hle]
    rw [hself, validHttpUrl_text_iff hhttp hremoved]

end Cover

/-! ## The fields besides the body -/

section Fields

variable {env : Env} {checks : Text → Bool} {author : Option Author}

/-- The two fields of this kind, meta title and meta description. -/
theorem collapsed_again_iff {field : Field Text} {cap : Nat} (hcap : 0 < cap) :
    (Field.ofSent (field.sent.map fun v => capped cap (collapse v))).sent.map
        (fun v => capped cap (collapse v)) = field.sent.map (fun v => capped cap (collapse v)) ↔
      field.All fun t => CutsClean cap (collapse (some t)) := by
  refine resent_null_iff rfl fun t _ => ?_
  by_cases hnil : collapse (some t) = []
  · have hnone : capped cap (collapse (some t)) = none := if_pos hnil
    rw [hnone, hnil]
    refine iff_of_true rfl ?_
    rintro c ⟨⟩
  · have hsome : capped cap (collapse (some t)) = some ((collapse (some t)).take cap) := if_neg hnil
    rw [hsome, ← collapse_take_iff hcap]
    unfold capped
    split
    next hblank =>
      refine iff_of_false (by rintro ⟨⟩) fun hsame => hnil ?_
      rw [hblank, List.take_nil] at hsame
      obtain hzero | hempty := List.take_eq_nil_iff.mp hsame.symm
      · omega
      · exact hempty
    next => exact Option.some_inj

/-- Title and description always come back: they are stripped and not cut. -/
theorem plain_again {field : Field Text} :
    (Field.ofOption (field.sent.map fun v => strip (v.getD []))).sent.map
        (fun v => strip (v.getD [])) = field.sent.map fun v => strip (v.getD []) := by
  rw [sent_ofOption, Option.map_map, Option.map_map]
  refine congrArg (Option.map · field.sent) (funext fun v => ?_)
  exact strip_of_stripped (strip_stripped _)

/-- So does the slug, whose form is valid from the start. -/
theorem slug_again (hslugs : LowersSlugs env) {field : Field Text} (hvalid : field.All ValidSlug)
    {stored : Option Text}
    (hstored : stored = match field.get with
      | none | some [] => none
      | some slug => some (env.lower (strip slug))) :
    (match (Field.ofOption stored).get with
      | none | some [] => none
      | some slug => some (env.lower (strip slug))) = stored := by
  split at hstored
  next =>
    rw [hstored]
    rfl
  next =>
    rw [hstored]
    rfl
  next slug hne hslug =>
    have hslugValid := hvalid slug hslug
    rw [lower_strip_slug hslugs hslugValid] at hstored
    rw [hstored]
    obtain ⟨c, cs, rfl⟩ := List.exists_cons_of_ne_nil fun hnil => hne hnil
    exact congrArg some (lower_strip_slug hslugs hslugValid)

theorem searchKeyword_again_iff (hlower : LowerLaws env.lower) {field : Field SearchKeyword} :
    (Field.ofOption ((field.sent.map (normaliseSearchKeyword env)).map .list)).sent.map
        (normaliseSearchKeyword env) = field.sent.map (normaliseSearchKeyword env) ↔
      field.All fun keywords => ∀ item, KeptKeyword env keywords.items item →
        CutsClean searchKeywordItemMax (env.lower (collapse (some item))) := by
  refine resent_iff rfl fun keywords _ => (keywords_again_iff keywords).trans ?_
  simp only [mem_normaliseSearchKeyword]
  constructor
  · intro h item hkept
    exact (keywordForm_again_iff hlower item).mp (h _ ⟨item, hkept, rfl⟩)
  · rintro h k ⟨item, hkept, rfl⟩
    exact (keywordForm_again_iff hlower item).mpr (h item hkept)

/-- The questions always come back, as a field of the body: the schema bounds them before. -/
theorem faq_again {field : Field (List FaqItem)}
    (h : field.All fun es => ∀ e ∈ es, 1 ≤ e.question.length ∧ e.question.length ≤ 300 ∧
      1 ≤ e.answer.length ∧ e.answer.length ≤ 1500) :
    (Field.ofOption ((field.sent.map normaliseFaqList).map fun entries =>
        entries.map FaqEntry.item)).sent.map normaliseFaqList =
      field.sent.map normaliseFaqList := by
  refine (resent_iff (Q := fun _ => True) rfl fun items hitems => ?_).mpr fun _ _ => trivial
  refine (collect_again_iff (by decide) fun entry => rfl).trans (iff_true_intro fun entry he => ?_)
  obtain ⟨item, hkept, hentry⟩ := (mem_collectUpTo_iff (by decide)).mp he
  obtain ⟨-, before, after, hsplit, -⟩ := hkept
  have hmem : item ∈ items := by
    rw [show items = before ++ item :: after from hsplit]
    exact List.mem_append_right _ List.mem_cons_self
  obtain ⟨-, hquestion, -, hanswer⟩ := h items hitems item hmem
  exact faqEntryOf_again hquestion hanswer hentry

theorem links_again_iff {field : Field (List LinkItem)}
    (h : field.All fun ls => ∀ l ∈ ls, (∀ t ∈ l.cta, t.length ≤ 60) ∧ l.url.length ≤ 2048) :
    (Field.ofOption ((field.sent.map (normaliseArticleLinks (env.cpython checks))).map fun links =>
        links.map ArticleLink.item)).sent.map (normaliseArticleLinks (env.cpython checks)) =
        field.sent.map (normaliseArticleLinks (env.cpython checks)) ↔
      field.All fun items => ∀ item, Kept (articleLinkOf (env.cpython checks)) linksMax items item →
        ∀ url ∈ validHttpUrl (env.cpython checks) (some item.url), EndsClean url := by
  refine resent_iff rfl fun items hitems => ?_
  refine (collect_again_iff (by decide) fun link => rfl).trans
    (forall_collectUpTo (by decide) fun item hitem link hlink => ?_)
  obtain ⟨hcta, hurl⟩ := h items hitems item hitem
  exact articleLinkOf_again hcta hurl hlink

/-- The Instagram and YouTube entries, as fields of the body. -/
theorem urlTitles_again_iff {field : Field (List Json)} :
    (Field.ofOption ((field.sent.map (normaliseUrlTitleList (env.cpython checks))).map
        fun entries => entries.map UrlTitle.dump)).sent.map
        (normaliseUrlTitleList (env.cpython checks)) =
        field.sent.map (normaliseUrlTitleList (env.cpython checks)) ↔
      field.All (UrlTitlesSettled (env.cpython checks)) := by
  refine resent_iff rfl fun items _ => ?_
  exact (collect_again_iff (by decide) fun entry => rfl).trans
    (forall_collectUpTo (by decide) fun item _ entry hentry => urlTitleOf_again hentry)

theorem coverImageUrl_again_iff {field : Field Text} :
    (Field.ofSent (field.sent.map (normaliseCoverImageUrl (env.cpython checks)))).sent.map
        (normaliseCoverImageUrl (env.cpython checks)) =
        field.sent.map (normaliseCoverImageUrl (env.cpython checks)) ↔
      field.All fun value => ∀ url ∈ validHttpUrl (env.cpython checks) (some value),
        CutUrlSettled checks (url.take coverImageUrlMax) :=
  resent_null_iff rfl fun value _ => cover_again_iff value

/-- **The fields besides the body come back as they are exactly when no cut leaves
something that another step takes away.** -/
theorem sameFields_iff (hlower : LowerLaws env.lower) (hslugs : LowersSlugs env)
    (body : WriteBody) :
    SameFields (body.data (env.cpython checks) author)
        (buildArticleData (env.cpython checks) (body.data (env.cpython checks) author).resave none
          none) ↔
      FieldsSettled (env.cpython checks) checks body.payload := by
  obtain ⟨-, -, hlinks, hfaq⟩ := body.accepted
  constructor
  · intro h
    exact
      { metaTitle := (collapsed_again_iff (by decide)).mp h.metaTitle
        metaDescription := (collapsed_again_iff (by decide)).mp h.metaDescription
        searchKeyword := (searchKeyword_again_iff hlower).mp h.searchKeyword
        links := (links_again_iff hlinks).mp h.links
        instagramPostUrl := urlTitles_again_iff.mp h.instagramPostUrl
        youtubeVideoUrl := urlTitles_again_iff.mp h.youtubeVideoUrl
        coverImageUrl := coverImageUrl_again_iff.mp h.coverImageUrl }
  · intro h
    exact
      { title := plain_again
        description := plain_again
        slug := slug_again hslugs body.slug_valid rfl
        metaTitle := (collapsed_again_iff (by decide)).mpr h.metaTitle
        metaDescription := (collapsed_again_iff (by decide)).mpr h.metaDescription
        searchKeyword := (searchKeyword_again_iff hlower).mpr h.searchKeyword
        links := (links_again_iff hlinks).mpr h.links
        faq := faq_again hfaq
        instagramPostUrl := urlTitles_again_iff.mpr h.instagramPostUrl
        youtubeVideoUrl := urlTitles_again_iff.mpr h.youtubeVideoUrl
        coverImageUrl := coverImageUrl_again_iff.mpr h.coverImageUrl }

end Fields

/-! ## The body -/

section Body

/-- What `downgradeH1` looks for. -/
def headings : List Text := ["<h1".toList, "</h1>".toList, "<H1".toList, "</H1>".toList]

/-- What is known of `nh3.clean`, as the repository locks it. Its answer is a tree the
options allow, written with `<` and `>` escaped in the values too; and what it has
answered it answers again, whether or not the anchors have been given their targets. -/
structure CleansAgain (env : Env) : Prop where
  answers : ∀ html, ∃ tree, Cleaned articleOptions tree ∧
    env.clean articleOptions html = serialize .strict tree
  again : ∀ html tree, Cleaned articleOptions tree →
    env.clean articleOptions html = serialize .strict tree →
      env.clean articleOptions (serialize .strict (addTarget tree)) = serialize .strict tree

section Headings

variable {heading : Text}

theorem heading_shape (h : heading ∈ headings) : heading = '<' :: heading.tail := by
  have hall : ∀ heading ∈ headings, heading = '<' :: heading.tail := by decide
  exact hall heading h

/-- No allowed tag, opened or closed, reads like one of them. -/
theorem tag_not_heading (h : heading ∈ headings) {name : Text}
    (hname : name ∈ articleOptions.tags) (rest : Text) :
    matchesAt (literal heading) ('<' :: (name ++ rest)) = false ∧
      matchesAt (literal heading) ('<' :: '/' :: (name ++ rest)) = false := by
  have hall : ∀ heading ∈ headings, ∀ name ∈ allowedTags,
      ((literal heading).zip ('<' :: name)).any (fun x => !x.1 x.2) = true ∧
        ((literal heading).zip ('<' :: '/' :: name)).any (fun x => !x.1 x.2) = true := by decide
  obtain ⟨hopen, hclose⟩ := hall heading h name hname
  exact ⟨matchesAt_of_mismatch hopen rest, matchesAt_of_mismatch hclose rest⟩

/-- A heading is behind whatever holds no `<`. -/
theorem occurs_behind (h : heading ∈ headings) {v t : Text} (hv : '<' ∉ v)
    (hocc : occurs (literal heading) (v ++ t) = true) : occurs (literal heading) t = true := by
  rw [heading_shape h] at hocc ⊢
  exact occurs_of_first (fun c hc => beq_false_of_ne fun heq => hv (heq ▸ hc)) hocc

/-- Attributes are written without a `<`, the values included. -/
theorem lt_not_mem_attrs {attrs : List Attr} (h : ∀ a ∈ attrs, isAttrName a.1 = true) :
    '<' ∉ renderAttrs (attrs.map (escaped .strict)) := by
  intro hmem
  obtain ⟨a, ha, hlt⟩ := List.mem_flatMap.mp hmem
  obtain ⟨b, hb, rfl⟩ := List.mem_map.mp ha
  have hname : '<' ∉ b.1 := lt_not_mem_name (Bool.and_eq_true_iff.mp (h b hb)).1
  have hvalue : '<' ∉ escapeStrict b.2 := lt_not_mem_escapeStrict b.2
  have hparts : '<' ∈ b.1 ∨ '<' ∈ escapeStrict b.2 := by
    simpa [renderAttr, escaped, ValueEscape.strict] using hlt
  exact hparts.elim hname hvalue

/-- A start tag is passed over, up to what follows it. -/
theorem occurs_startTag (h : heading ∈ headings) {name : Text} {attrs : List Attr}
    (htag : name ∈ articleOptions.tags) (hattrs : ∀ a ∈ attrs, isAttrName a.1 = true) {rest : Text}
    (hocc : occurs (literal heading)
      ('<' :: (name ++ renderAttrs (attrs.map (escaped .strict)) ++ '>' :: rest)) = true) :
    occurs (literal heading) rest = true := by
  have hname := (Bool.and_eq_true_iff.mp (allowedTags_named htag).1).1
  have hinside : '<' ∉ name ++ renderAttrs (attrs.map (escaped .strict)) ++ ['>'] := by
    simp only [List.mem_append, List.mem_singleton, not_or]
    exact ⟨⟨lt_not_mem_name hname, lt_not_mem_attrs hattrs⟩, by decide⟩
  rcases Bool.or_eq_true_iff.mp hocc with hhere | hlater
  · rw [List.append_assoc, (tag_not_heading h htag _).1] at hhere
    cases hhere
  · refine occurs_behind h hinside ?_
    rw [List.append_assoc]
    exact hlater

/-- A heading that is found from a closing tag on is found behind it. -/
theorem occurs_endTag (h : heading ∈ headings) {name : Text} (htag : name ∈ articleOptions.tags)
    {rest : Text} (hocc : occurs (literal heading) ('<' :: '/' :: (name ++ '>' :: rest)) = true) :
    occurs (literal heading) rest = true := by
  have hname := (Bool.and_eq_true_iff.mp (allowedTags_named htag).1).1
  have hinside : '<' ∉ '/' :: (name ++ ['>']) := by
    simp only [List.mem_cons, List.mem_append, List.not_mem_nil, or_false, not_or]
    exact ⟨by decide, lt_not_mem_name hname, by decide⟩
  rcases Bool.or_eq_true_iff.mp hocc with hhere | hlater
  · rw [(tag_not_heading h htag _).2] at hhere
    cases hhere
  · refine occurs_behind h hinside ?_
    rw [List.cons_append, List.append_assoc]
    exact hlater

/-- **There is no first-level heading in what is stored**: not among the tags, which are
allowed ones, and not in the texts and values, which hold no `<`. -/
theorem occurs_render (h : heading ∈ headings) {tree : Forest} (htree : Cleaned articleOptions tree)
    {rest : Text}
    (hocc : occurs (literal heading) (((addTarget tree).escape .strict).render ++ rest) = true) :
    occurs (literal heading) rest = true := by
  induction tree generalizing rest with
  | nil => exact hocc
  | text data next ih =>
    have hsplit : occurs (literal heading)
        (escapeText data ++ (((addTarget next).escape .strict).render ++ rest)) = true := by
      rw [← List.append_assoc]
      exact hocc
    exact ih htree (occurs_behind h (lt_not_mem_escapeText data) hsplit)
  | element name attrs children next ihc ihn =>
    obtain ⟨htag, hattrs, -, -, hchildren, hnext⟩ := htree
    have hnames : ∀ a ∈ targeted name attrs, isAttrName a.1 = true :=
      targeted_named fun a ha => (allows_named (hattrs a ha)).1
    have hshape : occurs (literal heading) (((Forest.element name (targeted name attrs)
        (addTarget children) (addTarget next)).escape .strict).render ++ rest) = true := hocc
    rw [render_element] at hshape
    have hinside := occurs_startTag h htag hnames hshape
    split at hinside
    next => exact ihn hnext hinside
    next => exact ihn hnext (occurs_endTag h htag (ihc hchildren hinside))

end Headings

/-- What is stored goes through `downgradeH1` as it is. -/
theorem downgradeH1_stored {tree : Forest} (htree : Cleaned articleOptions tree) :
    downgradeH1 (serialize .strict (addTarget tree)) = serialize .strict (addTarget tree) := by
  have hfree : ∀ heading ∈ headings,
      occurs (literal heading) (serialize .strict (addTarget tree)) = false := by
    intro heading h
    refine Bool.eq_false_iff.mpr fun hocc => ?_
    unfold serialize at hocc
    rw [← List.append_nil (((addTarget tree).escape .strict).render)] at hocc
    have hnone := occurs_render h htree hocc
    cases hnone
  unfold downgradeH1
  dsimp only
  rw [replaceAll_of_not_occurs (hfree "<h1".toList (by decide)),
    replaceAll_of_not_occurs (hfree "</h1>".toList (by decide)),
    replaceAll_of_not_occurs (hfree "<H1".toList (by decide)),
    replaceAll_of_not_occurs (hfree "</H1>".toList (by decide))]

/-- Sanitised HTML is sanitised to itself. -/
theorem sanitize_again {env : Env} (hclean : CleansAgain env) (html : Text) :
    sanitizeArticleHtml env.clean (some (sanitizeArticleHtml env.clean (some html))) =
      sanitizeArticleHtml env.clean (some html) := by
  by_cases hhtml : html = []
  · rw [hhtml]
    rfl
  · obtain ⟨tree, htree, hanswer⟩ := hclean.answers (downgradeH1 html)
    rw [sanitize_eq_serialize hhtml hanswer htree (anchorFree_strict tree)]
    by_cases hempty : serialize .strict (addTarget tree) = []
    · rw [hempty]
      rfl
    · refine sanitize_eq_serialize hempty ?_ htree (anchorFree_strict tree)
      rw [downgradeH1_stored htree]
      exact hclean.again _ tree htree hanswer

/-- The HTML that is stored is nothing, or sanitised HTML. -/
theorem stored_html {env : Env} {author : Option Author} {body : WriteBody} {stored : Text}
    (h : (body.data env author).htmlContent = some stored) :
    stored = [] ∨ ∃ html, stored = sanitizeArticleHtml env.clean (some html) := by
  -- markdown that is sent takes the place of the HTML
  cases hmarkdown : body.markdown with
  | some markdown =>
    have hdata : some (renderMarkdown env.clean env.renderMarkdown (some markdown)) =
        some stored := by
      rw [← h]
      unfold WriteBody.data buildArticleData
      dsimp only
      rw [hmarkdown]
    cases markdown with
    | nil => exact Or.inl (Option.some.inj hdata).symm
    | cons c cs => exact Or.inr ⟨_, (Option.some.inj hdata).symm⟩
  | none =>
    have hdata : body.payload.htmlContent.sent.map (sanitizeArticleHtml env.clean) =
        some stored := by
      rw [← h]
      unfold WriteBody.data buildArticleData
      dsimp only
      rw [hmarkdown]
    cases hfield : body.payload.htmlContent with
    | omitted =>
      rw [hfield] at hdata
      cases hdata
    | null =>
      rw [hfield] at hdata
      exact Or.inl (Option.some.inj hdata).symm
    | value html =>
      rw [hfield] at hdata
      exact Or.inr ⟨html, (Option.some.inj hdata).symm⟩

/-- **The HTML always comes back as it is.** -/
theorem html_again {env : Env} (hclean : CleansAgain env) {author : Option Author}
    {body : WriteBody} :
    (buildArticleData env (body.data env author).resave none none).htmlContent =
      (body.data env author).htmlContent := by
  show (Field.ofOption (body.data env author).htmlContent).sent.map
    (sanitizeArticleHtml env.clean) =
    (body.data env author).htmlContent
  rw [sent_ofOption]
  cases hstored : (body.data env author).htmlContent with
  | none => rfl
  | some stored =>
    refine congrArg some ?_
    obtain rfl | ⟨html, rfl⟩ := stored_html hstored
    · rfl
    · exact sanitize_again hclean html

end Body

/-! ## The whole payload -/

/-- All twelve normalised fields are the same in both. -/
structure SamePayload (data data' : ArticleData) : Prop extends SameFields data data' where
  htmlContent : data'.htmlContent = data.htmlContent

/-- **Re-saving**: all the fields come back as they are exactly when no cut leaves
something another step takes away. -/
theorem resave_noop {env : Env} {checks : Text → Bool} {author : Option Author}
    (hlower : LowerLaws env.lower) (hslugs : LowersSlugs env) (hclean : CleansAgain env)
    (body : WriteBody) :
    SamePayload (body.data (env.cpython checks) author)
        (buildArticleData (env.cpython checks) (body.data (env.cpython checks) author).resave none
          none) ↔ FieldsSettled (env.cpython checks) checks body.payload := by
  have hclean' : CleansAgain (env.cpython checks) := ⟨hclean.answers, hclean.again⟩
  constructor
  · intro h
    exact (sameFields_iff hlower hslugs body).mp h.toSameFields
  · intro h
    exact ⟨(sameFields_iff hlower hslugs body).mpr h, html_again hclean'⟩

/-! ## A meta title that is cut behind a blank -/

theorem isSpace_toLower (c : Char) : isSpace c.toLower = isSpace c := by
  by_cases hupper : c.isUpper = true
  · have hlower : c.toLower.isLower = true := by
      rw [Char.isLower_toLower_eq_isAlpha, Char.isAlpha, hupper, Bool.true_or]
    have hslug : slugChar c.toLower = true := by
      rw [slugChar, hlower, Bool.true_or, Bool.true_or]
    have hcapital : 'A'.val ≤ c.val ∧ c.val ≤ 'Z'.val := of_decide_eq_true hupper
    have hfirst : 65 ≤ c.toNat := UInt32.le_iff_toNat_le.mp hcapital.1
    have hlast : c.toNat ≤ 90 := UInt32.le_iff_toNat_le.mp hcapital.2
    rw [slugChar_not_space hslug]
    symm
    simp only [isSpace, Bool.or_eq_false_iff, Bool.and_eq_false_iff, decide_eq_false_iff_not,
      beq_eq_false_iff_ne]
    omega
  · rw [Char.toLower_eq_of_not_isUpper hupper]

theorem squeezed_lower {t : Text} {inRun : Bool} (h : Squeezed inRun t) :
    Squeezed inRun (t.map Char.toLower) := by
  induction t generalizing inRun with
  | nil => trivial
  | cons c cs ih =>
    rw [List.map_cons]
    unfold Squeezed at h ⊢
    rw [isSpace_toLower]
    split at h
    next hspace =>
      obtain ⟨hfree, rfl, hcs⟩ := h
      rw [if_pos hspace]
      exact ⟨hfree, rfl, ih hcs⟩
    next hplain =>
      rw [if_neg hplain]
      exact ih h

/-- ASCII text is lowered letter by letter. -/
theorem plainEnv_lowerLaws : LowerLaws plainEnv.lower where
  collapsed t h := by
    refine ⟨squeezed_lower h.1, fun c hc => ?_, fun c hc => ?_⟩
    · have hmap : (t.map Char.toLower).head? = some c := hc
      rw [List.head?_map] at hmap
      obtain ⟨d, hd, rfl⟩ := Option.map_eq_some_iff.mp hmap
      rw [isSpace_toLower]
      exact h.2.1 d hd
    · have hmap : (t.map Char.toLower).getLast? = some c := hc
      rw [List.getLast?_map] at hmap
      obtain ⟨d, hd, rfl⟩ := Option.map_eq_some_iff.mp hmap
      rw [isSpace_toLower]
      exact h.2.2 d hd
  again t n := by
    show ((t.map Char.toLower).take n).map Char.toLower = (t.map Char.toLower).take n
    rw [← List.map_take, List.map_map]
    exact List.map_congr_left fun c _ => Char.toLower_toLower_eq_toLower c

/-- `nh3` on HTML of which it leaves nothing. -/
def emptyingEnv : Env := { plainEnv with clean := fun _ _ => [] }

/-- A cleaner that answers nothing answers the same again. -/
theorem emptyingEnv_again : CleansAgain emptyingEnv :=
  ⟨fun _ => ⟨.nil, trivial, rfl⟩, fun _ _ _ h => h⟩

/-- A body with nothing but a meta title passes the schema. -/
theorem sample_accepted (metaTitle : Text) : ArticleBase.Accepted
    { sampleBase .omitted .omitted with metaTitle := .value metaTitle } :=
  ⟨omitted_all, omitted_all, omitted_all, omitted_all⟩

theorem html_short {html : Text} (h : html.length ≤ htmlContentMax) :
    (Field.value html).All fun t => t.length ≤ htmlContentMax := by
  rintro t ⟨⟩
  exact h

/-- The body of `PUT /admin/posts/result` with a meta title and HTML. -/
def metaEdit (metaTitle html : Text) (h : html.length ≤ htmlContentMax) : WriteBody :=
  .update ⟨{ sampleBase .omitted .omitted with metaTitle := .value metaTitle }, .omitted,
    .value html, .omitted, sample_accepted metaTitle, omitted_all, html_short h⟩

/-- A short meta title, and HTML of which nothing is left. -/
def settledEdit : WriteBody := metaEdit "Result".toList "<script></script>".toList (by decide)

theorem meta_title_settled : (Field.value "Result".toList).All fun t =>
    CutsClean metaTitleMax (collapse (some t)) := by
  rintro t ⟨⟩ c hc
  cases hc

/-- An edit with a short title and some HTML comes back as it is. -/
theorem settledEdit_comes_back :
    SamePayload (settledEdit.data (emptyingEnv.cpython fun _ => true) none)
      (buildArticleData (emptyingEnv.cpython fun _ => true)
        (settledEdit.data (emptyingEnv.cpython fun _ => true) none).resave none none) := by
  have hlower : LowerLaws emptyingEnv.lower := plainEnv_lowerLaws
  have hslugs : LowersSlugs emptyingEnv := plainEnv_lowers
  have hsettled : FieldsSettled (emptyingEnv.cpython fun _ => true) (fun _ => true)
      settledEdit.payload :=
    { metaTitle := meta_title_settled
      metaDescription := omitted_all
      searchKeyword := omitted_all
      links := omitted_all
      instagramPostUrl := omitted_all
      youtubeVideoUrl := omitted_all
      coverImageUrl := omitted_all }
  exact (resave_noop hlower hslugs emptyingEnv_again settledEdit).mpr hsettled

/-- Fifty-nine letters, a blank and another letter. -/
def longTitle : Text := List.replicate 59 'a' ++ " b".toList

/-- The blank at the end of the stored title is gone when it is sent back. -/
theorem meta_title_is_modified :
    ¬ ∀ body : WriteBody, SamePayload (body.data (emptyingEnv.cpython fun _ => true) none)
      (buildArticleData (emptyingEnv.cpython fun _ => true)
        (body.data (emptyingEnv.cpython fun _ => true) none).resave none none) := by
  intro h
  have hsame := (h (metaEdit longTitle [] (by decide))).metaTitle
  revert hsame
  decide +kernel

end SarkariWorld.Content
