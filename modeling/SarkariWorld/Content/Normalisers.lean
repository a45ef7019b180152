import SarkariWorld.Content.Payload

/-!
# The list normalisers on any value

The normalisers of `utils/article_payload.py` take `Any`. A body that Pydantic has
accepted hands them a list of one shape, which is what `Payload` models; here they
read every value JSON can spell, so that a list may mix strings, numbers, `null` and
objects.

`normalisers_meet_spec` is their specification: each is the first `N` normalised
forms of what it is given, in the order it is given in, and the keywords are in
addition distinct. The first three are one loop and one lemma (`collectUpTo_forms`).
The keyword loop carries a seen-set besides its output; it agrees with the loop of
`Payload`, which looks into the output instead, because the two always hold the same
keywords (`keywordLoop_eq`).

`str` of a value that is no string is the library's business (`Env`), except for what
decides whether an item is kept: its type and its truth value. Both are JSON's here.
-/

namespace SarkariWorld.Content

open Lib

/-! ## The normalisers -/

/-- `_collapse`. -/
def Json.collapse (env : Env) (value : Json) : Text := Content.collapse (some (value.strOr env))

/-- `isinstance(value, list)`, and the list. -/
def Json.items : Json → List Json
  | .list items => items
  | _ => []

/-- `normalise_url_title_list`. -/
def Json.normaliseUrlTitleList (env : Env) (value : Json) : List UrlTitle :=
  collectUpTo urlTitleListMax (fun _ => urlTitleOf env) [] value.items

/-- One step of `normalise_faq_list`. -/
def Json.faqEntryOf (env : Env) : Json → Option FaqEntry
  | .dict entries =>
    let question := ((Json.get entries "question".toList).collapse env).take faqQuestionMax
    let answer := (strip ((Json.get entries "answer".toList).strOr env)).take faqAnswerMax
    if question = [] ∨ answer = [] then none else some ⟨question, answer⟩
  | _ => none

/-- `normalise_faq_list`. -/
def Json.normaliseFaqList (env : Env) (value : Json) : List FaqEntry :=
  collectUpTo faqMaxItems (fun _ => Json.faqEntryOf env) [] value.items

/-- One step of `normalise_article_links`. -/
def Json.articleLinkOf (env : Env) : Json → Option ArticleLink
  | .dict entries =>
    match validHttpUrl env (some ((Json.get entries "url".toList).strOr env)) with
    | none | some [] => none
    | some safe =>
      let cta := (strip ((Json.get entries "cta".toList).strOr env)).take linkCtaMax
      some ⟨if cta = [] then "View".toList else cta, safe.take linkUrlMax⟩
  | _ => none

/-- `normalise_article_links`. -/
def Json.normaliseArticleLinks (env : Env) (value : Json) : List ArticleLink :=
  collectUpTo linksMax (fun _ => Json.articleLinkOf env) [] value.items

/-- What `normalise_search_keyword` reads: a list, or a string split at its commas. -/
def Json.keywordItems : Json → List Json
  | .list items => items
  | .str value => (splitCommas value).map .str
  | _ => []

/-- The loop of `normalise_search_keyword`, with `seen` and `out`. -/
def keywordLoop (env : Env) : List Text → List Text → List Json → List Text
  | _, out, [] => out
  | seen, out, item :: items =>
    let collapsed := env.lower (item.collapse env)
    if collapsed = [] then keywordLoop env seen out items
    else
      -- The seen-set holds what is stored, not what was sent.
      let capped := collapsed.take searchKeywordItemMax
      if capped ∈ seen then keywordLoop env seen out items
      else
        let out := out ++ [capped]
        if searchKeywordMaxItems ≤ out.length then out
        else keywordLoop env (capped :: seen) out items

/-- `normalise_search_keyword`. -/
def Json.normaliseSearchKeyword (env : Env) (value : Json) : List Text :=
  keywordLoop env [] [] value.keywordItems

/-! ## The loop without a memory -/

section Loop

variable {α β : Type} {limit : Nat}

/-- A loop whose step does not look at the output takes the first results there are. -/
theorem collectUpTo_forms {form : α → Option β} (items : List α) {out : List β}
    (hroom : out.length < limit) :
    collectUpTo limit (fun _ => form) out items =
      out ++ (items.filterMap form).take (limit - out.length) := by
  induction items generalizing out with
  | nil => rw [List.filterMap_nil, List.take_nil, List.append_nil, collectUpTo]
  | cons item items ih =>
    unfold collectUpTo
    split
    next hnone => rw [ih hroom, List.filterMap_cons_none hnone]
    next result hsome =>
      have hlength : (out ++ [result]).length = out.length + 1 := by
        rw [List.length_append, List.length_singleton]
      have htake : limit - out.length = (limit - (out.length + 1)) + 1 := by omega
      rw [List.filterMap_cons_some hsome, htake, List.take_succ_cons]
      dsimp only
      split
      next hfull =>
        have hnone : limit - (out.length + 1) = 0 := by omega
        rw [hnone, List.take_zero]
      next hmore =>
        rw [ih (by omega), hlength, List.append_assoc, List.singleton_append]

end Loop

/-! ## The keywords -/

/-- The form a keyword is stored in. -/
def keywordForm (env : Env) (item : Text) : Text :=
  (env.lower (collapse (some item))).take searchKeywordItemMax

/-- The keywords of `items` that `out` does not hold yet, each once. -/
def freshKeywords (env : Env) (out items : List Text) : List Text :=
  ((items.map (keywordForm env)).filter fun k => k ≠ [] ∧ k ∉ out).eraseDups

/-- The keyword loop takes the first distinct keywords there are. -/
theorem collectUpTo_keywords (env : Env) (items : List Text) {out : List Text} {limit : Nat}
    (hroom : out.length < limit) :
    collectUpTo limit (keywordOf env) out items =
      out ++ (freshKeywords env out items).take (limit - out.length) := by
  induction items generalizing out with
  | nil => rw [freshKeywords, List.map_nil, List.filter_nil, List.eraseDups_nil, List.take_nil,
      List.append_nil, collectUpTo]
  | cons item items ih =>
    unfold collectUpTo
    by_cases hskip : keywordForm env item = [] ∨ keywordForm env item ∈ out
    · have hstep : keywordOf env out item = none := if_pos hskip
      have hfresh : freshKeywords env out (item :: items) = freshKeywords env out items := by
        unfold freshKeywords
        rw [List.map_cons, List.filter_cons_of_neg]
        rw [decide_eq_true_eq]
        rintro ⟨hne, hnew⟩
        exact hskip.elim hne hnew
      rw [hstep, hfresh]
      exact ih hroom
    · have hstep : keywordOf env out item = some (keywordForm env item) := if_neg hskip
      rw [not_or] at hskip
      have hlength : (out ++ [keywordForm env item]).length = out.length + 1 := by
        rw [List.length_append, List.length_singleton]
      -- What is fresh after the item is fresh before it and is not the item.
      have hfresh : freshKeywords env out (item :: items) =
          keywordForm env item :: freshKeywords env (out ++ [keywordForm env item]) items := by
        have hkept : (keywordForm env item :: items.map (keywordForm env)).filter
              (fun k => decide (k ≠ [] ∧ k ∉ out)) =
            keywordForm env item :: (items.map (keywordForm env)).filter
              fun k => decide (k ≠ [] ∧ k ∉ out) :=
          List.filter_cons_of_pos (decide_eq_true hskip)
        unfold freshKeywords
        rw [List.map_cons, hkept, List.eraseDups_cons, List.filter_filter]
        congr 2
        refine List.filter_congr fun k _ => ?_
        rw [Bool.eq_iff_iff]
        simp only [Bool.and_eq_true, Bool.not_eq_true', beq_eq_false_iff_ne, decide_eq_true_eq,
          List.mem_append, List.mem_singleton, not_or]
        exact ⟨fun ⟨hne, hk, hnew⟩ => ⟨hk, hnew, hne⟩, fun ⟨hk, hnew, hne⟩ => ⟨hne, hk, hnew⟩⟩
      have htake : limit - out.length = (limit - (out.length + 1)) + 1 := by omega
      rw [hstep, hfresh, htake, List.take_succ_cons]
      dsimp only
      split
      next hfull =>
        have hnone : limit - (out.length + 1) = 0 := by omega
        rw [hnone, List.take_zero]
      next hmore =>
        rw [ih (by omega), hlength, List.append_assoc, List.singleton_append]

/-- The loop with the seen-set is the loop that looks into its output. -/
theorem keywordLoop_eq (env : Env) (items : List Json) {seen out : List Text}
    (hsame : ∀ k, k ∈ seen ↔ k ∈ out) :
    keywordLoop env seen out items =
      collectUpTo searchKeywordMaxItems (keywordOf env) out (items.map (Json.strOr env)) := by
  induction items generalizing seen out with
  | nil => rfl
  | cons item items ih =>
    -- the source tests the text before it is cut, and the cut leaves no text empty
    have hempty : keywordForm env (item.strOr env) = [] ↔ env.lower (item.collapse env) = [] := by
      unfold keywordForm
      rw [List.take_eq_nil_iff]
      exact or_iff_right (by decide)
    rw [List.map_cons]
    unfold keywordLoop collectUpTo
    dsimp only
    split
    next hnone =>
      have hstep : keywordOf env out (item.strOr env) = none := if_pos (.inl (hempty.mpr hnone))
      rw [hstep]
      exact ih hsame
    next hsome =>
      split
      next hseen =>
        have hstep : keywordOf env out (item.strOr env) = none := if_pos (.inr ((hsame _).mp hseen))
        rw [hstep]
        exact ih hsame
      next hnew =>
        have hstep : keywordOf env out (item.strOr env) =
            some ((env.lower (item.collapse env)).take searchKeywordItemMax) :=
          if_neg fun h => h.elim (fun he => hsome (hempty.mp he))
            fun hout => hnew ((hsame _).mpr hout)
        rw [hstep]
        dsimp only
        split
        next => rfl
        next =>
          refine ih fun k => ?_
          -- `seen` and `out` grow by the same keyword, though not in the same order
          rw [List.mem_cons, List.mem_append, List.mem_singleton, hsame, or_comm]

/-! ## What an accepted body hands over -/

/-- `model_dump` of a `FaqItem`. -/
def FaqItem.dump (item : FaqItem) : Json :=
  .dict [("question".toList, .str item.question), ("answer".toList, .str item.answer)]

/-- `model_dump` of a `LinkItem`. -/
def LinkItem.dump (item : LinkItem) : Json :=
  .dict [("cta".toList, (item.cta.map Json.str).getD .null), ("url".toList, .str item.url)]

/-- What a body holds under `search_keyword`. -/
def SearchKeyword.dump : SearchKeyword → Json
  | .list items => .list (items.map .str)
  | .text value => .str value

/-- `str(value or "")` of a string is the string. -/
theorem strOr_str (env : Env) (value : Text) : (Json.str value).strOr env = value := by
  cases value with
  | nil => rfl
  | cons c cs => rfl

/-- On an item of a body, the step for any value is the step for items. -/
theorem faqEntryOf_dump (env : Env) (item : FaqItem) :
    Json.faqEntryOf env item.dump = faqEntryOf item := by
  have hquestion : Json.get [("question".toList, .str item.question),
      ("answer".toList, .str item.answer)] "question".toList = .str item.question := rfl
  have hanswer : Json.get [("question".toList, .str item.question),
      ("answer".toList, .str item.answer)] "answer".toList = .str item.answer := rfl
  simp only [FaqItem.dump, Json.faqEntryOf, Json.collapse, hquestion, hanswer, strOr_str]
  rfl

theorem articleLinkOf_dump (env : Env) (item : LinkItem) :
    Json.articleLinkOf env item.dump = articleLinkOf env item := by
  obtain ⟨cta, url⟩ := item
  have hurl : Json.get [("cta".toList, (cta.map Json.str).getD .null), ("url".toList, .str url)]
      "url".toList = .str url := rfl
  have hcta : (Json.get [("cta".toList, (cta.map Json.str).getD .null), ("url".toList, .str url)]
      "cta".toList).strOr env = cta.getD [] := by
    cases cta with
    | none => rfl
    | some cta => exact strOr_str env cta
  simp only [LinkItem.dump, Json.articleLinkOf, hurl, hcta, strOr_str]
  rfl

/-- The normalisers of `Payload` are these, on what a body hands over. -/
theorem normalisers_of_body (env : Env) :
    (∀ items, normaliseUrlTitleList env (some items) =
        (Json.list items).normaliseUrlTitleList env) ∧
      (∀ items : List FaqItem, normaliseFaqList (some items) =
        (Json.list (items.map FaqItem.dump)).normaliseFaqList env) ∧
      (∀ items : List LinkItem, normaliseArticleLinks env (some items) =
        (Json.list (items.map LinkItem.dump)).normaliseArticleLinks env) ∧
      ∀ keywords : SearchKeyword, normaliseSearchKeyword env (some keywords) =
        keywords.dump.normaliseSearchKeyword env := by
  refine ⟨fun items => rfl, fun items => ?_, fun items => ?_, fun keywords => ?_⟩
  · unfold normaliseFaqList Json.normaliseFaqList
    rw [collectUpTo_forms _ (by decide), collectUpTo_forms _ (by decide), Json.items,
      List.filterMap_map]
    congr 3
    exact funext fun item => (faqEntryOf_dump env item).symm
  · unfold normaliseArticleLinks Json.normaliseArticleLinks
    rw [collectUpTo_forms _ (by decide), collectUpTo_forms _ (by decide), Json.items,
      List.filterMap_map]
    congr 3
    exact funext fun item => (articleLinkOf_dump env item).symm
  -- a keyword is a text already, so `str` of it is itself
  · have hprinted : ∀ items : List Text, (items.map Json.str).map (Json.strOr env) = items := by
      intro items
      rw [List.map_map]
      exact (List.map_congr_left fun item _ => strOr_str env item).trans (List.map_id items)
    unfold Json.normaliseSearchKeyword
    rw [keywordLoop_eq env _ fun _ => Iff.rfl]
    cases keywords with
    | list items =>
      rw [SearchKeyword.dump, Json.keywordItems, hprinted]
      rfl
    | text value =>
      rw [SearchKeyword.dump, Json.keywordItems, hprinted]
      rfl

/-! ## The specification -/

/-- **The list normalisers meet their specification.** For every value, they return
the first results of normalising the items one by one, and the keywords are the
first distinct ones. -/
theorem normalisers_meet_spec (env : Env) (value : Json) :
    value.normaliseUrlTitleList env =
        (value.items.filterMap (urlTitleOf env)).take urlTitleListMax ∧
      value.normaliseFaqList env =
        (value.items.filterMap (Json.faqEntryOf env)).take faqMaxItems ∧
      value.normaliseArticleLinks env =
        (value.items.filterMap (Json.articleLinkOf env)).take linksMax ∧
      value.normaliseSearchKeyword env =
        (((value.keywordItems.map fun item => keywordForm env (item.strOr env)).filter
          fun k => k ≠ []).eraseDups).take searchKeywordMaxItems := by
  refine ⟨collectUpTo_forms _ (by decide), collectUpTo_forms _ (by decide),
    collectUpTo_forms _ (by decide), ?_⟩
  have hempty : ([] : List Text).length < searchKeywordMaxItems := by decide
  have hkeywords := collectUpTo_keywords env (value.keywordItems.map (Json.strOr env)) hempty
  unfold Json.normaliseSearchKeyword
  rw [keywordLoop_eq env _ fun _ => Iff.rfl, hkeywords, freshKeywords, List.map_map]
  simp only [List.not_mem_nil, not_false_eq_true, and_true, List.nil_append, List.length_nil,
    Nat.sub_zero]
  rfl

end SarkariWorld.Content
