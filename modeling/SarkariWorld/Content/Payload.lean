import SarkariWorld.Content.Article
import SarkariWorld.Content.Sanitize

/-!
# Normalising a request body

`utils/article_payload.py`, with the URL and category helpers it calls. Each
normaliser turns what a body may hold into what a column stores; the four list
normalisers are one loop (`collectUpTo`) over their own step.

The libraries they reach are an `Env`: `nh3.clean`, the markdown renderer,
`urllib.parse`, `str.lower`, and `str` on the JSON values that are not strings.

Python's truth values matter in these functions, since `x or ""` and `if not x` treat an
empty text like `None`; where the source tests one, so does the definition. Whether a text
is cut before or after it is stripped is kept in the order of the source, too, because it
decides whether the result is a normal form.

A list is normalised by going through it once with a limit: an item is taken in its normal
form or dropped, and the loop ends when the output is full. So what comes back is short
enough, but which items it holds depends on those before them.
-/

namespace SarkariWorld.Content

open Lib

/-- `urllib.parse.ParseResult`. -/
structure ParseResult where
  scheme : Text
  netloc : Text
  path : Text
  params : Text
  query : Text
  fragment : Text
  deriving DecidableEq, Repr

/-- A JSON value, as a list of `Any` may hold it. A number is what `str` prints of
it and whether it is truthy. -/
inductive Json where
  | null
  | bool (value : Bool)
  | number (printed : Text) (nonzero : Bool)
  | str (value : Text)
  | list (items : List Json)
  | dict (entries : List (Text × Json))

/-- The libraries, one function for each call. -/
structure Env where
  clean : CleanOptions → Text → Text
  /-- `MarkdownIt.render`. -/
  renderMarkdown : Text → Text
  /-- `urlparse`, `none` where it raises `ValueError`. -/
  urlparse : Text → Option ParseResult
  urlunparse : ParseResult → Text
  /-- `str.lower`. -/
  lower : Text → Text
  /-- `str` on a list or a dict. -/
  printJson : Json → Text

/-- Libraries for bodies without URLs, HTML or markdown. -/
def sampleEnv : Env where
  clean _ t := t
  renderMarkdown t := t
  urlparse _ := none
  urlunparse p := p.path
  lower t := t.map Char.toLower
  printJson _ := []

/-! ## Caps -/

def titleMax : Nat := 220
def descriptionMax : Nat := 2000
def htmlContentMax : Nat := 500000
def slugMax : Nat := 200
def metaTitleMax : Nat := 60
def metaDescriptionMax : Nat := 160
def coverImageUrlMax : Nat := 2048
def faqMaxItems : Nat := 30
def faqQuestionMax : Nat := 300
def faqAnswerMax : Nat := 1500
def linksMax : Nat := 24
def linkCtaMax : Nat := 60
def linkUrlMax : Nat := 2048
def urlTitleListMax : Nat := 20
def urlTitleTitleMax : Nat := 200
def searchKeywordMaxItems : Nat := 24
def searchKeywordItemMax : Nat := 80

/-! ## Text -/

/-- `re.sub(r"\s+", " ", t)`; the flag says that the run of white space being
passed over has been written already. -/
def squeeze : Bool → Text → Text
  | _, [] => []
  | inRun, c :: cs =>
    if isSpace c then if inRun then squeeze true cs else ' ' :: squeeze true cs
    else c :: squeeze false cs

/-- `_collapse`. -/
def collapse (value : Option Text) : Text := strip (squeeze false (value.getD []))

/-- The text cut to `cap`, or `None` if there is none. -/
def capped (cap : Nat) (t : Text) : Option Text := if t = [] then none else some (t.take cap)

/-- `valid_http_url`. -/
def validHttpUrl (env : Env) (value : Option Text) : Option Text :=
  let trimmed := strip (value.getD [])
  if trimmed = [] then none
  else
    match env.urlparse trimmed with
    | none => none
    | some parsed =>
      if (parsed.scheme ≠ "http".toList ∧ parsed.scheme ≠ "https".toList) ∨ parsed.netloc = [] then
        none
      else some (env.urlunparse parsed)

/-- `category_slug_to_enum`. -/
def categorySlugToEnum (env : Env) (slug : Option Text) : Option ArticleCategory :=
  match slug with
  | none | some [] => none
  | some slug =>
    let value := replaceAll (literal "-".toList) "_".toList (env.lower (strip slug))
    ArticleCategory.all.find? fun c => c.value == value

/-! ## Single values -/

/-- `normalise_cover_image_url`: a URL that is no HTTP URL is dropped, and a long one is cut. -/
def normaliseCoverImageUrl (env : Env) (value : Option Text) : Option Text :=
  (validHttpUrl env value).bind (capped coverImageUrlMax)

/-- `normalise_meta_title`: collapsed, then cut, and `None` if nothing is left. -/
def normaliseMetaTitle (value : Option Text) : Option Text := capped metaTitleMax (collapse value)

/-- `normalise_meta_description`, with a limit of its own. -/
def normaliseMetaDescription (value : Option Text) : Option Text :=
  capped metaDescriptionMax (collapse value)

/-! ## Lists -/

/-- `for item in items`: an item whose step gives nothing is skipped, and the loop
breaks once `limit` results are out. The step sees what is out so far. -/
def collectUpTo {α β : Type} (limit : Nat) (step : List β → α → Option β) :
    List β → List α → List β
  | out, [] => out
  | out, item :: items =>
    match step out item with
    | none => collectUpTo limit step out items
    | some result =>
      let out := out ++ [result]
      -- The break comes after the append, so a limit of nothing still lets one through.
      if limit ≤ out.length then out else collectUpTo limit step out items

/-- `bool(value)`. -/
def Json.truthy : Json → Bool
  | .null => false
  | .bool value => value
  | .number _ nonzero => nonzero
  | .str value => !value.isEmpty
  | .list items => !items.isEmpty
  | .dict entries => !entries.isEmpty

/-- `str(value or "")`. -/
def Json.strOr (env : Env) (value : Json) : Text :=
  if value.truthy then
    match value with
    | .null => "None".toList
    | .bool _ => "True".toList
    | .number printed _ => printed
    | .str value => value
    | other => env.printJson other
  else []

/-- `item.get(key)`. -/
def Json.get (entries : List (Text × Json)) (key : Text) : Json :=
  ((entries.find? fun e => e.1 == key).map Prod.snd).getD .null

/-- `item.get("url") or item.get("link")`. -/
def Json.urlOrLink (entries : List (Text × Json)) : Json :=
  let url := Json.get entries "url".toList
  if url.truthy then url else Json.get entries "link".toList

/-- One step of `normalise_url_title_list`: a string, or an object with `url` or
`link` and a `title`. -/
def urlTitleOf (env : Env) (item : Json) : Option UrlTitle :=
  let parts : Text × Text :=
    match item with
    | .str raw => (raw, [])
    | .dict entries =>
      ((Json.urlOrLink entries).strOr env, (Json.get entries "title".toList).strOr env)
    | _ => ([], [])
  match validHttpUrl env (some parts.1) with
  | none | some [] => none
  | some safe => some ⟨safe, (strip parts.2).take urlTitleTitleMax⟩

/-- `normalise_url_title_list`, on the values a body has let through. -/
def normaliseUrlTitleList (env : Env) (value : Option (List Json)) : List UrlTitle :=
  collectUpTo urlTitleListMax (fun _ => urlTitleOf env) [] (value.getD [])

/-- A `FaqItem` of the body. -/
structure FaqItem where
  question : Text
  answer : Text
  deriving DecidableEq, Repr

/-- One step of `normalise_faq_list`. -/
def faqEntryOf (item : FaqItem) : Option FaqEntry :=
  let question := (collapse (some item.question)).take faqQuestionMax
  let answer := (strip item.answer).take faqAnswerMax
  if question = [] ∨ answer = [] then none else some ⟨question, answer⟩

/-- `normalise_faq_list`: the loop over its step. -/
def normaliseFaqList (value : Option (List FaqItem)) : List FaqEntry :=
  collectUpTo faqMaxItems (fun _ => faqEntryOf) [] (value.getD [])

/-- A `LinkItem` of the body. -/
structure LinkItem where
  cta : Option Text
  url : Text
  deriving DecidableEq, Repr

/-- One step of `normalise_article_links`: the call to action falls back to
"View". -/
def articleLinkOf (env : Env) (item : LinkItem) : Option ArticleLink :=
  match validHttpUrl env (some item.url) with
  | none | some [] => none
  | some safe =>
    let cta := (strip (item.cta.getD [])).take linkCtaMax
    some ⟨if cta = [] then "View".toList else cta, safe.take linkUrlMax⟩

/-- `normalise_article_links`: the loop over its step. -/
def normaliseArticleLinks (env : Env) (value : Option (List LinkItem)) : List ArticleLink :=
  collectUpTo linksMax (fun _ => articleLinkOf env) [] (value.getD [])

/-- What a body may hold under `search_keyword`. -/
inductive SearchKeyword where
  | list (items : List Text)
  | text (value : Text)
  deriving DecidableEq, Repr

/-- `t.split(",")`. -/
def splitCommas : Text → List Text
  | [] => [[]]
  | c :: cs =>
    if c = ',' then [] :: splitCommas cs
    else
      match splitCommas cs with
      | [] => [[c]]
      | part :: parts => (c :: part) :: parts

/-- One step of `normalise_search_keyword`, which skips what is out already. -/
def keywordOf (env : Env) (out : List Text) (item : Text) : Option Text :=
  let keyword := (env.lower (collapse (some item))).take searchKeywordItemMax
  if keyword = [] ∨ keyword ∈ out then none else some keyword

/-- `normalise_search_keyword`: a text is split at its commas first. -/
def normaliseSearchKeyword (env : Env) (value : Option SearchKeyword) : List Text :=
  match value with
  | none => []
  | some (.list items) => collectUpTo searchKeywordMaxItems (keywordOf env) [] items
  | some (.text value) => collectUpTo searchKeywordMaxItems (keywordOf env) [] (splitCommas value)

/-! ## The loop -/

/-- The loop never returns more than its limit. -/
theorem collectUpTo_length {α β : Type} {limit : Nat} {step : List β → α → Option β}
    {out : List β} (items : List α) (hout : out.length < limit) :
    (collectUpTo limit step out items).length ≤ limit := by
  induction items generalizing out with
  | nil => exact Nat.le_of_lt hout
  | cons item items ih =>
    unfold collectUpTo
    split
    · exact ih hout
    next result _ =>
      have hlen : (out ++ [result]).length = out.length + 1 := by simp
      dsimp only
      split
      · omega
      · exact ih (by omega)

end SarkariWorld.Content
