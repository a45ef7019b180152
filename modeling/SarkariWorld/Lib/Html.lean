import SarkariWorld.Lib.Text

/-!
# HTML trees and their serialisation

A `Forest` is a run of sibling nodes in first-child / next-sibling form, so one
structural recursion walks the whole tree. Comments, doctypes and template
contents are left out: the documents here are fragments of plain elements and
text.

`serialize` is the HTML fragment serialisation algorithm, in its two layers:
`escape` replaces the characters that would read as markup, `render` writes tags
around what is then raw text. An attribute value is always written between double
quotes.

How a value is escaped has changed over the years, so it is a parameter
(`ValueEscape`), of which is asked what a parser needs: the value ends at the closing
quote, and its references resolve to what was written. Two instances matter:

* `ValueEscape.classic` escapes `&`, `"` and the no-break space and nothing else: a raw
  `<` may stand in a value;
* `ValueEscape.strict`, as the algorithm is written today, escapes `<` and `>` as well.
-/

namespace SarkariWorld.Lib.Html

/-- An attribute: its name and its value. -/
abbrev Attr := Text × Text

/-- A run of nodes: a text or an element, and the nodes next to it. -/
inductive Forest where
  | nil
  | text (data : Text) (next : Forest)
  | element (name : Text) (attrs : List Attr) (children next : Forest)
  deriving DecidableEq, Repr

/-- The elements that have no content and no end tag. -/
def voidElements : List Text :=
  ["area".toList, "base".toList, "br".toList, "col".toList, "embed".toList, "hr".toList,
    "img".toList, "input".toList, "link".toList, "meta".toList, "source".toList, "track".toList,
    "wbr".toList]

/-- The element has no end tag. -/
def isVoid (name : Text) : Bool := voidElements.contains name

/-! ## Walking a forest -/

/-- Every attribute list rewritten by `f`, which may look at the element's name. -/
def Forest.mapAttrs (f : Text → List Attr → List Attr) : Forest → Forest
  | nil => nil
  | text data next => text data (next.mapAttrs f)
  | element name attrs children next =>
    element name (f name attrs) (children.mapAttrs f) (next.mapAttrs f)

/-- Every text rewritten by `f` and every attribute value by `g`. -/
def Forest.mapData (f g : Text → Text) : Forest → Forest
  | nil => nil
  | text data next => text (f data) (next.mapData f g)
  | element name attrs children next =>
    element name (attrs.map fun a => (a.1, g a.2)) (children.mapData f g) (next.mapData f g)

/-- The start tags of the elements, in document order. -/
def Forest.openings : Forest → List (Text × List Attr)
  | nil => []
  | text _ next => next.openings
  | element name attrs children next => (name, attrs) :: (children.openings ++ next.openings)

/-- The two forests one after the other. -/
def Forest.append : Forest → Forest → Forest
  | nil, f => f
  | text data next, f => text data (next.append f)
  | element name attrs children next, f => element name attrs children (next.append f)

variable {f : Text → List Attr → List Attr}

theorem Forest.openings_append (a b : Forest) :
    (a.append b).openings = a.openings ++ b.openings := by
  induction a with
  | nil => rfl
  | text _ _ ih => exact ih
  | element name attrs children next _ ih =>
    show (name, attrs) :: (children.openings ++ (next.append b).openings) = _
    rw [ih, ← List.append_assoc]
    rfl

theorem Forest.mapAttrs_append (a b : Forest) :
    (a.append b).mapAttrs f = (a.mapAttrs f).append (b.mapAttrs f) := by
  induction a with
  | nil => rfl
  | text _ _ ih => exact congrArg _ ih
  | element _ _ _ _ _ ih => exact congrArg _ ih

/-- The start tags of a rewritten tree are the rewritten start tags. -/
theorem Forest.openings_mapAttrs (a : Forest) :
    (a.mapAttrs f).openings = a.openings.map fun o => (o.1, f o.1 o.2) := by
  induction a with
  | nil => rfl
  | text _ _ ih => exact ih
  | element name attrs children next ihc ihn =>
    show (name, f name attrs) :: ((children.mapAttrs f).openings ++ (next.mapAttrs f).openings) = _
    rw [ihc, ihn, ← List.map_append]
    rfl

/-- Rewriting texts and values rewrites the values of the start tags. -/
theorem Forest.openings_mapData (g h : Text → Text) (a : Forest) :
    (a.mapData g h).openings = a.openings.map fun o => (o.1, o.2.map fun x => (x.1, h x.2)) := by
  induction a with
  | nil => rfl
  | text _ _ ih => exact ih
  | element name attrs children next ihc ihn =>
    show (name, _) :: ((children.mapData g h).openings ++ (next.mapData g h).openings) = _
    rw [ihc, ihn, ← List.map_append]
    rfl

/-! ## Escaping -/

/-- The character references the serialisation writes. -/
def references : List (Text × Char) :=
  [("&amp;".toList, '&'), ("&lt;".toList, '<'), ("&gt;".toList, '>'), ("&quot;".toList, '"'),
    ("&nbsp;".toList, '\u00A0')]

/-- A character of a text node. -/
def escapeTextChar : Char → Text
  | '&' => "&amp;".toList
  | '<' => "&lt;".toList
  | '>' => "&gt;".toList
  | '\u00A0' => "&nbsp;".toList
  | c => [c]

/-- A character of an attribute value, as it was written for a long time. -/
def classicChar : Char → Text
  | '&' => "&amp;".toList
  | '"' => "&quot;".toList
  | '\u00A0' => "&nbsp;".toList
  | c => [c]

/-- A character of an attribute value, with `<` and `>` escaped too. -/
def strictChar : Char → Text
  | '&' => "&amp;".toList
  | '<' => "&lt;".toList
  | '>' => "&gt;".toList
  | '"' => "&quot;".toList
  | '\u00A0' => "&nbsp;".toList
  | c => [c]

def escapeText (t : Text) : Text := t.flatMap escapeTextChar
def escapeClassic (t : Text) : Text := t.flatMap classicChar
def escapeStrict (t : Text) : Text := t.flatMap strictChar

/-- The text with its character references resolved. A `&` that starts none of
them stands for itself. -/
def decodeFrom : Nat → Text → Text
  | _, [] => []
  | skip + 1, _ :: cs => decodeFrom skip cs
  | 0, c :: cs =>
    match references.find? fun r => r.1.isPrefixOf (c :: cs) with
    | some r => r.2 :: decodeFrom (r.1.length - 1) cs
    | none => c :: decodeFrom 0 cs

def decode (t : Text) : Text := decodeFrom 0 t

/-- Escaped text holds no `<`. -/
theorem lt_not_mem_escapeText (t : Text) : '<' ∉ escapeText t := by
  intro h
  obtain ⟨c, -, hc⟩ := List.mem_flatMap.mp h
  unfold escapeTextChar at hc
  split at hc
  case h_5 hlt _ _ => exact hlt (List.mem_singleton.mp hc).symm
  all_goals exact absurd hc (by decide)

theorem quote_not_mem_escapeClassic (t : Text) : '"' ∉ escapeClassic t := by
  intro h
  obtain ⟨c, -, hc⟩ := List.mem_flatMap.mp h
  unfold classicChar at hc
  split at hc
  case h_4 hquote _ => exact hquote (List.mem_singleton.mp hc).symm
  all_goals exact absurd hc (by decide)

theorem quote_not_mem_escapeStrict (t : Text) : '"' ∉ escapeStrict t := by
  intro h
  obtain ⟨c, -, hc⟩ := List.mem_flatMap.mp h
  unfold strictChar at hc
  split at hc
  case h_6 hquote _ => exact hquote (List.mem_singleton.mp hc).symm
  all_goals exact absurd hc (by decide)

/-- Strictly escaped, a value holds no `<` either. -/
theorem lt_not_mem_escapeStrict (t : Text) : '<' ∉ escapeStrict t := by
  intro h
  obtain ⟨c, -, hc⟩ := List.mem_flatMap.mp h
  unfold strictChar at hc
  split at hc
  case h_6 hlt _ _ _ => exact hlt (List.mem_singleton.mp hc).symm
  all_goals exact absurd hc (by decide)

/-- Only a `&` starts a reference. -/
theorem decode_plain {c : Char} (hc : c ≠ '&') (cs : Text) : decode (c :: cs) = c :: decode cs := by
  have hnone : (references.find? fun r => r.1.isPrefixOf (c :: cs)) = none := by
    rw [List.find?_eq_none]
    intro r hr
    have hamp : r.1.head? = some '&' := by
      have hall : ∀ r ∈ references, r.1.head? = some '&' := by decide
      exact hall r hr
    obtain ⟨name, d⟩ := r
    cases name with
    | nil => exact absurd hamp (by simp)
    | cons a as =>
      have ha : a = '&' := Option.some.inj hamp
      subst ha
      simp [List.isPrefixOf, hc.symm]
  show (match references.find? fun r => r.1.isPrefixOf (c :: cs) with
    | some r => r.2 :: decodeFrom (r.1.length - 1) cs
    | none => c :: decodeFrom 0 cs) = _
  rw [hnone]
  rfl

/-- Resolving the references of an escaped text gives the text back. A reference
is resolved by computation, whatever follows it. -/
theorem decode_escapeText (t : Text) : decode (escapeText t) = t := by
  induction t with
  | nil => rfl
  | cons c cs ih =>
    show decode (escapeTextChar c ++ escapeText cs) = c :: cs
    unfold escapeTextChar
    split
    case h_5 hamp _ _ _ =>
      rw [List.singleton_append, decode_plain hamp, ih]
    all_goals exact congrArg _ ih

theorem decode_escapeClassic (t : Text) : decode (escapeClassic t) = t := by
  induction t with
  | nil => rfl
  | cons c cs ih =>
    show decode (classicChar c ++ escapeClassic cs) = c :: cs
    unfold classicChar
    split
    case h_4 hamp _ _ =>
      rw [List.singleton_append, decode_plain hamp, ih]
    all_goals exact congrArg _ ih

theorem decode_escapeStrict (t : Text) : decode (escapeStrict t) = t := by
  induction t with
  | nil => rfl
  | cons c cs ih =>
    show decode (strictChar c ++ escapeStrict cs) = c :: cs
    unfold strictChar
    split
    case h_6 hamp _ _ _ _ =>
      rw [List.singleton_append, decode_plain hamp, ih]
    all_goals exact congrArg _ ih

/-- What is escaped character by character, and only where there is a reference. -/
theorem flatMap_plain {f : Char → Text} (hf : ∀ c, (∀ r ∈ references, r.2 ≠ c) → f c = [c])
    {t : Text} (h : ∀ r ∈ references, r.2 ∉ t) : t.flatMap f = t := by
  induction t with
  | nil => rfl
  | cons c cs ih =>
    have hc : ∀ r ∈ references, r.2 ≠ c := fun r hr heq => h r hr (heq ▸ List.mem_cons_self)
    have hcs : ∀ r ∈ references, r.2 ∉ cs := fun r hr hmem => h r hr (List.mem_cons_of_mem _ hmem)
    rw [List.flatMap_cons, hf c hc, ih hcs, List.singleton_append]

/-- A character without a reference is none of the five. -/
theorem ne_of_references {c : Char} (h : ∀ r ∈ references, r.2 ≠ c) :
    c ≠ '&' ∧ c ≠ '<' ∧ c ≠ '>' ∧ c ≠ '"' ∧ c ≠ '\u00A0' := by
  simp only [references, List.forall_mem_cons] at h
  obtain ⟨hamp, hlt, hgt, hquote, hnbsp, -⟩ := h
  exact ⟨hamp.symm, hlt.symm, hgt.symm, hquote.symm, hnbsp.symm⟩

theorem escapeClassic_plain (t : Text) (h : ∀ r ∈ references, r.2 ∉ t) : escapeClassic t = t := by
  refine flatMap_plain (fun c hc => ?_) h
  obtain ⟨hamp, -, -, hquote, hnbsp⟩ := ne_of_references hc
  unfold classicChar
  split
  · exact absurd rfl hamp
  · exact absurd rfl hquote
  · exact absurd rfl hnbsp
  · rfl

theorem escapeStrict_plain (t : Text) (h : ∀ r ∈ references, r.2 ∉ t) : escapeStrict t = t := by
  refine flatMap_plain (fun c hc => ?_) h
  obtain ⟨hamp, hlt, hgt, hquote, hnbsp⟩ := ne_of_references hc
  unfold strictChar
  split
  · exact absurd rfl hamp
  · exact absurd rfl hlt
  · exact absurd rfl hgt
  · exact absurd rfl hquote
  · exact absurd rfl hnbsp
  · rfl

/-- How a serialiser writes an attribute value: without the quote that would end it,
such that resolving the references gives the value back, and as it stands if there is
nothing to escape. -/
structure ValueEscape where
  write : Text → Text
  unquoted : ∀ t, '"' ∉ write t
  resolved : ∀ t, decode (write t) = t
  plain : ∀ t, (∀ r ∈ references, r.2 ∉ t) → write t = t

/-- The escaping of values as it was specified for a long time. -/
def ValueEscape.classic : ValueEscape :=
  ⟨escapeClassic, quote_not_mem_escapeClassic, decode_escapeClassic, escapeClassic_plain⟩

/-- The escaping of values as it is specified now. -/
def ValueEscape.strict : ValueEscape :=
  ⟨escapeStrict, quote_not_mem_escapeStrict, decode_escapeStrict, escapeStrict_plain⟩

def Forest.escape (e : ValueEscape) : Forest → Forest := Forest.mapData escapeText e.write
def Forest.decode : Forest → Forest := Forest.mapData Html.decode Html.decode

/-! ## Writing the tags -/

/-- ` name="value"`. -/
def renderAttr (a : Attr) : Text := ' ' :: (a.1 ++ '=' :: '"' :: (a.2 ++ ['"']))

/-- The attributes of a tag, in their order. -/
def renderAttrs (attrs : List Attr) : Text := attrs.flatMap renderAttr

/-- The markup of a forest whose texts and values are escaped already. -/
def Forest.render : Forest → Text
  | nil => []
  | text data next => data ++ next.render
  | element name attrs children next =>
    '<' :: (name ++ renderAttrs attrs ++ ['>']) ++
      (if isVoid name then [] else children.render ++ '<' :: '/' :: (name ++ ['>'])) ++
      next.render

/-- The HTML fragment serialisation algorithm. -/
def serialize (e : ValueEscape) (tree : Forest) : Text := (tree.escape e).render

end SarkariWorld.Lib.Html
