import SarkariWorld.Lib.HtmlTokens

/-!
# Building the tree

Tokens are put together with a stack of open elements. A character joins the
text before it; an end tag closes the nearest open element of its name together
with everything opened inside, and is ignored if there is none; the end of the
input closes what is left. The rules that insert or move elements (implied end
tags, tables, formatting) are left out: what they do does not depend on the
attributes of an element.

Two facts about the builder are used to compare parses. It commutes with any
rewriting of attributes (`build_mapAttrs`), and it keeps every start tag, in
order (`openings_build`): so two markups whose start tags differ have different
trees. `parse_serialize` is the round trip.
-/

namespace SarkariWorld.Lib.Html

/-- An open element, with the siblings before it. -/
structure Frame where
  name : Text
  attrs : List Attr
  before : Forest

/-- The forest with one more character of text at its end. -/
def Forest.push (c : Char) : Forest → Forest
  | nil => text [c] nil
  | text data nil => text (data ++ [c]) nil
  | text data next => text data (next.push c)
  | element name attrs children next => element name attrs children (next.push c)

/-- The siblings of a frame once its element is closed with `content`. -/
def Frame.close (frame : Frame) (content : Forest) : Forest :=
  frame.before.append (.element frame.name frame.attrs content .nil)

/-- Close open elements up to the nearest one called `name`. -/
def closeTo (name : Text) : List Frame → Forest → Option (List Frame × Forest)
  | [], _ => none
  | frame :: stack, content =>
    if frame.name = name then some (stack, frame.close content)
    else closeTo name stack (frame.close content)

/-- The end of the input: every open element is closed, the innermost first. -/
def closeAll : List Frame → Forest → Forest
  | [], content => content
  | frame :: stack, content => closeAll stack (frame.close content)

/-- The tree of a list of tokens, with the open elements and the content of the innermost one. -/
def build : List Frame → Forest → List Token → Forest
  | stack, content, [] => closeAll stack content
  | stack, content, .char c :: ts => build stack (content.push c) ts
  | stack, content, .startTag name attrs :: ts =>
    if isVoid name then build stack (content.append (.element name attrs .nil .nil)) ts
    else build (⟨name, attrs, content⟩ :: stack) .nil ts
  | stack, content, .endTag name :: ts =>
    match closeTo name stack content with
    | some (stack', content') => build stack' content' ts
    | none => build stack content ts

/-- The tree a markup denotes. -/
def parse (t : Text) : Forest := (build [] .nil (tokenize t)).decode

section Builder

variable {name : Text} {attrs : List Attr} {stack : List Frame} {content : Forest}
  {ts : List Token}

theorem closeTo_here {frame : Frame} (h : frame.name = name) :
    closeTo name (frame :: stack) content = some (stack, frame.close content) := if_pos h

theorem closeTo_up {frame : Frame} (h : frame.name ≠ name) :
    closeTo name (frame :: stack) content = closeTo name stack (frame.close content) := if_neg h

/-- A void element has no content, so it does not go on the stack. -/
theorem build_void (h : isVoid name = true) :
    build stack content (.startTag name attrs :: ts)
      = build stack (content.append (.element name attrs .nil .nil)) ts := if_pos h

theorem build_open (h : ¬ isVoid name = true) :
    build stack content (.startTag name attrs :: ts)
      = build (⟨name, attrs, content⟩ :: stack) .nil ts := if_neg h

theorem build_close {p : List Frame × Forest} (h : closeTo name stack content = some p) :
    build stack content (.endTag name :: ts) = build p.1 p.2 ts := by
  rw [build, h]

theorem build_stray (h : closeTo name stack content = none) :
    build stack content (.endTag name :: ts) = build stack content ts := by
  rw [build, h]

end Builder

/-! ## Rewriting attributes -/

section MapAttrs

variable {f : Text → List Attr → List Attr}

/-- The rewriting of attributes, in an open element. -/
def Frame.mapAttrs (f : Text → List Attr → List Attr) (frame : Frame) : Frame :=
  ⟨frame.name, f frame.name frame.attrs, frame.before.mapAttrs f⟩

/-- And in a token. -/
def Token.mapAttrs (f : Text → List Attr → List Attr) : Token → Token
  | .startTag name attrs => .startTag name (f name attrs)
  | t => t

/-- The start tags of rewritten tokens are the rewritten start tags. -/
theorem startTags_mapAttrs (ts : List Token) :
    startTags (ts.map (Token.mapAttrs f)) = (startTags ts).map fun o => (o.1, f o.1 o.2) := by
  induction ts with
  | nil => rfl
  | cons t ts ih =>
    cases t with
    | char c => exact ih
    | endTag name => exact ih
    | startTag name attrs => exact congrArg _ ih

theorem Forest.push_mapAttrs (c : Char) (a : Forest) :
    (a.push c).mapAttrs f = (a.mapAttrs f).push c := by
  induction a with
  | nil => rfl
  | text data next ih =>
    cases next with
    | nil => rfl
    | text d n => exact congrArg (Forest.text data) ih
    | element n a ch nx => exact congrArg (Forest.text data) ih
  | element name attrs children next _ ih =>
    exact congrArg (Forest.element name (f name attrs) (children.mapAttrs f)) ih

theorem Frame.close_mapAttrs (frame : Frame) (content : Forest) :
    (frame.close content).mapAttrs f = (frame.mapAttrs f).close (content.mapAttrs f) :=
  Forest.mapAttrs_append ..

theorem closeTo_mapAttrs (name : Text) (stack : List Frame) (content : Forest) :
    closeTo name (stack.map (Frame.mapAttrs f)) (content.mapAttrs f)
      = (closeTo name stack content).map fun p => (p.1.map (Frame.mapAttrs f), p.2.mapAttrs f) := by
  induction stack generalizing content with
  | nil => rfl
  | cons frame stack ih =>
    have hsame : (frame.mapAttrs f).name = frame.name := rfl
    by_cases hname : frame.name = name
    · rw [closeTo_here hname, List.map_cons, closeTo_here (hsame.trans hname),
        ← Frame.close_mapAttrs]
      rfl
    · rw [closeTo_up hname, List.map_cons, closeTo_up fun h => hname (hsame.symm.trans h),
        ← Frame.close_mapAttrs, ih]

theorem closeAll_mapAttrs (stack : List Frame) (content : Forest) :
    closeAll (stack.map (Frame.mapAttrs f)) (content.mapAttrs f)
      = (closeAll stack content).mapAttrs f := by
  induction stack generalizing content with
  | nil => rfl
  | cons frame stack ih =>
    show closeAll (stack.map _) ((frame.mapAttrs f).close _) = _
    rw [← Frame.close_mapAttrs, ih]
    rfl

/-- **The builder does not look at attributes.** -/
theorem build_mapAttrs (stack : List Frame) (content : Forest) (ts : List Token) :
    build (stack.map (Frame.mapAttrs f)) (content.mapAttrs f) (ts.map (Token.mapAttrs f))
      = (build stack content ts).mapAttrs f := by
  induction ts generalizing stack content with
  | nil => exact closeAll_mapAttrs stack content
  | cons t ts ih =>
    cases t with
    | char c =>
      have hchar := ih stack (content.push c)
      rw [Forest.push_mapAttrs] at hchar
      exact hchar
    | startTag name attrs =>
      -- whether an element is void depends on its name alone
      by_cases hvoid : isVoid name = true
      · have happend := ih stack (content.append (.element name attrs .nil .nil))
        rw [Forest.mapAttrs_append] at happend
        rw [build_void hvoid]
        exact (build_void hvoid).trans happend
      · rw [build_open hvoid]
        exact (build_open hvoid).trans (ih (⟨name, attrs, content⟩ :: stack) .nil)
    | endTag name =>
      -- so does what an end tag closes
      have hmap := closeTo_mapAttrs (f := f) name stack content
      cases hclose : closeTo name stack content with
      | none =>
        rw [hclose] at hmap
        rw [build_stray hclose]
        exact (build_stray hmap).trans (ih stack content)
      | some p =>
        rw [hclose] at hmap
        rw [build_close hclose]
        exact (build_close hmap).trans (ih p.1 p.2)

end MapAttrs

/-! ## Start tags -/

/-- The start tags of what is open. -/
def stackOpenings : List Frame → List (Text × List Attr)
  | [] => []
  | frame :: stack => stackOpenings stack ++ frame.before.openings ++ [(frame.name, frame.attrs)]

theorem Forest.openings_push (c : Char) (a : Forest) : (a.push c).openings = a.openings := by
  induction a with
  | nil => rfl
  | text data next ih =>
    cases next with
    | nil => rfl
    | text d n => exact ih
    | element n a ch nx => exact ih
  | element name attrs children next _ ih =>
    show (name, attrs) :: (children.openings ++ (next.push c).openings) = _
    rw [ih]
    rfl

/-- Closing an element moves its start tag from the stack into the content, to the same place in the
order. -/
theorem openings_close (frame : Frame) (stack : List Frame) (content : Forest) :
    stackOpenings stack ++ (frame.close content).openings
      = stackOpenings (frame :: stack) ++ content.openings := by
  show _ ++ (frame.before.append _).openings
    = stackOpenings stack ++ frame.before.openings ++ [(frame.name, frame.attrs)] ++ _
  rw [Forest.openings_append]
  simp [Forest.openings]

theorem openings_closeTo {name : Text} {stack stack' : List Frame} {content content' : Forest}
    (h : closeTo name stack content = some (stack', content')) :
    stackOpenings stack' ++ content'.openings = stackOpenings stack ++ content.openings := by
  induction stack generalizing content with
  | nil => cases h
  | cons frame stack ih =>
    unfold closeTo at h
    split at h
    · obtain ⟨rfl, rfl⟩ := Prod.mk.inj (Option.some.inj h)
      exact openings_close ..
    · rw [ih h, openings_close]

theorem openings_closeAll (stack : List Frame) (content : Forest) :
    (closeAll stack content).openings = stackOpenings stack ++ content.openings := by
  induction stack generalizing content with
  | nil => rfl
  | cons frame stack ih => rw [closeAll, ih, openings_close]

/-- **The builder keeps every start tag, in order.** -/
theorem openings_build (stack : List Frame) (content : Forest) (ts : List Token) :
    (build stack content ts).openings
      = stackOpenings stack ++ content.openings ++ startTags ts := by
  induction ts generalizing stack content with
  | nil =>
    unfold build startTags
    rw [openings_closeAll, List.append_nil]
  | cons t ts ih =>
    cases t with
    | char c =>
      unfold build startTags
      rw [ih, Forest.openings_push]
    | startTag name attrs =>
      unfold build startTags
      split
      · rw [ih, Forest.openings_append]
        simp [Forest.openings]
      · rw [ih]
        simp [stackOpenings, Forest.openings]
    | endTag name =>
      unfold build startTags
      split
      next stack' content' hclose => rw [ih, openings_closeTo hclose]
      next => exact ih stack content

/-- The start tags of a markup are those of its tree. -/
theorem openings_parse (t : Text) :
    (parse t).openings
      = (startTags (tokenize t)).map fun o => (o.1, o.2.map fun a => (a.1, decode a.2)) := by
  unfold parse Forest.decode
  rw [Forest.openings_mapData, openings_build]
  rfl

/-! ## The round trip -/

/-- The forest begins with a text. -/
def Forest.startsText : Forest → Bool
  | text _ _ => true
  | _ => false

/-- The forest ends with one, which a further character would join. -/
def Forest.endsText : Forest → Bool
  | nil => false
  | text _ nil => true
  | text _ next => next.endsText
  | element _ _ _ next => next.endsText

/-- Trees as a parser leaves them: no empty or adjacent texts, no repeated
attributes, nothing inside a void element. -/
def Forest.Normal : Forest → Prop
  | nil => True
  | text data next => data ≠ [] ∧ next.startsText = false ∧ next.Normal
  | element name attrs children next =>
    (attrs.map Prod.fst).Nodup ∧ (isVoid name = true → children = nil) ∧
      children.Normal ∧ next.Normal

theorem Forest.append_nil (a : Forest) : a.append nil = a := by
  induction a with
  | nil => rfl
  | text _ _ ih => exact congrArg _ ih
  | element _ _ _ _ _ ih => exact congrArg _ ih

theorem Forest.append_assoc (a b c : Forest) : (a.append b).append c = a.append (b.append c) := by
  induction a with
  | nil => rfl
  | text _ _ ih => exact congrArg _ ih
  | element _ _ _ _ _ ih => exact congrArg _ ih

/-- An element at the end keeps the next character from joining a text. -/
theorem Forest.endsText_append_element (a : Forest) (name : Text) (attrs : List Attr)
    (children : Forest) : (a.append (element name attrs children nil)).endsText = false := by
  induction a with
  | nil => rfl
  | text _ next ih => cases next <;> exact ih
  | element _ _ _ _ _ ih => exact ih

/-- Without a text at the end, a character starts a new one. -/
theorem Forest.push_of_endsText {a : Forest} (h : a.endsText = false) (c : Char) :
    a.push c = a.append (text [c] nil) := by
  induction a with
  | nil => rfl
  | text data next ih =>
    cases next with
    | nil => cases h
    | text d n => exact congrArg (Forest.text data) (ih h)
    | element n a ch nx => exact congrArg (Forest.text data) (ih h)
  | element name attrs children next _ ih =>
    exact congrArg (Forest.element name attrs children) (ih h)

theorem Forest.push_append_text (a : Forest) (data : Text) (c : Char) :
    (a.append (text data nil)).push c = a.append (text (data ++ [c]) nil) := by
  induction a with
  | nil => rfl
  | text _ next ih => cases next <;> exact congrArg _ ih
  | element _ _ _ _ _ ih => exact congrArg _ ih

/-- The characters of a text node end up in one text node. -/
theorem build_chars {content : Forest} {data : Text} (hdata : data ≠ [])
    (h : content.endsText = false) (stack : List Frame) (ts : List Token) :
    build stack content (data.map .char ++ ts)
      = build stack (content.append (.text data .nil)) ts := by
  obtain ⟨c, cs, rfl⟩ := List.exists_cons_of_ne_nil hdata
  have hrest : ∀ (cs acc : Text), build stack (content.append (.text acc .nil))
      (cs.map .char ++ ts) = build stack (content.append (.text (acc ++ cs) .nil)) ts := by
    intro cs
    induction cs with
    | nil => intro acc; rw [List.append_nil]; rfl
    | cons d ds ih =>
      intro acc
      show build stack ((content.append (.text acc .nil)).push d) (ds.map .char ++ ts) = _
      rw [Forest.push_append_text, ih, List.append_assoc]
      rfl
  show build stack (content.push c) (cs.map .char ++ ts) = _
  rw [Forest.push_of_endsText h, hrest]
  rfl

/-- The tokens of a normal forest build that forest. -/
theorem build_tokens {tree : Forest} (h : tree.Normal) (stack : List Frame) {content : Forest}
    (hjoin : content.endsText = true → tree.startsText = false) (ts : List Token) :
    build stack content (tree.tokens ++ ts) = build stack (content.append tree) ts := by
  induction tree generalizing stack content ts with
  | nil => rw [Forest.append_nil]; rfl
  | text data next ih =>
    obtain ⟨hdata, hstart, hnext⟩ := h
    have hends : content.endsText = false := by
      cases he : content.endsText with
      | false => rfl
      | true => exact absurd (hjoin he) (by simp [Forest.startsText])
    unfold Forest.tokens
    rw [List.append_assoc, build_chars hdata hends, ih hnext stack fun _ => hstart,
      Forest.append_assoc]
    rfl
  | element name attrs children next ihc ihn =>
    obtain ⟨hnodup, hvoid, hchildren, hnext⟩ := h
    have hends := content.endsText_append_element name attrs children
    have hjoin' : (content.append (.element name attrs children .nil)).endsText = true →
        next.startsText = false := by
      intro he
      rw [hends] at he
      cases he
    have hshape : content.append (.element name attrs children next)
        = (content.append (.element name attrs children .nil)).append next := by
      rw [Forest.append_assoc]
      rfl
    unfold Forest.tokens
    rw [firstOfName_of_nodup hnodup, hshape, ← ihn hnext stack hjoin']
    by_cases hv : isVoid name = true
    · rw [if_pos hv, List.nil_append, hvoid hv, List.cons_append, build, if_pos hv]
    · -- The children are built in a frame of their own, which the end tag closes.
      rw [if_neg hv, List.append_assoc, List.cons_append, build, if_neg hv, List.append_assoc,
        ihc hchildren _ (by simp [Forest.endsText])]
      show (match closeTo name (⟨name, attrs, content⟩ :: stack) children with
        | some (stack', content') => build stack' content' (next.tokens ++ ts)
        | none => _) = _
      rw [closeTo, if_pos rfl]
      rfl

variable {e : ValueEscape}

theorem Forest.normal_escape {tree : Forest} (h : tree.Normal) : (tree.escape e).Normal := by
  induction tree with
  | nil => trivial
  | text data next ih =>
    obtain ⟨hdata, hstart, hnext⟩ := h
    refine ⟨?_, ?_, ih hnext⟩
    · intro hnil
      have hd : data = [] := by
        have := congrArg Html.decode hnil
        rw [decode_escapeText] at this
        exact this
      exact hdata hd
    · cases next <;> exact hstart
  | element name attrs children next ihc ihn =>
    obtain ⟨hnodup, hvoid, hchildren, hnext⟩ := h
    refine ⟨?_, fun hv => by rw [hvoid hv]; rfl, ihc hchildren, ihn hnext⟩
    rw [List.map_map]
    exact hnodup

/-- Decoding the escaped texts and values gives them back. -/
theorem Forest.decode_escape (tree : Forest) : (tree.escape e).decode = tree := by
  induction tree with
  | nil => rfl
  | text data next ih =>
    show Forest.text (Html.decode (escapeText data)) (next.escape e).decode = _
    rw [decode_escapeText, ih]
  | element name attrs children next ihc ihn =>
    show Forest.element name ((attrs.map _).map _) (children.escape e).decode
      (next.escape e).decode = _
    rw [ihc, ihn, List.map_map, List.map_congr_left (g := id), List.map_id]
    intro a _
    exact Prod.ext rfl (e.resolved a.2)

/-- A tree whose names can be written, whatever its texts and values. -/
def Forest.Named : Forest → Prop
  | nil => True
  | text _ next => next.Named
  | element name attrs children next =>
    isTagName name = true ∧ (∀ a ∈ attrs, isAttrName a.1 = true) ∧ children.Named ∧ next.Named

/-- Escaping leaves nothing that could read as markup. -/
theorem Forest.markup_escape {tree : Forest} (h : tree.Named) : (tree.escape e).Markup := by
  induction tree with
  | nil => trivial
  | text data next ih => exact ⟨lt_not_mem_escapeText data, ih h⟩
  | element name attrs children next ihc ihn =>
    obtain ⟨hname, hattrs, hchildren, hnext⟩ := h
    refine ⟨hname, fun a ha => ?_, ihc hchildren, ihn hnext⟩
    obtain ⟨b, hb, rfl⟩ := List.mem_map.mp ha
    exact ⟨hattrs b hb, e.unquoted b.2⟩

/-- The tokens of a written tree are the tree's, its texts and values still escaped. -/
theorem tokenize_serialize {tree : Forest} (h : tree.Named) :
    tokenize (serialize e tree) = (tree.escape e).tokens := by
  have hrun := run_render (Forest.markup_escape (e := e) h) []
  rw [List.append_nil] at hrun
  exact hrun.trans (List.append_nil _)

/-- **The round trip**: a tree in the form a parser leaves is read back from its
serialisation. -/
theorem parse_serialize {tree : Forest} (hnamed : tree.Named) (hnormal : tree.Normal) :
    parse (serialize e tree) = tree := by
  have hjoin : Forest.nil.endsText = true → (tree.escape e).startsText = false :=
    fun h => (nomatch h)
  have hbuild := build_tokens (Forest.normal_escape hnormal) [] hjoin []
  rw [List.append_nil] at hbuild
  unfold parse
  rw [tokenize_serialize hnamed, hbuild]
  exact tree.decode_escape

end SarkariWorld.Lib.Html
