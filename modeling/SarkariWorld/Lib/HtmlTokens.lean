import Mathlib.Data.List.Nodup
import SarkariWorld.Lib.Html

/-!
# The HTML tokenizer

The tag states of the HTML tokenizer, as a machine that reads one character at
a time, together with what it makes of rendered markup. It follows the
standard's states for tags and attributes, error cases included: a quote or a
`<` in an attribute name is part of the name, a repeated attribute is dropped,
an unfinished tag at the end of the input is lost.

Four things are simplified. The input is read as it stands: line breaks are not
normalised and a NUL is a character like any other. A comment or declaration
ends at the first `>`. Every element's content is read as ordinary data. The
self-closing flag means nothing on an HTML element, so `/` in a tag only
separates attributes, and the states behind a `/` and behind a quoted value are
the one before an attribute name, which treats every next character the same
way.

Character references are left alone here and resolved in the finished tree,
where what they stand for cannot be mistaken for markup.
-/

namespace SarkariWorld.Lib.Html

/-- A tag being read. -/
structure Tag where
  isEnd : Bool
  name : Text
  attrs : List Attr
  deriving DecidableEq, Repr

/-- What the tokenizer emits. Character references are still unresolved. -/
inductive Token where
  | char (c : Char)
  | startTag (name : Text) (attrs : List Attr)
  | endTag (name : Text)
  deriving DecidableEq, Repr

/-- The states of the machine, each with what it has read so far. -/
inductive State where
  | data
  | tagOpen
  | endTagOpen
  | bogusComment
  | tagName (tag : Tag)
  | beforeAttrName (tag : Tag)
  | attrName (tag : Tag) (name : Text)
  | afterAttrName (tag : Tag) (name : Text)
  | beforeAttrValue (tag : Tag) (name : Text)
  | quotedValue (quote : Char) (tag : Tag) (name value : Text)
  | unquotedValue (tag : Tag) (name value : Text)
  deriving DecidableEq, Repr

/-- The white space between attributes. -/
def htmlSpace (c : Char) : Bool :=
  c == ' ' || c == '\t' || c == '\n' || c == '\r' || c == '\x0C'

/-- The character ends a name in a tag without ending the tag. -/
def separates (c : Char) : Bool := htmlSpace c || c == '/'

/-- The attributes without the later ones of a name. -/
def firstOfName : List Attr → List Attr
  | [] => []
  | a :: as => a :: (firstOfName as).filter fun b => b.1 != a.1

/-- The tag with one more character in its name. -/
def Tag.push (tag : Tag) (c : Char) : Tag := { tag with name := tag.name ++ [c] }

/-- The tag with one more attribute. -/
def Tag.add (tag : Tag) (a : Attr) : Tag := { tag with attrs := tag.attrs ++ [a] }

/-- The token of a tag that has been read to its end. An end tag loses its attributes. -/
def Tag.emit (tag : Tag) : Token :=
  if tag.isEnd then .endTag tag.name else .startTag tag.name (firstOfName tag.attrs)

/-- One character: the next state and the tokens it completes. -/
def step : State → Char → State × List Token
  | .data, c => if c = '<' then (.tagOpen, []) else (.data, [.char c])
  | .tagOpen, c =>
    if c.isAlpha then (.tagName ⟨false, [c.toLower], []⟩, [])
    else if c = '/' then (.endTagOpen, [])
    else if c = '!' ∨ c = '?' then (.bogusComment, [])
    -- Not a tag after all: the `<` was text, and this may be the next one.
    else if c = '<' then (.tagOpen, [.char '<'])
    else (.data, [.char '<', .char c])
  | .endTagOpen, c =>
    if c.isAlpha then (.tagName ⟨true, [c.toLower], []⟩, [])
    -- `</>` is nothing at all.
    else if c = '>' then (.data, [])
    else (.bogusComment, [])
  | .bogusComment, c => if c = '>' then (.data, []) else (.bogusComment, [])
  | .tagName tag, c =>
    if separates c then (.beforeAttrName tag, [])
    else if c = '>' then (.data, [tag.emit])
    else (.tagName (tag.push c.toLower), [])
  | .beforeAttrName tag, c =>
    if separates c then (.beforeAttrName tag, [])
    else if c = '>' then (.data, [tag.emit])
    else (.attrName tag [c.toLower], [])
  | .attrName tag name, c =>
    if htmlSpace c then (.afterAttrName tag name, [])
    else if c = '/' then (.beforeAttrName (tag.add (name, [])), [])
    else if c = '>' then (.data, [(tag.add (name, [])).emit])
    else if c = '=' then (.beforeAttrValue tag name, [])
    -- A quote or a `<` is an error, and part of the name.
    else (.attrName tag (name ++ [c.toLower]), [])
  | .afterAttrName tag name, c =>
    if htmlSpace c then (.afterAttrName tag name, [])
    else if c = '/' then (.beforeAttrName (tag.add (name, [])), [])
    else if c = '>' then (.data, [(tag.add (name, [])).emit])
    else if c = '=' then (.beforeAttrValue tag name, [])
    else (.attrName (tag.add (name, [])) [c.toLower], [])
  | .beforeAttrValue tag name, c =>
    if htmlSpace c then (.beforeAttrValue tag name, [])
    else if c = '"' ∨ c = '\'' then (.quotedValue c tag name [], [])
    else if c = '>' then (.data, [(tag.add (name, [])).emit])
    else (.unquotedValue tag name [c], [])
  | .quotedValue quote tag name value, c =>
    if c = quote then (.beforeAttrName (tag.add (name, value)), [])
    else (.quotedValue quote tag name (value ++ [c]), [])
  | .unquotedValue tag name value, c =>
    if htmlSpace c then (.beforeAttrName (tag.add (name, value)), [])
    else if c = '>' then (.data, [(tag.add (name, value)).emit])
    else (.unquotedValue tag name (value ++ [c]), [])

/-- What the end of the input completes. -/
def eof : State → List Token
  | .tagOpen => [.char '<']
  | .endTagOpen => [.char '<', .char '/']
  | _ => []

/-- Reads the input, one character a step. -/
def run : State → Text → List Token
  | st, [] => eof st
  | st, c :: cs => (step st c).2 ++ run (step st c).1 cs

/-- The tokens of a text. -/
def tokenize (t : Text) : List Token := run .data t

/-- The start tags among the tokens. -/
def startTags : List Token → List (Text × List Attr)
  | [] => []
  | .startTag name attrs :: ts => (name, attrs) :: startTags ts
  | _ :: ts => startTags ts

@[simp] theorem startTags_startTag (name : Text) (attrs : List Attr) (ts : List Token) :
    startTags (.startTag name attrs :: ts) = (name, attrs) :: startTags ts := rfl

@[simp] theorem startTags_endTag (name : Text) (ts : List Token) :
    startTags (.endTag name :: ts) = startTags ts := rfl

theorem startTags_append (as bs : List Token) :
    startTags (as ++ bs) = startTags as ++ startTags bs := by
  induction as with
  | nil => rfl
  | cons t ts ih =>
    cases t with
    | char c => exact ih
    | endTag name => exact ih
    | startTag name attrs => exact congrArg _ ih

theorem startTags_chars (t : Text) : startTags (t.map .char) = [] := by
  induction t with
  | nil => rfl
  | cons c cs ih => exact ih

/-! ## Repeated attributes -/

theorem mem_of_mem_firstOfName {attrs : List Attr} {a : Attr} (h : a ∈ firstOfName attrs) :
    a ∈ attrs := by
  induction attrs with
  | nil => cases h
  | cons b bs ih =>
    rcases List.mem_cons.mp h with rfl | hmem
    · exact List.mem_cons_self
    · exact List.mem_cons_of_mem _ (ih (List.mem_filter.mp hmem).1)

/-- Every attribute name is kept. -/
theorem exists_mem_firstOfName {attrs : List Attr} {a : Attr} (h : a ∈ attrs) :
    ∃ b ∈ firstOfName attrs, b.1 = a.1 := by
  induction attrs with
  | nil => cases h
  | cons b bs ih =>
    by_cases hname : a.1 = b.1
    · exact ⟨b, List.mem_cons_self, hname.symm⟩
    · rcases List.mem_cons.mp h with rfl | hmem
      · exact absurd rfl hname
      · obtain ⟨d, hd, hda⟩ := ih hmem
        have hkeep : (d.1 != b.1) = true := by
          rw [bne_iff_ne, hda]
          exact hname
        exact ⟨d, List.mem_cons_of_mem _ (List.mem_filter.mpr ⟨hd, hkeep⟩), hda⟩

/-- An attribute of a new name is added in front. -/
theorem firstOfName_cons {a : Attr} {attrs : List Attr} (h : ∀ b ∈ attrs, b.1 ≠ a.1) :
    firstOfName (a :: attrs) = a :: firstOfName attrs := by
  show a :: (firstOfName attrs).filter _ = _
  rw [List.filter_eq_self.mpr]
  intro b hb
  rw [bne_iff_ne]
  exact h b (mem_of_mem_firstOfName hb)

theorem firstOfName_of_nodup {attrs : List Attr} (h : (attrs.map Prod.fst).Nodup) :
    firstOfName attrs = attrs := by
  induction attrs with
  | nil => rfl
  | cons a as ih =>
    obtain ⟨hnot, has⟩ := List.nodup_cons.mp h
    rw [firstOfName_cons, ih has]
    intro b hb heq
    exact hnot (heq ▸ List.mem_map_of_mem hb)

/-! ## One step of the machine -/

theorem run_step {st st' : State} {c : Char} {out : List Token} (h : step st c = (st', out))
    (cs : Text) : run st (c :: cs) = out ++ run st' cs := by
  show (step st c).2 ++ run (step st c).1 cs = _
  rw [h]

/-- The names this library writes: lower-case letters, digits and hyphens. -/
def nameChar (c : Char) : Bool := c.isLower || c.isDigit || c == '-'

/-- A name a tag may have in rendered markup. -/
def isTagName (name : Text) : Bool :=
  name.all nameChar && (name.head?.map Char.isLower).getD false

/-- The same for an attribute. -/
def isAttrName (name : Text) : Bool := name.all nameChar && !name.isEmpty

/-- A character of a name is its own lower case and none of the characters that
mean something in a tag. -/
theorem nameChar_plain {c : Char} (h : nameChar c = true) :
    c.toLower = c ∧ separates c = false ∧ c ≠ '>' ∧ c ≠ '=' ∧ c ≠ '"' ∧ c ≠ '<' := by
  have hne : ∀ d : Char, nameChar d = false → c ≠ d := by
    intro d hd hcd
    rw [hcd, hd] at h
    cases h
  have hsep : separates c = false := by
    simp only [separates, htmlSpace, Bool.or_eq_false_iff, beq_eq_false_iff_ne]
    exact ⟨⟨⟨⟨⟨hne _ (by decide), hne _ (by decide)⟩, hne _ (by decide)⟩, hne _ (by decide)⟩,
      hne _ (by decide)⟩, hne _ (by decide)⟩
  have hnotUpper : ¬ (c.val ≥ 'A'.val ∧ c.val ≤ 'Z'.val) := by
    intro hup
    have hclass : (c.isLower = true ∨ c.isDigit = true) ∨ (c == '-') = true := by
      rw [← Bool.or_eq_true, ← Bool.or_eq_true]
      exact h
    rcases hclass with (hlow | hdigit) | hyphen
    · have hle := UInt32.le_trans (of_decide_eq_true (Bool.and_eq_true_iff.mp hlow).1) hup.2
      exact absurd hle (by decide)
    · have hle := UInt32.le_trans hup.1 (of_decide_eq_true (Bool.and_eq_true_iff.mp hdigit).2)
      exact absurd hle (by decide)
    · rw [beq_iff_eq.mp hyphen] at hup
      exact absurd hup.1 (by decide)
  refine ⟨?_, hsep, hne _ (by decide), hne _ (by decide), hne _ (by decide), hne _ (by decide)⟩
  unfold Char.toLower
  rw [dif_neg hnotUpper]

/-! ## Reading rendered markup -/

variable {tag : Tag}

/-- Text without a `<` is read character by character. -/
theorem run_text {t : Text} (ht : '<' ∉ t) (rest : Text) :
    run .data (t ++ rest) = t.map .char ++ run .data rest := by
  induction t with
  | nil => rfl
  | cons c cs ih =>
    obtain ⟨hc, hcs⟩ := not_or.mp fun h => ht (List.mem_cons.mpr h)
    have hstep : step .data c = (.data, [.char c]) := if_neg (Ne.symm hc)
    rw [List.cons_append, run_step hstep, ih hcs]
    rfl

theorem run_tagName {name : Text} (hname : name.all nameChar = true) (rest : Text) :
    run (.tagName tag) (name ++ rest)
      = run (.tagName { tag with name := tag.name ++ name }) rest := by
  induction name generalizing tag with
  | nil => rw [List.append_nil]; rfl
  | cons c cs ih =>
    obtain ⟨hc, hcs⟩ := Bool.and_eq_true_iff.mp hname
    obtain ⟨hlow, hsep, hgt, -⟩ := nameChar_plain hc
    have hstep : step (.tagName tag) c = (.tagName (tag.push c), []) := by
      simp only [step, hsep, if_neg hgt, hlow]
      rfl
    rw [List.cons_append, run_step hstep, List.nil_append, ih hcs]
    simp only [Tag.push, List.append_assoc, List.singleton_append]

theorem run_attrName {acc name : Text} (hname : name.all nameChar = true) (rest : Text) :
    run (.attrName tag acc) (name ++ rest) = run (.attrName tag (acc ++ name)) rest := by
  induction name generalizing acc with
  | nil => rw [List.append_nil]; rfl
  | cons c cs ih =>
    obtain ⟨hc, hcs⟩ := Bool.and_eq_true_iff.mp hname
    obtain ⟨hlow, hsep, hgt, heq, -⟩ := nameChar_plain hc
    obtain ⟨hspace, hslash⟩ := Bool.or_eq_false_iff.mp hsep
    have hstep : step (.attrName tag acc) c = (.attrName tag (acc ++ [c]), []) := by
      simp only [step, hspace, if_neg (beq_eq_false_iff_ne.mp hslash), if_neg hgt, if_neg heq, hlow]
      rfl
    rw [List.cons_append, run_step hstep, List.nil_append, ih hcs, List.append_assoc]
    rfl

/-- A quoted value runs to its quote. -/
theorem run_quotedValue {quote : Char} {name acc value : Text} (hvalue : quote ∉ value)
    (rest : Text) :
    run (.quotedValue quote tag name acc) (value ++ rest)
      = run (.quotedValue quote tag name (acc ++ value)) rest := by
  induction value generalizing acc with
  | nil => rw [List.append_nil]; rfl
  | cons c cs ih =>
    obtain ⟨hc, hcs⟩ := not_or.mp fun h => hvalue (List.mem_cons.mpr h)
    have hstep : step (.quotedValue quote tag name acc) c
        = (.quotedValue quote tag name (acc ++ [c]), []) := if_neg (Ne.symm hc)
    rw [List.cons_append, run_step hstep, List.nil_append, ih hcs, List.append_assoc]
    rfl

/-- An attribute up to its opening quote. -/
theorem run_attr_open {name : Text} (hname : isAttrName name = true) (rest : Text) :
    run (.beforeAttrName tag) (' ' :: (name ++ '=' :: '"' :: rest))
      = run (.quotedValue '"' tag name []) rest := by
  obtain ⟨hall, hne⟩ := Bool.and_eq_true_iff.mp hname
  cases name with
  | nil => exact absurd hne (by decide)
  | cons c cs =>
    obtain ⟨hc, hcs⟩ := Bool.and_eq_true_iff.mp hall
    obtain ⟨hlow, hsep, hgt, -⟩ := nameChar_plain hc
    have hfirst : step (.beforeAttrName tag) c = (.attrName tag [c], []) := by
      simp only [step, hsep, if_neg hgt, hlow]
      rfl
    have hspace : step (.beforeAttrName tag) ' ' = (.beforeAttrName tag, []) := rfl
    have heq : step (.attrName tag (c :: cs)) '=' = (.beforeAttrValue tag (c :: cs), []) := rfl
    have hquote : step (.beforeAttrValue tag (c :: cs)) '"'
        = (.quotedValue '"' tag (c :: cs) [], []) := rfl
    rw [run_step hspace, List.nil_append, List.cons_append, run_step hfirst, List.nil_append,
      run_attrName hcs, List.singleton_append, run_step heq, List.nil_append, run_step hquote,
      List.nil_append]

/-- A rendered attribute is read as the attribute it was, and the machine stands before the next
one. -/
theorem run_attr {a : Attr} (hname : isAttrName a.1 = true) (hvalue : '"' ∉ a.2) (rest : Text) :
    run (.beforeAttrName tag) (renderAttr a ++ rest) = run (.beforeAttrName (tag.add a)) rest := by
  have hclose : step (.quotedValue '"' tag a.1 a.2) '"' = (.beforeAttrName (tag.add a), []) := rfl
  have hshape : renderAttr a ++ rest = ' ' :: (a.1 ++ '=' :: '"' :: (a.2 ++ '"' :: rest)) := by
    simp [renderAttr]
  rw [hshape, run_attr_open hname, run_quotedValue hvalue, List.nil_append, run_step hclose,
    List.nil_append]

/-- The attributes of a start tag and its closing `>`. -/
theorem run_attrs {attrs : List Attr} (h : ∀ a ∈ attrs, isAttrName a.1 = true ∧ '"' ∉ a.2)
    (rest : Text) :
    run (.beforeAttrName tag) (renderAttrs attrs ++ '>' :: rest)
      = { tag with attrs := tag.attrs ++ attrs }.emit :: run .data rest := by
  induction attrs generalizing tag with
  | nil =>
    have hstep : step (.beforeAttrName tag) '>' = (.data, [tag.emit]) := rfl
    rw [List.append_nil]
    exact run_step hstep rest
  | cons a as ih =>
    obtain ⟨hname, hvalue⟩ := h a List.mem_cons_self
    have hshape : renderAttrs (a :: as) ++ '>' :: rest
        = renderAttr a ++ (renderAttrs as ++ '>' :: rest) := by
      simp [renderAttrs]
    rw [hshape, run_attr hname hvalue, ih fun b hb => h b (List.mem_cons_of_mem _ hb)]
    simp only [Tag.add, List.append_assoc, List.singleton_append]

/-- Behind the name of a tag, an attribute list is read as behind any other
attribute. -/
theorem run_tagName_attrs (attrs : List Attr) (rest : Text) :
    run (.tagName tag) (renderAttrs attrs ++ '>' :: rest)
      = run (.beforeAttrName tag) (renderAttrs attrs ++ '>' :: rest) := by
  cases attrs with
  | nil => rfl
  | cons a as => rfl

/-- The name of a tag, read from the character behind `<`. -/
theorem run_tagOpen {name : Text} (hname : isTagName name = true) (rest : Text) :
    run .data ('<' :: (name ++ rest)) = run (.tagName ⟨false, name, []⟩) rest ∧
      run .data ('<' :: '/' :: (name ++ rest)) = run (.tagName ⟨true, name, []⟩) rest := by
  obtain ⟨hall, hfirst⟩ := Bool.and_eq_true_iff.mp hname
  cases name with
  | nil => exact absurd hfirst (by decide)
  | cons c cs =>
    obtain ⟨hc, hcs⟩ := Bool.and_eq_true_iff.mp hall
    -- a tag name begins with a lower-case letter, which opens a tag
    have halpha : c.isAlpha = true := by
      have hlower : c.isLower = true := hfirst
      show (c.isUpper || c.isLower) = true
      rw [hlower, Bool.or_true]
    have hlow : c.toLower = c := (nameChar_plain hc).1
    have hstart : step .tagOpen c = (.tagName ⟨false, [c], []⟩, []) := by
      simp only [step, halpha, if_true, hlow]
    have hend : step .endTagOpen c = (.tagName ⟨true, [c], []⟩, []) := by
      simp only [step, halpha, if_true, hlow]
    have hlt : step .data '<' = (.tagOpen, []) := rfl
    have hslash : step .tagOpen '/' = (.endTagOpen, []) := rfl
    refine ⟨?_, ?_⟩
    · rw [run_step hlt, List.nil_append, List.cons_append, run_step hstart, List.nil_append,
        run_tagName hcs]
      rfl
    · rw [run_step hlt, List.nil_append, run_step hslash, List.nil_append, List.cons_append,
        run_step hend, List.nil_append, run_tagName hcs]
      rfl

/-- A start tag. -/
theorem run_startTag {name : Text} {attrs : List Attr} (hname : isTagName name = true)
    (hattrs : ∀ a ∈ attrs, isAttrName a.1 = true ∧ '"' ∉ a.2) (rest : Text) :
    run .data ('<' :: (name ++ renderAttrs attrs ++ '>' :: rest))
      = .startTag name (firstOfName attrs) :: run .data rest := by
  rw [List.append_assoc, (run_tagOpen hname _).1, run_tagName_attrs, run_attrs hattrs]
  rfl

/-- An end tag. -/
theorem run_endTag {name : Text} (hname : isTagName name = true) (rest : Text) :
    run .data ('<' :: '/' :: (name ++ '>' :: rest)) = .endTag name :: run .data rest := by
  have hstep : step (.tagName ⟨true, name, []⟩) '>' = (.data, [.endTag name]) := rfl
  rw [(run_tagOpen hname _).2, run_step hstep]
  rfl

/-! ## A start tag keeps its attribute names -/

section Carries

variable {P : Text → Prop}

/-- A start tag with an attribute whose name is `P`. -/
def Tag.Has (P : Text → Prop) (tag : Tag) : Prop :=
  tag.isEnd = false ∧ ∃ a ∈ tag.attrs, P a.1

/-- The tag being read will have an attribute whose name is `P`, wherever it
ends. -/
def State.Carries (P : Text → Prop) : State → Prop
  | .beforeAttrName tag | .attrName tag _ => tag.Has P
  | .afterAttrName tag name | .beforeAttrValue tag name | .quotedValue _ tag name _
  | .unquotedValue tag name _ => (tag.add (name, [])).Has P
  | _ => False

/-- A tag that has an attribute has it with another one added. -/
theorem Tag.has_add (h : tag.Has P) (a : Attr) : (tag.add a).Has P := by
  obtain ⟨hstart, b, hb, hP⟩ := h
  exact ⟨hstart, b, List.mem_append_left _ hb, hP⟩

/-- The value of an attribute does not matter. -/
theorem Tag.has_add_value {name : Text} (h : (tag.add (name, [])).Has P) (value : Text) :
    (tag.add (name, value)).Has P := by
  obtain ⟨hstart, b, hb, hP⟩ := h
  rcases List.mem_append.mp hb with hold | hnew
  · exact ⟨hstart, b, List.mem_append_left _ hold, hP⟩
  · rw [List.mem_singleton.mp hnew] at hP
    exact ⟨hstart, (name, value), List.mem_append_right _ (List.mem_singleton_self _), hP⟩

/-- Such an attribute is on the token, repetitions dropped or not. -/
theorem Tag.startTags_emit (h : tag.Has P) (ts : List Token) :
    ∃ o ∈ startTags (tag.emit :: ts), ∃ a ∈ o.2, P a.1 := by
  obtain ⟨hstart, a, ha, hP⟩ := h
  obtain ⟨b, hb, hname⟩ := exists_mem_firstOfName ha
  have hemit : tag.emit = .startTag tag.name (firstOfName tag.attrs) := by
    rw [Tag.emit, hstart]
    rfl
  rw [hemit]
  exact ⟨_, List.mem_cons_self, b, hb, hname ▸ hP⟩

/-- One more character either keeps the name or ends the tag with it. -/
theorem step_carries {st : State} (h : st.Carries P) (c : Char) :
    ((step st c).1.Carries P ∧ (step st c).2 = []) ∨
      ∃ tag : Tag, tag.Has P ∧ step st c = (.data, [tag.emit]) := by
  cases st with
  -- Before the first attribute name nothing is carried.
  | data | tagOpen | endTagOpen | bogusComment | tagName => cases h
  | beforeAttrName tag =>
    simp only [step]
    split
    · exact .inl ⟨h, rfl⟩
    · split
      · exact .inr ⟨tag, h, rfl⟩
      · exact .inl ⟨h, rfl⟩
  | attrName tag name =>
    have hadd : (tag.add (name, [])).Has P := Tag.has_add h _
    simp only [step]
    split
    · exact .inl ⟨hadd, rfl⟩
    · split
      · exact .inl ⟨hadd, rfl⟩
      · split
        · exact .inr ⟨_, hadd, rfl⟩
        · split
          · exact .inl ⟨hadd, rfl⟩
          · exact .inl ⟨h, rfl⟩
  | afterAttrName tag name =>
    simp only [step]
    split
    · exact .inl ⟨h, rfl⟩
    · split
      · exact .inl ⟨h, rfl⟩
      · split
        · exact .inr ⟨_, h, rfl⟩
        · split
          · exact .inl ⟨h, rfl⟩
          · exact .inl ⟨h, rfl⟩
  | beforeAttrValue tag name =>
    simp only [step]
    split
    · exact .inl ⟨h, rfl⟩
    · split
      · exact .inl ⟨h, rfl⟩
      · split
        · exact .inr ⟨_, h, rfl⟩
        · exact .inl ⟨h, rfl⟩
  | quotedValue quote tag name value =>
    simp only [step]
    split
    · exact .inl ⟨Tag.has_add_value h value, rfl⟩
    · exact .inl ⟨h, rfl⟩
  | unquotedValue tag name value =>
    simp only [step]
    split
    · exact .inl ⟨Tag.has_add_value h value, rfl⟩
    · split
      · exact .inr ⟨_, Tag.has_add_value h value, rfl⟩
      · exact .inl ⟨h, rfl⟩

/-- Once an attribute name is read, the tag has it or is lost with the rest of
the input. -/
theorem run_carries {st : State} (h : st.Carries P) (cs : Text) :
    startTags (run st cs) = [] ∨ ∃ o ∈ startTags (run st cs), ∃ a ∈ o.2, P a.1 := by
  induction cs generalizing st with
  | nil => cases st <;> exact .inl rfl
  | cons c cs ih =>
    rcases step_carries h c with ⟨hnext, hout⟩ | ⟨tag, htag, hstep⟩
    · have hrun : run st (c :: cs) = run (step st c).1 cs := by
        rw [run, hout, List.nil_append]
      rw [hrun]
      exact ih hnext
    · rw [run_step hstep]
      exact .inr (Tag.startTags_emit htag _)

end Carries

/-! ## A whole forest -/

/-- Markup the tokenizer reads back: names of name characters, no `<` in a text
and no `"` in a value. -/
def Forest.Markup : Forest → Prop
  | nil => True
  | text data next => '<' ∉ data ∧ next.Markup
  | element name attrs children next =>
    isTagName name = true ∧ (∀ a ∈ attrs, isAttrName a.1 = true ∧ '"' ∉ a.2) ∧
      children.Markup ∧ next.Markup

/-- The tokens of a forest's markup. -/
def Forest.tokens : Forest → List Token
  | nil => []
  | text data next => data.map .char ++ next.tokens
  | element name attrs children next =>
    .startTag name (firstOfName attrs) ::
      ((if isVoid name then [] else children.tokens ++ [.endTag name]) ++ next.tokens)

/-- The attributes of those tokens are the ones the markup names. -/
theorem Forest.startTags_tokens_named {tree : Forest} (h : tree.Markup) :
    ∀ o ∈ startTags tree.tokens, ∀ a ∈ o.2, isAttrName a.1 = true := by
  induction tree with
  | nil => exact fun o ho => (nomatch ho)
  | text data next ih =>
    rw [Forest.tokens, startTags_append, startTags_chars]
    exact ih h.2
  | element name attrs children next ihc ihn =>
    obtain ⟨-, hattrs, hchildren, hnext⟩ := h
    intro o ho a ha
    rcases List.mem_cons.mp ho with rfl | hrest
    · exact (hattrs a (mem_of_mem_firstOfName ha)).1
    · rw [startTags_append] at hrest
      rcases List.mem_append.mp hrest with hin | hafter
      · by_cases hvoid : isVoid name = true
        · rw [if_pos hvoid] at hin
          cases hin
        · rw [if_neg hvoid, startTags_append] at hin
          rcases List.mem_append.mp hin with hc | hend
          · exact ihc hchildren o hc a ha
          · cases hend
      · exact ihn hnext o hafter a ha

/-- **The tokenizer reads rendered markup as it was meant**, whatever follows. -/
theorem run_render {tree : Forest} (h : tree.Markup) (rest : Text) :
    run .data (tree.render ++ rest) = tree.tokens ++ run .data rest := by
  induction tree generalizing rest with
  | nil => rfl
  | text data next ih =>
    obtain ⟨hdata, hnext⟩ := h
    rw [Forest.render, List.append_assoc, run_text hdata, ih hnext, ← List.append_assoc]
    rfl
  | element name attrs children next ihc ihn =>
    obtain ⟨hname, hattrs, hchildren, hnext⟩ := h
    unfold Forest.render Forest.tokens
    by_cases hvoid : isVoid name = true
    · simp only [hvoid, if_true, List.nil_append, List.append_assoc, List.cons_append]
      rw [← List.append_assoc, run_startTag hname hattrs, ihn hnext]
    · simp only [hvoid, if_false, List.append_assoc, List.cons_append, List.nil_append,
        Bool.false_eq_true]
      rw [← List.append_assoc, run_startTag hname hattrs, ihc hchildren, run_endTag hname,
        ihn hnext]

end SarkariWorld.Lib.Html
