import SarkariWorld.Content.Sanitize

/-!
# The target on every anchor

What the substitution does to the serialisation of a cleaned tree, part by part:
outside attribute values the only match is the opening of an anchor, and a value
without a match is copied. So the rewritten text is the serialisation of
`addTarget tree` (`replace_serialize`), unless some value has a match
(`replace_broken`).

Serialisations differ in how they write `<` and `>` inside a value, and a `ValueEscape` is
what both ways have in common. The results hold of either; `strict_anchor_target` adds
that the way of the locked release leaves no value with a match, so that there the
substitution is always right.

The argument walks along the serialisation as the substitution does. `Seals` (in
`Lib.Replace`) is the step it takes over a text or a value without a match, and one lemma
says what happens at the opening of a tag; the rest is an induction over the tree.
-/

namespace SarkariWorld.Content

open Lib Lib.Html

variable {e : ValueEscape}

/-- A match of `<a` followed by a blank has no quote in it, so none reaches over the end of a value.
-/
theorem seals_quote : Seals anchorOpen '"' := by
  refine ⟨by decide, ?_⟩
  intro p hp
  rcases List.mem_cons.mp hp with rfl | hp
  · rfl
  · rcases List.mem_cons.mp hp with rfl | hp
    · rfl
    · rw [List.mem_singleton.mp hp]
      rfl

/-- Text without a `<` is copied. -/
theorem replace_plain {t : Text} (h : '<' ∉ t) (rest : Text) :
    replaceAll anchorOpen anchorBlank (t ++ rest)
      = t ++ replaceAll anchorOpen anchorBlank rest := by
  refine replaceAll_append_of_first fun c hc => ?_
  rw [beq_eq_false_iff_ne]
  intro heq
  exact h (heq ▸ hc)

theorem lt_not_mem_name {name : Text} (h : name.all nameChar = true) : '<' ∉ name := by
  intro hmem
  exact (nameChar_plain (List.all_eq_true.mp h '<' hmem)).2.2.2.2.2 rfl

/-- An attribute as it is written. -/
def escaped (e : ValueEscape) (a : Attr) : Attr := (a.1, e.write a.2)

/-- An attribute up to its value is copied. -/
theorem replace_attr_open {name : Text} (hname : isAttrName name = true) (rest : Text) :
    replaceAll anchorOpen anchorBlank (' ' :: (name ++ '=' :: '"' :: rest))
      = ' ' :: (name ++ '=' :: '"' :: replaceAll anchorOpen anchorBlank rest) := by
  have hlt : '<' ∉ ' ' :: (name ++ ['=', '"']) := by
    intro hmem
    rcases List.mem_cons.mp hmem with h | h
    · cases h
    · rcases List.mem_append.mp h with h | h
      · exact lt_not_mem_name (Bool.and_eq_true_iff.mp hname).1 h
      · exact absurd h (by decide)
  have hcopy := replace_plain hlt rest
  simpa using hcopy

/-- An attribute whose value has no match is copied. -/
theorem replace_attr {a : Attr} (hname : isAttrName a.1 = true)
    (hfree : occurs anchorOpen (e.write a.2) = false) (rest : Text) :
    replaceAll anchorOpen anchorBlank (renderAttr (escaped e a) ++ rest)
      = renderAttr (escaped e a) ++ replaceAll anchorOpen anchorBlank rest := by
  have hshape : ∀ rest : Text, renderAttr (escaped e a) ++ rest
      = ' ' :: (a.1 ++ '=' :: '"' :: (e.write a.2 ++ '"' :: rest)) := by
    intro rest
    simp [renderAttr, escaped]
  rw [hshape, hshape, replace_attr_open hname, replaceAll_sealed seals_quote hfree]

/-- The substitution goes over attributes without touching them, if no value has a match. -/
theorem replace_attrs {attrs : List Attr} (hnames : ∀ a ∈ attrs, isAttrName a.1 = true)
    (hfree : ∀ a ∈ attrs, occurs anchorOpen (e.write a.2) = false) (rest : Text) :
    replaceAll anchorOpen anchorBlank (renderAttrs (attrs.map (escaped e)) ++ rest)
      = renderAttrs (attrs.map (escaped e)) ++ replaceAll anchorOpen anchorBlank rest := by
  induction attrs with
  | nil => rfl
  | cons a as ih =>
    have hshape : ∀ rest : Text, renderAttrs ((a :: as).map (escaped e)) ++ rest
        = renderAttr (escaped e a) ++ (renderAttrs (as.map (escaped e)) ++ rest) := by
      intro rest
      simp [renderAttrs]
    rw [hshape, hshape, replace_attr (hnames a List.mem_cons_self) (hfree a List.mem_cons_self),
      ih (fun b hb => hnames b (List.mem_cons_of_mem _ hb))
        (fun b hb => hfree b (List.mem_cons_of_mem _ hb))]

/-- What is written between the name of a tag and its first attribute. -/
def forced (name : Text) : Text := if name = "a".toList then renderAttr blankTarget else []

/-- The opening of a tag up to its attributes: an anchor, which has at least one
attribute, gains its target, and any other tag is copied. -/
theorem replace_opening {name : Text} {attrs : List Attr} (htag : name ∈ articleOptions.tags)
    (hrel : name = "a".toList → attrs ≠ []) (rest : Text) :
    replaceAll anchorOpen anchorBlank ('<' :: (name ++ (renderAttrs attrs ++ rest)))
      = '<' :: (name ++ (forced name
          ++ replaceAll anchorOpen anchorBlank (renderAttrs attrs ++ rest))) := by
  obtain ⟨hname, hother⟩ := allowedTags_named htag
  obtain ⟨hall, hfirst⟩ := Bool.and_eq_true_iff.mp hname
  by_cases ha : name = "a".toList
  · subst ha
    obtain ⟨a, as, rfl⟩ := List.exists_cons_of_ne_nil (hrel rfl)
    -- The match takes the space before the first attribute with it.
    have hspace : renderAttrs (a :: as) ++ rest = ' ' :: (renderAttrs (a :: as) ++ rest).tail := rfl
    rw [hspace]
    generalize (renderAttrs (a :: as) ++ rest).tail = tail
    have hmiss : matchesAt anchorOpen (' ' :: tail) = false := rfl
    have hhit : matchesAt anchorOpen ('<' :: ("a".toList ++ ' ' :: tail)) = true := rfl
    rw [replaceAll_hit (by decide) hhit, replaceAll_miss hmiss]
    rfl
  · cases name with
    | nil => exact absurd hfirst (by decide)
    | cons c cs =>
      have hc : (c == 'a' || c == 'A') = false := by
        have hlow : c ≠ 'a' := fun h => hother ha (congrArg some h)
        have hup : c ≠ 'A' := by
          intro h
          have hlower : c.isLower = true := hfirst
          rw [h] at hlower
          exact absurd hlower (by decide)
        rw [Bool.or_eq_false_iff, beq_eq_false_iff_ne, beq_eq_false_iff_ne]
        exact ⟨hlow, hup⟩
      have hmiss :
          matchesAt anchorOpen ('<' :: (c :: cs ++ (renderAttrs attrs ++ rest))) = false := by
        show (true && ((c == 'a' || c == 'A') && _)) = false
        rw [hc]
        rfl
      rw [replaceAll_miss hmiss, replace_plain (lt_not_mem_name hall), forced, if_neg ha]
      rfl

/-- An anchor is written with attributes, since the cleaner gives it a `rel`. -/
theorem ne_nil_of_rel {name : Text} {attrs : List Attr}
    (h : name = "a".toList → ∃ a ∈ attrs, a.1 = "rel".toList) :
    name = "a".toList → attrs.map (escaped e) ≠ [] := by
  intro ha hnil
  obtain ⟨a, hmem, -⟩ := h ha
  rw [List.map_eq_nil_iff.mp hnil] at hmem
  cases hmem

/-- There is nothing to escape in the target. -/
theorem escaped_blankTarget : escaped e blankTarget = blankTarget := by
  have hplain : ∀ r ∈ references, r.2 ∉ blankTarget.2 := by decide
  exact Prod.ext rfl (e.plain blankTarget.2 hplain)

/-- The target comes first among the attributes, as the substitution puts it. -/
theorem renderAttrs_targeted (name : Text) (attrs : List Attr) :
    renderAttrs ((targeted name attrs).map (escaped e))
      = forced name ++ renderAttrs (attrs.map (escaped e)) := by
  unfold targeted forced
  split
  · rw [List.map_cons, escaped_blankTarget]
    rfl
  · rfl

/-- A start tag whose values have no match. -/
theorem replace_startTag {name : Text} {attrs : List Attr} (htag : name ∈ articleOptions.tags)
    (hattrs : ∀ a ∈ attrs, articleOptions.Allows name a.1)
    (hrel : name = "a".toList → ∃ a ∈ attrs, a.1 = "rel".toList)
    (hfree : ∀ a ∈ attrs, occurs anchorOpen (e.write a.2) = false) (rest : Text) :
    replaceAll anchorOpen anchorBlank
        ('<' :: (name ++ renderAttrs (attrs.map (escaped e)) ++ '>' :: rest))
      = '<' :: (name ++ renderAttrs ((targeted name attrs).map (escaped e)) ++ '>' ::
          replaceAll anchorOpen anchorBlank rest) := by
  have hgt : replaceAll anchorOpen anchorBlank ('>' :: rest)
      = '>' :: replaceAll anchorOpen anchorBlank rest := replaceAll_miss rfl
  have hnames : ∀ a ∈ attrs, isAttrName a.1 = true := fun a ha => (allows_named (hattrs a ha)).1
  rw [List.append_assoc, replace_opening htag (ne_nil_of_rel hrel), replace_attrs hnames hfree, hgt,
    renderAttrs_targeted]
  simp only [List.append_assoc]

theorem replace_endTag {name : Text} (htag : name ∈ articleOptions.tags) (rest : Text) :
    replaceAll anchorOpen anchorBlank ('<' :: '/' :: (name ++ '>' :: rest))
      = '<' :: '/' :: (name ++ '>' :: replaceAll anchorOpen anchorBlank rest) := by
  have hall := (Bool.and_eq_true_iff.mp (allowedTags_named htag).1).1
  have hlt : matchesAt anchorOpen ('<' :: '/' :: (name ++ '>' :: rest)) = false := rfl
  have hslash : ∀ t : Text, matchesAt anchorOpen ('/' :: t) = false := fun _ => rfl
  have hgt : ∀ t : Text, matchesAt anchorOpen ('>' :: t) = false := fun _ => rfl
  rw [replaceAll_miss hlt, replaceAll_miss (hslash _), replace_plain (lt_not_mem_name hall),
    replaceAll_miss (hgt _)]

/-- The markup of an element with its parts in front of each other. -/
theorem render_element (name : Text) (attrs : List Attr) (children next : Forest) (rest : Text) :
    ((Forest.element name attrs children next).escape e).render ++ rest
      = '<' :: (name ++ renderAttrs (attrs.map (escaped e)) ++ '>' ::
          (if isVoid name then (next.escape e).render ++ rest
           else (children.escape e).render ++ '<' :: '/' :: (name ++ '>' ::
             ((next.escape e).render ++ rest)))) := by
  show ('<' :: (name ++ renderAttrs (attrs.map (escaped e)) ++ ['>']) ++ _ ++ _) ++ rest = _
  by_cases hv : isVoid name = true
  · simp [hv, Forest.escape]
  · simp [hv, Forest.escape]

/-- **Without a match in a value, the substitution writes the new tree.** -/
theorem replace_serialize {tree : Forest} (h : Cleaned articleOptions tree)
    (hfree : AnchorFree e tree) (rest : Text) :
    replaceAll anchorOpen anchorBlank ((tree.escape e).render ++ rest)
      = ((addTarget tree).escape e).render ++ replaceAll anchorOpen anchorBlank rest := by
  induction tree generalizing rest with
  | nil => rfl
  | text data next ih =>
    show replaceAll anchorOpen anchorBlank ((escapeText data ++ (next.escape e).render) ++ rest)
      = (escapeText data ++ ((addTarget next).escape e).render) ++ _
    rw [List.append_assoc, replace_plain (lt_not_mem_escapeText data), ih h hfree,
      List.append_assoc]
  | element name attrs children next ihc ihn =>
    obtain ⟨htag, hattrs, hrel, hvoid, hchildren, hnext⟩ := h
    obtain ⟨hvalues, hcfree, hnfree⟩ := hfree
    show _ = ((Forest.element name (targeted name attrs) (addTarget children)
      (addTarget next)).escape e).render ++ _
    rw [render_element, render_element, replace_startTag htag hattrs hrel hvalues]
    by_cases hv : isVoid name = true
    · rw [if_pos hv, if_pos hv, ihn hnext hnfree]
    · rw [if_neg hv, if_neg hv, ihc hchildren hcfree, replace_endTag htag, ihn hnext hnfree]

/-- Escaping the values and setting the target may be done in either order. -/
theorem targeted_escaped (name : Text) (attrs : List Attr) :
    (targeted name attrs).map (escaped e) = targeted name (attrs.map (escaped e)) := by
  unfold targeted
  split
  · rw [List.map_cons, escaped_blankTarget]
  · rfl

/-- The new tree has the old one's tokens, with the target in the start tags of
anchors. -/
theorem tokens_addTarget {tree : Forest} (h : Cleaned articleOptions tree) :
    ((addTarget tree).escape e).tokens = (tree.escape e).tokens.map (Token.mapAttrs targeted) := by
  induction tree with
  | nil => rfl
  | text data next ih =>
    show (escapeText data).map Token.char ++ ((addTarget next).escape e).tokens
      = ((escapeText data).map Token.char ++ (next.escape e).tokens).map _
    rw [ih h, List.map_append, List.map_map]
    rfl
  | element name attrs children next ihc ihn =>
    obtain ⟨-, hattrs, -, -, hchildren, hnext⟩ := h
    -- a cleaned element has no `target` of its own, so the new one is not a second
    have hfirst : firstOfName ((targeted name attrs).map (escaped e))
        = targeted name (firstOfName (attrs.map (escaped e))) := by
      rw [targeted_escaped]
      unfold targeted
      split
      · refine firstOfName_cons fun b hb => ?_
        obtain ⟨a, ha, rfl⟩ := List.mem_map.mp hb
        exact (allows_named (hattrs a ha)).2
      · rfl
    show Token.startTag name (firstOfName ((targeted name attrs).map (escaped e))) ::
        ((if isVoid name then [] else ((addTarget children).escape e).tokens ++ [.endTag name]) ++
          ((addTarget next).escape e).tokens)
      = (Token.startTag name (firstOfName (attrs.map (escaped e))) ::
        ((if isVoid name then [] else (children.escape e).tokens ++ [.endTag name]) ++
          (next.escape e).tokens)).map _
    rw [hfirst, ihc hchildren, ihn hnext, List.map_cons, List.map_append]
    split
    · rfl
    · rw [List.map_append]
      rfl

/-- The values of the targets are read back as they are. -/
theorem decode_addTarget (tree : Forest) :
    (tree.mapAttrs targeted).decode = addTarget tree.decode := by
  induction tree with
  | nil => rfl
  | text data next ih => exact congrArg _ ih
  | element name attrs children next ihc ihn =>
    have hattrs : (targeted name attrs).map (fun a => (a.1, decode a.2))
        = targeted name (attrs.map fun a => (a.1, decode a.2)) := by
      unfold targeted
      split
      · rfl
      · rfl
    show Forest.element name _ (children.mapAttrs targeted).decode (next.mapAttrs targeted).decode
      = Forest.element name _ (addTarget children.decode) (addTarget next.decode)
    rw [ihc, ihn, hattrs]

/-- The tree of the new tree's serialisation. -/
theorem parse_serialize_addTarget {tree : Forest} (h : Cleaned articleOptions tree) :
    parse (serialize e (addTarget tree)) = addTarget (parse (serialize e tree)) := by
  have hnamed := cleaned_named h
  unfold parse
  rw [tokenize_serialize (addTarget_named hnamed), tokenize_serialize hnamed, tokens_addTarget h,
    ← decode_addTarget, ← build_mapAttrs]
  rfl

/-! ## A match in a value -/

/-- A name that holds a double quote. -/
def Dirty (name : Text) : Prop := '"' ∈ name

/-- A list of start tags that is not the `n` tags of a cleaned tree: one of them
has a dirty attribute name, or some are missing. -/
def Broken (n : Nat) (tags : List (Text × List Attr)) : Prop :=
  tags.length < n ∨ ∃ o ∈ tags, ∃ a ∈ o.2, Dirty a.1

/-- What is wrong with a list of tags is wrong at a later place of a longer one. -/
theorem broken_append {n : Nat} {tags : List (Text × List Attr)} (h : Broken n tags)
    (before : List (Text × List Attr)) : Broken (before.length + n) (before ++ tags) := by
  rcases h with hlen | ⟨o, ho, hdirty⟩
  · exact .inl (by rw [List.length_append]; omega)
  · exact .inr ⟨o, List.mem_append_right _ ho, hdirty⟩

/-- A place that is wrong is wrong for every later bound. -/
theorem broken_mono {n m : Nat} {tags : List (Text × List Attr)} (h : Broken n tags) (hm : n ≤ m) :
    Broken m tags := by
  rcases h with hlen | hdirty
  · exact .inl (by omega)
  · exact .inr hdirty

/-- The inserted text closes the value it lands in, and leaves the tokenizer
behind an attribute name with a quote in it. -/
theorem run_anchorBlank (tag : Tag) (name value rest : Text) :
    run (.quotedValue '"' tag name value) (anchorBlank ++ rest)
      = run (.afterAttrName (tag.add (name, value ++ "<a target=".toList)) "_blank\"".toList)
          rest := by
  have hshape : anchorBlank ++ rest
      = "<a target=".toList
          ++ ('"' :: '_' :: 'b' :: 'l' :: 'a' :: 'n' :: 'k' :: '"' :: ' ' :: rest) := rfl
  rw [hshape, run_quotedValue (by decide)]
  rfl

/-- Attributes among whose values there is a match: the tag ends with a dirty
name, or not at all. -/
theorem run_replace_attrs {attrs : List Attr} (hnames : ∀ a ∈ attrs, isAttrName a.1 = true)
    (hhit : ∃ a ∈ attrs, occurs anchorOpen (e.write a.2) = true) {tag : Tag}
    (hstart : tag.isEnd = false) (rest : Text) :
    Broken 1 (startTags (run (.beforeAttrName tag)
      (replaceAll anchorOpen anchorBlank (renderAttrs (attrs.map (escaped e)) ++ rest)))) := by
  induction attrs generalizing tag with
  | nil =>
    obtain ⟨a, ha, -⟩ := hhit
    cases ha
  | cons a as ih =>
    have hname := hnames a List.mem_cons_self
    have hshape : renderAttrs ((a :: as).map (escaped e)) ++ rest
        = renderAttr (escaped e a) ++ (renderAttrs (as.map (escaped e)) ++ rest) := by
      simp [renderAttrs]
    rw [hshape]
    by_cases ha : occurs anchorOpen (e.write a.2) = true
    · -- The first match: its value ends at the inserted quote.
      obtain ⟨before, matched, after, hvalue, hcut⟩ := replaceAll_cut seals_quote ha
        (renderAttrs (as.map (escaped e)) ++ rest)
      have hquote : '"' ∉ before := by
        intro hmem
        refine e.unquoted a.2 ?_
        rw [hvalue]
        exact List.mem_append_left _ (List.mem_append_left _ hmem)
      have hopen : renderAttr (escaped e a) ++ (renderAttrs (as.map (escaped e)) ++ rest)
          = ' ' :: (a.1 ++ '=' :: '"' ::
              (e.write a.2 ++ '"' :: (renderAttrs (as.map (escaped e)) ++ rest))) := by
        simp [renderAttr, escaped]
      rw [hopen, replace_attr_open hname, hcut, run_attr_open hname, List.append_assoc,
        run_quotedValue hquote, run_anchorBlank]
      have hcarries : (State.afterAttrName (tag.add (a.1, [] ++ before ++ "<a target=".toList))
          "_blank\"".toList).Carries Dirty := by
        refine ⟨hstart, ("_blank\"".toList, []), ?_, by unfold Dirty; decide⟩
        exact List.mem_append_right _ (List.mem_singleton_self _)
      rcases run_carries hcarries _ with hlost | hdirty
      · exact .inl (by rw [hlost]; exact Nat.zero_lt_one)
      · exact .inr hdirty
    · -- This attribute is read as it stands; the match is in a later one.
      have hfree : occurs anchorOpen (e.write a.2) = false := Bool.eq_false_iff.mpr ha
      have hlater : ∃ b ∈ as, occurs anchorOpen (e.write b.2) = true := by
        obtain ⟨b, hb, hocc⟩ := hhit
        rcases List.mem_cons.mp hb with rfl | hmem
        · exact absurd hocc ha
        · exact ⟨b, hmem, hocc⟩
      rw [replace_attr hname hfree, run_attr (a := escaped e a) hname (e.unquoted a.2)]
      exact ih (fun b hb => hnames b (List.mem_cons_of_mem _ hb)) hlater hstart

/-- A tag with attributes is read up to the first of them, the forced one
included. -/
theorem run_forced (name : Text) {attrs : List Attr} (hne : attrs ≠ []) (rest : Text) :
    ∃ tag : Tag, tag.isEnd = false ∧
      run (.tagName ⟨false, name, []⟩)
          (forced name ++ replaceAll anchorOpen anchorBlank (renderAttrs attrs ++ rest))
        = run (.beforeAttrName tag)
          (replaceAll anchorOpen anchorBlank (renderAttrs attrs ++ rest)) := by
  unfold forced
  split
  next =>
    refine ⟨Tag.add ⟨false, name, []⟩ blankTarget, rfl, ?_⟩
    rw [← run_attr (a := blankTarget) (by decide) (by decide)]
    rfl
  next =>
    obtain ⟨a, as, rfl⟩ := List.exists_cons_of_ne_nil hne
    exact ⟨⟨false, name, []⟩, rfl, rfl⟩

/-- The attributes of a targeted tag can be written: their names are names, and no value has a
quote. -/
theorem targeted_quote {name : Text} {attrs : List Attr}
    (h : ∀ a ∈ attrs, isAttrName a.1 = true) :
    ∀ a ∈ (targeted name attrs).map (escaped e), isAttrName a.1 = true ∧ '"' ∉ a.2 := by
  intro a ha
  obtain ⟨b, hb, rfl⟩ := List.mem_map.mp ha
  exact ⟨targeted_named h b hb, e.unquoted b.2⟩

/-- An element has its own start tag, then those of its children, then those of
its later siblings. -/
theorem startTags_element (name : Text) (attrs : List Attr) (children next : Forest) :
    (startTags ((Forest.element name attrs children next).escape e).tokens).length
      = 1 + ((startTags
            (if isVoid name then [] else (children.escape e).tokens ++ [.endTag name])).length
        + (startTags (next.escape e).tokens).length) := by
  show (startTags (.startTag name _ :: (_ ++ (next.escape e).tokens))).length = _
  rw [startTags_startTag, List.length_cons, startTags_append, List.length_append, Nat.add_comm]
  rfl

/-- A tag with a match in a value is not read back as it was. -/
theorem replace_broken_tag {name : Text} {attrs : List Attr} (htag : name ∈ articleOptions.tags)
    (hnames : ∀ a ∈ attrs, isAttrName a.1 = true)
    (hvalues : ¬ ∀ a ∈ attrs, occurs anchorOpen (e.write a.2) = false) (rest : Text) :
    Broken 1 (startTags (run .data (replaceAll anchorOpen anchorBlank
      ('<' :: (name ++ renderAttrs (attrs.map (escaped e)) ++ rest))))) := by
  have hhit : ∃ a ∈ attrs, occurs anchorOpen (e.write a.2) = true := by
    rw [not_forall] at hvalues
    obtain ⟨a, ha⟩ := hvalues
    rw [Classical.not_imp, Bool.not_eq_false] at ha
    exact ⟨a, ha.1, ha.2⟩
  have hne : attrs.map (escaped e) ≠ [] := by
    intro hnil
    obtain ⟨a, ha, -⟩ := hhit
    rw [List.map_eq_nil_iff.mp hnil] at ha
    cases ha
  rw [List.append_assoc, replace_opening htag (fun _ => hne),
    (run_tagOpen (allowedTags_named htag).1 _).1]
  obtain ⟨tag, hstart, hrun⟩ := run_forced name hne _
  rw [hrun]
  exact run_replace_attrs hnames hhit hstart _

/-- **With a match in a value, the start tags are not those of the tree.** -/
theorem replace_broken {tree : Forest} (h : Cleaned articleOptions tree)
    (hhit : ¬ AnchorFree e tree) (rest : Text) :
    Broken (startTags (tree.escape e).tokens).length (startTags (run .data
      (replaceAll anchorOpen anchorBlank ((tree.escape e).render ++ rest)))) := by
  induction tree generalizing rest with
  | nil => exact absurd trivial hhit
  | text data next ih =>
    show Broken (startTags ((escapeText data).map .char ++ (next.escape e).tokens)).length
      (startTags (run .data (replaceAll anchorOpen anchorBlank
        ((escapeText data ++ (next.escape e).render) ++ rest))))
    rw [List.append_assoc, replace_plain (lt_not_mem_escapeText data),
      run_text (lt_not_mem_escapeText data), startTags_append, startTags_append, startTags_chars]
    exact ih h hhit rest
  | element name attrs children next ihc ihn =>
    obtain ⟨htag, hattrs, hrel, hvoid, hchildren, hnext⟩ := h
    have hname := (allowedTags_named htag).1
    have hnames : ∀ a ∈ attrs, isAttrName a.1 = true := fun a ha => (allows_named (hattrs a ha)).1
    rw [startTags_element, render_element]
    by_cases hvalues : ∀ a ∈ attrs, occurs anchorOpen (e.write a.2) = false
    · -- This tag is as it should be; the match is further on.
      rw [replace_startTag htag hattrs hrel hvalues, run_startTag hname (targeted_quote hnames),
        startTags_startTag]
      refine broken_append ?_ [_]
      by_cases hv : isVoid name = true
      · have hleft : ¬ AnchorFree e next := by
          intro hfree
          exact hhit ⟨hvalues, hvoid hv ▸ trivial, hfree⟩
        rw [if_pos hv, if_pos hv]
        exact broken_mono (ihn hnext hleft rest) (Nat.le_add_left ..)
      · rw [if_neg hv, if_neg hv]
        by_cases hfree : AnchorFree e children
        · have hleft : ¬ AnchorFree e next := fun hn => hhit ⟨hvalues, hfree, hn⟩
          have hmarkup : ((addTarget children).escape e).Markup :=
            Forest.markup_escape (addTarget_named (cleaned_named hchildren))
          rw [replace_serialize hchildren hfree, run_render hmarkup, replace_endTag htag,
            run_endTag hname, startTags_append, startTags_endTag, startTags_append,
            tokens_addTarget hchildren, startTags_mapAttrs]
          refine broken_mono (broken_append (ihn hnext hleft rest) _) ?_
          simp [startTags]
        · -- Whatever the children leave open, theirs are too few or dirty already.
          refine broken_mono (ihc hchildren hfree _) ?_
          rw [startTags_append, List.length_append]
          omega
    · exact broken_mono (replace_broken_tag htag hnames hvalues _) (Nat.le_add_right ..)

/-! ## The whole fragment -/

section Sanitize

variable {clean : CleanOptions → Text → Text} {html : Text} {tree : Forest}

/-- What `sanitize_article_html` does with a text that is not empty. -/
theorem sanitizeArticleHtml_some (hhtml : html ≠ [])
    (hclean : clean articleOptions (downgradeH1 html) = serialize e tree) :
    sanitizeArticleHtml clean (some html)
      = replaceAll anchorOpen anchorBlank ((tree.escape e).render ++ []) := by
  rw [List.append_nil]
  cases html with
  | nil => exact absurd rfl hhtml
  | cons c cs => exact congrArg _ hclean

/-- The stored HTML of a fragment whose values hold no anchor opening. -/
theorem sanitize_eq_serialize (hhtml : html ≠ [])
    (hclean : clean articleOptions (downgradeH1 html) = serialize e tree)
    (htree : Cleaned articleOptions tree) (hfree : AnchorFree e tree) :
    sanitizeArticleHtml clean (some html) = serialize e (addTarget tree) := by
  rw [sanitizeArticleHtml_some hhtml hclean, replace_serialize htree hfree, replaceAll_nil,
    List.append_nil]
  rfl

/-- A tree none of whose attribute names is dirty. -/
theorem not_broken_of_openings {text : Text} (htree : Cleaned articleOptions tree)
    (h : parse text = addTarget (parse (serialize e tree))) :
    ¬ Broken (startTags (tree.escape e).tokens).length (startTags (tokenize text)) := by
  -- compare the start tags of both sides: as many, and with the same attributes
  have hopen := congrArg Forest.openings h
  unfold addTarget at hopen
  rw [Forest.openings_mapAttrs, openings_parse, openings_parse,
    tokenize_serialize (cleaned_named htree)] at hopen
  intro hbroken
  rcases hbroken with hlen | ⟨o, ho, a, ha, hdirty⟩
  · have hlens := congrArg List.length hopen
    simp only [List.length_map] at hlens
    omega
  · have hmem := List.mem_map_of_mem (f := fun o : Text × List Attr =>
      (o.1, o.2.map fun a => (a.1, decode a.2))) ho
    rw [hopen] at hmem
    obtain ⟨p, hp, heq⟩ := List.mem_map.mp hmem
    obtain ⟨q, hq, rfl⟩ := List.mem_map.mp hp
    have hattrs : targeted q.1 (q.2.map fun a => (a.1, decode a.2))
        = o.2.map fun a => (a.1, decode a.2) := congrArg Prod.snd heq
    -- every name on the clean side is a name, and a quotation mark is in none
    have hclean : ∀ b ∈ targeted q.1 (q.2.map fun a => (a.1, decode a.2)),
        isAttrName b.1 = true := by
      refine targeted_named fun b hb => ?_
      obtain ⟨d, hd, rfl⟩ := List.mem_map.mp hb
      exact Forest.startTags_tokens_named (Forest.markup_escape (cleaned_named htree)) q hq d hd
    rw [hattrs] at hclean
    have hname := hclean (a.1, decode a.2)
      (List.mem_map_of_mem (f := fun a : Attr => (a.1, decode a.2)) ha)
    have hall := (Bool.and_eq_true_iff.mp hname).1
    exact (nameChar_plain (List.all_eq_true.mp hall '"' hdirty)).2.2.2.2.1 rfl

/-- **The stored HTML is the cleaned tree with a target on every anchor, and
nothing else changed, exactly when no attribute value reads `<a` and white
space.** -/
theorem anchor_target_iff (hhtml : html ≠ [])
    (hclean : clean articleOptions (downgradeH1 html) = serialize e tree)
    (htree : Cleaned articleOptions tree) :
    parse (sanitizeArticleHtml clean (some html)) = addTarget (parse (serialize e tree)) ↔
      AnchorFree e tree := by
  constructor
  · intro hparse
    refine Classical.byContradiction fun hhit => not_broken_of_openings htree hparse ?_
    rw [sanitizeArticleHtml_some hhtml hclean]
    exact replace_broken htree hhit []
  · intro hfree
    rw [sanitize_eq_serialize hhtml hclean htree hfree, parse_serialize_addTarget htree]

/-- Strictly escaped, no value has a match: it holds no `<`. -/
theorem anchorFree_strict (tree : Forest) : AnchorFree .strict tree := by
  induction tree with
  | nil => trivial
  | text _ next ih => exact ih
  | element name attrs children next ihc ihn =>
    refine ⟨fun a _ => Bool.eq_false_iff.mpr fun hocc => ?_, ihc, ihn⟩
    have hlt : ∀ c ∈ escapeStrict a.2, (c == '<') = false := fun c hc =>
      beq_false_of_ne fun heq => lt_not_mem_escapeStrict a.2 (heq ▸ hc)
    have hocc : occurs anchorOpen (escapeStrict a.2 ++ []) = true := by
      rw [List.append_nil]
      exact hocc
    have hnone : occurs anchorOpen [] = true := occurs_of_first hlt hocc
    cases hnone

/-- **Under the strict escaping the substitution does what it is meant to do**, to every
cleaned tree. -/
theorem strict_anchor_target (hhtml : html ≠ [])
    (hclean : clean articleOptions (downgradeH1 html) = serialize .strict tree)
    (htree : Cleaned articleOptions tree) :
    parse (sanitizeArticleHtml clean (some html)) = addTarget (parse (serialize .strict tree)) := by
  have hstored := sanitize_eq_serialize hhtml hclean htree (anchorFree_strict tree)
  rw [hstored, parse_serialize_addTarget htree]

/-- A browser that reads what is stored finds the cleaned tree itself, with its targets, if
the cleaner answers with a tree as a parser leaves it. -/
theorem strict_anchor_tree (hhtml : html ≠ [])
    (hclean : clean articleOptions (downgradeH1 html) = serialize .strict tree)
    (htree : Cleaned articleOptions tree) (hnormal : tree.Normal) :
    parse (sanitizeArticleHtml clean (some html)) = addTarget tree := by
  rw [strict_anchor_target hhtml hclean htree, parse_serialize (cleaned_named htree) hnormal]

end Sanitize

/-- A paragraph with a link, as an editor writes it, and the tree `nh3` makes of
it. -/
def linkHtml : Text := "<p>See <a href=\"https://x.com\">x</a></p>".toList

/-- The tree of that paragraph after cleaning: the link has its `rel`. -/
def linkTree : Forest :=
  .element "p".toList [] (.text "See ".toList (.element "a".toList
    [("href".toList, "https://x.com".toList),
      ("rel".toList, "nofollow noopener noreferrer".toList)] (.text "x".toList .nil) .nil)) .nil

theorem link_gains_target :
    parse (sanitizeArticleHtml (fun _ _ => serialize .classic linkTree) (some linkHtml))
      = addTarget (parse (serialize .classic linkTree)) :=
  (anchor_target_iff (by decide) rfl (by decide)).mpr (by decide)

/-- A class attribute under the classic escaping: the tag and the attribute are allowed,
and the `<script>` is only part of a value. -/
def breakoutHtml : Text := "<p class=\"<a ><script>alert(1)</script>\">x</p>".toList

/-- The tree of that paragraph: the tag is part of a value. -/
def breakoutTree : Forest :=
  .element "p".toList [("class".toList, "<a ><script>alert(1)</script>".toList)]
    (.text "x".toList .nil) .nil

/-- The substitution closes the value in the middle, and what is stored has a
`script` element. -/
theorem class_value_breaks_out :
    breakoutHtml ≠ [] ∧ downgradeH1 breakoutHtml = serialize .classic breakoutTree ∧
      Cleaned articleOptions breakoutTree ∧
      parse (sanitizeArticleHtml (fun _ t => t) (some breakoutHtml))
        ≠ addTarget (parse (serialize .classic breakoutTree)) ∧
      ("script".toList, [])
        ∈ (parse (sanitizeArticleHtml (fun _ t => t) (some breakoutHtml))).openings := by
  decide +kernel

end SarkariWorld.Content
