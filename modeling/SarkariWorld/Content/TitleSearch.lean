import Mathlib
import SarkariWorld.Content.Listing

/-!
# A piece of a title

"Mirror the `title_normalized` column expression so comparisons line up." The column
puts a blank for each run of other characters and leaves the blanks of the title; the
query is lowered first, and its blanks are collapsed afterwards. `normalise_query_iff`
says on which pieces of a title the two agree: between its first and its last letter or
digit a blank stands alone, and no character turns into an ASCII letter when it is
lowered.

Only ASCII letters and digits count as letters and digits on both sides; the letters of
other scripts separate words like punctuation. Lowering is a parameter that works
character by character, so that what it does to such a letter can be named in the
condition: the Kelvin sign, for one, becomes a `k`.

The two expressions are compiled by different engines, a generated column of Postgres and
Python's `re`. Both are read as what their documentation says of these patterns. The
column replaces first and lowers afterwards, so that its `lower` only ever meets ASCII;
the query's meets whatever was typed.
-/

namespace SarkariWorld.Content

open SarkariWorld.Lib

/-- `[^a-zA-Z0-9 ]`, on one character. -/
def notInTitle (c : Char) : Bool := !(c.isLower || c.isUpper || c.isDigit || c == ' ')

/-- `title_normalized`. -/
def titleNormalized (title : Text) : Text := (blankRuns notInTitle false title).map Char.toLower

/-- `[a-z0-9]`. -/
def isWord (c : Char) : Bool := c.isLower || c.isDigit

/-- The characters between two words. -/
def notWord (c : Char) : Bool := !isWord c

/-- Neither an ASCII letter nor a digit. -/
def separates (c : Char) : Bool := !(c.isLower || c.isUpper || c.isDigit)

/-- A character, or a blank for one that is in no word. -/
def blank (c : Char) : Char := if isWord c then c else ' '

/-- `str.lower` goes by single characters, as far as ASCII letters and digits are
concerned; the one rule that looks further is about the two small sigmas. -/
structure LowersByCharacter (lower : Text → Text) : Prop where
  ascii : ∀ c : Char, separates c = false → lower [c] = [c.toLower]
  nonempty : ∀ c, lower [c] ≠ []
  pieces : ∀ t, (lower t).map blank = t.flatMap fun c => (lower [c]).map blank

/-- A blank does not stand next to another separator. -/
def StandsAlone (c d : Char) : Prop :=
  separates c = true → separates d = true → c ≠ ' ' ∧ d ≠ ' '

instance (c d : Char) : Decidable (StandsAlone c d) := inferInstanceAs (Decidable (_ → _ → _ ∧ _))

/-- The two normal forms line up on this text. -/
structure LinesUp (env : Env) (q : Text) : Prop where
  /-- No separator is lowered to an ASCII letter or a digit. -/
  lowered : ∀ c ∈ q, separates c = true → ∀ d ∈ env.lower [c], isWord d = false
  blanks : (trim separates q).IsChain StandsAlone

/-- The condition on lowering, as it is evaluated and as it is read. -/
theorem lowered_iff {env : Env} {q : Text} :
    (q.all fun c => !separates c || (env.lower [c]).all fun d => !isWord d) = true ↔
      ∀ c ∈ q, separates c = true → ∀ d ∈ env.lower [c], isWord d = false := by
  simp only [List.all_eq_true, Bool.or_eq_true, Bool.not_eq_true', ← Bool.not_eq_true,
    imp_iff_not_or]

instance (env : Env) (q : Text) : Decidable (LinesUp env q) :=
  decidable_of_iff
    ((q.all fun c => !separates c || (env.lower [c]).all fun d => !isWord d) = true ∧
      (trim separates q).IsChain StandsAlone)
    ⟨fun h => ⟨lowered_iff.mp h.1, h.2⟩, fun h => ⟨lowered_iff.mpr h.lowered, h.blanks⟩⟩

/-! ## Characters -/

theorem code_of_isWord {c : Char} (h : isWord c = true) :
    97 ≤ c.toNat ∧ c.toNat ≤ 122 ∨ 48 ≤ c.toNat ∧ c.toNat ≤ 57 := by
  obtain hlower | hdigit := Bool.or_eq_true_iff.mp h
  · obtain ⟨hfirst, hlast⟩ := Bool.and_eq_true_iff.mp hlower
    exact .inl ⟨of_decide_eq_true hfirst, of_decide_eq_true hlast⟩
  · obtain ⟨hfirst, hlast⟩ := Bool.and_eq_true_iff.mp hdigit
    exact .inr ⟨of_decide_eq_true hfirst, of_decide_eq_true hlast⟩

theorem isSpace_of_isWord {c : Char} (h : isWord c = true) : isSpace c = false := by
  have hcode := code_of_isWord h
  simp only [isSpace, Bool.or_eq_false_iff, Bool.and_eq_false_iff, decide_eq_false_iff_not,
    beq_eq_false_iff_ne]
  omega

theorem isDigit_false_of_isAlpha {c : Char} (h : c.isAlpha = true) : c.isDigit = false := by
  refine Bool.eq_false_iff.mpr fun hdigit => ?_
  obtain ⟨-, hlast⟩ := Bool.and_eq_true_iff.mp hdigit
  have hcode : c.toNat ≤ 57 := of_decide_eq_true hlast
  obtain hupper | hlower := Bool.or_eq_true_iff.mp h
  · have hfirst : 65 ≤ c.toNat := (of_decide_eq_true hupper).1
    omega
  · obtain ⟨hfirst, -⟩ := Bool.and_eq_true_iff.mp hlower
    have : 97 ≤ c.toNat := of_decide_eq_true hfirst
    omega

/-- The words of a title are its letters and digits in lower case. -/
theorem notWord_of_isWord {c : Char} (h : isWord c = true) : notWord c = false := by
  rw [notWord, h]
  rfl

theorem notWord_of_not {c : Char} (h : isWord c = false) : notWord c = true := by
  rw [notWord, h]
  rfl

/-- Lowered, the characters that do not separate are those of words. -/
theorem isWord_toLower {c : Char} : isWord c.toLower = !separates c := by
  have hdigit : c.toLower.isDigit = c.isDigit := by
    by_cases hupper : c.isUpper = true
    · have halpha : c.isAlpha = true := by rw [Char.isAlpha, hupper, Bool.true_or]
      rw [isDigit_false_of_isAlpha halpha, isDigit_false_of_isAlpha]
      rw [Char.isAlpha_toLower_eq_isAlpha, halpha]
    · rw [Char.toLower_eq_of_not_isUpper hupper]
  rw [isWord, separates, Char.isLower_toLower_eq_isAlpha, hdigit, Char.isAlpha, Bool.not_not,
    Bool.or_comm c.isUpper]

/-- A character that does not separate is one of a word once it is lowered. -/
theorem isWord_toLower_of {c : Char} (h : separates c = false) : isWord c.toLower = true := by
  rw [isWord_toLower, h]
  rfl

/-- The column replaces what separates, but for the blanks. -/
theorem notInTitle_eq {c : Char} : notInTitle c = (separates c && c != ' ') := by
  rw [notInTitle, separates, Bool.not_or]
  rfl

/-! ## Runs -/

variable {p : Char → Bool} {b : Bool} {s t : Text} {c : Char}

theorem blankRuns_keep (h : p c = false) : blankRuns p b (c :: t) = c :: blankRuns p false t := by
  rw [blankRuns, h]
  rfl

theorem blankRuns_skip (h : p c = true) : blankRuns p true (c :: t) = blankRuns p true t := by
  rw [blankRuns, if_pos h, if_pos rfl]

theorem blankRuns_write (h : p c = true) :
    blankRuns p false (c :: t) = ' ' :: blankRuns p true t := by
  rw [blankRuns, if_pos h]
  rfl

/-- A text that begins with a character that is kept does not care what was before. -/
theorem blankRuns_flag (hhead : ∀ c ∈ t.head?, p c = false) (hne : t ≠ []) :
    blankRuns p b t = blankRuns p false t := by
  cases t with
  | nil => exact absurd rfl hne
  | cons c t => rw [blankRuns_keep (hhead c rfl), blankRuns_keep (hhead c rfl)]

/-- After a character that is kept nothing of the text before matters. -/
theorem blankRuns_append (hlast : ∀ c ∈ s.getLast?, p c = false) (hne : s ≠ []) :
    blankRuns p b (s ++ t) = blankRuns p b s ++ blankRuns p false t := by
  induction s generalizing b with
  | nil => exact absurd rfl hne
  | cons c s ih =>
    cases s with
    | nil =>
      have hkeep := hlast c rfl
      rw [List.singleton_append, blankRuns_keep hkeep, blankRuns_keep hkeep]
      rfl
    | cons d s =>
      have hrest := fun b => @ih b (fun x hx => hlast x hx) (List.cons_ne_nil _ _)
      cases hc : p c with
      | false =>
        rw [List.cons_append, blankRuns_keep hc, blankRuns_keep hc, hrest, List.cons_append]
      | true =>
        cases b with
        | false => rw [List.cons_append, blankRuns_write hc, blankRuns_write hc, hrest,
          List.cons_append]
        | true => rw [List.cons_append, blankRuns_skip hc, blankRuns_skip hc, hrest]

/-- The same for a character that is kept at the beginning of the second text. -/
theorem blankRuns_before (hhead : ∀ c ∈ t.head?, p c = false) (hne : t ≠ []) :
    blankRuns p b (s ++ t) = blankRuns p b s ++ blankRuns p false t := by
  induction s generalizing b with
  | nil => exact blankRuns_flag hhead hne
  | cons c s ih =>
    cases hc : p c with
    | false => rw [List.cons_append, blankRuns_keep hc, blankRuns_keep hc, ih, List.cons_append]
    | true =>
      cases b with
      | false => rw [List.cons_append, blankRuns_write hc, blankRuns_write hc, ih, List.cons_append]
      | true => rw [List.cons_append, blankRuns_skip hc, blankRuns_skip hc, ih]

/-- Two passes are one: the first leaves blanks for the second, and the second runs. -/
theorem blankRuns_twice {inRun : Bool} (h : inRun = true → b = true) :
    blankRuns isSpace b (blankRuns nonAlnum inRun t) = blankRuns notWord b t := by
  induction t generalizing b inRun with
  | nil => rfl
  | cons c t ih =>
    have hspace : isSpace ' ' = true := rfl
    cases hword : isWord c with
    | true =>
      -- a letter or digit is kept by both passes
      have hkeep : nonAlnum c = false := by
        rw [nonAlnum, ← isWord, hword]
        rfl
      have hnot := notWord_of_isWord hword
      rw [blankRuns_keep hkeep, blankRuns_keep (isSpace_of_isWord hword), blankRuns_keep hnot,
        ih fun hrun : false = true => (nomatch hrun)]
    | false =>
      have hnot := notWord_of_not hword
      by_cases hblank : c = ' '
      · subst hblank
        -- a blank is not special to the first pass; the second merges it into its run
        have hkeep : nonAlnum ' ' = false := rfl
        rw [blankRuns_keep hkeep]
        cases b with
        | false => rw [blankRuns_write hspace, blankRuns_write hnot, ih fun _ => rfl]
        | true => rw [blankRuns_skip hspace, blankRuns_skip hnot, ih fun _ => rfl]
      · have hother : nonAlnum c = true := by
          rw [nonAlnum, ← isWord, hword, beq_eq_false_iff_ne.mpr hblank]
          rfl
        cases b with
        | true =>
          rw [blankRuns_skip hnot]
          cases inRun with
          | true => rw [blankRuns_skip hother, ih fun _ => rfl]
          | false => rw [blankRuns_write hother, blankRuns_skip hspace, ih fun _ => rfl]
        | false =>
          cases inRun with
          | true => cases h rfl
          | false =>
            rw [blankRuns_write hother, blankRuns_write hspace, blankRuns_write hnot,
              ih fun _ => rfl]

/-- What is written is kept, or is a blank. -/
theorem mem_blankRuns {x : Char} (h : x ∈ blankRuns p b t) : x = ' ' ∨ x ∈ t ∧ p x = false := by
  induction t generalizing b with
  | nil => cases h
  | cons c t ih =>
    have hrest : ∀ b, x ∈ blankRuns p b t → x = ' ' ∨ x ∈ c :: t ∧ p x = false := by
      intro b hx
      exact (ih hx).imp_right fun hx => ⟨List.mem_cons_of_mem c hx.1, hx.2⟩
    cases hc : p c with
    | false =>
      rw [blankRuns_keep hc] at h
      obtain rfl | h := List.mem_cons.mp h
      · exact .inr ⟨List.mem_cons_self, hc⟩
      · exact hrest _ h
    | true =>
      cases b with
      | false =>
        rw [blankRuns_write hc] at h
        obtain rfl | h := List.mem_cons.mp h
        · exact .inl rfl
        · exact hrest _ h
      | true =>
        rw [blankRuns_skip hc] at h
        exact hrest _ h

/-! ## Lower case -/

variable {env : Env} {q : Text}

theorem isWord_blank {c : Char} : isWord (blank c) = isWord c := by
  unfold blank
  split
  · rfl
  next h => rw [Bool.not_eq_true] at h; rw [h]; rfl

theorem blankRuns_blank : blankRuns notWord b (t.map blank) = blankRuns notWord b t := by
  induction t generalizing b with
  | nil => rfl
  | cons c t ih =>
    rw [List.map_cons]
    cases hword : isWord c with
    | true =>
      have hnot := notWord_of_isWord hword
      have hsame : blank c = c := if_pos hword
      rw [hsame, blankRuns_keep hnot, blankRuns_keep hnot, ih]
    | false =>
      have hnot := notWord_of_not hword
      have hnot' := notWord_of_not (isWord_blank.trans hword)
      cases b with
      | false => rw [blankRuns_write hnot, blankRuns_write hnot', ih]
      | true => rw [blankRuns_skip hnot, blankRuns_skip hnot', ih]

/-- A run that goes on. -/
theorem blankRuns_run (hs : ∀ c ∈ s, p c = true) :
    blankRuns p true (s ++ t) = blankRuns p true t := by
  induction s with
  | nil => rfl
  | cons c s ih =>
    rw [List.cons_append, blankRuns_skip (hs c List.mem_cons_self),
      ih fun d hd => hs d (List.mem_cons_of_mem c hd)]

/-- The words of a query, if none of them comes from a separator. -/
theorem blankRuns_lower (hlower : LowersByCharacter env.lower)
    (hsep : ∀ c ∈ q, separates c = true → ∀ d ∈ env.lower [c], isWord d = false) :
    blankRuns notWord b (q.flatMap fun c => (env.lower [c]).map blank) =
      (blankRuns separates b q).map Char.toLower := by
  induction q generalizing b with
  | nil => rfl
  | cons c q ih =>
    have hrest := fun b => @ih b fun d hd => hsep d (List.mem_cons_of_mem c hd)
    rw [List.flatMap_cons]
    cases hc : separates c with
    | false =>
      have hword := isWord_toLower_of hc
      have hnot := notWord_of_isWord hword
      have hsame : blank c.toLower = c.toLower := if_pos hword
      rw [hlower.ascii c hc, List.map_singleton, List.singleton_append, hsame,
        blankRuns_keep hnot, blankRuns_keep hc, hrest, List.map_cons]
    | true =>
      have hnone := hsep c List.mem_cons_self hc
      -- what separates becomes a run of separators
      have hblanks : ∀ d ∈ (env.lower [c]).map blank, notWord d = true := by
        intro d hd
        obtain ⟨e, he, rfl⟩ := List.mem_map.mp hd
        rw [notWord, isWord_blank, hnone e he]
        rfl
      obtain ⟨d, ds, hd⟩ := List.exists_cons_of_ne_nil (hlower.nonempty c)
      rw [hd, List.map_cons] at hblanks ⊢
      have hfirst := hblanks _ List.mem_cons_self
      have hrun := fun x hx => hblanks x (List.mem_cons_of_mem _ hx)
      cases b with
      | false =>
        rw [List.cons_append, blankRuns_write hfirst, blankRuns_run hrun, blankRuns_write hc, hrest,
          List.map_cons]
        rfl
      | true => rw [List.cons_append, blankRuns_skip hfirst, blankRuns_run hrun, blankRuns_skip hc,
        hrest]

/-- The query, as one pass over the lowered characters and a strip. -/
theorem normaliseQuery_eq (hlower : LowersByCharacter env.lower) :
    normaliseQuery env q =
      strip (blankRuns notWord false (q.flatMap fun c => (env.lower [c]).map blank)) := by
  rw [normaliseQuery, blankRuns_twice fun h : false = true => (nomatch h), ← hlower.pieces,
    blankRuns_blank]

/-! ## Between the first and the last letter or digit -/

/-- A class of separators: blanks may be left to themselves. -/
structure Separating (p : Char → Bool) : Prop where
  keeps : ∀ c, separates c = false → p c = false
  blanks : ∀ c, separates c = true → p c = false → c = ' '

/-- What separates two words is a separating test, by definition. -/
theorem separating_separates : Separating separates :=
  ⟨fun _ h => h, fun c h hnot => absurd h (by rw [hnot]; decide)⟩

theorem separating_notInTitle : Separating notInTitle := by
  refine ⟨fun c h => ?_, fun c h hnot => ?_⟩
  · rw [notInTitle_eq, h]
    rfl
  · rw [notInTitle_eq, h, Bool.true_and] at hnot
    exact bne_eq_false_iff_eq.mp hnot

/-- Runs of separators are written as blanks. -/
theorem blankRuns_separators (hp : Separating p) (hs : ∀ c ∈ s, separates c = true) :
    ∀ x ∈ blankRuns p b s, x = ' ' := by
  intro x hx
  obtain rfl | ⟨hmem, hkept⟩ := mem_blankRuns hx
  · rfl
  · exact hp.blanks x (hs x hmem) hkept

/-- What surrounds a stretch from one letter or digit to another does not matter. -/
theorem blankRuns_stretch (hp : Separating p) {before after middle : Text} (hne : middle ≠ [])
    (hhead : ∀ c ∈ middle.head?, separates c = false)
    (hlast : ∀ c ∈ middle.getLast?, separates c = false) :
    blankRuns p false (before ++ middle ++ after) =
      blankRuns p false before ++ blankRuns p false middle ++ blankRuns p false after := by
  have hlast' : ∀ c ∈ (before ++ middle).getLast?, p c = false := by
    intro c hc
    rw [List.getLast?_append_of_ne_nil _ hne] at hc
    exact hp.keeps c (hlast c hc)
  rw [blankRuns_append hlast' (List.append_ne_nil_of_right_ne_nil _ hne),
    blankRuns_before (fun c hc => hp.keeps c (hhead c hc)) hne]

/-- If the text begins inside a word, so does the result. -/
theorem blankRuns_head (hp : Separating p) {middle : Text}
    (hhead : ∀ c ∈ middle.head?, separates c = false) :
    (blankRuns p false middle).head? = middle.head? := by
  cases middle with
  | nil => rfl
  | cons c middle => rw [blankRuns_keep (hp.keeps c (hhead c rfl))]; rfl

theorem blankRuns_last (hp : Separating p) {middle : Text}
    (hlast : ∀ c ∈ middle.getLast?, separates c = false) :
    (blankRuns p b middle).getLast? = middle.getLast? := by
  induction middle using List.reverseRecOn with
  | nil => rfl
  | append_singleton middle c =>
    rw [List.getLast?_concat] at hlast ⊢
    have hkeep := hp.keeps c (hlast c rfl)
    have hhead : ∀ d ∈ [c].head?, p d = false := by
      intro d hd
      rw [← Option.some.inj hd]
      exact hkeep
    rw [blankRuns_before hhead (List.cons_ne_nil _ _), blankRuns_keep hkeep]
    exact List.getLast?_concat

/-- A character of a word is no blank when it is lowered. -/
theorem isSpace_lowered {c : Char} (h : separates c = false) : isSpace c.toLower = false := by
  refine isSpace_of_isWord ?_
  rw [isWord_toLower, h]
  rfl

/-- So a stretch from a word to a word has nothing to strip. -/
theorem stripped_stretch (hp : Separating p) {middle : Text}
    (hhead : ∀ c ∈ middle.head?, separates c = false)
    (hlast : ∀ c ∈ middle.getLast?, separates c = false) :
    Stripped ((blankRuns p false middle).map Char.toLower) := by
  constructor
  · intro c hc
    rw [List.head?_map, blankRuns_head hp hhead] at hc
    obtain ⟨d, hd, rfl⟩ := Option.map_eq_some_iff.mp hc
    exact isSpace_lowered (hhead d hd)
  · intro c hc
    rw [List.getLast?_map, blankRuns_last hp hlast] at hc
    obtain ⟨d, hd, rfl⟩ := Option.map_eq_some_iff.mp hc
    exact isSpace_lowered (hlast d hd)

/-- The words of a text, in lower case, stripped of the blanks around them. -/
theorem strip_blankRuns (hp : Separating p) (t : Text) :
    strip ((blankRuns p false t).map Char.toLower) =
      (blankRuns p false (trim separates t)).map Char.toLower := by
  obtain ⟨before, after, ht, hsep⟩ := trim_parts separates t
  have hblank : ∀ s, (∀ c ∈ s, separates c = true) →
      ∀ c ∈ (blankRuns p false s).map Char.toLower, isSpace c = true := by
    intro s hs c hc
    obtain ⟨d, hd, rfl⟩ := List.mem_map.mp hc
    rw [blankRuns_separators hp hs d hd]
    rfl
  by_cases hne : trim separates t = []
  · rw [hne] at ht ⊢
    rw [List.append_nil] at ht
    have hall := hblank t (by rw [ht]; exact hsep)
    have hpadded : trim isSpace ((blankRuns p false t).map Char.toLower ++ [] ++ []) =
        trim isSpace [] := trim_padded (by rw [List.append_nil]; exact hall)
    rw [List.append_nil, List.append_nil] at hpadded
    exact hpadded
  -- separators before and after come out as blanks, and those are stripped
  · have hstretch : blankRuns p false t = blankRuns p false before ++
        blankRuns p false (trim separates t) ++ blankRuns p false after := by
      conv_lhs => rw [ht]
      exact blankRuns_stretch hp hne trim_head trim_last
    rw [hstretch, List.map_append, List.map_append]
    refine (trim_padded fun c hc => ?_).trans
      (strip_of_stripped (stripped_stretch hp trim_head trim_last))
    obtain hc | hc := List.mem_append.mp hc
    · exact hblank before (fun d hd => hsep d (List.mem_append_left _ hd)) c hc
    · exact hblank after (fun d hd => hsep d (List.mem_append_right _ hd)) c hc

/-! ## Blanks that stand alone -/

/-- A separator of the title is written unless it continues a run of other characters. -/
theorem blankRuns_notInTitle (h : separates c = true) :
    blankRuns notInTitle b (c :: t) =
      if b = true ∧ notInTitle c = true then blankRuns notInTitle true t
      else ' ' :: blankRuns notInTitle (notInTitle c) t := by
  cases hc : notInTitle c with
  | false =>
    have hblank : c = ' ' := separating_notInTitle.blanks c h hc
    rw [blankRuns_keep hc, if_neg (fun hboth => nomatch hboth.2), hblank]
  | true =>
    cases b with
    | false => rw [blankRuns_write hc, if_neg (fun hboth => nomatch hboth.1)]
    | true => rw [blankRuns_skip hc, if_pos ⟨rfl, rfl⟩]

/-- The two ways of writing runs, after the character `c`: the title's writes no less,
and writes the same only if no blank stands next to another separator. -/
theorem blankRuns_compare (t : Text) (c : Char) :
    let collapsed := blankRuns separates (separates c) t
    let written := blankRuns notInTitle (notInTitle c) t
    collapsed.length ≤ written.length ∧
      (collapsed.length = written.length → (c :: t).IsChain StandsAlone) ∧
      ((c :: t).IsChain StandsAlone → collapsed = written) := by
  induction t generalizing c with
  | nil => exact ⟨Nat.le_refl 0, fun _ => List.isChain_singleton c, fun _ => rfl⟩
  | cons d t ih =>
    obtain ⟨hle, hchain, hsame⟩ := ih d
    -- Where both write a character for `d`, what is left is the comparison after it.
    have hboth : ∀ x, StandsAlone c d →
        (x :: blankRuns separates (separates d) t).length ≤
            (x :: blankRuns notInTitle (notInTitle d) t).length ∧
          ((x :: blankRuns separates (separates d) t).length =
              (x :: blankRuns notInTitle (notInTitle d) t).length →
            (c :: d :: t).IsChain StandsAlone) ∧
          ((c :: d :: t).IsChain StandsAlone →
            x :: blankRuns separates (separates d) t =
              x :: blankRuns notInTitle (notInTitle d) t) := by
      intro x halone
      refine ⟨Nat.succ_le_succ hle, fun hlength => ?_, fun hall => ?_⟩
      · exact List.isChain_cons_cons.mpr ⟨halone, hchain (Nat.succ.inj hlength)⟩
      · exact congrArg (x :: ·) (hsame (List.isChain_cons_cons.mp hall).2)
    intro collapsed written
    cases hd : separates d with
    | false =>
      have hkept := separating_notInTitle.keeps d hd
      have hcollapsed : collapsed = d :: blankRuns separates (separates d) t := by
        rw [hd]
        exact blankRuns_keep hd
      have hwritten : written = d :: blankRuns notInTitle (notInTitle d) t := by
        rw [hkept]
        exact blankRuns_keep hkept
      rw [hcollapsed, hwritten]
      exact hboth d fun _ hsep => by rw [hd] at hsep; cases hsep
    | true =>
      have hwrites := blankRuns_notInTitle (b := notInTitle c) (t := t) hd
      cases hc : separates c with
      | false =>
        have hkept := separating_notInTitle.keeps c hc
        have hcollapsed : collapsed = ' ' :: blankRuns separates (separates d) t := by
          show blankRuns separates (separates c) (d :: t) = _
          rw [hc, blankRuns_write hd, hd]
        have hwritten : written = ' ' :: blankRuns notInTitle (notInTitle d) t :=
          hwrites.trans (if_neg fun hrun => by rw [hkept] at hrun; cases hrun.1)
        rw [hcollapsed, hwritten]
        exact hboth ' ' fun hsep => by rw [hc] at hsep; cases hsep
      | true =>
        have hcollapsed : collapsed = blankRuns separates (separates d) t := by
          show blankRuns separates (separates c) (d :: t) = _
          rw [hc, blankRuns_skip hd, hd]
        by_cases hrun : notInTitle c = true ∧ notInTitle d = true
        · have hwritten : written = blankRuns notInTitle (notInTitle d) t := by
            rw [hrun.2]
            exact hwrites.trans (if_pos hrun)
          have halone : StandsAlone c d := fun _ _ =>
            ⟨by rintro rfl; exact absurd hrun.1 (by decide),
              by rintro rfl; exact absurd hrun.2 (by decide)⟩
          rw [hcollapsed, hwritten]
          refine ⟨hle, fun hlength => ?_, fun hall => hsame (List.isChain_cons_cons.mp hall).2⟩
          exact List.isChain_cons_cons.mpr ⟨halone, hchain hlength⟩
        · have hwritten : written = ' ' :: blankRuns notInTitle (notInTitle d) t :=
            hwrites.trans (if_neg hrun)
          have htouch : ¬ StandsAlone c d := by
            intro halone
            obtain ⟨hcblank, hdblank⟩ := halone hc hd
            refine hrun ⟨?_, ?_⟩
            · rw [notInTitle_eq, hc, bne_iff_ne.mpr hcblank, Bool.true_and]
            · rw [notInTitle_eq, hd, bne_iff_ne.mpr hdblank, Bool.true_and]
          rw [hcollapsed, hwritten, List.length_cons]
          refine ⟨by omega, fun hlength => ?_, fun hall => ?_⟩
          · omega
          · exact absurd (List.isChain_cons_cons.mp hall).1 htouch

/-- The same for a stretch that begins with a letter or a digit. -/
theorem stretch_lines_up {middle : Text} (hhead : ∀ c ∈ middle.head?, separates c = false) :
    ((blankRuns separates false middle).length = (blankRuns notInTitle false middle).length →
        middle.IsChain StandsAlone) ∧
      (middle.IsChain StandsAlone →
        blankRuns separates false middle = blankRuns notInTitle false middle) := by
  cases middle with
  | nil => exact ⟨fun _ => List.isChain_nil, fun _ => rfl⟩
  | cons c t =>
    have hc := hhead c rfl
    have hkept := separating_notInTitle.keeps c hc
    obtain ⟨-, hchain, hsame⟩ := blankRuns_compare t c
    rw [hc, hkept] at hchain hsame
    rw [blankRuns_keep hc, blankRuns_keep hkept]
    exact ⟨fun h => hchain (Nat.succ.inj h), fun h => congrArg (c :: ·) (hsame h)⟩

/-! ## Counting words -/

/-- Replacing the runs keeps the number of word characters. -/
theorem countP_blankRuns : (blankRuns notWord b t).countP isWord = t.countP isWord := by
  induction t generalizing b with
  | nil => rfl
  | cons c t ih =>
    cases hword : isWord c with
    | true =>
      have hkept := notWord_of_isWord hword
      rw [blankRuns_keep hkept, List.countP_cons, List.countP_cons, ih]
    | false =>
      have hnot := notWord_of_not hword
      rw [List.countP_cons_of_neg (by rw [hword]; decide)]
      cases b with
      | false => rw [blankRuns_write hnot, List.countP_cons_of_neg (by decide), ih]
      | true => rw [blankRuns_skip hnot, ih]

/-- No blank is part of a word. -/
theorem countP_isSpace (h : ∀ c ∈ t, isSpace c = true) : t.countP isWord = 0 := by
  refine List.countP_eq_zero.mpr fun c hc hword => ?_
  have hspace := h c hc
  rw [isSpace_of_isWord hword] at hspace
  cases hspace

theorem countP_strip : (strip t).countP isWord = t.countP isWord := by
  obtain ⟨before, after, ht, hspace⟩ := strip_parts t
  have hbefore := countP_isSpace fun c hc => hspace c (List.mem_append_left _ hc)
  have hafter := countP_isSpace fun c hc => hspace c (List.mem_append_right _ hc)
  conv_rhs => rw [ht]
  rw [List.countP_append, List.countP_append, hbefore, hafter, Nat.zero_add, Nat.add_zero]

/-- In the column there are as many as there are letters and digits in the title. -/
theorem countP_written : ((blankRuns notInTitle b t).map Char.toLower).countP isWord =
    t.countP fun c => !separates c := by
  induction t generalizing b with
  | nil => rfl
  | cons c t ih =>
    cases hc : separates c with
    | false =>
      have hword := isWord_toLower_of hc
      rw [blankRuns_keep (separating_notInTitle.keeps c hc), List.map_cons,
        List.countP_cons_of_pos hword, List.countP_cons_of_pos (by rw [hc]; rfl), ih]
    | true =>
      rw [List.countP_cons_of_neg (by rw [hc]; decide), blankRuns_notInTitle hc]
      split
      · exact ih
      · rw [List.map_cons, List.countP_cons_of_neg (by decide), ih]

/-- Lowering makes no fewer word characters than there are letters and digits, and no
more only if none comes from a separator. -/
theorem countP_lowered (hlower : LowersByCharacter env.lower) :
    let lowered := q.flatMap fun c => (env.lower [c]).map blank
    (q.countP fun c => !separates c) ≤ lowered.countP isWord ∧
      (lowered.countP isWord ≤ (q.countP fun c => !separates c) →
        ∀ c ∈ q, separates c = true → ∀ d ∈ env.lower [c], isWord d = false) := by
  induction q with
  | nil => exact ⟨Nat.le_refl 0, fun _ _ hc => nomatch hc⟩
  | cons c q ih =>
    obtain ⟨hle, hnone⟩ := ih
    intro lowered
    have hcount : lowered.countP isWord = (env.lower [c]).countP isWord +
        (q.flatMap fun c => (env.lower [c]).map blank).countP isWord := by
      have hblank : ((env.lower [c]).map blank).countP isWord = (env.lower [c]).countP isWord := by
        rw [List.countP_map]
        exact List.countP_congr fun d _ => by rw [Function.comp_apply, isWord_blank]
      rw [← hblank, ← List.countP_append]
      rfl
    cases hc : separates c with
    | false =>
      have hword := isWord_toLower_of hc
      have hone : (env.lower [c]).countP isWord = 1 := by
        rw [hlower.ascii c hc, List.countP_cons_of_pos hword]
        rfl
      rw [hcount, hone, List.countP_cons_of_pos (by rw [hc]; rfl)]
      refine ⟨by omega, fun hmany d hd hsep => ?_⟩
      obtain rfl | hd := List.mem_cons.mp hd
      · rw [hc] at hsep
        cases hsep
      · exact hnone (by omega) d hd hsep
    | true =>
      -- any other character may become letters, which shows in the count
      rw [hcount, List.countP_cons_of_neg (by rw [hc]; decide)]
      refine ⟨by omega, fun hmany d hd hsep => ?_⟩
      obtain rfl | hd := List.mem_cons.mp hd
      · have hzero : (env.lower [d]).countP isWord = 0 := by omega
        intro e he
        exact Bool.eq_false_iff.mpr (List.countP_eq_zero.mp hzero e he)
      · exact hnone (by omega) d hd hsep

/-- In the query there are as many as its lowered characters have. -/
theorem countP_normaliseQuery (hlower : LowersByCharacter env.lower) :
    (normaliseQuery env q).countP isWord =
      (q.flatMap fun c => (env.lower [c]).map blank).countP isWord := by
  rw [normaliseQuery_eq hlower, countP_strip, countP_blankRuns]

/-- A separator that is lowered to a letter makes a character too many. -/
theorem lowered_of_count (hlower : LowersByCharacter env.lower)
    (h : (normaliseQuery env q).countP isWord ≤ (titleNormalized q).countP isWord) :
    ∀ c ∈ q, separates c = true → ∀ d ∈ env.lower [c], isWord d = false := by
  rw [countP_normaliseQuery hlower, titleNormalized, countP_written] at h
  exact (countP_lowered hlower).2 h

/-! ## Lining up -/

/-- The query's words, if none of them comes from a separator. -/
theorem normaliseQuery_stretch (hlower : LowersByCharacter env.lower)
    (hsep : ∀ c ∈ q, separates c = true → ∀ d ∈ env.lower [c], isWord d = false) :
    normaliseQuery env q = (blankRuns separates false (trim separates q)).map Char.toLower := by
  rw [normaliseQuery_eq hlower, blankRuns_lower hlower hsep, strip_blankRuns separating_separates]

/-- Without the blanks at its ends the column is the stretch from the first letter or digit to the
last. -/
theorem strip_titleNormalized : strip (titleNormalized q) =
    (blankRuns notInTitle false (trim separates q)).map Char.toLower :=
  strip_blankRuns separating_notInTitle q

/-- Any title that contains the query. -/
theorem infix_of_linesUp (hlower : LowersByCharacter env.lower) (h : LinesUp env q) {title : Text}
    (hpiece : q <:+: title) : normaliseQuery env q <:+: titleNormalized title := by
  rw [normaliseQuery_stretch hlower h.lowered]
  by_cases hne : trim separates q = []
  · rw [hne]
    exact List.nil_infix
  · obtain ⟨before, after, hq, -⟩ := trim_parts separates q
    obtain ⟨first, last, rfl⟩ := hpiece
    have htitle : titleNormalized (first ++ q ++ last) =
        (blankRuns notInTitle false (first ++ before)).map Char.toLower ++
          (blankRuns notInTitle false (trim separates q)).map Char.toLower ++
            (blankRuns notInTitle false (after ++ last)).map Char.toLower := by
      rw [← List.map_append, ← List.map_append,
        ← blankRuns_stretch separating_notInTitle hne trim_head trim_last, titleNormalized]
      conv_lhs => rw [hq]
      simp only [List.append_assoc]
    rw [htitle, (stretch_lines_up trim_head).2 h.blanks]
    exact ⟨_, _, rfl⟩

theorem mem_titleNormalized (h : c ∈ titleNormalized t) : isSpace c = true ∨ isWord c = true := by
  obtain ⟨d, hd, rfl⟩ := List.mem_map.mp h
  obtain rfl | ⟨-, hkept⟩ := mem_blankRuns hd
  · exact .inl rfl
  · cases hsep : separates d with
    | false =>
      right
      rw [isWord_toLower, hsep]
      rfl
    | true =>
      left
      rw [separating_notInTitle.blanks d hsep hkept]
      rfl

/-- The query as a title of its own. -/
theorem linesUp_of_infix (hlower : LowersByCharacter env.lower)
    (h : normaliseQuery env q <:+: titleNormalized q) : LinesUp env q := by
  have hlowered := lowered_of_count hlower (h.sublist.countP_le)
  obtain ⟨before, after, hsplit⟩ := h
  -- Nothing but blanks is left around it.
  have hspace : ∀ c ∈ before ++ after, isSpace c = true := by
    have hcount := congrArg (List.countP isWord) hsplit
    rw [List.countP_append, List.countP_append, countP_normaliseQuery hlower, titleNormalized,
      countP_written] at hcount
    have hle := (countP_lowered (q := q) hlower).1
    intro c hc
    have hnone : (before ++ after).countP isWord = 0 := by
      rw [List.countP_append]
      omega
    have hwritten : c ∈ titleNormalized q := by
      rw [← hsplit, List.append_assoc]
      obtain hc | hc := List.mem_append.mp hc
      · exact List.mem_append_left _ hc
      · exact List.mem_append_right _ (List.mem_append_right _ hc)
    exact (mem_titleNormalized hwritten).resolve_right (List.countP_eq_zero.mp hnone c hc)
  have hstrip : strip (titleNormalized q) = normaliseQuery env q := by
    rw [← hsplit]
    refine (trim_padded hspace).trans ?_
    exact strip_of_stripped (strip_stripped _)
  rw [strip_titleNormalized, normaliseQuery_stretch hlower hlowered] at hstrip
  have hlength := congrArg List.length hstrip
  rw [List.length_map, List.length_map] at hlength
  exact ⟨hlowered, (stretch_lines_up trim_head).1 hlength.symm⟩

/-- **Which pieces of a title are found in it**: those on which the two normal forms line
up. -/
theorem normalise_query_iff (hlower : LowersByCharacter env.lower) (q : Text) :
    (∀ title, q <:+: title → normaliseQuery env q <:+: titleNormalized title) ↔ LinesUp env q :=
  ⟨fun h => linesUp_of_infix hlower (h q (List.infix_refl q)),
    fun h _ hpiece => infix_of_linesUp hlower h hpiece⟩

/-- The sample environment lowers character by character. -/
theorem sampleEnv_lowers : LowersByCharacter sampleEnv.lower where
  ascii _ _ := rfl
  nonempty _ := List.cons_ne_nil _ _
  pieces t := by
    show (t.map Char.toLower).map blank = t.flatMap fun c => [blank c.toLower]
    rw [List.map_map]
    exact List.map_eq_flatMap

/-- Two words with a blank between them are found. -/
theorem two_words_found :
    normaliseQuery sampleEnv "SSC CGL".toList <:+: titleNormalized "New: SSC CGL 2024".toList :=
  (normalise_query_iff sampleEnv_lowers "SSC CGL".toList).mpr (by decide) _ (by decide)

/-- "A - B" is "a b" as a query, and "a   b" as a title. -/
theorem dash_not_found : ¬ ∀ (env : Env), LowersByCharacter env.lower → ∀ title q : Text,
    q <:+: title → q.length ≤ searchQueryMax → normaliseQuery env q ≠ [] →
      normaliseQuery env q <:+: titleNormalized title := by
  intro hfound
  have hpiece := hfound sampleEnv sampleEnv_lowers "A - B".toList "A - B".toList
    (List.infix_refl _) (by decide) (by decide)
  exact absurd hpiece (by decide)

end SarkariWorld.Content
