import SarkariWorld.Content.ArticleWrites
import SarkariWorld.Content.TitleSearch
import SarkariWorld.Lib.Words

/-!
# Slugs from titles

`utils/slugs.py`, `slugify`: "Lowercase, strip diacritics, collapse to `a-z0-9-`, cap at
200 chars." Before the cap the result is the words of the value joined by hyphens
(`slugify_eq`), whatever stood between them. The cap comes after the hyphens have been
stripped from the ends: where the first words, joined, have 199 characters and another
word follows, it cuts right behind the hyphen between them, and the result ends with it.

The words are what the result is about; each step of the source leaves them alone
(`words_uncapped`). NFKD is a parameter that keeps ASCII as it is, since
what `slugify` drops afterwards is everything else.

`slugify` strips hyphens before it cuts and not after, which is the whole of the
exception. A slug that ends in a hyphen is accepted by the bodies, whose pattern asks for
its characters alone.
-/

namespace SarkariWorld.Content

open SarkariWorld.Lib

/-- `encode("ascii", "ignore")` keeps this character. -/
def isAscii (c : Char) : Bool := decide (c.toNat < 128)

/-- `_SLUG_ALLOWED`, on one character: `[^a-z0-9-]`. -/
def notInSlug (c : Char) : Bool := !slugChar c

/-- `replace(" ", "-")`, on one character. -/
def hyphenForBlank (c : Char) : Char := if c = ' ' then '-' else c

/-- `slugify`, for any `unicodedata.normalize("NFKD", _)`. -/
def slugify (nfkd : Text → Text) (value : Text) : Text :=
  let normalized := nfkd value
  let asciiOnly := normalized.filter isAscii
  let hyphenated := ((strip asciiOnly).map Char.toLower).map hyphenForBlank
  let cleaned := subRuns (· == '-') 2 '-' [] (subRuns notInSlug 1 '-' [] hyphenated)
  (trim (· == '-') cleaned).take slugMax

/-- Normalisation leaves ASCII text as it is. -/
def KeepsAscii (nfkd : Text → Text) : Prop := ∀ t : Text, (∀ c ∈ t, isAscii c = true) → nfkd t = t

/-- Groups of `[a-z0-9]` joined by single hyphens, or nothing. -/
def CanonicalSlug (t : Text) : Prop :=
  ∃ groups : List Text, (∀ g ∈ groups, g ≠ [] ∧ ∀ c ∈ g, isWord c = true) ∧
    t = "-".toList.intercalate groups

/-- The stretches of letters and digits that the value has once it is ASCII and
lowered. -/
def slugWords (nfkd : Text → Text) (value : Text) : List Text :=
  words notWord (((nfkd value).filter isAscii).map Char.toLower)

/-- The cap does not fall right behind a hyphen between two words. -/
def NoHyphenAtCap (ws : List Text) : Prop :=
  ∀ k < ws.length, 0 < k → ("-".toList.intercalate (ws.take k)).length + 1 ≠ slugMax

instance (ws : List Text) : Decidable (NoHyphenAtCap ws) :=
  inferInstanceAs (Decidable (∀ k < ws.length, _))

variable {nfkd : Text → Text} {value : Text} {c : Char} {t : Text}

/-! ## Characters -/

/-- A character that is not outside a word is one of a word. -/
theorem notWord_eq_false : notWord c = false ↔ isWord c = true := by
  rw [notWord, Bool.not_eq_false']

/-- White space stays outside the words when it is lowered. -/
theorem notWord_lowered_of_isSpace (h : isSpace c = true) : notWord c.toLower = true := by
  have hupper : ¬ c.isUpper = true := by
    intro hupper
    have hfirst : 65 ≤ c.toNat := (of_decide_eq_true hupper).1
    have hlast : c.toNat ≤ 90 := (of_decide_eq_true hupper).2
    simp only [isSpace, Bool.or_eq_true, Bool.and_eq_true, decide_eq_true_eq, beq_iff_eq] at h
    omega
  rw [Char.toLower_eq_of_not_isUpper hupper, ← Bool.not_eq_false, notWord_eq_false]
  exact fun hword => Bool.false_ne_true ((isSpace_of_isWord hword).symm.trans h)

theorem notWord_of_notInSlug (h : notInSlug c = true) : notWord c = true := by
  rw [← Bool.not_eq_false, notWord_eq_false]
  intro hword
  rw [notInSlug, slugChar, ← isWord, hword] at h
  cases h

theorem notWord_of_hyphen (h : (c == '-') = true) : notWord c = true := by
  rw [beq_iff_eq.mp h]
  rfl

/-- which is all that remains outside the words after the removal. -/
theorem eq_hyphen_of_notWord (hslug : notInSlug c = false) (h : notWord c = true) : c = '-' := by
  rw [notInSlug, slugChar, ← isWord, Bool.not_eq_false'] at hslug
  rw [notWord, Bool.not_eq_true'] at h
  rw [h, Bool.false_or, beq_iff_eq] at hslug
  exact hslug

/-- Where a blank becomes a hyphen, both are outside the words. -/
theorem hyphenForBlank_moves (h : hyphenForBlank c ≠ c) :
    notWord c = true ∧ notWord (hyphenForBlank c) = true := by
  unfold hyphenForBlank at h ⊢
  split at h
  next hblank =>
    rw [if_pos hblank, hblank]
    exact ⟨rfl, rfl⟩
  next => exact absurd rfl h

/-! ## The slug is the words, joined -/

/-- What `slugify` caps. -/
def uncapped (nfkd : Text → Text) (value : Text) : Text :=
  trim (· == '-') (subRuns (· == '-') 2 '-' [] (subRuns notInSlug 1 '-' []
    (((strip ((nfkd value).filter isAscii)).map Char.toLower).map hyphenForBlank)))

theorem slugify_uncapped (nfkd : Text → Text) (value : Text) :
    slugify nfkd value = (uncapped nfkd value).take slugMax := rfl

theorem words_strip_lowered (t : Text) :
    words notWord ((strip t).map Char.toLower) = words notWord (t.map Char.toLower) := by
  obtain ⟨before, after, ht, hspace⟩ := strip_parts t
  have hseps : ∀ s : Text, (∀ c ∈ s, c ∈ before ++ after) →
      ∀ c ∈ s.map Char.toLower, notWord c = true := by
    intro s hs c hc
    obtain ⟨d, hd, rfl⟩ := List.mem_map.mp hc
    exact notWord_lowered_of_isSpace (hspace d (hs d hd))
  conv => rhs; rw [ht]
  rw [List.map_append, List.map_append,
    words_append_seps (hseps after fun c hc => List.mem_append_right _ hc),
    words_seps_append (hseps before fun c hc => List.mem_append_left _ hc)]

/-- Before the cap, the words of the slug are those of the value. -/
theorem words_uncapped (nfkd : Text → Text) (value : Text) :
    words notWord (uncapped nfkd value) = slugWords nfkd value := by
  unfold uncapped
  generalize hhyphenated :
    ((strip ((nfkd value).filter isAscii)).map Char.toLower).map hyphenForBlank = hyphenated
  have hwords : words notWord hyphenated = slugWords nfkd value := by
    rw [← hhyphenated, words, wordsFrom_map fun c => hyphenForBlank_moves]
    exact words_strip_lowered _
  have hallowed : words notWord (subRuns notInSlug 1 '-' [] hyphenated) = slugWords nfkd value :=
    (wordsFrom_subRuns Nat.one_pos rfl (fun c => notWord_of_notInSlug)
      (List.forall_mem_nil _)).trans hwords
  have hdashes : words notWord (subRuns (· == '-') 2 '-' [] (subRuns notInSlug 1 '-' [] hyphenated))
      = slugWords nfkd value :=
    (wordsFrom_subRuns Nat.two_pos rfl (fun c => notWord_of_hyphen)
      (List.forall_mem_nil _)).trans hallowed
  obtain ⟨before, after, ht, hends⟩ := trim_parts (· == '-')
    (subRuns (· == '-') 2 '-' [] (subRuns notInSlug 1 '-' [] hyphenated))
  rw [ht, words_append_seps fun c hc => notWord_of_hyphen (hends c (List.mem_append_right _ hc)),
    words_seps_append fun c hc =>
      notWord_of_hyphen (hends c (List.mem_append_left _ hc))] at hdashes
  exact hdashes

/-- Before the cap, the words stand between single hyphens. -/
theorem uncapped_joined (nfkd : Text → Text) (value : Text) :
    Joined notWord '-' (uncapped nfkd value) := by
  unfold uncapped
  generalize ((strip ((nfkd value).filter isAscii)).map Char.toLower).map hyphenForBlank =
    hyphenated
  generalize hcleaned : subRuns (· == '-') 2 '-' [] (subRuns notInSlug 1 '-' [] hyphenated) =
    cleaned
  -- after the two substitutions, whatever is not a word character is a hyphen
  have hglue : ∀ c ∈ cleaned, notWord c = true → c = '-' := by
    intro c hc hword
    rw [← hcleaned] at hc
    obtain rfl | ⟨hc, -⟩ := mem_subRuns hc
    · rfl
    obtain rfl | ⟨-, hone⟩ := mem_subRuns hc
    · rfl
    · refine eq_hyphen_of_notWord (Bool.eq_false_iff.mpr fun hbad => ?_) hword
      exact Nat.lt_irrefl 1 (hone hbad)
  -- and no hyphen follows a hyphen
  have hlone : cleaned.IsChain fun c d => notWord c = true → notWord d = false := by
    have hdashes : cleaned.IsChain fun c d => (c == '-') = true → (d == '-') = false :=
      hcleaned ▸ subRuns_lone (Nat.le_refl 2)
    refine List.IsChain.imp_of_mem_imp (fun c d hc hd hdash hword => ?_) hdashes
    have hnot := hdash (beq_iff_eq.mpr (hglue c hc hword))
    by_contra hsep
    rw [hglue d hd (Bool.not_eq_false _ ▸ hsep)] at hnot
    cases hnot
  have hpart : trim (· == '-') cleaned <:+: cleaned := by
    obtain ⟨before, after, ht, -⟩ := trim_parts (· == '-') cleaned
    exact ⟨before, after, ht.symm⟩
  have hend : ∀ c ∈ trim (· == '-') cleaned, (c == '-') = false → notWord c = false := by
    intro c hc hdash
    refine Bool.eq_false_iff.mpr fun hword => ?_
    exact beq_eq_false_iff_ne.mp hdash (hglue c (hpart.subset hc) hword)
  exact {
    lone := hlone.infix hpart
    glue := fun c hc => hglue c (hpart.subset hc)
    head := fun c hc => hend c (List.mem_of_mem_head? hc) (trim_head c hc)
    last := fun c hc => hend c (List.mem_of_mem_getLast? hc) (trim_last c hc) }

/-- Before the cap, the words of the value are joined by hyphens. -/
theorem slugify_eq (nfkd : Text → Text) (value : Text) :
    slugify nfkd value = ("-".toList.intercalate (slugWords nfkd value)).take slugMax := by
  have hjoin := (uncapped_joined nfkd value).intercalate_words
  rw [words_uncapped] at hjoin
  rw [slugify_uncapped, ← hjoin]
  rfl

/-! ## Canonical slugs -/

theorem CanonicalSlug.mem (h : CanonicalSlug t) (hc : c ∈ t) : c = '-' ∨ isWord c = true := by
  obtain ⟨groups, hgroups, rfl⟩ := h
  obtain hr | ⟨w, hw, hmem⟩ := mem_intercalate hc
  · exact .inl hr
  · exact .inr ((hgroups w hw).2 c hmem)

/-- Lowered ASCII text has a canonical slug's characters as they are. -/
theorem lowered_of_slugChar (h : c = '-' ∨ isWord c = true) : isAscii c = true ∧ c.toLower = c := by
  obtain rfl | hword := h
  · exact ⟨rfl, rfl⟩
  have hcode := code_of_isWord hword
  have hupper : ¬ c.isUpper = true := by
    intro hupper
    have hfirst : 65 ≤ c.toNat := (of_decide_eq_true hupper).1
    have hlast : c.toNat ≤ 90 := (of_decide_eq_true hupper).2
    omega
  have hascii : c.toNat < 128 := by omega
  exact ⟨decide_eq_true hascii, Char.toLower_eq_of_not_isUpper hupper⟩

/-- The words of words joined by hyphens are these words. -/
theorem slugWords_of_canonical (hnfkd : KeepsAscii nfkd) {groups : List Text}
    (hgroups : ∀ g ∈ groups, g ≠ [] ∧ ∀ c ∈ g, isWord c = true) :
    slugWords nfkd ("-".toList.intercalate groups) = groups := by
  have hchars : ∀ c ∈ "-".toList.intercalate groups, isAscii c = true ∧ c.toLower = c :=
    fun c hc => lowered_of_slugChar (CanonicalSlug.mem ⟨groups, hgroups, rfl⟩ hc)
  have hwords : ∀ g ∈ groups, g ≠ [] ∧ ∀ c ∈ g, notWord c = false := fun g hg =>
    ⟨(hgroups g hg).1, fun c hc => notWord_eq_false.mpr ((hgroups g hg).2 c hc)⟩
  rw [slugWords, hnfkd _ fun c hc => (hchars c hc).1,
    List.filter_eq_self.mpr fun c hc => (hchars c hc).1,
    List.map_congr_left fun c hc => (hchars c hc).2, List.map_id']
  exact words_intercalate rfl hwords

/-- A canonical slug that fits is its own slug. -/
theorem slugify_of_canonical (hnfkd : KeepsAscii nfkd) (h : CanonicalSlug t)
    (hfits : t.length ≤ slugMax) : slugify nfkd t = t := by
  obtain ⟨groups, hgroups, rfl⟩ := h
  rw [slugify_eq, slugWords_of_canonical hnfkd hgroups, List.take_of_length_le hfits]

/-- No canonical slug ends with a hyphen. -/
theorem CanonicalSlug.last (h : CanonicalSlug t) : ∀ c ∈ t.getLast?, isWord c = true := by
  intro c hc
  obtain ⟨groups, hgroups, rfl⟩ := h
  obtain ⟨g, hg, hmem⟩ := getLast_intercalate (fun g hg => (hgroups g hg).1) c hc
  exact (hgroups g hg).2 c hmem

/-- A slug that fits where it is cut is canonical. -/
theorem canonicalSlug_slugify (hcut : NoHyphenAtCap (slugWords nfkd value)) :
    CanonicalSlug (slugify nfkd value) := by
  have hjoined := uncapped_joined nfkd value
  have hlast : ∀ c ∈ (slugify nfkd value).getLast?, notWord c = false := by
    intro c hc
    refine Bool.eq_false_iff.mpr fun hword => ?_
    obtain ⟨k, hpos, hlt, hlength⟩ := (hjoined.cut_iff rfl).mp ⟨c, hc, hword⟩
    rw [words_uncapped] at hlt hlength
    exact hcut k hlt hpos hlength
  have hhead : ∀ c ∈ (slugify nfkd value).head?, notWord c = false := by
    intro c hc
    rw [slugify_uncapped, List.head?_take, if_neg (by decide)] at hc
    exact hjoined.head c hc
  have hwhole := hjoined.of_infix (List.take_prefix slugMax _).isInfix hhead hlast
  refine ⟨words notWord (slugify nfkd value), fun g hg => ?_, hwhole.intercalate_words.symm⟩
  obtain ⟨hne, hword⟩ := mem_words hg
  exact ⟨hne, fun c hc => notWord_eq_false.mp (hword c hc)⟩

/-- The result is canonical, fits and is its own slug where the cap does not fall right
behind a hyphen between two words of the value. -/
theorem slugify_canonical_iff (hnfkd : KeepsAscii nfkd) (value : Text) :
    (CanonicalSlug (slugify nfkd value) ∧ (slugify nfkd value).length ≤ slugMax ∧
      slugify nfkd (slugify nfkd value) = slugify nfkd value) ↔
      NoHyphenAtCap (slugWords nfkd value) := by
  constructor
  · rintro ⟨hcanonical, -, -⟩ k hlt hpos hlength
    have hends : ∃ c ∈ ((uncapped nfkd value).take slugMax).getLast?, notWord c = true := by
      rw [(uncapped_joined nfkd value).cut_iff rfl, words_uncapped]
      exact ⟨k, hpos, hlt, hlength⟩
    obtain ⟨c, hc, hword⟩ := hends
    have hnot := notWord_of_isWord (hcanonical.last c hc)
    exact Bool.false_ne_true (hnot.symm.trans hword)
  · intro hcut
    have hcanonical := canonicalSlug_slugify hcut
    have hfits : (slugify nfkd value).length ≤ slugMax := List.length_take_le _ _
    exact ⟨hcanonical, hfits, slugify_of_canonical hnfkd hcanonical hfits⟩

/-- The one accented letter of the example, taken apart. -/
def acuteApart (t : Text) : Text :=
  t.flatMap fun c => if c = Char.ofNat 0xE9 then ['e', Char.ofNat 0x301] else [c]

theorem keepsAscii_acuteApart : KeepsAscii acuteApart := by
  intro t ht
  induction t with
  | nil => rfl
  | cons c cs ih =>
    rw [List.forall_mem_cons] at ht
    have hplain : c ≠ Char.ofNat 0xE9 := by
      rintro rfl
      exact absurd ht.1 (by decide)
    rw [acuteApart, List.flatMap_cons, if_neg hplain]
    exact congrArg _ (ih ht.2)

/-- The title of a result, with white space at its ends and one accent. -/
def resultTitle : Text := "  UPSC R".toList ++ Char.ofNat 0xE9 :: "sultat 2024!! ".toList

theorem slugify_resultTitle : slugify acuteApart resultTitle = "upsc-resultat-2024".toList ∧
    CanonicalSlug (slugify acuteApart resultTitle) :=
  ⟨by decide, ((slugify_canonical_iff keepsAscii_acuteApart resultTitle).mpr (by decide)).1⟩

/-- Two words, of which the first has 199 letters. -/
def twoWordTitle : Text := List.replicate 199 'a' ++ " b".toList

/-- Two words and a cut right behind the hyphen between them. -/
theorem slugify_twoWordTitle : ¬ ∀ nfkd, KeepsAscii nfkd → ∀ value,
    CanonicalSlug (slugify nfkd value) ∧ (slugify nfkd value).length ≤ slugMax ∧
      slugify nfkd (slugify nfkd value) = slugify nfkd value := by
  intro hall
  obtain ⟨-, -, hagain⟩ := hall id (fun _ _ => rfl) twoWordTitle
  have hmoves : slugify id (slugify id twoWordTitle) ≠ slugify id twoWordTitle := by decide +kernel
  exact hmoves hagain

end SarkariWorld.Content
