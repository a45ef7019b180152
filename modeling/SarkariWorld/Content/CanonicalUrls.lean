import SarkariWorld.Content.NormalForms
import SarkariWorld.Lib.UrlMarks

/-!
# Canonical URLs

`valid_http_url` and `parse_http_url` return a URL that is to be its own canonical form.
It is not where one of their later steps brings back what an earlier one removes: marks
left out at the end uncover white space that was trimmed before, and `https://` is put in
front of a text that was cut to 2048 characters before. `validHttpUrl_fixed_iff` and
`parseHttpUrl_fixed_iff` say that nothing else goes wrong.

Both theorems compare a function with itself: its result, given back to it, is what comes
out. The steps are taken apart first. A text is clean once the invisible characters are
out of it (`clean`), `urlparse` and `urlunparse` are each other's inverse on the parts of
an HTTP URL, and what is left is the end of the text, where `EndsBlank` says what can
still come off.

`valid_http_url` strips its input, and `parse_http_url` also cuts it and puts a scheme in
front of a bare host. Both do so before they parse, and what they return is neither
stripped nor cut again.
-/

namespace SarkariWorld.Content

open Lib

/-- The text ends in white space, or its bare marks have some in front of them. -/
def EndsBlank (t : Text) : Prop := (lastPart t).getLast?.any isSpace = true

instance (t : Text) : Decidable (EndsBlank t) := inferInstanceAs (Decidable (_ = true))

/-- What `parse_http_url` parses fits without its bare marks, and does not end in white
space. -/
def KeepsForm (value : Text) : Prop :=
  ¬ EndsBlank (candidateOf (normalizeInput value)) ∧
    (candidateOf (normalizeInput value)).length ≤
      2048 + bareMarks (candidateOf (normalizeInput value))

instance (value : Text) : Decidable (KeepsForm value) := inferInstanceAs (Decidable (_ ∧ _))

variable {env : Env} {checks : Text → Bool} {value : Text} {url : Text} {p : ParsedUrl} {u : Url}

/-- The schemes of HTTP are among those whose last segment may have parameters. -/
theorem HttpParts.usesParams (h : HttpParts checks u) : u.scheme ∈ usesParams := by
  rcases h.scheme with hscheme | hscheme
  · rw [hscheme]
    decide
  · rw [hscheme]
    decide

/-! ## Trimmed and parsed -/

/-- Whether stripping takes something off the end of a URL can be read off its parts. -/
theorem endsBlank_iff (hparse : Lib.urlparse checks url = some u) (h : HttpParts checks u) :
    EndsBlank (urlText url) ↔ ¬ ∀ c ∈ (urlunparse u).getLast?, isSpace c = false := by
  rw [EndsBlank, ← urlunparse_getLast? hparse h.scheme_ne h.netloc h.usesParams, Option.any_eq_true]
  push Not
  simp only [Bool.not_eq_false, Option.mem_def]

/-- **The URL that `valid_http_url` returns is its own canonical form**, unless the marks
left out at its end uncover white space. -/
theorem validHttpUrl_fixed_iff {value : Option Text}
    (h : validHttpUrl (env.cpython checks) value = some url) :
    validHttpUrl (env.cpython checks) (some url) = some url ↔
      ¬ EndsBlank (urlText (strip (value.getD []))) := by
  obtain ⟨u, hu, hparse, rfl⟩ := validHttpUrl_parts h
  rw [validHttpUrl_again h, endsBlank_iff hparse hu, not_not]

/-! ## Cleaned text -/

/-- Cleaning leaves the character alone. -/
def clean (c : Char) : Prop := invisible c = false ∧ plainGlyph c = c

instance (c : Char) : Decidable (clean c) := inferInstanceAs (Decidable (_ ∧ _))

theorem clean_of_all {t : Text} (h : t.all (fun c => decide (clean c)) = true) :
    ∀ c ∈ t, clean c :=
  fun c hc => of_decide_eq_true (List.all_eq_true.mp h c hc)

/-- The glyphs that are put in place of look-alikes are clean. -/
theorem clean_plainGlyph {c : Char} (h : invisible c = false) : clean (plainGlyph c) := by
  unfold plainGlyph
  split
  next => exact ⟨rfl, rfl⟩
  next hnbsp =>
    split
    next => exact ⟨rfl, rfl⟩
    next hcolon =>
      split
      next => exact ⟨rfl, rfl⟩
      next hslash => exact ⟨h, by rw [plainGlyph, if_neg hnbsp, if_neg hcolon, if_neg hslash]⟩

theorem clean_normalizeInput (value : Text) : ∀ c ∈ normalizeInput value, clean c := by
  intro c hc
  obtain ⟨d, hd, rfl⟩ := List.mem_map.mp (mem_of_mem_strip (List.mem_of_mem_take hc))
  exact clean_plainGlyph ((Bool.not_eq_true' _).mp (List.mem_filter.mp hd).2)

/-- On a clean text of allowed length it does nothing but strip. -/
theorem normalizeInput_of_clean (h : ∀ c ∈ value, clean c) (hlength : value.length ≤ webUrlMax) :
    normalizeInput value = (strip value).take 2048 := by
  have hvisible : value.filter (fun c => !invisible c) = value := by
    rw [List.filter_eq_self]
    intro c hc
    rw [(h c hc).1]
    rfl
  have hglyphs : value.map plainGlyph = value :=
    (List.map_congr_left fun c hc => (h c hc).2).trans (List.map_id _)
  rw [normalizeInput, List.take_of_length_le hlength, hvisible, hglyphs]

/-- A clean character is none of those `urlsplit` removes. -/
theorem removedByte_of_clean {c : Char} (h : clean c) : removedByte c = false := by
  by_contra hremoved
  rw [Bool.not_eq_false, removedByte, Bool.or_eq_true, Bool.or_eq_true, beq_iff_eq, beq_iff_eq,
    beq_iff_eq] at hremoved
  rcases hremoved with (rfl | rfl) | rfl <;> cases h.1

/-- Cleaned text starts with no white space. -/
theorem head_normalizeInput (value : Text) :
    ∀ c ∈ (normalizeInput value).head?, isSpace c = false := by
  intro c hc
  rw [normalizeInput, List.head?_take, if_neg (by decide)] at hc
  exact (strip_stripped _).1 c hc

/-- The candidate that is parsed is clean, with or without a scheme put in front. -/
theorem clean_candidateOf : ∀ c ∈ candidateOf (normalizeInput value), clean c := by
  intro c hc
  unfold candidateOf at hc
  split at hc
  next => exact clean_normalizeInput value c hc
  next =>
    rcases List.mem_append.mp hc with hscheme | hcleaned
    · exact clean_of_all (by decide) c hscheme
    · exact clean_normalizeInput value c hcleaned

/-- `urlsplit` finds nothing to strip or to remove in it. -/
theorem urlText_candidateOf (value : Text) :
    urlText (candidateOf (normalizeInput value)) = candidateOf (normalizeInput value) := by
  have hhead : ∀ c ∈ (candidateOf (normalizeInput value)).head?, c0OrSpace c = false := by
    intro c hc
    unfold candidateOf at hc
    split at hc
    next =>
      have hvisible := (clean_normalizeInput value c (List.mem_of_head? hc)).1
      have hspace := head_normalizeInput value c hc
      simp only [invisible, isSpace, Bool.or_eq_false_iff, Bool.and_eq_false_iff,
        decide_eq_false_iff_not, beq_eq_false_iff_ne] at hvisible hspace
      rw [c0OrSpace, decide_eq_false_iff_not]
      omega
    next =>
      obtain rfl := Option.some.inj hc
      rfl
  rw [urlText, dropWhile_of_head hhead, List.filter_eq_self]
  intro c hc
  rw [removedByte_of_clean (clean_candidateOf c hc)]
  rfl

/-- What is written down again is as clean as what was parsed. -/
theorem clean_urlunparse
    (hparse : Lib.urlparse checks (candidateOf (normalizeInput value)) = some u)
    (h : HttpParts checks u) : ∀ c ∈ urlunparse u, clean c := by
  obtain ⟨name, rest, htext, -, -, hu, -⟩ := urlparse_located hparse h.scheme_ne h.netloc
  rw [urlText_candidateOf] at htext
  -- the host and what follows are pieces of the cleaned candidate
  have hparts : ∀ c ∈ u.netloc ++ rest, clean c := by
    intro c hc
    have hmem : c ∈ candidateOf (normalizeInput value) := by
      rw [htext]
      refine List.mem_append_right _ (List.mem_cons_of_mem _ ?_)
      rw [List.append_assoc]
      exact List.mem_append_right _ hc
    exact clean_candidateOf c hmem
  have hscheme : ∀ c ∈ u.scheme ++ "://".toList, clean c := by
    rcases h.scheme with hscheme | hscheme
    · rw [hscheme]
      exact clean_of_all (by decide)
    · rw [hscheme]
      exact clean_of_all (by decide)
  have hrest : u.rest.Sublist rest := by
    rw [hu]
    exact splitRest_sublist ..
  intro c hc
  rw [urlunparse_located h.parsed h.scheme_ne h.netloc, List.append_assoc] at hc
  rcases List.mem_append.mp hc with hfront | hbehind
  · exact hscheme c hfront
  · refine hparts c (List.mem_append.mpr ((List.mem_append.mp hbehind).imp_right fun hmem => ?_))
    exact hrest.subset hmem

/-! ## The scheme of what is returned -/

/-- Trimming leaves a text up to its last character in front that is not white. -/
theorem strip_append (before after : Text) {first last : Char}
    (hhead : before.head? = some first) (hlast : before.getLast? = some last)
    (hfirst : isSpace first = false) (hends : isSpace last = false) :
    ∃ kept, strip (before ++ after) = before ++ kept := by
  have hfront : (before ++ after).dropWhile isSpace = before ++ after := by
    refine dropWhile_of_head fun c hc => ?_
    rw [List.head?_append, hhead, Option.some_or] at hc
    rw [← Option.some.inj hc, hfirst]
  have hback : before.reverse.dropWhile isSpace = before.reverse := by
    refine dropWhile_of_head fun c hc => ?_
    rw [List.head?_reverse, hlast] at hc
    rw [← Option.some.inj hc, hends]
  rw [strip, hfront, List.reverse_append, List.dropWhile_append]
  split
  next => exact ⟨[], by rw [hback, List.reverse_reverse, List.append_nil]⟩
  next => exact ⟨_, by rw [List.reverse_append, List.reverse_reverse]⟩

/-- Trimming and cutting a URL leaves its scheme. -/
theorem hasScheme_trimmed {url : Text} (h : IsHttpUrl url) :
    hasScheme ((strip url).take 2048) = true := by
  obtain ⟨scheme, hscheme, c, rest, -, rfl⟩ := h
  rcases List.mem_pair.mp hscheme with rfl | rfl
  · obtain ⟨kept, hkept⟩ := strip_append "http://".toList (c :: rest) rfl rfl rfl rfl
    rw [hkept]
    rfl
  · obtain ⟨kept, hkept⟩ := strip_append "https://".toList (c :: rest) rfl rfl rfl rfl
    rw [hkept]
    rfl

/-! ## Parsed again -/

/-- A URL that `parse_http_url` returns is read as itself if it fits and has nothing to
strip. -/
theorem parseHttpUrl_again (h : parseHttpUrl (env.cpython checks) value = some p) :
    parseHttpUrl (env.cpython checks) p.url = some p ↔
      (∀ c ∈ p.url.getLast?, isSpace c = false) ∧ p.url.length ≤ 2048 := by
  obtain ⟨hne, u, host, hparse, hparts, hhost, hhostNe, rfl⟩ := parseHttpUrl_eq_some.mp h
  have hhttp := hparts.isHttpUrl
  have hcut : (candidateOf (normalizeInput value)).length ≤ 2056 := by
    have hcleaned : (normalizeInput value).length ≤ 2048 := List.length_take_le ..
    unfold candidateOf
    split
    next => omega
    next =>
      rw [List.length_append]
      have height : "https://".toList.length = 8 := rfl
      omega
  have hlength : (urlunparse u).length ≤ webUrlMax :=
    Nat.le_trans (Nat.le_trans (urlunparse_length_le hparse hparts.scheme_ne hparts.netloc) hcut)
      (by decide)
  have hclean : normalizeInput (urlunparse u) = (strip (urlunparse u)).take 2048 :=
    normalizeInput_of_clean (clean_urlunparse hparse hparts) hlength
  have hcandidate : candidateOf (normalizeInput (urlunparse u)) =
      (strip (urlunparse u)).take 2048 := by
    rw [hclean, candidateOf, if_pos (hasScheme_trimmed hhttp)]
  rw [parseHttpUrl_eq_some, hcandidate, hclean]
  dsimp only
  constructor
  · rintro ⟨-, u', host', hparse', hparts', -, -, hsame⟩
    have hurl : urlunparse u = urlunparse u' := congrArg ParsedUrl.url hsame
    -- Nothing was lost on the way, or the URL would be shorter than itself.
    have hkept := urlunparse_length_le hparse' hparts'.scheme_ne hparts'.netloc
    rw [← hurl, List.length_take] at hkept
    have hstripped : strip (urlunparse u) = urlunparse u := by
      by_contra hne
      have hshorter := strip_length_lt hne
      omega
    rw [hstripped] at hkept
    exact ⟨(strip_eq_self.mp hstripped).2, by omega⟩
  · rintro ⟨hlast, hfits⟩
    have hstripped : strip (urlunparse u) = urlunparse u :=
      strip_of_stripped ⟨head_httpUrl hhttp, hlast⟩
    rw [hstripped, List.take_of_length_le hfits]
    exact ⟨ne_nil_of_httpUrl hhttp, u, host,
      urlparse_urlunparse hparts.parsed hparts.scheme_ne hparts.netloc, hparts, hhost, hhostNe, rfl⟩

/-- **What `parse_http_url` returns is what it makes of the URL in it**, exactly if what
it parsed keeps its form. -/
theorem parseHttpUrl_fixed_iff (h : parseHttpUrl (env.cpython checks) value = some p) :
    parseHttpUrl (env.cpython checks) p.url = some p ↔ KeepsForm value := by
  rw [parseHttpUrl_again h]
  obtain ⟨-, u, host, hparse, hparts, -, -, rfl⟩ := parseHttpUrl_eq_some.mp h
  have hblank := endsBlank_iff hparse hparts
  have hlength := urlunparse_length hparse hparts.scheme_ne hparts.netloc hparts.usesParams
  rw [urlText_candidateOf] at hblank hlength
  unfold KeepsForm
  rw [hblank, not_not]
  dsimp only
  have hfits : (urlunparse u).length ≤ 2048 ↔ (candidateOf (normalizeInput value)).length ≤
      2048 + bareMarks (candidateOf (normalizeInput value)) := by
    omega
  rw [hfits]

end SarkariWorld.Content
