import SarkariWorld.Lib.Url

/-!
# What a URL loses when it is written again

`urlunparse` leaves out a `;`, `?` or `#` that has nothing behind it. The text of a URL
shows how many marks that are (`bareMarks`), and what its last part is once they are gone
(`lastPart`). `urlunparse_length` and `urlunparse_getLast?` compare them with what is
written.

A mark is bare where it is the first of its kind and nothing follows it in its part. Each
of the three is looked for in what the others leave over, in the order of `urlparse`: the
fragment first, then the query, then the parameters of the last segment.
-/

namespace SarkariWorld.Lib

variable {mark : Char} {before t : Text}

instance (mark : Char) (t : Text) : Decidable (Bare mark t) :=
  decidable_of_iff (¬ (splitOnce mark t).1 ++ suffix mark (splitOnce mark t).2 = t)
    (not_congr splitOnce_rejoin |>.trans not_not)

/-- The path of the text ends in empty parameters. The first two slashes announce the
network location. -/
def BareParams (t : Text) : Prop := 3 ≤ t.count '/' ∧ Bare ';' (lastSegment t)

instance (t : Text) : Decidable (BareParams t) := inferInstanceAs (Decidable (_ ∧ _))

/-- What stands before the query and the fragment. -/
def stem (t : Text) : Text := (splitOnce '?' (splitOnce '#' t).1).1

/-- How many marks have nothing behind them. -/
def bareMarks (t : Text) : Nat :=
  (if Bare '#' t then 1 else 0) + (if Bare '?' (splitOnce '#' t).1 then 1 else 0) +
    if BareParams (stem t) then 1 else 0

/-- The text up to the end of its last part, without the bare marks behind it. -/
def lastPart (t : Text) : Text :=
  if (splitOnce '#' t).2 ≠ [] then t
  else if (splitOnce '?' (splitOnce '#' t).1).2 ≠ [] then (splitOnce '#' t).1
  else if BareParams (stem t) then (stem t).dropLast
  else stem t

/-! ## Cutting behind text without the mark -/

/-- Text without the mark in front of a text that is cut. -/
theorem splitOnce_append (h : mark ∉ before) (t : Text) :
    splitOnce mark (before ++ t) = (before ++ (splitOnce mark t).1, (splitOnce mark t).2) := by
  have hplain : ∀ c ∈ before, (!(c == mark)) = true := by
    intro c hc
    rw [Bool.not_eq_true', beq_eq_false_iff_ne]
    rintro rfl
    exact h hc
  unfold splitOnce cutAt
  rw [List.takeWhile_append_of_pos hplain, List.dropWhile_append_of_pos hplain]

theorem bare_append (h : mark ∉ before) : Bare mark (before ++ t) ↔ Bare mark t := by
  rw [← not_iff_not, ← splitOnce_rejoin, ← splitOnce_rejoin, splitOnce_append h, List.append_assoc,
    List.append_cancel_left_eq]

/-- A bare mark is all that is lost. -/
theorem splitOnce_length (mark : Char) (t : Text) :
    ((splitOnce mark t).1 ++ suffix mark (splitOnce mark t).2).length +
      (if Bare mark t then 1 else 0) = t.length := by
  by_cases hbare : Bare mark t
  · rw [if_pos hbare]
    obtain ⟨before, hbefore, rfl⟩ := hbare
    rw [splitOnce_append hbefore]
    simp [splitOnce, cutAt, suffix]
  · rw [if_neg hbare, splitOnce_rejoin.mpr hbare]
    rfl

/-- Writing the parameters again loses the bare mark and nothing else. -/
theorem splitParams_length (path : Text) :
    ((splitParams path).1 ++ suffix ';' (splitParams path).2).length +
      (if Bare ';' (lastSegment path) then 1 else 0) = path.length := by
  have hjoin := cutAt_append (· == '/') path.reverse
  have hpath : (cutAt (· == '/') path.reverse).2.reverse ++ lastSegment path = path := by
    rw [lastSegment, ← List.reverse_append, hjoin, List.reverse_reverse]
  have hsegment := splitOnce_length ';' (lastSegment path)
  have hwhole := congrArg List.length hpath
  rw [List.length_append] at hwhole hsegment
  rw [splitParams]
  dsimp only
  rw [List.length_append, List.length_append]
  unfold lastSegment at hsegment hwhole ⊢
  omega

theorem lastSegment_slash (dir : Text) {last : Text} (h : '/' ∉ last) :
    lastSegment (dir ++ '/' :: last) = last := by
  have hplain : ∀ c ∈ last.reverse, (c == '/') = false := by
    intro c hc
    rw [beq_eq_false_iff_ne]
    rintro rfl
    exact h (List.mem_reverse.mp hc)
  have hreverse : (dir ++ '/' :: last).reverse = last.reverse ++ ('/' :: dir.reverse) := by
    simp
  rw [lastSegment, hreverse, cutAt_eq hplain (by simp), List.reverse_reverse]

theorem lastSegment_append (before : Text) (h : '/' ∈ t) :
    lastSegment (before ++ t) = lastSegment t := by
  obtain ⟨after, dir, hreverse, hlast⟩ := List.eq_append_cons_of_mem (List.mem_reverse.mpr h)
  have ht : t = dir.reverse ++ '/' :: after.reverse := by
    rw [← List.reverse_reverse t, hreverse]
    simp
  have hplain : '/' ∉ after.reverse := fun hmem => hlast (List.mem_reverse.mp hmem)
  rw [ht, ← List.append_assoc, lastSegment_slash _ hplain, lastSegment_slash _ hplain]

/-! ## The text of a URL -/

/-- What stands in a URL up to the end of its network location, where none of the marks
can. -/
structure Located (front : Text) : Prop where
  hash : '#' ∉ front
  question : '?' ∉ front
  slashes : front.count '/' = 2

variable {front rest : Text}

theorem stem_append (h : Located front) (rest : Text) :
    stem (front ++ rest) = front ++ stem rest := by
  rw [stem, splitOnce_append h.hash, splitOnce_append h.question]
  rfl

theorem bareParams_append (h : Located front) (hrest : rest = [] ∨ rest.head? = some '/') :
    BareParams (front ++ rest) ↔ Bare ';' (lastSegment rest) := by
  unfold BareParams
  rw [List.count_append, h.slashes]
  rcases hrest with rfl | hslash
  · refine iff_of_false (fun hbare => absurd hbare.1 (by decide)) ?_
    rintro ⟨before, -, hnil⟩
    exact absurd hnil (by simp [lastSegment, cutAt])
  · have hmem : '/' ∈ rest := List.mem_of_head? hslash
    have hcount : 1 ≤ rest.count '/' := List.count_pos_iff.mpr hmem
    rw [lastSegment_append front hmem]
    exact and_iff_right (by omega)

theorem located_of_parts {name netloc : Text} (hname : ∀ c ∈ name, schemeChar c = true)
    (hnetloc : ∀ c ∈ netloc, netlocEnd c = false) :
    Located (name ++ ':' :: ("//".toList ++ netloc)) := by
  have hplain : ∀ c, schemeChar c = false → netlocEnd c = true → c ∉ name ∧ c ∉ netloc := by
    intro c hchar hend
    refine ⟨fun hmem => ?_, fun hmem => ?_⟩
    · exact Bool.false_ne_true (hchar.symm.trans (hname c hmem))
    · exact Bool.false_ne_true ((hnetloc c hmem).symm.trans hend)
  have hnot : ∀ c, c ≠ ':' → c ≠ '/' → schemeChar c = false → netlocEnd c = true →
      c ∉ name ++ ':' :: ("//".toList ++ netloc) := by
    intro c hcolon hslash hchar hend
    obtain ⟨hn, hl⟩ := hplain c hchar hend
    simp [hcolon, hslash, hn, hl]
  obtain ⟨hn, hl⟩ := hplain '/' rfl rfl
  refine ⟨hnot '#' (by decide) (by decide) rfl rfl, hnot '?' (by decide) (by decide) rfl rfl, ?_⟩
  simp [List.count_eq_zero.mpr hn, List.count_eq_zero.mpr hl]

/-- A URL is text up to its network location, and what stands behind it. -/
theorem urlText_parts {checks : Text → Bool} {t : Text} {u : Url}
    (h : urlparse checks t = some u) (hscheme : u.scheme ≠ []) (hnetloc : u.netloc ≠ []) :
    ∃ front rest, urlText t = front ++ rest ∧ Located front ∧
      (stem rest = [] ∨ (stem rest).head? = some '/') ∧
      front.length = (u.scheme ++ "://".toList ++ u.netloc).length ∧
      front.getLast? = u.netloc.getLast? ∧ u = splitRest u.scheme u.netloc rest := by
  obtain ⟨name, rest, htext, hname, hlength, hu, hrest⟩ := urlparse_located h hscheme hnetloc
  refine ⟨name ++ ':' :: ("//".toList ++ u.netloc), rest, ?_,
    located_of_parts hname (urlparse_parsed h).netloc, path_of_rest hrest, ?_, ?_, hu⟩
  · rw [htext]
    simp only [List.append_assoc, List.cons_append]
  · simp [hlength]
  · obtain ⟨c, hc⟩ := Option.ne_none_iff_exists'.mp (mt List.getLast?_eq_none_iff.mp hnetloc)
    have hfront : name ++ ':' :: ("//".toList ++ u.netloc) =
        name ++ "://".toList ++ u.netloc := by
      simp only [List.append_assoc]
      rfl
    rw [hfront, List.getLast?_append, hc, Option.some_or]

/-- Under a scheme with parameters, what stands behind the network location. -/
theorem rest_eq {scheme : Text} (h : scheme ∈ usesParams) (netloc url : Text) :
    (splitRest scheme netloc url).rest =
      (splitParams (stem url)).1 ++ suffix ';' (splitParams (stem url)).2 ++
        suffix '?' (splitOnce '?' (splitOnce '#' url).1).2 ++ suffix '#' (splitOnce '#' url).2 := by
  have hsplit : paramsOf scheme (stem url) = splitParams (stem url) := if_pos h
  rw [← hsplit]
  rfl

/-- **Bare marks are all that is lost.** -/
theorem urlunparse_length {checks : Text → Bool} {t : Text} {u : Url}
    (h : urlparse checks t = some u) (hscheme : u.scheme ≠ []) (hnetloc : u.netloc ≠ [])
    (hparams : u.scheme ∈ usesParams) :
    (urlunparse u).length + bareMarks (urlText t) = (urlText t).length := by
  obtain ⟨front, rest, htext, hfront, hstem, hlength, -, hu⟩ := urlText_parts h hscheme hnetloc
  have hhash := splitOnce_length '#' rest
  have hquestion := splitOnce_length '?' (splitOnce '#' rest).1
  have hsemicolon := splitParams_length (stem rest)
  have hrest := congrArg List.length (rest_eq hparams u.netloc rest)
  rw [← hu] at hrest
  rw [htext, bareMarks, stem_append hfront, splitOnce_append hfront.hash,
    urlunparse_located (urlparse_parsed h) hscheme hnetloc, List.length_append, ← hlength, hrest]
  simp only [bare_append hfront.hash, bare_append hfront.question, bareParams_append hfront hstem,
    List.length_append] at hhash hquestion hsemicolon ⊢
  unfold stem at hsemicolon ⊢
  omega

/-- Bare parameters lose their mark. -/
theorem splitParams_bare {path : Text} (h : Bare ';' (lastSegment path)) :
    (splitParams path).1 ++ suffix ';' (splitParams path).2 = path.dropLast := by
  have hjoin := cutAt_append (· == '/') path.reverse
  have hpath : (cutAt (· == '/') path.reverse).2.reverse ++ lastSegment path = path := by
    rw [lastSegment, ← List.reverse_append, hjoin, List.reverse_reverse]
  obtain ⟨before, hbefore, hlast⟩ := h
  have hsplit : splitOnce ';' (lastSegment path) = (before, []) := by
    rw [hlast, splitOnce_append hbefore]
    simp [splitOnce, cutAt]
  have hparams : splitParams path =
      ((cutAt (· == '/') path.reverse).2.reverse ++ (splitOnce ';' (lastSegment path)).1,
        (splitOnce ';' (lastSegment path)).2) := rfl
  rw [hparams, hsplit]
  conv => rhs; rw [← hpath, hlast]
  rw [← List.append_assoc, List.dropLast_concat]
  exact List.append_nil _

theorem suffix_nil (mark : Char) : suffix mark [] = [] := if_pos rfl

theorem getLast?_of_part {part : Text} (before : Text) (h : part ≠ []) :
    (before ++ part).getLast? = part.getLast? := by
  obtain ⟨c, hc⟩ := Option.ne_none_iff_exists'.mp (mt List.getLast?_eq_none_iff.mp h)
  rw [List.getLast?_append, hc, Option.some_or]

theorem getLast?_suffix {part : Text} (before : Text) (mark : Char) (h : part ≠ []) :
    (before ++ suffix mark part).getLast? = part.getLast? := by
  rw [suffix, if_neg h, List.append_cons]
  exact getLast?_of_part _ h

/-- A text ends where what stands behind its mark does. -/
theorem getLast?_splitOnce (h : (splitOnce mark t).2 ≠ []) :
    t.getLast? = (splitOnce mark t).2.getLast? := by
  have hbare : ¬ Bare mark t := by
    rintro ⟨before, hbefore, rfl⟩
    rw [splitOnce_append hbefore] at h
    exact h (by simp [splitOnce, cutAt])
  conv => lhs; rw [← splitOnce_rejoin.mpr hbare]
  exact getLast?_suffix _ mark h

/-- **The URL ends where its last part does.** -/
theorem urlunparse_getLast? {checks : Text → Bool} {t : Text} {u : Url}
    (h : urlparse checks t = some u) (hscheme : u.scheme ≠ []) (hnetloc : u.netloc ≠ [])
    (hparams : u.scheme ∈ usesParams) :
    (urlunparse u).getLast? = (lastPart (urlText t)).getLast? := by
  obtain ⟨front, rest, htext, hfront, hstem, -, hlast, hu⟩ := urlText_parts h hscheme hnetloc
  have hurl : (urlunparse u).getLast? = (front ++ u.rest).getLast? := by
    rw [urlunparse_located (urlparse_parsed h) hscheme hnetloc, List.getLast?_append,
      getLast?_of_part _ hnetloc, List.getLast?_append, hlast]
  have hrest := rest_eq hparams u.netloc rest
  rw [← hu] at hrest
  rw [hurl, hrest, htext, lastPart, stem_append hfront]
  have hhash := splitOnce_append hfront.hash rest
  have hquestion := splitOnce_append hfront.question (splitOnce '#' rest).1
  have hbare := bareParams_append hfront hstem
  -- The last part is the fragment, the query, the parameters or the path.
  by_cases hfragment : (splitOnce '#' rest).2 = []
  · have hnone : ¬ (splitOnce '#' (front ++ rest)).2 ≠ [] := by
      rw [hhash]
      exact not_not.mpr hfragment
    rw [if_neg hnone, hfragment, suffix_nil, List.append_nil, hhash]
    dsimp only
    rw [hquestion]
    by_cases hquery : (splitOnce '?' (splitOnce '#' rest).1).2 = []
    · rw [if_neg (not_not.mpr hquery), hquery, suffix_nil, List.append_nil]
      by_cases hempty : BareParams (front ++ stem rest)
      · have hsegment := hbare.mp hempty
        have hne : stem rest ≠ [] := by
          intro hnil
          rw [hnil] at hsegment
          obtain ⟨before, -, hlast⟩ := hsegment
          exact absurd hlast (by simp [lastSegment, cutAt])
        rw [if_pos hempty, splitParams_bare hsegment, List.dropLast_append_of_ne_nil hne]
      · rw [if_neg hempty, splitParams_rejoin.mpr (mt hbare.mpr hempty)]
    · rw [if_pos hquery, ← List.append_assoc, getLast?_suffix _ '?' hquery]
      have hends := getLast?_splitOnce (t := front ++ (splitOnce '#' rest).1)
        (by rw [hquestion]; exact hquery)
      rw [hends, hquestion]
  · have hsome : (splitOnce '#' (front ++ rest)).2 ≠ [] := by
      rw [hhash]
      exact hfragment
    rw [if_pos hsome, ← List.append_assoc, getLast?_suffix _ '#' hfragment,
      getLast?_splitOnce hsome, hhash]

end SarkariWorld.Lib
