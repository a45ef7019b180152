import SarkariWorld.Lib.Text
import Mathlib

/-!
# URLs

`urllib.parse` of CPython 3.14 on text: `urlparse` cuts a URL into six components
and `urlunparse` puts them together again. Two of the checks that make `urlparse`
raise `ValueError`, on a host in brackets and on letters that compatibility
normalisation would turn into delimiters, look at the network location alone; they
are a parameter (`checks`).

`urlparse_urlunparse` is the round trip: a URL with a scheme and a network location
is read back from its own serialisation. What makes it hold is what a parse
guarantees of its components (`Url.Parsed`): no component holds a character that
would end it earlier, so `urlunparse` cannot move a boundary.
-/

namespace SarkariWorld.Lib

/-- `ParseResult`. -/
structure Url where
  scheme : Text
  netloc : Text
  path : Text
  params : Text
  query : Text
  fragment : Text
  deriving DecidableEq, Repr

/-! ## Cutting text -/

/-- The text before the first character `stop` is true of, and the text from it on. -/
def cutAt (stop : Char → Bool) (t : Text) : Text × Text :=
  (t.takeWhile fun c => !stop c, t.dropWhile fun c => !stop c)

/-- `t.split(mark, 1)`, with no second part where `mark` does not occur. -/
def splitOnce (mark : Char) (t : Text) : Text × Text :=
  ((cutAt (· == mark) t).1, (cutAt (· == mark) t).2.drop 1)

/-- A component with its mark, if there is one. -/
def suffix (mark : Char) (part : Text) : Text := if part = [] then [] else mark :: part

/-! ## Parsing -/

/-- `_WHATWG_C0_CONTROL_OR_SPACE`. -/
def c0OrSpace (c : Char) : Bool := c.toNat ≤ 0x20

/-- `_UNSAFE_URL_BYTES_TO_REMOVE`. -/
def removedByte (c : Char) : Bool := c == '\t' || c == '\r' || c == '\n'

/-- `scheme_chars`. -/
def schemeChar (c : Char) : Bool := c.isAlphanum || c == '+' || c == '-' || c == '.'

/-- What ends a network location. -/
def netlocEnd (c : Char) : Bool := c == '/' || c == '?' || c == '#'

/-- `uses_netloc`, without the empty scheme. -/
def usesNetloc : List Text :=
  ["ftp", "http", "gopher", "nntp", "telnet", "imap", "wais", "file", "mms", "https", "shttp",
    "snews", "prospero", "rtsp", "rtsps", "rtspu", "rsync", "svn", "svn+ssh", "sftp", "nfs", "git",
    "git+ssh", "ws", "wss"].map String.toList

/-- `uses_params`. -/
def usesParams : List Text :=
  ["", "ftp", "hdl", "prospero", "http", "imap", "https", "shttp", "rtsp", "rtsps", "rtspu", "sip",
    "sips", "mms", "sftp", "tel"].map String.toList

/-- A scheme is the text before the first colon, if it is one. -/
def splitScheme (url : Text) : Text × Text :=
  let (name, rest) := cutAt (· == ':') url
  if rest ≠ [] ∧ name.head?.any Char.isAlpha = true ∧ name.all schemeChar = true then
    (name.map Char.toLower, rest.drop 1)
  else ([], url)

/-- `_splitnetloc`, after the two slashes that announce it. -/
def splitNetloc (url : Text) : Text × Text :=
  if url.take 2 = "//".toList then cutAt netlocEnd (url.drop 2) else ([], url)

/-- `_splitparams`: the parameters are those of the last segment. -/
def splitParams (path : Text) : Text × Text :=
  let (last, dir) := cutAt (· == '/') path.reverse
  (dir.reverse ++ (splitOnce ';' last.reverse).1, (splitOnce ';' last.reverse).2)

/-- The parameters of a path, under a scheme that has them. -/
def paramsOf (scheme path : Text) : Text × Text :=
  if scheme ∈ usesParams then splitParams path else (path, [])

/-- The checks that make `urlsplit` raise. -/
def validNetloc (checks : Text → Bool) (netloc : Text) : Bool :=
  netloc.contains '[' == netloc.contains ']' && (netloc.isEmpty || checks netloc)

/-- What comes after the network location is cut from its end: the fragment first,
the parameters last. -/
def splitRest (scheme netloc url : Text) : Url :=
  let (url, fragment) := splitOnce '#' url
  let (url, query) := splitOnce '?' url
  let (path, params) := paramsOf scheme url
  ⟨scheme, netloc, path, params, query, fragment⟩

/-- The text `urlsplit` looks at. -/
def urlText (t : Text) : Text := (t.dropWhile c0OrSpace).filter fun c => !removedByte c

/-- `urlparse`, `none` where it raises `ValueError`. -/
def urlparse (checks : Text → Bool) (t : Text) : Option Url :=
  let (scheme, url) := splitScheme (urlText t)
  let (netloc, url) := splitNetloc url
  if validNetloc checks netloc then some (splitRest scheme netloc url) else none

/-- The network location and the path, as `urlunsplit` writes them. -/
def locatedPath (u : Url) : Text :=
  let path := u.path ++ suffix ';' u.params
  if u.netloc ≠ [] then
    "//".toList ++ u.netloc ++ (if path ≠ [] ∧ path.head? ≠ some '/' then '/' :: path else path)
  else if path.take 2 = "//".toList then "//".toList ++ path
  else if u.scheme ∈ usesNetloc ∧ (path = [] ∨ path.head? = some '/') then "//".toList ++ path
  else path

/-- `urlunparse`. -/
def urlunparse (u : Url) : Text :=
  (if u.scheme = [] then [] else u.scheme ++ ":".toList) ++ locatedPath u ++ suffix '?' u.query ++
    suffix '#' u.fragment

/-! ## Cutting at a mark -/

section Cut

variable {stop : Char → Bool} {t : Text}

theorem cutAt_append (stop : Char → Bool) (t : Text) : (cutAt stop t).1 ++ (cutAt stop t).2 = t :=
  List.takeWhile_append_dropWhile

/-- The first part of a cut holds no stop. -/
theorem not_stop_of_cutAt (stop : Char → Bool) {c : Char} (h : c ∈ (cutAt stop t).1) :
    stop c = false := by
  have hall : (t.takeWhile fun c => !stop c).all (fun c => !stop c) = true := List.all_takeWhile
  rw [List.all_eq_true] at hall
  exact (Bool.not_eq_true' _).mp (hall c h)

/-- Its second part starts with one, if there is any. -/
theorem stop_of_cutAt (stop : Char → Bool) {c : Char} {rest : Text}
    (h : (cutAt stop t).2 = c :: rest) : stop c = true := by
  have hhead := List.head?_dropWhile_not (fun c => !stop c) t
  rw [show t.dropWhile (fun c => !stop c) = c :: rest from h] at hhead
  exact (Bool.not_eq_false _).mp fun he => by simp [he] at hhead

/-- Text without a stop, followed by nothing or by a stop, is cut there. -/
theorem cutAt_eq {pre rest : Text} (hpre : ∀ c ∈ pre, stop c = false)
    (hrest : ∀ c ∈ rest.head?, stop c = true) : cutAt stop (pre ++ rest) = (pre, rest) := by
  have htake : rest.takeWhile (fun c => !stop c) = [] ∧ rest.dropWhile (fun c => !stop c) =
      rest := by
    cases rest with
    | nil => exact ⟨rfl, rfl⟩
    | cons c rest =>
      have hstop : (!stop c) = false := by rw [hrest c rfl]; rfl
      exact ⟨List.takeWhile_cons_of_neg (by rw [hstop]; decide),
        List.dropWhile_cons_of_neg (by rw [hstop]; decide)⟩
  have hall : ∀ c ∈ pre, (!stop c) = true := fun c hc => by rw [hpre c hc]; rfl
  rw [cutAt, List.takeWhile_append_of_pos hall, List.dropWhile_append_of_pos hall, htake.1, htake.2,
    List.append_nil]

theorem splitOnce_eq {mark : Char} {pre rest : Text} (h : mark ∉ pre) :
    splitOnce mark (pre ++ suffix mark rest) = (pre, rest) := by
  have hpre : ∀ c ∈ pre, (c == mark) = false := fun c hc =>
    beq_eq_false_iff_ne.mpr fun he => h (he ▸ hc)
  unfold suffix
  split
  next hnone =>
    rw [splitOnce, cutAt_eq hpre (by simp), hnone]
    rfl
  next =>
    rw [splitOnce, cutAt_eq hpre (by simp)]
    rfl

theorem not_mem_splitOnce {mark : Char} : mark ∉ (splitOnce mark t).1 := fun h => by
  have hstop := not_stop_of_cutAt (· == mark) h
  rw [beq_self_eq_true] at hstop
  cases hstop

/-- The two parts and their mark are the text, unless the mark had nothing after it. -/
theorem splitOnce_sublist (mark : Char) (t : Text) :
    ((splitOnce mark t).1 ++ suffix mark (splitOnce mark t).2).Sublist t := by
  have hjoin := cutAt_append (· == mark) t
  cases hrest : (cutAt (· == mark) t).2 with
  | nil =>
    rw [hrest, List.append_nil] at hjoin
    rw [splitOnce, hrest, hjoin]
    exact (List.append_nil t).symm ▸ List.Sublist.refl t
  | cons c rest =>
    have hc : c = mark := eq_of_beq (stop_of_cutAt (· == mark) hrest)
    rw [splitOnce, hrest, List.drop_one, List.tail_cons]
    rw [hrest, hc] at hjoin
    conv => rhs; rw [← hjoin]
    refine List.Sublist.append_left ?_ _
    unfold suffix
    split
    next => exact List.nil_sublist _
    next => exact List.Sublist.refl _

theorem mem_suffix {mark c : Char} {part : Text} (h : c ∈ part) : c ∈ suffix mark part := by
  unfold suffix
  rw [if_neg (List.ne_nil_of_mem h)]
  exact List.mem_cons_of_mem _ h

/-- Nothing else than marks is lost. -/
theorem mem_splitOnce {mark c : Char} (hne : c ≠ mark) (h : c ∈ t) :
    c ∈ (splitOnce mark t).1 ++ suffix mark (splitOnce mark t).2 := by
  rw [← cutAt_append (· == mark) t, List.mem_append] at h
  refine List.mem_append.mpr (h.imp id fun hrest => mem_suffix ?_)
  cases hcut : (cutAt (· == mark) t).2 with
  | nil =>
    rw [hcut] at hrest
    cases hrest
  | cons d rest =>
    have hd : d = mark := eq_of_beq (stop_of_cutAt (· == mark) hcut)
    rw [hcut, hd, List.mem_cons, or_iff_right hne] at hrest
    rw [splitOnce, hcut]
    exact hrest

end Cut

/-! ## The parameters of a path -/

/-- A path is its directories and its last segment, and `splitParams` looks at the
segment. -/
theorem splitParams_parts (path : Text) : ∃ dir last : Text, path = dir ++ last ∧
    '/' ∉ last ∧
    ∀ last' : Text, '/' ∉ last' → splitParams (dir ++ last') =
      (dir ++ (splitOnce ';' last').1, (splitOnce ';' last').2) := by
  have hjoin := cutAt_append (· == '/') path.reverse
  have hlast : ∀ c ∈ (cutAt (· == '/') path.reverse).1, (c == '/') = false :=
    fun c hc => not_stop_of_cutAt (· == '/') hc
  have hdir : ∀ c ∈ (cutAt (· == '/') path.reverse).2.head?, (c == '/') = true := by
    intro c hc
    obtain ⟨rest, hrest⟩ := List.head?_eq_some_iff.mp hc
    exact stop_of_cutAt (· == '/') hrest
  generalize cutAt (· == '/') path.reverse = parts at hjoin hlast hdir
  refine ⟨parts.2.reverse, parts.1.reverse, ?_, ?_, ?_⟩
  · rw [← List.reverse_append, hjoin, List.reverse_reverse]
  · intro hmem
    cases hlast '/' (List.mem_reverse.mp hmem)
  · intro last' hlast'
    have hsegment : ∀ c ∈ last'.reverse, (c == '/') = false := fun c hc =>
      beq_eq_false_iff_ne.mpr fun he => hlast' (he ▸ List.mem_reverse.mp hc)
    rw [splitParams, List.reverse_append, List.reverse_reverse, cutAt_eq hsegment hdir]
    dsimp only
    rw [List.reverse_reverse]

/-- Splitting off the parameters and writing them again may lose a mark, nothing else. -/
theorem splitParams_sublist (path : Text) :
    ((splitParams path).1 ++ suffix ';' (splitParams path).2).Sublist path := by
  obtain ⟨dir, last, hpath, hlast, hparts⟩ := splitParams_parts path
  rw [hpath, hparts last hlast, List.append_assoc]
  exact List.Sublist.append_left (splitOnce_sublist _ _) _

theorem mem_splitParams {c : Char} {path : Text} (hne : c ≠ ';') (h : c ∈ path) :
    c ∈ (splitParams path).1 ++ suffix ';' (splitParams path).2 := by
  obtain ⟨dir, last, hpath, hlast, hparts⟩ := splitParams_parts path
  rw [hpath, List.mem_append] at h
  rw [hpath, hparts last hlast, List.append_assoc]
  exact List.mem_append.mpr (h.imp id fun hc => mem_splitOnce hne hc)

/-- What `splitParams` takes off a path it does not take off again. -/
theorem splitParams_join (path : Text) :
    splitParams ((splitParams path).1 ++ suffix ';' (splitParams path).2) = splitParams path := by
  obtain ⟨dir, last, hpath, hlast, hparts⟩ := splitParams_parts path
  have hsegment : '/' ∉ (splitOnce ';' last).1 ++ suffix ';' (splitOnce ';' last).2 := fun hmem =>
    hlast ((splitOnce_sublist ';' last).subset hmem)
  rw [hpath, hparts last hlast, List.append_assoc, hparts _ hsegment,
    splitOnce_eq not_mem_splitOnce]

/-- An absolute path stays absolute. -/
theorem splitParams_absolute {path : Text} (h : path.head? = some '/') :
    (splitParams path).1.head? = some '/' := by
  obtain ⟨dir, last, hpath, hlast, hparts⟩ := splitParams_parts path
  rw [hpath] at h
  rw [hpath, hparts last hlast]
  cases dir with
  | nil => exact absurd (List.mem_of_head? h) hlast
  | cons c dir => exact h

/-! ## What a parse guarantees -/

/-- A scheme `splitScheme` reads back. -/
def IsScheme (name : Text) : Prop :=
  name.head?.any Char.isAlpha = true ∧ name.all schemeChar = true ∧ name.map Char.toLower = name

/-- The path and its parameters, joined. -/
def Url.joined (u : Url) : Text := u.path ++ suffix ';' u.params

/-- No component holds what would end it earlier. -/
structure Url.Parsed (checks : Text → Bool) (u : Url) : Prop where
  scheme : u.scheme = [] ∨ IsScheme u.scheme
  netloc : ∀ c ∈ u.netloc, netlocEnd c = false
  valid : validNetloc checks u.netloc = true
  path : u.netloc ≠ [] → u.joined = [] ∨ u.joined.head? = some '/'
  question : '?' ∉ u.joined
  hash : '#' ∉ u.joined ++ suffix '?' u.query
  params : paramsOf u.scheme u.joined = (u.path, u.params)
  removed : ∀ c ∈ u.netloc ++ (u.joined ++ suffix '?' u.query ++ suffix '#' u.fragment),
    removedByte c = false

/-- The characters of a scheme are none of those that are removed. -/
theorem removedByte_of_schemeChar {c : Char} (h : schemeChar c = true) : removedByte c = false := by
  by_contra hne
  rw [Bool.not_eq_false, removedByte, Bool.or_eq_true, Bool.or_eq_true, beq_iff_eq, beq_iff_eq,
    beq_iff_eq] at hne
  obtain (rfl | rfl) | rfl := hne <;> cases h

theorem schemeChar_toLower {c : Char} (h : schemeChar c = true) : schemeChar c.toLower = true := by
  by_cases hupper : c.isUpper = true
  · have halpha : c.toLower.isAlpha = true := by
      rw [Char.isAlpha_toLower_eq_isAlpha, Char.isAlpha, hupper, Bool.true_or]
    rw [schemeChar, Char.isAlphanum, halpha]
    rfl
  · rw [Char.toLower_eq_of_not_isUpper hupper]
    exact h

/-- What is split off as a scheme is one, or nothing is. -/
theorem splitScheme_isScheme (url : Text) :
    (splitScheme url).1 = [] ∨ IsScheme (splitScheme url).1 := by
  unfold splitScheme
  dsimp only
  split
  next h =>
    obtain ⟨-, hhead, hall⟩ := h
    refine Or.inr ⟨?_, ?_, ?_⟩
    · cases hname : (cutAt (· == ':') url).1 with
      | nil =>
        rw [hname] at hhead
        cases hhead
      | cons c name =>
        rw [hname] at hhead
        exact (Char.isAlpha_toLower_eq_isAlpha c).trans hhead
    · rw [List.all_eq_true] at hall ⊢
      intro c hc
      obtain ⟨d, hd, rfl⟩ := List.mem_map.mp hc
      exact schemeChar_toLower (hall d hd)
    · rw [List.map_map]
      exact List.map_congr_left fun c _ => Char.toLower_toLower_eq_toLower c
  next => exact Or.inl rfl

theorem splitScheme_subset {url : Text} {c : Char} (h : c ∈ (splitScheme url).2) : c ∈ url := by
  unfold splitScheme at h
  dsimp only at h
  split at h
  next =>
    rw [← cutAt_append (· == ':') url]
    exact List.mem_append_right _ (List.mem_of_mem_drop h)
  next => exact h

/-- A scheme is what the text starts with, but for its case. -/
theorem splitScheme_some {url : Text} (h : (splitScheme url).1 ≠ []) :
    ∃ name, url = name ++ ':' :: (splitScheme url).2 ∧ (∀ c ∈ name, schemeChar c = true) ∧
      name.length = (splitScheme url).1.length := by
  have hjoin := cutAt_append (· == ':') url
  have hstop : ∀ c rest, (cutAt (· == ':') url).2 = c :: rest → c = ':' := fun c rest hcut =>
    eq_of_beq (stop_of_cutAt (· == ':') hcut)
  unfold splitScheme at h ⊢
  dsimp only at h ⊢
  split at h
  next hscheme =>
    rw [if_pos hscheme]
    obtain ⟨c, rest, hcut⟩ := List.exists_cons_of_ne_nil hscheme.1
    refine ⟨(cutAt (· == ':') url).1, ?_, List.all_eq_true.mp hscheme.2.2, ?_⟩
    · rw [hcut, hstop c rest hcut] at hjoin
      rw [hcut]
      exact hjoin.symm
    · exact (List.length_map _).symm
  next => exact absurd rfl h

/-- A scheme in front is read back. -/
theorem splitScheme_eq {name rest : Text} (h : IsScheme name) :
    splitScheme (name ++ ':' :: rest) = (name, rest) := by
  obtain ⟨hhead, hall, hlower⟩ := h
  have hcut : cutAt (· == ':') (name ++ ':' :: rest) = (name, ':' :: rest) := by
    refine cutAt_eq (fun c hc => beq_eq_false_iff_ne.mpr ?_) (by simp)
    rintro rfl
    cases List.all_eq_true.mp hall ':' hc
  rw [splitScheme, hcut]
  dsimp only
  rw [if_pos ⟨List.cons_ne_nil _ _, hhead, hall⟩, hlower, List.drop_one, List.tail_cons]

/-- After a network location the rest is empty or starts with what ended it. -/
theorem splitNetloc_spec (url : Text) :
    (∀ c ∈ (splitNetloc url).1, netlocEnd c = false) ∧
      ((splitNetloc url).1 ≠ [] → ∀ c ∈ (splitNetloc url).2.head?, netlocEnd c = true) ∧
      ∀ c ∈ (splitNetloc url).1 ++ (splitNetloc url).2, c ∈ url := by
  unfold splitNetloc
  split
  next =>
    refine ⟨fun c hc => not_stop_of_cutAt netlocEnd hc, fun _ c hc => ?_, fun c hc => ?_⟩
    · obtain ⟨rest, hrest⟩ := List.head?_eq_some_iff.mp hc
      exact stop_of_cutAt netlocEnd hrest
    · rw [cutAt_append] at hc
      exact List.mem_of_mem_drop hc
  next => exact ⟨by simp, by simp, fun c hc => hc⟩

/-- Whether there are parameters or not, the path with them is what was cut. -/
theorem paramsOf_sublist (scheme path : Text) :
    ((paramsOf scheme path).1 ++ suffix ';' (paramsOf scheme path).2).Sublist path := by
  unfold paramsOf
  split
  next => exact splitParams_sublist path
  next =>
    rw [suffix, if_pos rfl, List.append_nil]

theorem mem_paramsOf {c : Char} {scheme path : Text} (hne : c ≠ ';') (h : c ∈ path) :
    c ∈ (paramsOf scheme path).1 ++ suffix ';' (paramsOf scheme path).2 := by
  unfold paramsOf
  split
  next => exact mem_splitParams hne h
  next => exact List.mem_append_left _ h

theorem paramsOf_join (scheme path : Text) :
    paramsOf scheme ((paramsOf scheme path).1 ++ suffix ';' (paramsOf scheme path).2) =
      paramsOf scheme path := by
  unfold paramsOf
  split
  next => exact splitParams_join path
  next => rw [suffix, if_pos rfl, List.append_nil]

theorem paramsOf_absolute {scheme path : Text} (h : path.head? = some '/') :
    ((paramsOf scheme path).1 ++ suffix ';' (paramsOf scheme path).2).head? = some '/' := by
  have hfirst : (paramsOf scheme path).1.head? = some '/' := by
    unfold paramsOf
    split
    next => exact splitParams_absolute h
    next => exact h
  rw [List.head?_append, hfirst, Option.some_or]

/-- The path that stands before a query and a fragment: what is before their marks. -/
theorem path_of_rest {rest : Text} (h : ∀ c ∈ rest.head?, netlocEnd c = true) :
    (splitOnce '?' (splitOnce '#' rest).1).1 = [] ∨
      (splitOnce '?' (splitOnce '#' rest).1).1.head? = some '/' := by
  cases rest with
  | nil => exact Or.inl rfl
  | cons c rest =>
    have hc : netlocEnd c = true := h c rfl
    rw [netlocEnd, Bool.or_eq_true, Bool.or_eq_true, beq_iff_eq, beq_iff_eq, beq_iff_eq] at hc
    obtain (rfl | rfl) | rfl := hc
    · exact Or.inr rfl
    · exact Or.inl rfl
    · exact Or.inl rfl

/-- What stands after the network location. -/
def Url.rest (u : Url) : Text := u.joined ++ suffix '?' u.query ++ suffix '#' u.fragment

section Rest

variable (scheme netloc url : Text)

/-- The path and its parameters are part of the text before the query. -/
theorem splitRest_joined_sublist :
    (splitRest scheme netloc url).joined.Sublist (splitOnce '?' (splitOnce '#' url).1).1 :=
  paramsOf_sublist _ _

/-- With the query, they are part of the text before the fragment. -/
theorem splitRest_query_sublist :
    ((splitRest scheme netloc url).joined ++ suffix '?' (splitRest scheme netloc url).query).Sublist
      (splitOnce '#' url).1 :=
  (List.Sublist.append_right (splitRest_joined_sublist ..) _).trans (splitOnce_sublist '?' _)

/-- The components stand in the text they are cut from. -/
theorem splitRest_sublist : (splitRest scheme netloc url).rest.Sublist url :=
  (List.Sublist.append_right (splitRest_query_sublist ..) _).trans (splitOnce_sublist '#' _)

variable {scheme netloc url}

/-- Nothing else than marks is lost between them. -/
theorem mem_splitRest {c : Char} (hmark : c ∉ [';', '?', '#']) (h : c ∈ url) :
    c ∈ (splitRest scheme netloc url).rest := by
  rw [List.mem_cons, List.mem_cons, List.mem_singleton, not_or, not_or] at hmark
  obtain ⟨hsemicolon, hquestion, hhash⟩ := hmark
  have hparts := mem_splitOnce hhash h
  rw [List.mem_append] at hparts
  refine List.mem_append.mpr (hparts.imp_left fun hbefore => ?_)
  have hquery := mem_splitOnce hquestion hbefore
  rw [List.mem_append] at hquery
  exact List.mem_append.mpr (hquery.imp_left fun hpath => mem_paramsOf hsemicolon hpath)

end Rest

/-- **A parse's components hold no character that would end them earlier.** -/
theorem urlparse_parsed {checks : Text → Bool} {t : Text} {u : Url}
    (h : urlparse checks t = some u) : u.Parsed checks := by
  unfold urlparse at h
  have hclean : ∀ c ∈ urlText t, removedByte c = false := by
    intro c hc
    exact (Bool.not_eq_true' _).mp (List.mem_filter.mp hc).2
  have hscheme := splitScheme_isScheme (urlText t)
  have hschemeRest : ∀ c ∈ (splitScheme (urlText t)).2, c ∈ urlText t := fun c hc =>
    splitScheme_subset hc
  -- each part is a piece of the text, cut at the first mark of its kind
  obtain ⟨hnetloc, hrest, hnetlocRest⟩ := splitNetloc_spec (splitScheme (urlText t)).2
  dsimp only at h
  generalize splitScheme (urlText t) = scheme at h hscheme hschemeRest hnetloc hrest hnetlocRest
  generalize splitNetloc scheme.2 = netloc at h hnetloc hrest hnetlocRest
  split at h
  next hvalid =>
    obtain rfl := Option.some.inj h
    have hjoined := splitRest_joined_sublist scheme.1 netloc.1 netloc.2
    have hquery := splitRest_query_sublist scheme.1 netloc.1 netloc.2
    refine ⟨hscheme, hnetloc, hvalid, fun hne => ?_, ?_, ?_, paramsOf_join _ _, fun c hc => ?_⟩
    · refine (path_of_rest (hrest hne)).imp (fun hnil => ?_) fun habsolute => ?_
      · rw [hnil] at hjoined
        exact List.sublist_nil.mp hjoined
      · exact paramsOf_absolute habsolute
    · exact fun hmem => not_mem_splitOnce (hjoined.subset hmem)
    · exact fun hmem => not_mem_splitOnce (hquery.subset hmem)
    · refine hclean c (hschemeRest c (hnetlocRest c ?_))
      refine List.mem_append.mpr ((List.mem_append.mp hc).imp id fun h => ?_)
      exact (splitRest_sublist scheme.1 netloc.1 netloc.2).subset h
  next => cases h

/-! ## The round trip -/

/-- The serialisation of a URL that names a host. -/
theorem urlunparse_located {checks : Text → Bool} {u : Url} (h : u.Parsed checks)
    (hscheme : u.scheme ≠ []) (hnetloc : u.netloc ≠ []) :
    urlunparse u = u.scheme ++ "://".toList ++ u.netloc ++ u.rest := by
  have hpath : locatedPath u = "//".toList ++ u.netloc ++ u.joined := by
    have hslash : ¬(u.joined ≠ [] ∧ u.joined.head? ≠ some '/') := by
      rintro ⟨hne, hhead⟩
      exact (h.path hnetloc).elim hne hhead
    unfold locatedPath
    dsimp only
    rw [if_pos hnetloc]
    exact congrArg _ (if_neg hslash)
  rw [urlunparse, if_neg hscheme, hpath]
  simp only [Url.rest, List.append_assoc]
  rfl

/-- What stands after the network location ends it. -/
theorem netlocEnd_rest {checks : Text → Bool} {u : Url} (h : u.Parsed checks)
    (hnetloc : u.netloc ≠ []) : ∀ c ∈ u.rest.head?, netlocEnd c = true := by
  intro c hc
  rw [Url.rest] at hc
  obtain hnil | hslash := h.path hnetloc
  · rw [hnil, List.nil_append] at hc
    unfold suffix at hc
    split at hc
    next =>
      split at hc
      next => cases hc
      next =>
        cases hc
        rfl
    next =>
      cases hc
      rfl
  · rw [List.append_assoc, List.head?_append, hslash, Option.some_or] at hc
    cases hc
    rfl

/-- A network location stands between two slashes and the rest. -/
theorem splitNetloc_some {url : Text} (h : (splitNetloc url).1 ≠ []) :
    url = "//".toList ++ (splitNetloc url).1 ++ (splitNetloc url).2 := by
  unfold splitNetloc at h ⊢
  split at h
  next hslashes =>
    rw [if_pos hslashes, List.append_assoc, cutAt_append, ← hslashes, List.take_append_drop]
  next => exact absurd rfl h

theorem splitNetloc_eq {netloc rest : Text} (hnetloc : ∀ c ∈ netloc, netlocEnd c = false)
    (hrest : ∀ c ∈ rest.head?, netlocEnd c = true) :
    splitNetloc ("//".toList ++ netloc ++ rest) = (netloc, rest) := by
  have hslashes : ("//".toList ++ netloc ++ rest).take 2 = "//".toList := rfl
  rw [splitNetloc, if_pos hslashes]
  exact cutAt_eq hnetloc hrest

/-- The first character of a scheme is a letter, so it is not stripped. -/
theorem dropWhile_scheme {name rest : Text} (h : IsScheme name) :
    (name ++ rest).dropWhile c0OrSpace = name ++ rest := by
  cases name with
  | nil => cases h.1
  | cons c name =>
    have halpha : c.isAlpha = true := h.1
    refine List.dropWhile_cons_of_neg fun hspace => ?_
    have hle : c.toNat ≤ 0x20 := of_decide_eq_true hspace
    have hlow : ∀ n ≤ 0x20, (Char.ofNat n).isAlpha = false := by decide
    rw [← Char.ofNat_toNat c, hlow _ hle] at halpha
    cases halpha

/-- A text of the shape of a URL is cut where it seems to be. -/
theorem urlparse_text (checks : Text → Bool) {scheme netloc rest : Text} (hscheme : IsScheme scheme)
    (hnetloc : ∀ c ∈ netloc, netlocEnd c = false) (hrest : ∀ c ∈ rest.head?, netlocEnd c = true)
    (hremoved : ∀ c ∈ netloc ++ rest, removedByte c = false) :
    urlparse checks (scheme ++ "://".toList ++ netloc ++ rest) =
      if validNetloc checks netloc then some (splitRest scheme netloc rest) else none := by
  have hurl : scheme ++ "://".toList ++ netloc ++ rest =
      scheme ++ ':' :: ("//".toList ++ netloc ++ rest) := by
    simp only [List.append_assoc]
    rfl
  -- nothing in the text is a byte that the parser removes
  have hkept : (scheme ++ ':' :: ("//".toList ++ netloc ++ rest)).filter
      (fun c => !removedByte c) = scheme ++ ':' :: ("//".toList ++ netloc ++ rest) := by
    rw [List.filter_eq_self]
    intro c hc
    rw [Bool.not_eq_true']
    obtain hc | hc := List.mem_append.mp hc
    · exact removedByte_of_schemeChar (List.all_eq_true.mp hscheme.2.1 c hc)
    · obtain rfl | hc := List.mem_cons.mp hc
      · rfl
      · rw [List.append_assoc] at hc
        obtain hc | hc := List.mem_append.mp hc
        · rw [List.mem_pair.mp hc |>.elim id id]
          rfl
        · exact hremoved c hc
  rw [hurl, urlparse, urlText, dropWhile_scheme hscheme, hkept, splitScheme_eq hscheme]
  dsimp only
  rw [splitNetloc_eq hnetloc hrest]

/-- The components of a parse are cut at the same marks again. -/
theorem splitRest_rest {checks : Text → Bool} {u : Url} (h : u.Parsed checks) :
    splitRest u.scheme u.netloc u.rest = u := by
  rw [splitRest, Url.rest, splitOnce_eq h.hash]
  dsimp only
  rw [splitOnce_eq h.question]
  dsimp only
  rw [h.params]

/-- **A URL with a scheme and a network location is read back from its own
serialisation.** -/
theorem urlparse_urlunparse {checks : Text → Bool} {u : Url} (h : u.Parsed checks)
    (hscheme : u.scheme ≠ []) (hnetloc : u.netloc ≠ []) :
    urlparse checks (urlunparse u) = some u := by
  rw [urlunparse_located h hscheme hnetloc, urlparse_text checks (h.scheme.resolve_left hscheme)
    h.netloc (netlocEnd_rest h hnetloc) h.removed, if_pos h.valid, splitRest_rest h]

/-- A URL with a scheme and a network location, before it is cut. -/
theorem urlparse_located {checks : Text → Bool} {t : Text} {u : Url}
    (h : urlparse checks t = some u) (hscheme : u.scheme ≠ []) (hnetloc : u.netloc ≠ []) :
    ∃ name rest, urlText t = name ++ ':' :: ("//".toList ++ u.netloc ++ rest) ∧
      (∀ c ∈ name, schemeChar c = true) ∧ name.length = u.scheme.length ∧
      u = splitRest u.scheme u.netloc rest ∧ ∀ c ∈ rest.head?, netlocEnd c = true := by
  unfold urlparse at h
  dsimp only at h
  split at h
  next =>
    obtain rfl := Option.some.inj h
    obtain ⟨name, hurl, hchars, hlength⟩ := splitScheme_some hscheme
    refine ⟨name, (splitNetloc (splitScheme (urlText t)).2).2, ?_, hchars, hlength, rfl,
      (splitNetloc_spec _).2.1 hnetloc⟩
    exact hurl.trans (congrArg (fun rest => name ++ ':' :: rest) (splitNetloc_some hnetloc))
  next => cases h

/-- Writing a parsed URL down again makes it no longer. -/
theorem urlunparse_length_le {checks : Text → Bool} {t : Text} {u : Url}
    (h : urlparse checks t = some u) (hscheme : u.scheme ≠ []) (hnetloc : u.netloc ≠ []) :
    (urlunparse u).length ≤ t.length := by
  obtain ⟨name, rest, htext, -, hname, hu, -⟩ := urlparse_located h hscheme hnetloc
  have hrest : u.rest.length ≤ rest.length := by
    rw [hu]
    exact (splitRest_sublist ..).length_le
  have hkept : (urlText t).length ≤ t.length :=
    ((List.filter_sublist).trans (List.dropWhile_sublist _)).length_le
  rw [htext] at hkept
  rw [urlunparse_located (urlparse_parsed h) hscheme hnetloc]
  simp only [List.length_append, List.length_cons, String.length_toList] at hkept ⊢
  have hmarks : "://".length = 3 ∧ "//".length = 2 := by decide
  omega

/-- A character that marks nothing in a URL is in its serialisation if it is behind
what is stripped from it. -/
theorem mem_urlunparse {checks : Text → Bool} {t : Text} {u : Url}
    (h : urlparse checks t = some u) (hscheme : u.scheme ≠ []) (hnetloc : u.netloc ≠ []) {c : Char}
    (hchar : schemeChar c = false) (hremoved : removedByte c = false)
    (hmark : c ∉ [':', '/', ';', '?', '#']) : c ∈ urlunparse u ↔ c ∈ t.dropWhile c0OrSpace := by
  obtain ⟨name, rest, htext, hname, -, hu, -⟩ := urlparse_located h hscheme hnetloc
  have hparsed := urlparse_parsed h
  have hplain : ∀ scheme : Text, (∀ d ∈ scheme, schemeChar d = true) → c ∉ scheme := by
    intro scheme hall hmem
    rw [hall c hmem] at hchar
    cases hchar
  have hslashes : c ∉ "://".toList := by
    intro hmem
    have hthree : c ∈ [':', '/', '/'] := hmem
    obtain rfl | rfl : c = ':' ∨ c = '/' := by simpa using hthree
    · exact hmark (by decide)
    · exact hmark (by decide)
  -- cutting at a mark drops nothing but marks
  have hrest : c ∈ u.rest ↔ c ∈ rest := by
    rw [hu]
    refine ⟨fun hc => (splitRest_sublist ..).subset hc, mem_splitRest fun hmem => hmark ?_⟩
    exact List.mem_cons_of_mem _ (List.mem_cons_of_mem _ hmem)
  have hkept : c ∈ t.dropWhile c0OrSpace ↔ c ∈ urlText t := by
    rw [urlText, List.mem_filter, and_iff_left (by rw [hremoved]; rfl)]
  have hjoin : name ++ ':' :: ("//".toList ++ u.netloc ++ rest) =
      name ++ "://".toList ++ (u.netloc ++ rest) := by
    simp only [List.append_assoc]
    rfl
  rw [hkept, htext, hjoin, urlunparse_located hparsed hscheme hnetloc, List.append_assoc]
  simp only [List.mem_append, hrest, hslashes, hplain name hname,
    hplain u.scheme (List.all_eq_true.mp (hparsed.scheme.resolve_left hscheme).2.1)]

/-- What was parsed has none of the characters that `urlparse` removes, and neither has its
serialisation. -/
theorem removed_urlunparse {checks : Text → Bool} {u : Url} (h : u.Parsed checks)
    (hscheme : u.scheme ≠ []) (hnetloc : u.netloc ≠ []) :
    ∀ c ∈ urlunparse u, removedByte c = false := by
  intro c hc
  rw [urlunparse_located h hscheme hnetloc, List.append_assoc, List.append_assoc] at hc
  obtain hc | hc := List.mem_append.mp hc
  · have hchars := (h.scheme.resolve_left hscheme).2.1
    exact removedByte_of_schemeChar (List.all_eq_true.mp hchars c hc)
  · obtain hc | hc := List.mem_append.mp hc
    · have hthree : c ∈ [':', '/', '/'] := hc
      obtain rfl | rfl : c = ':' ∨ c = '/' := by simpa using hthree
      · rfl
      · rfl
    · exact h.removed c hc

/-! ## Marks with nothing behind them -/

/-- The first `mark` of the text is its last character. -/
def Bare (mark : Char) (t : Text) : Prop := ∃ before, mark ∉ before ∧ t = before ++ [mark]

/-- A text is put together again as it was unless its mark is bare. -/
theorem splitOnce_rejoin {mark : Char} {t : Text} :
    (splitOnce mark t).1 ++ suffix mark (splitOnce mark t).2 = t ↔ ¬ Bare mark t := by
  constructor
  -- a lone mark at the end is cut off and not written back
  · rintro hjoin ⟨before, hbefore, rfl⟩
    have hsplit : splitOnce mark (before ++ [mark]) = (before, []) := by
      have hstop : ∀ c ∈ before, (c == mark) = false := fun c hc =>
        beq_eq_false_iff_ne.mpr fun he => hbefore (he ▸ hc)
      rw [splitOnce, cutAt_eq hstop (by simp)]
      rfl
    rw [hsplit, suffix, if_pos rfl, List.append_nil] at hjoin
    exact absurd (congrArg List.length hjoin) (by simp)
  · intro hbare
    have hjoin := cutAt_append (· == mark) t
    rw [splitOnce]
    cases hcut : (cutAt (· == mark) t).2 with
    | nil =>
      rw [hcut] at hjoin
      exact hjoin
    | cons c rest =>
      have hc : c = mark := eq_of_beq (stop_of_cutAt (· == mark) hcut)
      rw [hcut, hc] at hjoin
      have hrest : rest ≠ [] := by
        rintro rfl
        exact hbare ⟨(cutAt (· == mark) t).1, not_mem_splitOnce, hjoin.symm⟩
      rw [List.drop_one, List.tail_cons, suffix, if_neg hrest]
      exact hjoin

/-- What follows the last slash of a path. -/
def lastSegment (path : Text) : Text := (cutAt (· == '/') path.reverse).1.reverse

/-- A path is written again as it was unless its last segment ends in a bare mark. -/
theorem splitParams_rejoin {path : Text} :
    (splitParams path).1 ++ suffix ';' (splitParams path).2 = path ↔
      ¬ Bare ';' (lastSegment path) := by
  have hjoin := cutAt_append (· == '/') path.reverse
  have hpath : (cutAt (· == '/') path.reverse).2.reverse ++ lastSegment path = path := by
    rw [lastSegment, ← List.reverse_append, hjoin, List.reverse_reverse]
  rw [← splitOnce_rejoin, splitParams]
  dsimp only
  conv => lhs; rhs; rw [← hpath]
  rw [List.append_assoc, List.append_cancel_left_eq]
  rfl

/-- The marks of the text behind a network location have something behind them. -/
structure Unbared (scheme url : Text) : Prop where
  fragment : ¬ Bare '#' url
  query : ¬ Bare '?' (splitOnce '#' url).1
  params : scheme ∈ usesParams → ¬ Bare ';' (lastSegment (splitOnce '?' (splitOnce '#' url).1).1)

/-- The same for everything behind the network location. -/
theorem splitRest_rest_iff {scheme netloc url : Text} :
    (splitRest scheme netloc url).rest = url ↔ Unbared scheme url := by
  have hparams : (splitRest scheme netloc url).joined = (splitOnce '?' (splitOnce '#' url).1).1 ↔
      (scheme ∈ usesParams → ¬ Bare ';' (lastSegment (splitOnce '?' (splitOnce '#' url).1).1)) := by
    show (paramsOf scheme _).1 ++ suffix ';' (paramsOf scheme _).2 = _ ↔ _
    unfold paramsOf
    split
    next huses => exact splitParams_rejoin.trans ⟨fun h _ => h, fun h => h huses⟩
    next hnot =>
      rw [suffix, if_pos rfl, List.append_nil]
      exact iff_of_true rfl fun huses => absurd huses hnot
  have hjoined := splitRest_joined_sublist scheme netloc url
  have hquery := splitRest_query_sublist scheme netloc url
  constructor
  · intro h
    -- Every part is as long as the text it was cut from.
    have hlength : (splitRest scheme netloc url).rest.length = url.length := congrArg _ h
    have hwhole := (splitOnce_sublist '#' url).length_le
    have hpart := (splitOnce_sublist '?' (splitOnce '#' url).1).length_le
    have hfragment : (splitRest scheme netloc url).fragment = (splitOnce '#' url).2 := rfl
    have hquestion : (splitRest scheme netloc url).query =
        (splitOnce '?' (splitOnce '#' url).1).2 := rfl
    have hle := hquery.length_le
    have hle' := hjoined.length_le
    rw [Url.rest, List.length_append, hfragment] at hlength
    rw [List.length_append] at hwhole hpart hle
    rw [List.length_append, hquestion] at hlength
    rw [hquestion] at hle
    refine ⟨splitOnce_rejoin.mp ((splitOnce_sublist '#' url).eq_of_length ?_),
      splitOnce_rejoin.mp ((splitOnce_sublist '?' _).eq_of_length ?_),
      hparams.mp (hjoined.eq_of_length ?_)⟩
    · rw [List.length_append]
      omega
    · rw [List.length_append]
      omega
    · omega
  · rintro ⟨hhash, hquestion, hsemicolon⟩
    show (splitRest scheme netloc url).joined ++
      suffix '?' (splitOnce '?' (splitOnce '#' url).1).2 ++
      suffix '#' (splitOnce '#' url).2 = url
    rw [hparams.mpr hsemicolon, splitOnce_rejoin.mpr hquestion, splitOnce_rejoin.mpr hhash]

end SarkariWorld.Lib
