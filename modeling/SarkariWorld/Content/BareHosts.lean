import SarkariWorld.Content.CanonicalUrls

/-!
# Addresses without a scheme

`parse_http_url` puts `https://` in front of a bare host. Whether a text has a scheme
already is decided before it is parsed, by what stands in front of a colon, and a colon
also stands in front of a port. `bare_host_accepted_iff` says which addresses are taken
for what they are.

The addresses are those a person would type: a host name or a dotted number, perhaps a
port, perhaps a path. A `BareAddress` is one by construction, so the theorem can say for
each whether it is accepted. Three things have to be right: the text is not cut, its
beginning does not read like a scheme (`Mistaken`), and its last segment has no bare
semicolon, which `urlunparse` would drop.

`localhost:3000/a` is the typical failure: a scheme may have any letters, digits, dots,
plus signs and hyphens after a first letter, and so `localhost` is one, as is
`example.com`. A dotted number begins with a digit and is none.
-/

namespace SarkariWorld.Content

open Lib

/-- A character of a label, or the dot between two labels. -/
def hostChar (c : Char) : Bool := c.isAlphanum || c == '-' || c == '.'

/-- A character of a path: a `pchar`, or the slash between two segments. -/
def pathChar (c : Char) : Bool := c.isAlphanum || "-._~!$&'()*+,;=:@%/".toList.contains c

/-- `example.com:8080/page`, without a scheme, query or fragment. -/
structure BareAddress where
  host : Text
  port : Option Text
  path : Text
  host_starts : host.head?.any Char.isAlphanum = true
  host_chars : host.all hostChar = true
  port_digits : ∀ p ∈ port, p ≠ [] ∧ p.all Char.isDigit = true
  path_absolute : path = [] ∨ path.head? = some '/'
  path_chars : path.all pathChar = true

/-- The port behind its colon, if there is one. -/
def portText : Option Text → Text
  | none => []
  | some port => ':' :: port

/-- Host and port, as they stand in a URL. -/
def BareAddress.netloc (a : BareAddress) : Text := a.host ++ portText a.port

/-- The address as it is typed. -/
def BareAddress.text (a : BareAddress) : Text := a.netloc ++ a.path

/-- The address was taken for what it is. -/
def BareAddress.Accepted (env : Env) (checks : Text → Bool) (a : BareAddress) : Prop :=
  parseHttpUrl (env.cpython checks) a.text =
    some ⟨"https://".toList ++ a.text, a.host.map Char.toLower⟩

/-- `urlsplit` normalises no ASCII, and there are no brackets to check. -/
def ChecksPlain (checks : Text → Bool) : Prop :=
  ∀ t : Text, (∀ c ∈ t, c.toNat < 128 ∧ c ≠ '[' ∧ c ≠ ']') → checks t = true

/-- `str.lower`, on ASCII. -/
def LowersAscii (env : Env) : Prop :=
  ∀ t : Text, (∀ c ∈ t, c.toNat < 128) → env.lower t = t.map Char.toLower

/-! ## Characters -/

/-- What an address consists of. -/
def printable (c : Char) : Bool := 0x21 ≤ c.toNat && c.toNat ≤ 0x7E

theorem code_of_isAlphanum {c : Char} (h : c.isAlphanum = true) :
    48 ≤ c.toNat ∧ c.toNat ≤ 122 := by
  rw [Char.isAlphanum, Char.isAlpha, Bool.or_eq_true, Bool.or_eq_true] at h
  rcases h with (hupper | hlower) | hdigit
  · have hbounds : 65 ≤ c.toNat ∧ c.toNat ≤ 90 := of_decide_eq_true hupper
    omega
  · obtain ⟨hfirst, hlast⟩ := Bool.and_eq_true_iff.mp hlower
    have hlow : 97 ≤ c.toNat := of_decide_eq_true hfirst
    exact ⟨by omega, of_decide_eq_true hlast⟩
  · obtain ⟨hfirst, hlast⟩ := Bool.and_eq_true_iff.mp hdigit
    have hhigh : c.toNat ≤ 57 := of_decide_eq_true hlast
    exact ⟨of_decide_eq_true hfirst, by omega⟩

theorem printable_iff {c : Char} : printable c = true ↔ 0x21 ≤ c.toNat ∧ c.toNat ≤ 0x7E := by
  rw [printable, Bool.and_eq_true, decide_eq_true_eq, decide_eq_true_eq]

theorem printable_of_isAlphanum {c : Char} (h : c.isAlphanum = true) : printable c = true := by
  have hcode := code_of_isAlphanum h
  exact printable_iff.mpr ⟨by omega, by omega⟩

/-- A character of a host name is a letter, a digit, a hyphen or a dot. -/
theorem hostChar_cases {c : Char} (h : hostChar c = true) :
    c.isAlphanum = true ∨ c = '-' ∨ c = '.' := by
  rcases Bool.or_eq_true_iff.mp h with hleft | hdot
  · rcases Bool.or_eq_true_iff.mp hleft with halnum | hyphen
    · exact .inl halnum
    · exact .inr (.inl (beq_iff_eq.mp hyphen))
  · exact .inr (.inr (beq_iff_eq.mp hdot))

theorem printable_of_hostChar {c : Char} (h : hostChar c = true) : printable c = true := by
  rcases hostChar_cases h with halnum | rfl | rfl
  · exact printable_of_isAlphanum halnum
  · rfl
  · rfl

theorem ascii_of_hostChar {c : Char} (h : hostChar c = true) : c.toNat < 128 := by
  have hcode := printable_iff.mp (printable_of_hostChar h)
  omega

theorem hostChar_toLower {c : Char} (h : hostChar c = true) : hostChar c.toLower = true := by
  by_cases hupper : c.isUpper = true
  · have halpha : c.toLower.isAlpha = true := by
      rw [Char.isAlpha_toLower_eq_isAlpha, Char.isAlpha, hupper, Bool.true_or]
    rw [hostChar, Char.isAlphanum, halpha]
    rfl
  · rw [Char.toLower_eq_of_not_isUpper hupper]
    exact h

theorem printable_of_pathChar {c : Char} (h : pathChar c = true) : printable c = true := by
  rcases Bool.or_eq_true_iff.mp h with halnum | hmark
  · exact printable_of_isAlphanum halnum
  · have hmarks : "-._~!$&'()*+,;=:@%/".toList.all printable = true := by decide +kernel
    exact List.all_eq_true.mp hmarks c (List.contains_iff_mem.mp hmark)

/-- Cleaning leaves printable characters alone. -/
theorem clean_of_printable {c : Char} (h : printable c = true) :
    clean c ∧ isSpace c = false := by
  have hcode := printable_iff.mp h
  refine ⟨⟨?_, ?_⟩, ?_⟩
  · simp only [invisible, Bool.or_eq_false_iff, Bool.and_eq_false_iff, decide_eq_false_iff_not,
      beq_eq_false_iff_ne]
    omega
  · rw [plainGlyph, if_neg (by omega), if_neg (by omega), if_neg (by omega)]
  · simp only [isSpace, Bool.or_eq_false_iff, Bool.and_eq_false_iff, decide_eq_false_iff_not,
      beq_eq_false_iff_ne]
    omega

/-- A text of printable characters is only cut. -/
theorem normalizeInput_of_printable {t : Text} (h : ∀ c ∈ t, printable c = true) :
    normalizeInput t = t.take 2048 := by
  have hcap : normalizeInput (t.take webUrlMax) = normalizeInput t := by
    rw [normalizeInput, List.take_take, Nat.min_self, normalizeInput]
  have hcut : ∀ c ∈ t.take webUrlMax, clean c ∧ isSpace c = false := fun c hc =>
    clean_of_printable (h c (List.mem_of_mem_take hc))
  have hstripped : Stripped (t.take webUrlMax) :=
    ⟨fun c hc => (hcut c (List.mem_of_head? hc)).2,
      fun c hc => (hcut c (List.mem_of_getLast? hc)).2⟩
  rw [← hcap, normalizeInput_of_clean (fun c hc => (hcut c hc).1) (List.length_take_le ..),
    strip_of_stripped hstripped, List.take_take]
  rfl

namespace BareAddress

variable {env : Env} {checks : Text → Bool} {a : BareAddress}

/-- A character of host and port is one of a host name, a colon or a digit. -/
theorem netloc_char {c : Char} (h : c ∈ a.netloc) :
    hostChar c = true ∨ c = ':' ∨ c.isDigit = true := by
  rcases List.mem_append.mp h with hhost | hport
  · exact .inl (List.all_eq_true.mp a.host_chars c hhost)
  · cases hp : a.port with
    | none =>
      rw [hp] at hport
      cases hport
    | some port =>
      rw [hp] at hport
      rcases List.mem_cons.mp hport with rfl | hdigit
      · exact .inr (.inl rfl)
      · exact .inr (.inr (List.all_eq_true.mp (a.port_digits port hp).2 c hdigit))

/-- The whole address is printable, so `_normalize_input` leaves it as it is. -/
theorem text_printable : ∀ c ∈ a.text, printable c = true := by
  intro c hc
  rcases List.mem_append.mp hc with hnetloc | hpath
  · rcases netloc_char hnetloc with hhost | rfl | hdigit
    · exact printable_of_hostChar hhost
    · rfl
    · exact printable_of_isAlphanum (by rw [Char.isAlphanum, hdigit, Bool.or_true])
  · exact printable_of_pathChar (List.all_eq_true.mp a.path_chars c hpath)

/-! ## What stands in front of a colon -/

theorem host_cons (a : BareAddress) : ∃ c rest, a.host = c :: rest ∧ c.isAlphanum = true := by
  have hstarts := a.host_starts
  cases hhost : a.host with
  | nil =>
    rw [hhost] at hstarts
    cases hstarts
  | cons c rest =>
    rw [hhost] at hstarts
    exact ⟨c, rest, rfl, hstarts⟩

theorem host_ne_nil (a : BareAddress) : a.host ≠ [] := by
  obtain ⟨c, rest, hcons, -⟩ := a.host_cons
  rw [hcons]
  exact List.cons_ne_nil c rest

theorem netloc_ne_nil (a : BareAddress) : a.netloc ≠ [] :=
  List.append_ne_nil_of_left_ne_nil a.host_ne_nil _

theorem text_ne_nil (a : BareAddress) : a.text ≠ [] :=
  List.append_ne_nil_of_left_ne_nil a.netloc_ne_nil _

/-- The host is taken for a scheme. -/
def Mistaken (a : BareAddress) : Prop := a.port ≠ none ∧ a.host.head?.any Char.isAlpha = true

instance (a : BareAddress) : Decidable a.Mistaken := inferInstanceAs (Decidable (_ ∧ _))

theorem schemeLetter_of_isAlphanum {c : Char} (h : c.isAlphanum = true) :
    schemeLetter c = c.isAlpha := by
  have hcode := code_of_isAlphanum h
  have hfolded : [0x130, 0x131, 0x17F, 0x212A].contains c.toNat = false := by
    rw [← Bool.not_eq_true, List.contains_iff_mem]
    simp only [List.mem_cons, List.not_mem_nil, or_false]
    omega
  rw [schemeLetter, hfolded, Bool.or_false, Char.isAlpha, Bool.or_comm]

/-- An address is taken to have a scheme exactly if its host and colon read like one. -/
theorem hasScheme_text : hasScheme a.text = true ↔ a.Mistaken := by
  obtain ⟨c, rest, hhost, hc⟩ := a.host_cons
  have hstop : ∀ d ∈ rest, (schemeLetter d || d.isDigit || d == '+' || d == '.' || d == '-') =
      true := by
    intro d hd
    have hchar := List.all_eq_true.mp a.host_chars d (hhost ▸ List.mem_cons_of_mem c hd)
    rcases hostChar_cases hchar with halnum | rfl | rfl
    · rw [schemeLetter_of_isAlphanum halnum, ← Char.isAlphanum, halnum]
      rfl
    · rfl
    · rfl
  have htext : a.text = c :: (rest ++ (portText a.port ++ a.path)) := by
    rw [text, netloc, hhost, List.cons_append, List.cons_append, List.append_assoc]
  have hbehind : ((rest ++ (portText a.port ++ a.path)).dropWhile fun d =>
      schemeLetter d || d.isDigit || d == '+' || d == '.' || d == '-').head? == some ':' ↔
      a.port ≠ none := by
    rw [List.dropWhile_append_of_pos hstop]
    -- Behind the host comes its port, its path or nothing.
    cases hport : a.port with
    | none =>
      refine iff_of_false ?_ fun hne => hne rfl
      rcases a.path_absolute with hnil | hslash
      · rw [hnil]
        decide
      · obtain ⟨path, hpath⟩ := List.head?_eq_some_iff.mp hslash
        rw [hpath]
        exact Bool.false_ne_true
    | some port => exact iff_of_true rfl (Option.some_ne_none port)
  unfold Mistaken
  rw [htext, hasScheme, hhost, Bool.and_eq_true, hbehind, schemeLetter_of_isAlphanum hc, and_comm]
  rfl

/-! ## The parse -/

theorem isScheme_https : IsScheme "https".toList := ⟨rfl, rfl, rfl⟩

theorem not_mem_netloc {c : Char} (h : hostChar c = false) (hcolon : c ≠ ':')
    (hdigit : c.isDigit = false) : c ∉ a.netloc := by
  intro hmem
  rcases netloc_char hmem with hhost | rfl | hport
  · exact Bool.false_ne_true (h.symm.trans hhost)
  · exact hcolon rfl
  · exact Bool.false_ne_true (hdigit.symm.trans hport)

/-- With `https://` in front, the address is parsed into its host and its path. -/
theorem parsed_text (hchecks : ChecksPlain checks) :
    Lib.urlparse checks ("https://".toList ++ a.text) =
      some (splitRest "https".toList a.netloc a.path) := by
  -- the host ends where the path begins, and not before
  have hplain : ∀ c ∈ a.netloc, netlocEnd c = false := by
    intro c hc
    by_contra hend
    rw [Bool.not_eq_false, netlocEnd, Bool.or_eq_true, Bool.or_eq_true, beq_iff_eq, beq_iff_eq,
      beq_iff_eq] at hend
    rcases hend with (rfl | rfl) | rfl <;> exact not_mem_netloc rfl (by decide) rfl hc
  have hends : ∀ c ∈ a.path.head?, netlocEnd c = true := by
    intro c hc
    rcases a.path_absolute with hnil | hslash
    · rw [hnil] at hc
      cases hc
    · obtain rfl := Option.some.inj (hslash.symm.trans hc)
      rfl
  have hkept : ∀ c ∈ a.netloc ++ a.path, removedByte c = false := fun c hc =>
    removedByte_of_clean (clean_of_printable (text_printable c hc)).1
  have hopen : '[' ∉ a.netloc := not_mem_netloc rfl (by decide) rfl
  have hclose : ']' ∉ a.netloc := not_mem_netloc rfl (by decide) rfl
  -- it has no brackets, and nothing that normalises into a mark
  have hvalid : validNetloc checks a.netloc = true := by
    have hpass : checks a.netloc = true := by
      refine hchecks a.netloc fun c hc =>
        ⟨?_, fun he => hopen (he ▸ hc), fun he => hclose (he ▸ hc)⟩
      have hcode := printable_iff.mp (text_printable c (List.mem_append_left _ hc))
      omega
    have hbrackets : a.netloc.contains '[' = a.netloc.contains ']' := by
      rw [Bool.eq_iff_iff, List.contains_iff_mem, List.contains_iff_mem]
      exact iff_of_false hopen hclose
    rw [validNetloc, hpass, hbrackets, Bool.or_true, Bool.and_true, beq_self_eq_true]
  have htext : "https://".toList ++ a.text =
      "https".toList ++ "://".toList ++ a.netloc ++ a.path := by
    simp only [text, List.append_assoc]
    rfl
  rw [htext, urlparse_text checks isScheme_https hplain hends hkept, if_pos hvalid]

theorem takeWhile_whole {p : Char → Bool} {t : Text} (h : ∀ c ∈ t, p c = true) :
    t.takeWhile p = t ∧ t.dropWhile p = [] :=
  ⟨List.takeWhile_eq_self_iff.mpr h, List.dropWhile_eq_nil_iff.mpr h⟩

/-- A host is ASCII, so that lowering is lowering letter by letter. -/
theorem host_ascii : ∀ c ∈ a.host, c.toNat < 128 := fun c hc =>
  ascii_of_hostChar (List.all_eq_true.mp a.host_chars c hc)

/-- A host in lower case is as it will be. -/
theorem lower_host (hlower : LowersAscii env) :
    env.lower (a.host.map Char.toLower) = a.host.map Char.toLower := by
  have hascii : ∀ c ∈ a.host.map Char.toLower, c.toNat < 128 := by
    intro c hc
    obtain ⟨d, hd, rfl⟩ := List.mem_map.mp hc
    exact ascii_of_hostChar (hostChar_toLower (List.all_eq_true.mp a.host_chars d hd))
  rw [hlower _ hascii, List.map_map]
  exact List.map_congr_left fun c _ => Char.toLower_toLower_eq_toLower c

/-- The host name that is read back is the host, in small letters. -/
theorem hostname_netloc (hlower : LowersAscii env) {u : Url} (hu : u.netloc = a.netloc) :
    (ParseResult.ofUrl u).hostname (env.cpython checks) = some (a.host.map Char.toLower) := by
  have hat : '@' ∉ a.netloc := not_mem_netloc rfl (by decide) rfl
  have hopen : '[' ∉ a.netloc := not_mem_netloc rfl (by decide) rfl
  have hinfo : (u.netloc.reverse.takeWhile fun c => c ≠ '@').reverse = a.netloc := by
    rw [hu, (takeWhile_whole fun c hc => ?_).1, List.reverse_reverse]
    exact decide_eq_true fun he => hat (he ▸ List.mem_reverse.mp hc)
  have hhost : a.netloc.takeWhile (fun c => c ≠ ':') = a.host := by
    have hplain : ∀ c ∈ a.host, decide (c ≠ ':') = true := by
      intro c hc
      refine decide_eq_true ?_
      rintro rfl
      exact Bool.false_ne_true (List.all_eq_true.mp a.host_chars ':' hc)
    rw [netloc, List.takeWhile_append_of_pos hplain]
    cases a.port with
    | none => exact List.append_nil _
    | some port => exact List.append_nil _
  -- and there is no zone, whose letters would keep their case
  have hzone : a.host.takeWhile (fun c => c ≠ '%') = a.host ∧
      a.host.dropWhile (fun c => c ≠ '%') = [] := by
    refine takeWhile_whole fun c hc => decide_eq_true ?_
    rintro rfl
    exact not_mem_netloc rfl (by decide) rfl (List.mem_append_left _ hc)
  have hlowered : (env.cpython checks).lower a.host = a.host.map Char.toLower :=
    hlower a.host host_ascii
  unfold ParseResult.hostname
  dsimp only [ParseResult.ofUrl]
  rw [hinfo, if_neg hopen, hhost, if_neg a.host_ne_nil, hzone.1, hzone.2, hlowered, List.append_nil]

theorem not_mem_path {mark : Char} (h : pathChar mark = false) : mark ∉ a.path := by
  intro hmem
  exact Bool.false_ne_true (h.symm.trans (List.all_eq_true.mp a.path_chars mark hmem))

/-- The address is written down as it came, unless the last segment of its path ends in
the semicolon of empty parameters. -/
theorem urlunparse_text (hchecks : ChecksPlain checks) :
    urlunparse (splitRest "https".toList a.netloc a.path) = "https://".toList ++ a.text ↔
      ¬ Bare ';' (lastSegment a.path) := by
  have hparsed := urlparse_parsed (parsed_text (a := a) hchecks)
  have hunsplit : ∀ mark, pathChar mark = false → splitOnce mark a.path = (a.path, []) := by
    intro mark hchar
    have hsplit : splitOnce mark (a.path ++ suffix mark []) = (a.path, []) :=
      splitOnce_eq (not_mem_path hchar)
    rwa [suffix, if_pos rfl, List.append_nil] at hsplit
  have hhash : splitOnce '#' a.path = (a.path, []) := hunsplit '#' (by decide)
  have hquestion : splitOnce '?' a.path = (a.path, []) := hunsplit '?' (by decide)
  have hbare : ∀ mark, pathChar mark = false → ¬ Bare mark a.path := by
    rintro mark hchar ⟨before, -, hpath⟩
    refine not_mem_path (a := a) hchar ?_
    rw [hpath]
    exact List.mem_append_right _ (List.mem_singleton_self _)
  have hwritten : urlunparse (splitRest "https".toList a.netloc a.path) =
      "https://".toList ++ a.netloc ++ (splitRest "https".toList a.netloc a.path).rest :=
    urlunparse_located hparsed (List.cons_ne_nil _ _) a.netloc_ne_nil
  rw [hwritten, text, ← List.append_assoc, List.append_cancel_left_eq, splitRest_rest_iff]
  constructor
  -- a bare semicolon at the end is what gets lost, and nothing else can
  · intro hunbared
    have hparams := hunbared.params (by decide)
    rwa [hhash, hquestion] at hparams
  · intro hsemicolon
    refine ⟨hbare '#' (by decide), ?_, fun _ => ?_⟩
    · rw [hhash]
      exact hbare '?' (by decide)
    · rw [hhash, hquestion]
      exact hsemicolon

end BareAddress

/-! ## Accepted addresses -/

variable {env : Env} {checks : Text → Bool} {a : BareAddress}

/-- The result is longer than the input, so a scheme was put in front of all of it. -/
theorem BareAddress.Accepted.fits (h : a.Accepted env checks) :
    a.text.length ≤ 2048 ∧ hasScheme a.text = false := by
  obtain ⟨-, u, host, hparse, hparts, -, -, hp⟩ := parseHttpUrl_eq_some.mp h
  have hurl : "https://".toList ++ a.text = urlunparse u := congrArg ParsedUrl.url hp
  have hlonger : 8 + a.text.length ≤ (candidateOf (normalizeInput a.text)).length := by
    have hbehind : ("https://".toList ++ a.text).length = 8 + a.text.length := List.length_append
    rw [← hbehind, hurl]
    exact urlunparse_length_le hparse hparts.scheme_ne hparts.netloc
  have hclean := normalizeInput_of_printable a.text_printable
  have hcut : (normalizeInput a.text).length ≤ 2048 := by
    rw [hclean]
    exact List.length_take_le ..
  have hpart : (normalizeInput a.text).length ≤ a.text.length := by
    rw [hclean]
    exact List.length_take_le' ..
  have hscheme : hasScheme (normalizeInput a.text) = false := by
    by_contra hscheme
    rw [Bool.not_eq_false] at hscheme
    rw [candidateOf, if_pos hscheme] at hlonger
    omega
  have hfits : a.text.length ≤ 2048 := by
    rw [candidateOf, hscheme, if_neg Bool.false_ne_true, List.length_append] at hlonger
    have height : "https://".toList.length = 8 := rfl
    omega
  rw [hclean, List.take_of_length_le hfits] at hscheme
  exact ⟨hfits, hscheme⟩

/-- **A bare address is accepted exactly if it fits, nothing in front of its port is
taken for a scheme, and its path does not end in a bare semicolon.** -/
theorem bare_host_accepted_iff {env : Env} {checks : Text → Bool} (hlower : LowersAscii env)
    (hchecks : ChecksPlain checks) (a : BareAddress) :
    a.Accepted env checks ↔
      a.text.length ≤ 2048 ∧ ¬ a.Mistaken ∧ ¬ Bare ';' (lastSegment a.path) := by
  have hparse := BareAddress.parsed_text (a := a) hchecks
  -- What is parsed, once the address fits and has no scheme.
  have hcandidate : a.text.length ≤ 2048 → hasScheme a.text = false →
      normalizeInput a.text = a.text ∧ candidateOf a.text = "https://".toList ++ a.text := by
    intro hfits hscheme
    rw [normalizeInput_of_printable a.text_printable, List.take_of_length_le hfits, candidateOf,
      hscheme, if_neg Bool.false_ne_true]
    exact ⟨rfl, rfl⟩
  rw [← BareAddress.hasScheme_text, Bool.not_eq_true]
  constructor
  · intro haccepted
    obtain ⟨hfits, hscheme⟩ := haccepted.fits
    obtain ⟨-, u, host, hparse', -, -, -, hp⟩ := parseHttpUrl_eq_some.mp haccepted
    rw [(hcandidate hfits hscheme).1, (hcandidate hfits hscheme).2, hparse] at hparse'
    obtain rfl := Option.some.inj hparse'
    have hurl := congrArg ParsedUrl.url hp
    exact ⟨hfits, hscheme, (BareAddress.urlunparse_text hchecks).mp hurl.symm⟩
  · rintro ⟨hfits, hscheme, hsemicolon⟩
    obtain ⟨hclean, hbehind⟩ := hcandidate hfits hscheme
    refine parseHttpUrl_eq_some.mpr ⟨?_, splitRest "https".toList a.netloc a.path,
      a.host.map Char.toLower, ?_, ⟨urlparse_parsed hparse, .inr rfl, a.netloc_ne_nil⟩,
      BareAddress.hostname_netloc hlower rfl, ?_, ?_⟩
    · rw [hclean]
      exact a.text_ne_nil
    · rw [hclean, hbehind]
      exact hparse
    · exact fun hnil => a.host_ne_nil (List.map_eq_nil_iff.mp hnil)
    · rw [BareAddress.lower_host hlower, (BareAddress.urlunparse_text hchecks).mpr hsemicolon]

theorem sampleEnv_lowersAscii : LowersAscii sampleEnv := fun _ _ => rfl

/-- A check that never objects does not object to plain hosts. -/
theorem checksPlain_all : ChecksPlain fun _ => true := fun _ _ => rfl

/-- A number in front of a port is no scheme. -/
def numericAddress : BareAddress where
  host := "10.0.0.1".toList
  port := some "8080".toList
  path := "/Page;v=1/~x".toList
  host_starts := rfl
  host_chars := rfl
  port_digits := by decide
  path_absolute := .inr rfl
  path_chars := by decide

/-- A dotted number with a port is taken for what it is. -/
theorem numericAddress_accepted : numericAddress.Accepted sampleEnv fun _ => true := by
  refine (bare_host_accepted_iff sampleEnv_lowersAscii checksPlain_all numericAddress).mpr
    ⟨by decide, by decide, ?_⟩
  rintro ⟨before, -, hbare⟩
  have hlast : (lastSegment numericAddress.path).getLast? = some 'x' := by decide
  rw [hbare, List.getLast?_concat] at hlast
  cases hlast

/-- `example.com:8080`. -/
def hostWithPort : BareAddress where
  host := "example.com".toList
  port := some "8080".toList
  path := []
  host_starts := rfl
  host_chars := rfl
  port_digits := by decide
  path_absolute := .inl rfl
  path_chars := rfl

/-- A name with a port is not: `localhost:8000` reads like a URL of the scheme `localhost`. -/
theorem hostWithPort_not_accepted : ¬ ∀ env checks, LowersAscii env → ChecksPlain checks →
    ∀ a : BareAddress, a.text.length ≤ 2048 → a.Accepted env checks := by
  intro hall
  have haccepted := hall sampleEnv (fun _ => true) sampleEnv_lowersAscii checksPlain_all
    hostWithPort (by decide)
  have hnone : parseHttpUrl (sampleEnv.cpython fun _ => true) hostWithPort.text = none := by
    decide +kernel
  cases hnone.symm.trans haccepted

end SarkariWorld.Content
