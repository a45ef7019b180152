import SarkariWorld.Lib.Url
import SarkariWorld.Content.Normalisers
import SarkariWorld.Content.WebUrl

/-!
# The URLs that are stored

`valid_http_url` and `parse_http_url` decide on the components `urlparse` finds in
their input and return what `urlunparse` makes of them, which is another string; the
normalisers of an article then cut that string to the length of its column. What is
stored is an `http(s)` URL with a host all the same (`stored_urls_are_http`): the
serialisation starts with the components that were checked, and a cut at 2048
characters is far behind them.

The domain of a web URL is stored next to it. It is the host of the URL that is
stored, not only of the text it was made from, because the serialisation is read
back as the same components (`urlparse_urlunparse`).

Five paths lead a URL into the database: the cover and the links of an article, its two
video lists, and the list of web URLs. Each goes through one of the two functions, and
some are cut afterwards, so there are two lemmas and five applications.
-/

namespace SarkariWorld.Content

open Lib

/-! ## The library -/

/-- The parts of a URL, as `urlparse` names them. -/
def ParseResult.ofUrl (u : Url) : ParseResult :=
  ⟨u.scheme, u.netloc, u.path, u.params, u.query, u.fragment⟩

/-- The same, the other way. -/
def ParseResult.toUrl (p : ParseResult) : Url :=
  ⟨p.scheme, p.netloc, p.path, p.params, p.query, p.fragment⟩

/-- The libraries with the `urllib.parse` of CPython 3.14; `checks` says which
network locations pass the checks of their letters and their brackets. -/
def Env.cpython (env : Env) (checks : Text → Bool) : Env :=
  { env with
    urlparse := fun t => (Lib.urlparse checks t).map ParseResult.ofUrl
    urlunparse := fun p => Lib.urlunparse p.toUrl }

theorem urlparse_cpython (env : Env) (checks : Text → Bool) (t : Text) :
    (env.cpython checks).urlparse t = (Lib.urlparse checks t).map ParseResult.ofUrl := rfl

theorem cpython_urlparse {env : Env} {checks : Text → Bool} {t : Text} {parsed : ParseResult}
    (h : (env.cpython checks).urlparse t = some parsed) :
    ∃ u, Lib.urlparse checks t = some u ∧ ParseResult.ofUrl u = parsed := by
  rw [urlparse_cpython] at h
  exact Option.map_eq_some_iff.mp h

/-- `http://` or `https://` in lower case, and an authority of one character at
least. -/
def IsHttpUrl (url : Text) : Prop :=
  ∃ scheme ∈ ["http://".toList, "https://".toList], ∃ c rest,
    netlocEnd c = false ∧ url = scheme ++ c :: rest

variable {env : Env} {checks : Text → Bool}

/-- The components a URL is checked by. -/
structure HttpParts (checks : Text → Bool) (u : Url) : Prop where
  parsed : u.Parsed checks
  scheme : u.scheme = "http".toList ∨ u.scheme = "https".toList
  netloc : u.netloc ≠ []

theorem HttpParts.scheme_ne {u : Url} (h : HttpParts checks u) : u.scheme ≠ [] := by
  obtain hscheme | hscheme := h.scheme <;> rw [hscheme] <;> decide

/-- What is serialised starts with what was checked. -/
theorem HttpParts.isHttpUrl {u : Url} (h : HttpParts checks u) : IsHttpUrl (urlunparse u) := by
  rw [urlunparse_located h.parsed h.scheme_ne h.netloc]
  cases hnetloc : u.netloc with
  | nil => exact absurd hnetloc h.netloc
  | cons c rest =>
    have hc : netlocEnd c = false := h.parsed.netloc c (by rw [hnetloc]; exact List.mem_cons_self)
    refine ⟨u.scheme ++ "://".toList, ?_, c, rest ++ u.rest, hc, ?_⟩
    · obtain hscheme | hscheme := h.scheme
      · rw [hscheme]
        exact List.mem_cons_self
      · rw [hscheme]
        exact List.mem_cons_of_mem _ List.mem_cons_self
    · rw [List.append_assoc, List.cons_append]

/-- Cut behind its first nine characters, a URL stays one. -/
theorem IsHttpUrl.take {url : Text} (h : IsHttpUrl url) {cap : Nat} (hcap : 8 < cap) :
    IsHttpUrl (url.take cap) := by
  obtain ⟨scheme, hscheme, c, rest, hc, rfl⟩ := h
  have hlength : scheme.length ≤ 8 := by
    rcases List.mem_pair.mp hscheme with rfl | rfl <;> decide
  refine ⟨scheme, hscheme, c, rest.take (cap - scheme.length - 1), hc, ?_⟩
  rw [List.take_append, List.take_of_length_le (by omega)]
  obtain ⟨room, hroom⟩ : ∃ room, cap - scheme.length = room + 1 :=
    ⟨cap - scheme.length - 1, by omega⟩
  rw [hroom, List.take_succ_cons, Nat.add_sub_cancel]

/-! ## The two parsers -/

/-- What `valid_http_url` returns was put together from parts that it had checked. -/
theorem validHttpUrl_parts {value : Option Text} {url : Text}
    (h : validHttpUrl (env.cpython checks) value = some url) :
    ∃ u, HttpParts checks u ∧ Lib.urlparse checks (strip (value.getD [])) = some u ∧
      url = urlunparse u := by
  unfold validHttpUrl at h
  dsimp only at h
  split at h
  next => cases h
  next =>
    split at h
    next => cases h
    next parsed hparse =>
      obtain ⟨u, hu, rfl⟩ := cpython_urlparse hparse
      split at h
      next => cases h
      next hhttp =>
        rw [not_or, not_and_or, not_not, not_not] at hhttp
        exact ⟨u, ⟨urlparse_parsed hu, hhttp.1, hhttp.2⟩, hu, (Option.some.inj h).symm⟩

/-- A host is part of a network location. -/
theorem netloc_ne_of_hostname {env : Env} {parsed : ParseResult} {host : Text}
    (h : parsed.hostname env = some host) : parsed.netloc ≠ [] := by
  intro hnil
  rw [ParseResult.hostname, hnil] at h
  cases h

/-- What is parsed: the cleaned text, as it is or behind `https://`. -/
def candidateOf (cleaned : Text) : Text :=
  if hasScheme cleaned then cleaned else "https://".toList ++ cleaned

/-- When `parse_http_url` returns something, and what. -/
theorem parseHttpUrl_eq_some {value : Text} {p : ParsedUrl} :
    parseHttpUrl (env.cpython checks) value = some p ↔ normalizeInput value ≠ [] ∧
      ∃ u host, Lib.urlparse checks (candidateOf (normalizeInput value)) = some u ∧
        HttpParts checks u ∧ (ParseResult.ofUrl u).hostname (env.cpython checks) = some host ∧
          host ≠ [] ∧ p = ⟨urlunparse u, env.lower host⟩ := by
  unfold parseHttpUrl
  dsimp only
  constructor
  · intro h
    split at h
    next => cases h
    -- the guards in the order of the source: an empty input, the parse, the scheme, the host
    next hne =>
      split at h
      next => cases h
      next parsed hparse =>
        obtain ⟨u, hu, rfl⟩ := cpython_urlparse hparse
        split at h
        next => cases h
        next hhttp =>
          rw [not_and_or, not_not, not_not] at hhttp
          split at h
          next => cases h
          next => cases h
          next host hhostNe hhost =>
            exact ⟨hne, u, host, hu,
              ⟨urlparse_parsed hu, hhttp, netloc_ne_of_hostname hhost⟩, hhost,
              fun hnil => hhostNe hnil, (Option.some.inj h).symm⟩
  · rintro ⟨hne, u, host, hu, hparts, hhost, hhostNe, rfl⟩
    have hparse : (env.cpython checks).urlparse (candidateOf (normalizeInput value)) =
        some (.ofUrl u) := by
      rw [urlparse_cpython, hu, Option.map_some]
    have hhttp : ¬((ParseResult.ofUrl u).scheme ≠ "http".toList ∧
        (ParseResult.ofUrl u).scheme ≠ "https".toList) := by
      rintro ⟨hhttp, hhttps⟩
      exact hparts.scheme.elim hhttp hhttps
    unfold candidateOf at hparse
    rw [if_neg hne, hparse]
    dsimp only
    rw [hhost, if_neg hhttp]
    cases host with
    | nil => exact absurd rfl hhostNe
    | cons c host => rfl

/-- So was what `parse_http_url` returns, and the domain is the host of these parts in small
letters. -/
theorem parseHttpUrl_parts {value : Text} {p : ParsedUrl}
    (h : parseHttpUrl (env.cpython checks) value = some p) :
    ∃ u host, HttpParts checks u ∧ p.url = urlunparse u ∧
      (ParseResult.ofUrl u).hostname (env.cpython checks) = some host ∧
        p.domain = env.lower host := by
  obtain ⟨-, u, host, -, hparts, hhost, -, rfl⟩ := parseHttpUrl_eq_some.mp h
  exact ⟨u, host, hparts, rfl, hhost, rfl⟩

/-! ## What is stored -/

/-- The loop stores what its step gave. -/
theorem step_of_mem_collectUpTo {α β : Type} {limit : Nat} {form : α → Option β} {items : List α}
    (hroom : 0 < limit) {result : β}
    (h : result ∈ collectUpTo limit (fun _ => form) [] items) :
    ∃ item, form item = some result := by
  rw [collectUpTo_forms items hroom, List.nil_append] at h
  obtain ⟨item, -, hitem⟩ := List.mem_filterMap.mp (List.mem_of_mem_take h)
  exact ⟨item, hitem⟩

theorem urlTitleOf_isHttpUrl {item : Json} {link : UrlTitle}
    (h : urlTitleOf (env.cpython checks) item = some link) : IsHttpUrl link.url := by
  unfold urlTitleOf at h
  dsimp only at h
  split at h
  next => cases h
  next => cases h
  next safe _ hsafe =>
    obtain ⟨u, hu, -, rfl⟩ := validHttpUrl_parts hsafe
    obtain rfl := Option.some.inj h
    exact hu.isHttpUrl

theorem articleLinkOf_isHttpUrl {item : Json} {link : ArticleLink}
    (h : Json.articleLinkOf (env.cpython checks) item = some link) : IsHttpUrl link.url := by
  unfold Json.articleLinkOf at h
  split at h
  next =>
    split at h
    next => cases h
    next => cases h
    next safe _ hsafe =>
      obtain ⟨u, hu, -, rfl⟩ := validHttpUrl_parts hsafe
      obtain rfl := Option.some.inj h
      exact hu.isHttpUrl.take (by decide)
  next => cases h

theorem coverImageUrl_isHttpUrl {value : Option Text} {url : Text}
    (h : normaliseCoverImageUrl (env.cpython checks) value = some url) : IsHttpUrl url := by
  obtain ⟨safe, hsafe, hcapped⟩ := Option.bind_eq_some_iff.mp h
  obtain ⟨u, hu, -, rfl⟩ := validHttpUrl_parts hsafe
  unfold capped at hcapped
  split at hcapped
  next => cases hcapped
  next =>
    obtain rfl := Option.some.inj hcapped
    exact hu.isHttpUrl.take (by decide)

/-- **Only `http(s)` URLs are stored**, and the domain of a web URL is the host of
the URL it is stored with. -/
theorem stored_urls_are_http (env : Env) (checks : Text → Bool) :
    (∀ value url, validHttpUrl (env.cpython checks) value = some url → IsHttpUrl url) ∧
    (∀ value p, parseHttpUrl (env.cpython checks) value = some p → IsHttpUrl p.url ∧
      ∃ parsed host, (env.cpython checks).urlparse p.url = some parsed ∧
        parsed.hostname (env.cpython checks) = some host ∧ p.domain = env.lower host) ∧
    (∀ value : Json, ∀ link ∈ value.normaliseArticleLinks (env.cpython checks),
      IsHttpUrl link.url) ∧
    (∀ value : Json, ∀ link ∈ value.normaliseUrlTitleList (env.cpython checks),
      IsHttpUrl link.url) ∧
    ∀ value, ∀ url ∈ normaliseCoverImageUrl (env.cpython checks) value, IsHttpUrl url := by
  refine ⟨fun value url h => ?_, fun value p h => ?_, fun value link h => ?_,
    fun value link h => ?_, fun value url h => coverImageUrl_isHttpUrl h⟩
  · obtain ⟨u, hu, -, rfl⟩ := validHttpUrl_parts h
    exact hu.isHttpUrl
  -- what was put together parses back into its parts, and so to the same host
  · obtain ⟨u, host, hu, hurl, hhost, hdomain⟩ := parseHttpUrl_parts h
    rw [hurl]
    refine ⟨hu.isHttpUrl, .ofUrl u, host, ?_, hhost, hdomain⟩
    rw [urlparse_cpython, urlparse_urlunparse hu.parsed hu.scheme_ne hu.netloc, Option.map_some]
  · rw [Json.normaliseArticleLinks] at h
    obtain ⟨item, hitem⟩ := step_of_mem_collectUpTo (by decide) h
    exact articleLinkOf_isHttpUrl hitem
  · rw [Json.normaliseUrlTitleList] at h
    obtain ⟨item, hitem⟩ := step_of_mem_collectUpTo (by decide) h
    exact urlTitleOf_isHttpUrl hitem

end SarkariWorld.Content
