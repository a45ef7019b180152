import SarkariWorld.Content.Payload

/-!
# Web URLs

The `WebUrl` table, the URL parser of `utils/urls.py` that decides what goes
into it, and the writing endpoints of `routers/v1/admin/web_urls.py`. As with
articles, a request first decides what to write (`createWebUrl` and its
siblings), and its commit carries that out (`commitWebUrl`).

A URL goes through `parse_http_url` before anything else happens to it. The parser turns
it into its canonical form or rejects it, and that form is what is looked up, compared and
stored; the text that was typed is not kept.

The domain is the host of the parsed URL, stored beside it for the list's search. A title
that is longer than its limit is cut in the route, and a domain that is longer than a host
name can be is refused there, so its columns, which are `text`, have nothing to object to
but U+0000.
-/

namespace SarkariWorld.Content

open SarkariWorld.Lib

/-- A row of the table. -/
structure WebUrl where
  id : Int
  url : Text
  title : Text
  domain : Text
  lastViewedAt : Option Int
  createdAt : Int
  updatedAt : Int
  deriving DecidableEq, Repr

/-! ## The table -/

/-- The primary key, as a column. -/
def WebUrl.idCol (w : WebUrl) : Option Int := some w.id

/-- `url`, as a column. -/
def WebUrl.urlCol (w : WebUrl) : Option Text := some w.url

@[simp] theorem WebUrl.idCol_eq_some {w : WebUrl} {i : Int} : w.idCol = some i ↔ w.id = i := by
  simp [WebUrl.idCol]

@[simp] theorem WebUrl.urlCol_eq_some {w : WebUrl} {url : Text} :
    w.urlCol = some url ↔ w.url = url := by
  simp [WebUrl.urlCol]

/-- The row fits its columns: `Integer`, three `TIMESTAMP(3)`, and strings
Postgres stores. -/
def WebUrl.Fits (w : WebUrl) : Prop :=
  Int4 w.id ∧ (∀ d ∈ w.lastViewedAt.toList ++ [w.createdAt, w.updatedAt], timestamp3 d = d) ∧
    ∀ t ∈ [w.url, w.title, w.domain], Storable t

instance WebUrl.decidableFits (w : WebUrl) : Decidable w.Fits :=
  inferInstanceAs (Decidable (_ ∧ _ ∧ _))

/-- The table. Its rows fit their columns, and two rows share neither a number nor a URL. -/
structure WebUrlTable where
  rows : List WebUrl
  fits : ∀ w ∈ rows, w.Fits
  uniqueId : UniqueCol WebUrl.idCol rows
  uniqueUrl : UniqueCol WebUrl.urlCol rows

/-- A table without rows. -/
def WebUrlTable.empty : WebUrlTable := ⟨[], by simp, List.nodup_nil, List.nodup_nil⟩

/-- Store a new version of the table, unless the schema refuses it. -/
def WebUrlTable.write (rows : List WebUrl) : Except PyError WebUrlTable :=
  if hfits : ∀ w ∈ rows, w.Fits then
    if hunique : UniqueCol WebUrl.idCol rows ∧ UniqueCol WebUrl.urlCol rows then
      .ok ⟨rows, hfits, hunique.1, hunique.2⟩
    else .error .integrityError
  else .error .dataError

/-- A table that could be written has the rows it was written with. -/
theorem WebUrlTable.write_ok {rows : List WebUrl} {t : WebUrlTable}
    (h : WebUrlTable.write rows = .ok t) : t.rows = rows := by
  unfold WebUrlTable.write at h
  split at h
  next =>
    split at h
    next => rw [← Except.ok.inj h]
    next => cases h
  next => cases h

/-- The stored row with primary key `id`. -/
def WebUrlTable.find (t : WebUrlTable) (id : Int) : Option WebUrl := lookup WebUrl.idCol id t.rows

theorem WebUrlTable.find_eq_some {t : WebUrlTable} {id : Int} {w : WebUrl} :
    t.find id = some w ↔ w ∈ t.rows ∧ w.id = id := by
  rw [WebUrlTable.find, lookup_eq_some_iff t.uniqueId, WebUrl.idCol_eq_some]

/-! ## Parsing -/

/-- `ParsedUrl`. -/
structure ParsedUrl where
  url : Text
  domain : Text
  deriving DecidableEq, Repr

def webUrlMax : Nat := 2100
def webUrlTitleMax : Nat := 300
def webUrlDomainMax : Nat := 253

/-- `_INVISIBLE`, on one character. -/
def invisible (c : Char) : Bool :=
  let n := c.toNat
  n ≤ 0x1F || (0x7F ≤ n && n ≤ 0x9F) || (0x200B ≤ n && n ≤ 0x200D) || n == 0x2060 || n == 0xFEFF

/-- The three `.replace` calls of `_normalize_input`: the no-break space and the
full-width colon and slash. -/
def plainGlyph (c : Char) : Char :=
  if c.toNat = 0xA0 then ' ' else if c.toNat = 0xFF1A then ':' else if c.toNat = 0xFF0F then '/'
  else c

/-- `_normalize_input`. -/
def normalizeInput (value : Text) : Text :=
  (strip (((value.take webUrlMax).filter fun c => !invisible c).map plainGlyph)).take 2048

/-- `[a-z]` without regard to case: `re` also folds four letters outside ASCII. -/
def schemeLetter (c : Char) : Bool :=
  c.isLower || c.isUpper || [0x130, 0x131, 0x17F, 0x212A].contains c.toNat

/-- `_SCHEME.match`. -/
def hasScheme : Text → Bool
  | [] => false
  | c :: cs =>
    schemeLetter c && (cs.dropWhile fun d =>
      schemeLetter d || d.isDigit || d == '+' || d == '.' || d == '-').head? == some ':'

/-- `ParseResult.hostname`: what is left of the network location without user,
port and brackets. A zone keeps its case. -/
def ParseResult.hostname (env : Env) (parsed : ParseResult) : Option Text :=
  let hostinfo := (parsed.netloc.reverse.takeWhile fun c => c ≠ '@').reverse
  let host :=
    if '[' ∈ hostinfo then
      ((hostinfo.dropWhile fun c => c ≠ '[').drop 1).takeWhile fun c => c ≠ ']'
    else hostinfo.takeWhile fun c => c ≠ ':'
  if host = [] then none
  else some (env.lower (host.takeWhile fun c => c ≠ '%') ++ host.dropWhile fun c => c ≠ '%')

/-- `parse_http_url`. -/
def parseHttpUrl (env : Env) (value : Text) : Option ParsedUrl :=
  let cleaned := normalizeInput value
  if cleaned = [] then none
  else
    match env.urlparse (if hasScheme cleaned then cleaned else "https://".toList ++ cleaned) with
    | none => none
    | some parsed =>
      if parsed.scheme ≠ "http".toList ∧ parsed.scheme ≠ "https".toList then none
      else
        match parsed.hostname env with
        | none | some [] => none
        | some host => some ⟨env.urlunparse parsed, env.lower host⟩

/-! ## Requests -/

/-- The body of `create_web_url`, as Pydantic accepts it. -/
structure WebUrlCreate where
  url : Text
  title : Option Text
  url_valid : 1 ≤ url.length ∧ url.length ≤ webUrlMax
  title_short : ∀ t ∈ title, t.length ≤ webUrlTitleMax

/-- What a request about URLs decides to write. -/
inductive WebUrlWrite where
  /-- `session.add(WebUrl(…))`. -/
  | insert (url domain title : Text)
  /-- A loaded row, and the `last_viewed_at` assigned to it. -/
  | view (loaded : WebUrl) (stamped : Int)
  /-- `update(WebUrl).values(last_viewed_at=stamped)`. -/
  | viewAll (stamped : Int)
  /-- `session.delete(web_url)`. -/
  | delete (loaded : WebUrl)
  deriving DecidableEq, Repr

/-- The conflict of `create_web_url`. -/
def urlInList : Failure := .app (conflictError "That URL is already in the list.")

/-- `find_by_url`. -/
def findByUrl (t : WebUrlTable) (url : Text) : Except PyError (Option WebUrl) :=
  if Storable url then scalarOneOrNone (whereEq WebUrl.urlCol url t.rows) else .error .dataError

/-- `create_web_url`, up to its commit. -/
def createWebUrl (env : Env) (t : WebUrlTable) (payload : WebUrlCreate) :
    Except Failure WebUrlWrite :=
  match parseHttpUrl env payload.url with
  | none => .error (.app (validationError "A valid http(s) URL is required."))
  | some parsed =>
    if parsed.domain.length > webUrlDomainMax then
      .error (.app (validationError "Domain is too long."))
    else
      match findByUrl t parsed.url with
      | .error e => .error (.raised e)
      | .ok (some _) => .error urlInList
      | .ok none =>
        .ok (.insert parsed.url parsed.domain
          ((strip (payload.title.getD [])).take webUrlTitleMax))

/-- What `create_web_url` checks and inserts. -/
theorem createWebUrl_ok {env : Env} {t : WebUrlTable} {payload : WebUrlCreate}
    {write : WebUrlWrite} (h : createWebUrl env t payload = .ok write) :
    ∃ parsed, parseHttpUrl env payload.url = some parsed ∧
      parsed.domain.length ≤ webUrlDomainMax ∧ findByUrl t parsed.url = .ok none ∧
      write = .insert parsed.url parsed.domain
        ((strip (payload.title.getD [])).take webUrlTitleMax) := by
  unfold createWebUrl at h
  split at h
  next => cases h
  next parsed hparsed =>
    split at h
    next => cases h
    next hshort =>
      split at h
      next => cases h
      next => cases h
      next hnone =>
        exact ⟨parsed, hparsed, Nat.not_lt.mp hshort, hnone, (Except.ok.inj h).symm⟩

/-- The row the path names, or the 404. -/
def getWebUrl (t : WebUrlTable) (webUrlId : Int) : Except Failure WebUrl :=
  if Int4 webUrlId then
    match t.find webUrlId with
    | none => .error (.app (notFoundError ("Web URL not found: " ++ toString webUrlId)))
    | some w => .ok w
  else .error (.raised .dataError)

/-- `mark_viewed`, up to its commit. -/
def markViewed (t : WebUrlTable) (clock : Nat) (webUrlId : Int) : Except Failure WebUrlWrite :=
  (getWebUrl t webUrlId).map fun w => .view w (nowIst clock)

/-- `mark_all_viewed`. -/
def markAllViewed (clock : Nat) : WebUrlWrite := .viewAll (nowIst clock)

/-- `delete_web_url`, up to its commit. -/
def deleteWebUrl (t : WebUrlTable) (webUrlId : Int) : Except Failure WebUrlWrite :=
  (getWebUrl t webUrlId).map .delete

/-! ## Commits -/

/-- The row with its stamp. -/
def WebUrl.stamp (w : WebUrl) (stamped : Int) : WebUrl :=
  { w with lastViewedAt := some (timestamp3 stamped) }

/-- `session.commit()`: the table and, where one row was written, that row. -/
def commitWebUrl (t : WebUrlTable) (clock : Nat) (nextId : Int) :
    WebUrlWrite → Except PyError (WebUrlTable × Option WebUrl)
  | .insert url domain title => do
    let row : WebUrl := ⟨nextId, url, title, domain, none, timestamp3 (nowIst clock),
      timestamp3 (nowIst clock)⟩
    let t' ← WebUrlTable.write (t.rows ++ [row])
    pure (t', some row)
  | .view loaded stamped =>
    match t.find loaded.id with
    | none => .error (if loaded.lastViewedAt = some stamped then .invalidRequestError
        else .staleDataError)
    | some stored =>
      if loaded.lastViewedAt = some stamped then .ok (t, some stored)
      else do
        let t' ← WebUrlTable.write
          (updateWhere WebUrl.idCol loaded.id (fun w => w.stamp stamped) t.rows)
        pure (t', some (stored.stamp stamped))
  | .viewAll stamped => do
    let t' ← WebUrlTable.write (t.rows.map fun w => w.stamp stamped)
    pure (t', none)
  | .delete loaded => do
    let t' ← WebUrlTable.write (t.rows.filter fun w => w.id ≠ loaded.id)
    pure (t', none)

end SarkariWorld.Content
