import SarkariWorld.Content.CanonicalUrls
import SarkariWorld.Site.BookmarkLists

/-!
# The list of web URLs

`create_web_url` looks for the canonical form of a URL among the stored ones, so the list
names nothing twice as long as what it stores is canonical itself. `canonical_urls` says
which inputs see to that: of `valid_http_url`, of `parse_http_url`, and over a whole run.

Two stored URLs denote the same page if their canonical forms are equal (`DenotesOnce`).
The unique index compares the texts, so it is enough that every stored text is its own
canonical form, and the only statement that stores one is the insert of `create_web_url`.
`createsCanonical` says of a request that what it would insert is.
-/

namespace SarkariWorld.Site

open SarkariWorld.Lib SarkariWorld.Auth SarkariWorld.Content

/-- The stored URLs are their own canonical forms. -/
def CanonicalList (content : Content.Env) (t : WebUrlTable) : Prop :=
  ∀ w ∈ t.rows, ∃ p, parseHttpUrl content w.url = some p ∧ p.url = w.url

/-- No two stored URLs denote the same one. -/
def DenotesOnce (content : Content.Env) (t : WebUrlTable) : Prop :=
  ∀ a ∈ t.rows, ∀ b ∈ t.rows, ∀ p q, parseHttpUrl content a.url = some p →
    parseHttpUrl content b.url = some q → p.url = q.url → a = b

/-- A URL the call wants stored is of a form that stays, if it is accepted at all. -/
def createsCanonical (content : Content.Env) (e : Event) : Prop :=
  ∀ c payload, e = .call c → c.request = .createWebUrl payload →
    ∀ p, parseHttpUrl content payload.url = some p → KeepsForm payload.url

/-- In a list of canonical forms, different texts denote different pages. -/
theorem CanonicalList.denotesOnce {content : Content.Env} {t : WebUrlTable}
    (h : CanonicalList content t) : DenotesOnce content t := by
  intro a ha b hb p q hp hq hsame
  obtain ⟨p', hp', hpa⟩ := h a ha
  obtain ⟨q', hq', hqb⟩ := h b hb
  obtain rfl := Option.some.inj (hp.symm.trans hp')
  obtain rfl := Option.some.inj (hq.symm.trans hq')
  have hurl : a.url = b.url := by rw [← hpa, hsame, hqb]
  exact eq_of_uniqueCol t.uniqueUrl ha hb rfl (congrArg some hurl.symm)

/-! ## Where a stored URL comes from -/

variable {auth : Auth.Env} {content : Content.Env} {checks : Text → Bool} {s s' : Service}
  {e : Event}

theorem planUser_ne_webUrl {ctx : Context} {d : Database} {request : Auth.Request Unit}
    {write : WebUrlWrite} : planUser ctx d request ≠ .ok (.webUrl write) := by
  intro h
  obtain ⟨actor, -, h⟩ := bind_eq_ok.mp h
  obtain ⟨copy, -, h⟩ := bind_eq_ok.mp h
  obtain ⟨assigned, -, h⟩ := bind_eq_ok.mp h
  cases h

/-- Only `create_web_url` inserts a URL, and it inserts a canonical form. -/
theorem plan_insertUrl {ctx : Context} {d : Database} {request : WriteRequest}
    {url domain title : Text}
    (h : plan ctx d request = .ok (.webUrl (.insert url domain title))) :
    ∃ payload p, request = .createWebUrl payload ∧
      parseHttpUrl ctx.content payload.url = some p ∧ p.url = url := by
  cases request with
  | createWebUrl payload =>
    obtain ⟨actor, -, h⟩ := bind_eq_ok.mp h
    obtain ⟨write, hcreate, h⟩ := bind_eq_ok.mp h
    obtain ⟨p, hparsed, -, -, rfl⟩ := createWebUrl_ok hcreate
    cases h
    exact ⟨payload, p, rfl, hparsed, rfl⟩
  | post request =>
    obtain ⟨actor, -, h⟩ := bind_eq_ok.mp h
    obtain ⟨write, -, h⟩ := bind_eq_ok.mp h
    cases h
  | toggleBookmark slug =>
    obtain ⟨actor, -, h⟩ := bind_eq_ok.mp h
    obtain ⟨write, -, h⟩ := bind_eq_ok.mp h
    cases h
  | markViewed webUrlId =>
    obtain ⟨actor, -, h⟩ := bind_eq_ok.mp h
    obtain ⟨write, hview, h⟩ := bind_eq_ok.mp h
    obtain ⟨row, -, rfl⟩ := map_eq_ok.mp hview
    cases h
  | markAllViewed =>
    obtain ⟨actor, -, h⟩ := bind_eq_ok.mp h
    cases h
  | deleteWebUrl webUrlId =>
    obtain ⟨actor, -, h⟩ := bind_eq_ok.mp h
    obtain ⟨write, hdelete, h⟩ := bind_eq_ok.mp h
    obtain ⟨row, -, rfl⟩ := map_eq_ok.mp hdelete
    cases h
  | updateRole userId role => exact absurd h planUser_ne_webUrl
  | issueApiKey userId name => exact absurd h planUser_ne_webUrl
  | revokeApiKey userId => exact absurd h planUser_ne_webUrl
  | signIn verified =>
    obtain ⟨profile, -, h⟩ := bind_eq_ok.mp h
    exact absurd h planUser_ne_webUrl
  | logout => exact absurd h planUser_ne_webUrl

/-- The texts after a commit are those before it, and the one that was inserted. -/
theorem commitWebUrl_urls {t t' : WebUrlTable} {clock : Nat} {nextId : Int} {write : WebUrlWrite}
    {row : Option WebUrl} (h : commitWebUrl t clock nextId write = .ok (t', row)) :
    ∀ w ∈ t'.rows, (∃ w₀ ∈ t.rows, w₀.url = w.url) ∨
      ∃ domain title, write = .insert w.url domain title := by
  intro w hw
  cases write with
  | insert url domain title =>
    obtain ⟨t₁, hwrite, h⟩ := bind_eq_ok.mp h
    obtain ⟨rfl, -⟩ := Prod.mk.inj (Except.ok.inj h)
    rw [WebUrlTable.write_ok hwrite] at hw
    rcases List.mem_append.mp hw with hold | hnew
    · exact .inl ⟨w, hold, rfl⟩
    · obtain rfl := List.mem_singleton.mp hnew
      exact .inr ⟨domain, title, rfl⟩
  | view loaded stamped =>
    simp only [commitWebUrl] at h
    split at h
    next => cases h
    next =>
      split at h
      next =>
        obtain ⟨rfl, -⟩ := Prod.mk.inj (Except.ok.inj h)
        exact .inl ⟨w, hw, rfl⟩
      next =>
        obtain ⟨t₁, hwrite, h⟩ := bind_eq_ok.mp h
        obtain ⟨rfl, -⟩ := Prod.mk.inj (Except.ok.inj h)
        rw [WebUrlTable.write_ok hwrite] at hw
        obtain ⟨w₀, hold, rfl⟩ := mem_updateWhere.mp hw
        -- Viewing sets a time and nothing else.
        refine .inl ⟨w₀, hold, ?_⟩
        split <;> rfl
  | viewAll stamped =>
    obtain ⟨t₁, hwrite, h⟩ := bind_eq_ok.mp h
    obtain ⟨rfl, -⟩ := Prod.mk.inj (Except.ok.inj h)
    rw [WebUrlTable.write_ok hwrite] at hw
    obtain ⟨w₀, hold, rfl⟩ := List.mem_map.mp hw
    exact .inl ⟨w₀, hold, rfl⟩
  | delete loaded =>
    obtain ⟨t₁, hwrite, h⟩ := bind_eq_ok.mp h
    obtain ⟨rfl, -⟩ := Prod.mk.inj (Except.ok.inj h)
    rw [WebUrlTable.write_ok hwrite] at hw
    exact .inl ⟨w, (List.mem_filter.mp hw).1, rfl⟩

/-! ## Runs -/

/-- A request that creates a canonical form, or none, leaves the list canonical. -/
theorem canonicalList_step (hcreates : createsCanonical (content.cpython checks) e)
    (h : Step auth (content.cpython checks) s s' e)
    (hs : CanonicalList (content.cpython checks) s.db.webUrls) :
    CanonicalList (content.cpython checks) s'.db.webUrls := by
  intro w hw
  cases h with
  | quiet e hdb hsequence hingested =>
    rw [hdb] at hw
    exact hs w hw
  | carried c hsequence change hplan hflush hafter =>
    cases change with
    | user write =>
      obtain ⟨-, -, hrest⟩ := flush_user hflush
      rw [hrest] at hw
      exact hs w hw
    | article write =>
      rw [(flush_article hflush).2] at hw
      exact hs w hw
    | bookmark write =>
      rw [(flush_bookmark hflush).2] at hw
      exact hs w hw
    -- Only an insertion brings a URL that was not in the list before.
    | webUrl write =>
      rcases (flush_webUrl hflush).1 with ⟨-, hsame⟩ | ⟨row, hcommit⟩
      · rw [hsame] at hw
        exact hs w hw
      · rcases commitWebUrl_urls hcommit w hw with ⟨w₀, hold, hurl⟩ | ⟨domain, title, rfl⟩
        · obtain ⟨p, hp, hpu⟩ := hs w₀ hold
          rw [hurl] at hp hpu
          exact ⟨p, hp, hpu⟩
        · obtain ⟨payload, p, hrequest, hp, hpu⟩ := plan_insertUrl hplan
          have hkeeps := hcreates c payload rfl hrequest p hp
          exact ⟨p, hpu ▸ (parseHttpUrl_fixed_iff hp).mpr hkeeps, hpu⟩

/-- **Canonical URLs stay what they are**, where no later step of the canonicalisation
brings back what an earlier one removed; and a run that asks for no other stores no two
URLs that denote the same. -/
theorem canonical_urls (auth : Auth.Env) (content : Content.Env) (checks : Text → Bool) :
    (∀ value url, validHttpUrl (content.cpython checks) value = some url →
      (validHttpUrl (content.cpython checks) (some url) = some url ↔
        ¬ EndsBlank (Lib.urlText (strip (value.getD []))))) ∧
    (∀ value p, parseHttpUrl (content.cpython checks) value = some p →
      (parseHttpUrl (content.cpython checks) p.url = some p ↔ KeepsForm value)) ∧
    ∀ s s' events, CanonicalList (content.cpython checks) s.db.webUrls →
      AllSteps (serve auth (content.cpython checks))
        (fun _ e => createsCanonical (content.cpython checks) e) s events →
      exec (serve auth (content.cpython checks)) s events = some s' →
      DenotesOnce (content.cpython checks) s'.db.webUrls := by
  refine ⟨fun value url => validHttpUrl_fixed_iff, fun value p => parseHttpUrl_fixed_iff,
    fun s s' events hstart hall hrun => ?_⟩
  have hinv : CanonicalList (content.cpython checks) s'.db.webUrls :=
    exec_inv (I := fun s => CanonicalList (content.cpython checks) s.db.webUrls)
      (fun _ _ _ hcreates hs hstep => canonicalList_step hcreates (serve_step hstep) hs) hall
      hstart hrun
  exact hinv.denotesOnce

/-- CPython's parser, on network locations it has nothing against. -/
def urlEnv : Content.Env := Content.sampleEnv.cpython fun _ => true

/-- A request without a title has none that is too long. -/
theorem untitled_short : ∀ t ∈ (none : Option Text), t.length ≤ webUrlTitleMax :=
  fun _ ht => absurd ht (Option.not_mem_none _)

/-- `POST /admin/web-urls`. -/
def createCall (url : Text) (h : 1 ≤ url.length ∧ url.length ≤ webUrlMax) (nextId : Int) : Event :=
  keyCall (.createWebUrl ⟨url, none, h, untitled_short⟩) nextId

/-- The example's requests create what they name, if it keeps its form. -/
theorem createsCanonical_createCall {url : Text} {h : 1 ≤ url.length ∧ url.length ≤ webUrlMax}
    {nextId : Int} (hkeeps : KeepsForm url) :
    createsCanonical urlEnv (createCall url h nextId) := by
  intro c payload hc hrequest p hp
  obtain rfl := Event.call.inj hc
  obtain rfl := WriteRequest.createWebUrl.inj hrequest
  exact hkeeps

/-- A bare question mark at the end of a path, and one behind white space. -/
def bareQuery : Text := "example.com/a?".toList

/-- A URL whose white space stands before a mark that the normaliser drops. -/
def blankQuery : Text := "https://example.com/a ?".toList

/-- A query that is a bare mark, on the list next to another URL. -/
theorem bareQuery_stored :
    validHttpUrl urlEnv (some "https://example.com/a".toList) =
        some "https://example.com/a".toList ∧
      parseHttpUrl urlEnv "https://example.com/a".toList =
        some ⟨"https://example.com/a".toList, "example.com".toList⟩ ∧
      ∃ s, exec (serve Auth.sampleEnv urlEnv) adminInstallation
          [createCall bareQuery (by decide) 1,
            createCall "https://example.com/b".toList (by decide) 2] = some s ∧
        s.db.webUrls.rows.map WebUrl.url =
          ["https://example.com/a".toList, "https://example.com/b".toList] ∧
        DenotesOnce urlEnv s.db.webUrls := by
  obtain ⟨hvalid, hparse, hlist⟩ :=
    canonical_urls Auth.sampleEnv Content.sampleEnv fun _ => true
  -- the two calls are run once, in the kernel, for the addresses they leave
  have hrun : (exec (serve Auth.sampleEnv urlEnv) adminInstallation
      [createCall bareQuery (by decide) 1,
        createCall "https://example.com/b".toList (by decide) 2]).map
      (fun s => decide (s.db.webUrls.rows.map WebUrl.url =
        ["https://example.com/a".toList, "https://example.com/b".toList])) = some true := by
    decide +kernel
  obtain ⟨s, hs, hurls⟩ := exec_of_test hrun
  have hfixed := hvalid (some "https://example.com/a?".toList) "https://example.com/a".toList
    (by decide +kernel)
  have hread := hparse bareQuery ⟨"https://example.com/a".toList, "example.com".toList⟩
    (by decide +kernel)
  refine ⟨hfixed.mpr (by decide +kernel), hread.mpr (by decide +kernel), s, hs,
    of_decide_eq_true hurls, ?_⟩
  refine hlist adminInstallation s _ (fun w hw => absurd hw List.not_mem_nil)
    (allSteps_of_forall fun e he => ?_) hs
  rcases List.mem_pair.mp he with rfl | rfl
  · exact createsCanonical_createCall (by decide +kernel)
  · exact createsCanonical_createCall (by decide +kernel)

/-- Leaving out the question mark uncovers a blank, which the next parse strips; both
forms can be stored. -/
theorem blankQuery_not_canonical :
    (∃ url, validHttpUrl urlEnv (some blankQuery) = some url ∧
      validHttpUrl urlEnv (some url) ≠ some url) ∧
    (∃ p, parseHttpUrl urlEnv blankQuery = some p ∧ parseHttpUrl urlEnv p.url ≠ some p) ∧
    ∃ s, exec (serve Auth.sampleEnv urlEnv) adminInstallation
        [createCall blankQuery (by decide) 1,
          createCall "https://example.com/a".toList (by decide) 2] = some s ∧
      ¬ DenotesOnce urlEnv s.db.webUrls := by
  have hvalid : validHttpUrl urlEnv (some blankQuery) = some "https://example.com/a ".toList ∧
      validHttpUrl urlEnv (some "https://example.com/a ".toList) ≠
        some "https://example.com/a ".toList := by
    decide +kernel
  have hparse : parseHttpUrl urlEnv blankQuery =
        some ⟨"https://example.com/a ".toList, "example.com".toList⟩ ∧
      parseHttpUrl urlEnv "https://example.com/a ".toList ≠
        some ⟨"https://example.com/a ".toList, "example.com".toList⟩ := by
    decide +kernel
  have hrun : (exec (serve Auth.sampleEnv urlEnv) adminInstallation
      [createCall blankQuery (by decide) 1,
        createCall "https://example.com/a".toList (by decide) 2]).map (fun s =>
      decide (∃ a ∈ s.db.webUrls.rows, ∃ b ∈ s.db.webUrls.rows, a.id ≠ b.id ∧
        parseHttpUrl urlEnv a.url = parseHttpUrl urlEnv b.url ∧
        (parseHttpUrl urlEnv a.url).isSome = true)) = some true := by
    decide +kernel
  obtain ⟨s, hs, htwice⟩ := exec_of_test hrun
  obtain ⟨a, ha, b, hb, hne, hsame, hsome⟩ := of_decide_eq_true htwice
  obtain ⟨p, hp⟩ := Option.isSome_iff_exists.mp hsome
  refine ⟨⟨_, hvalid⟩, ⟨_, hparse⟩, s, hs, fun honce => hne ?_⟩
  exact congrArg WebUrl.id (honce a ha b hb p p hp (hsame.symm.trans hp) rfl)

end SarkariWorld.Site
