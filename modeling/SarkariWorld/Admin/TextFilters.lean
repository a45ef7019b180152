import SarkariWorld.Admin.Listings
import SarkariWorld.Auth.System

/-!
# What a text filter finds

Three listings search by text, with the text put between two `%` as it comes. That is
substring search for a text without the pattern language's own characters, and for no
other: whatever else a text holds, `shortestAround` is a row that its pattern finds and
that does not contain it. `text_filters_iff` is the three of them; in the users' listing
the columns are narrow, so a text may also be too long to find anything.

The three listings hand their texts to the same function, so the argument is made for an
arbitrary list of columns: `textFilter_plain` in one direction, and a table with a single
row in the other. The row has to fit its table, and in the users' listing it may not,
since the columns are `varchar(100)` and `varchar(255)`.

Case folding is a parameter, since what `ILIKE` does to letters depends on the collation.
All that is asked of it is that the three special characters are folded to themselves and
come from nothing else.
-/

namespace SarkariWorld.Admin

open SarkariWorld.Lib SarkariWorld.Content SarkariWorld.Site Std

variable {ρ : Type} {env : ListingEnv} {q : Text}

/-- At least one of the columns contains `q.strip()`, ignoring case. -/
def containsText (env : ListingEnv) (q : Text) (columns : ρ → List Text) (row : ρ) : Bool :=
  (columns row).any fun t => decide ((strip q).map env.folding.fold <:+: t.map env.folding.fold)

/-- None of the characters is one of the pattern language. -/
def Plain (s : Text) : Prop := ∀ c ∈ s, isMeta c = false

instance (s : Text) : Decidable (Plain s) := inferInstanceAs (Decidable (∀ c ∈ s, _))

/-! ## The condition -/

/-- Substring search in a list of columns, case folded as the database folds it. -/
theorem containsText_iff {columns : ρ → List Text} {row : ρ} :
    containsText env q columns row = true ↔
      ∃ t ∈ columns row, InfixFold env.folding (strip q) t := by
  simp only [containsText, List.any_eq_true, decide_eq_true_eq]
  rfl

/-- The condition of the query: one of the columns matches the pattern around the stripped text. -/
theorem textFilter_iff {columns : ρ → List Text} {row : ρ} (hq : q ≠ []) :
    textFilter env (some q) columns row = true ↔
      ∃ t ∈ columns row, ilike env.folding (around (strip q)) t = true := by
  have hsupplied : supplied (some q) = some q := if_pos (decide_eq_true hq)
  rw [textFilter, hsupplied, Option.all_some, List.any_eq_true]
  rfl

/-- The empty text is no filter, and in every column. -/
theorem textFilter_nil {columns : ρ → List Text} {row : ρ} (hcolumns : columns row ≠ []) :
    textFilter env (some []) columns row = containsText env [] columns row := by
  obtain ⟨t, ht⟩ := List.exists_mem_of_ne_nil _ hcolumns
  have hfilter : textFilter env (some []) columns row = true := rfl
  have hcontains : containsText env [] columns row = true :=
    containsText_iff.mpr ⟨t, ht, List.nil_infix⟩
  rw [hfilter, hcontains]

/-- For a text without `%`, `_` and backslash, the pattern search is substring search. -/
theorem textFilter_plain {columns : ρ → List Text} {row : ρ} (hcolumns : columns row ≠ [])
    (hplain : Plain (strip q)) :
    textFilter env (some q) columns row = containsText env q columns row := by
  by_cases hq : q = []
  · subst hq
    exact textFilter_nil hcolumns
  · refine Bool.eq_iff_iff.mpr ?_
    rw [textFilter_iff hq, containsText_iff]
    exact exists_congr fun t => and_congr_right fun _ => ilike_around_plain hplain

/-- A row with the shortest text in one column, and nothing in the others. -/
theorem textFilter_differs (env : ListingEnv) (columns : ρ → List Text) {row : ρ}
    (hmeta : ¬ Plain (strip q)) (hmem : shortestAround 'a' (strip q) ∈ columns row)
    (hothers : ∀ t ∈ columns row, t = shortestAround 'a' (strip q) ∨ t = []) :
    textFilter env (some q) columns row = true ∧ containsText env q columns row = false := by
  have hstrip : strip q ≠ [] := by
    intro he
    exact hmeta fun c hc => by rw [he] at hc; cases hc
  have hq : q ≠ [] := by
    rintro rfl
    exact hstrip rfl
  obtain ⟨hfound, hnot⟩ := ilike_shortestAround (f := env.folding) hmeta
  refine ⟨(textFilter_iff hq).mpr ⟨_, hmem, hfound⟩, Bool.eq_false_iff.mpr fun hcontains => ?_⟩
  obtain ⟨t, ht, hinside⟩ := containsText_iff.mp hcontains
  obtain rfl | rfl := hothers t ht
  · exact hnot hinside
  · exact hstrip (List.map_eq_nil_iff.mp (List.infix_nil.mp hinside))

/-- Columns too narrow for the text hold nothing either way. -/
theorem textFilter_narrow {columns : ρ → List Text} {row : ρ}
    (hwidth : ∀ t ∈ columns row, t.length < (shortestAround 'a' (strip q)).length) (hq : q ≠ []) :
    textFilter env (some q) columns row = containsText env q columns row := by
  refine Bool.eq_iff_iff.mpr ?_
  rw [textFilter_iff hq, containsText_iff]
  constructor
  · rintro ⟨t, ht, hfound⟩
    exact absurd (shortestAround_le_of_ilike hfound) (Nat.not_le.mpr (hwidth t ht))
  · rintro ⟨t, ht, hinside⟩
    exact absurd (shortestAround_le_of_inside hinside) (Nat.not_le.mpr (hwidth t ht))

/-- The text that a pattern finds wrongly has no character that the pattern did not have, but for an
`a`. -/
theorem storable_shortestAround {s : Text} (h : Storable s) : Storable (shortestAround 'a' s) := by
  intro hnul
  obtain hnul | hnul | hnul := mem_shortestAround s hnul
  · exact h hnul
  · exact absurd hnul (by decide)
  · exact absurd hnul (by decide)

/-- A text can be bound to the statement if it has no U+0000. -/
theorem bindable_some : Bindable (some q) ↔ Storable q :=
  ⟨fun h => h q rfl, fun h _ hq => Option.some.inj hq ▸ h⟩

theorem storable_strip_of (h : Storable q) : Storable (strip q) :=
  fun hnul => h (mem_of_mem_strip hnul)

/-! ## The three listings -/

/-- `find_for_admin_page`, had it searched for the text. -/
def findContaining (env : ListingEnv) (t : ArticleTable) (q : Text)
    (category : Option ArticleCategory) (status : Option ArticleStatus) (field : DateField)
    (dateFrom dateTo : Option Text) (params : PageParams) :
    Except ListingError (List Article × Nat) := do
  let first ← dayFilter env dateFrom
  let last ← dayFilter env dateTo
  let rows := t.rows.filter fun a => containsText env q (fun a : Article => [a.title, a.slug]) a &&
    adminFilter env none category status field first last a
  pure (params.slice (orderBy (adminOrder field) rows), rows.length)

/-- `list_urls`, had it searched for the text. -/
def urlsContaining (env : ListingEnv) (t : WebUrlTable) (q : Text) (sort : UrlSort)
    (viewed : Viewed) (notViewedSince : Option Text) (params : PageParams) :
    Except ListingError (List WebUrl × Nat) := do
  let since ← dayFilter env notViewedSince
  let rows := t.rows.filter fun w =>
    containsText env q (fun w : WebUrl => [w.url, w.title, w.domain]) w &&
      urlFilter env none viewed since w
  pure (params.slice (orderBy (urlOrder sort) rows), rows.length)

/-- `build_user_list_query`, had it searched for the text. -/
def usersContaining (env : ListingEnv) (t : UserRecords) (q : Text) (role : Option Auth.UserRole) :
    List UserRecord :=
  orderBy newestUsersFirst <| t.rows.filter fun u =>
    containsText env q (fun u : UserRecord => [u.user.name, u.user.email]) u &&
      role.all fun r => u.user.role = r

/-- The `q` of each listing is substring search, whatever the table and the other
filters. -/
def SearchesArticles (env : ListingEnv) (q : Text) : Prop :=
  ∀ t category status field dateFrom dateTo params,
    findForAdminPage env t (some q) category status field dateFrom dateTo params =
      findContaining env t q category status field dateFrom dateTo params

/-- The URL listing searches by substring, whatever its other parameters and its table. -/
def SearchesUrls (env : ListingEnv) (q : Text) : Prop :=
  ∀ t sort viewed notViewedSince params,
    listUrls env t (some q) sort viewed notViewedSince params =
      urlsContaining env t q sort viewed notViewedSince params

/-- The users' listing searches by substring, whatever its table and the role asked for. -/
def SearchesUsers (env : ListingEnv) (q : Text) : Prop :=
  ∀ t role, buildUserListQuery env t (some q) role = .ok (usersContaining env t q role)

/-- Of a table with one row, a filter finds one row or none. -/
theorem filter_singleton_length (p : ρ → Bool) (row : ρ) :
    ([row].filter p).length = (p row).toNat := by
  rw [List.filter_singleton]
  cases p row with
  | false => rfl
  | true => rfl

/-- A text without the pattern language's own characters is searched for literally in the articles.
-/
theorem searchesArticles (hq : Storable q) (hplain : Plain (strip q)) :
    SearchesArticles env q := by
  intro t category status field dateFrom dateTo params
  unfold findForAdminPage findContaining
  simp only [if_pos (bindable_some.mpr hq)]
  have hfilter : ∀ first last (a : Article),
      adminFilter env (some q) category status field first last a =
        (containsText env q (fun a : Article => [a.title, a.slug]) a &&
          adminFilter env none category status field first last a) := by
    intro first last a
    have htext : textFilter env (some q) (fun a : Article => [a.title, a.slug]) a =
        containsText env q (fun a : Article => [a.title, a.slug]) a :=
      textFilter_plain (List.cons_ne_nil _ _) hplain
    simp only [adminFilter, htext, Bool.and_assoc]
    rfl
  simp only [funext (hfilter _ _)]

theorem searchesUrls (hq : Storable q) (hplain : Plain (strip q)) : SearchesUrls env q := by
  intro t sort viewed notViewedSince params
  unfold listUrls urlsContaining
  simp only [if_pos (bindable_some.mpr hq)]
  have hfilter : ∀ since (w : WebUrl), urlFilter env (some q) viewed since w =
      (containsText env q (fun w : WebUrl => [w.url, w.title, w.domain]) w &&
        urlFilter env none viewed since w) := by
    intro since w
    have htext : textFilter env (some q) (fun w : WebUrl => [w.url, w.title, w.domain]) w =
        containsText env q (fun w : WebUrl => [w.url, w.title, w.domain]) w :=
      textFilter_plain (List.cons_ne_nil _ _) hplain
    simp only [urlFilter, htext, Bool.and_assoc]
    rfl
  simp only [funext (hfilter _)]

/-- The users' columns are `String(100)` and `String(255)`. -/
theorem user_width {t : UserRecords} {u : UserRecord} (hu : u ∈ t.rows) :
    ∀ column ∈ [u.user.name, u.user.email], column.length ≤ 255 := by
  obtain ⟨-, hname, hemail, -⟩ := t.fits u hu
  intro column hcolumn
  obtain rfl | hcolumn := List.mem_cons.mp hcolumn
  · exact Nat.le_trans hname (by decide)
  · rw [List.mem_singleton.mp hcolumn]
    exact hemail

/-- So it is among the users; and a text that is too long for the columns finds nothing either way.
-/
theorem searchesUsers (hq : Storable q)
    (h : Plain (strip q) ∨ 255 < (shortestAround 'a' (strip q)).length) : SearchesUsers env q := by
  intro t role
  unfold buildUserListQuery usersContaining
  rw [if_pos (bindable_some.mpr hq)]
  refine congrArg (fun rows => Except.ok (orderBy newestUsersFirst rows)) ?_
  refine List.filter_congr fun u hu => congrArg (· && _) ?_
  obtain hplain | hlong := h
  · exact textFilter_plain (List.cons_ne_nil _ _) hplain
  · refine textFilter_narrow (fun column hcolumn => ?_) ?_
    · exact Nat.lt_of_le_of_lt (user_width hu column hcolumn) hlong
    · rintro rfl
      exact absurd hlong (by decide)

/-! ## Rows that tell them apart -/

/-- One article, with this title. -/
def titled (title : Text) (h : Storable title) : ArticleTable where
  rows := [{ sampleArticle 1 [] .draft none with title := title }]
  fits := by
    have hsample : (sampleArticle 1 [] .draft none).Fits := by decide
    obtain ⟨hid, htitle, hdescription, hdates, htexts⟩ := hsample
    rw [List.forall_mem_singleton]
    refine ⟨hid, htitle, hdescription, hdates, fun column hcolumn => ?_⟩
    obtain rfl | hcolumn := List.mem_cons.mp hcolumn
    · exact h
    · exact htexts column (List.mem_cons_of_mem _ hcolumn)
  uniqueId := List.nodup_singleton _
  uniqueSlug := List.nodup_singleton _

/-- One web URL, with this title. -/
def urlTitled (title : Text) (h : Storable title) : WebUrlTable where
  rows := [⟨1, [], title, [], none, 0, 0⟩]
  fits := by
    have hsample : WebUrl.Fits ⟨1, [], [], [], none, 0, 0⟩ := by decide
    rw [List.forall_mem_singleton]
    refine ⟨hsample.1, hsample.2.1, ?_⟩
    rw [List.forall_mem_cons, List.forall_mem_cons, List.forall_mem_singleton]
    exact ⟨List.not_mem_nil, h, List.not_mem_nil⟩
  uniqueId := List.nodup_singleton _
  uniqueUrl := List.nodup_singleton _

/-- One user, with this address. -/
def addressed (email : Text) (h : email.length ≤ 255) (hq : Storable email) : UserRecords where
  rows := [⟨{ Auth.sampleUser 1 .user with email := email }, 0⟩]
  fits := by
    have hsample : (Auth.sampleUser 1 .user).Fits := by decide
    obtain ⟨hid, hname, -, hdates, htexts⟩ := hsample
    rw [List.forall_mem_singleton]
    refine ⟨hid, hname, h, hdates, fun column hcolumn => ?_⟩
    obtain rfl | hcolumn := List.mem_cons.mp hcolumn
    · exact htexts _ (List.mem_cons_self ..)
    · obtain rfl | hcolumn := List.mem_cons.mp hcolumn
      · exact hq
      · exact htexts column (List.mem_cons_of_mem _ (List.mem_cons_of_mem _ hcolumn))
  keyed := ⟨List.nodup_singleton _, List.nodup_singleton _, List.nodup_nil, List.nodup_nil⟩

/-- A text that cannot be bound fails where the search would answer. -/
theorem searches_storable
    (h : SearchesArticles env q ∨ SearchesUrls env q ∨ SearchesUsers env q) : Storable q := by
  by_contra hnul
  have hbind : ¬ Bindable (some q) := mt bindable_some.mp hnul
  obtain h | h | h := h
  · have hanswer := h .empty none none .createdAt none none ⟨1, 1⟩
    unfold findForAdminPage at hanswer
    simp only [if_neg hbind] at hanswer
    cases hanswer
  · have hanswer := h .empty .oldest .all none ⟨1, 1⟩
    unfold listUrls at hanswer
    simp only [if_neg hbind] at hanswer
    cases hanswer
  · have hanswer := h ⟨[], List.forall_mem_nil _, Auth.UserTable.empty.keyed⟩ none
    rw [buildUserListQuery, if_neg hbind] at hanswer
    cases hanswer

/-- An answer about one row says whether the row is in it. -/
theorem filter_eq_of_length {p p' : ρ → Bool} {row : ρ}
    (h : ([row].filter p).length = ([row].filter p').length) : p row = p' row := by
  rw [filter_singleton_length, filter_singleton_length] at h
  cases hp : p row with
  | false =>
    cases hp' : p' row with
    | false => rfl
    | true => rw [hp, hp'] at h; cases h
  | true =>
    cases hp' : p' row with
    | false => rw [hp, hp'] at h; cases h
    | true => rfl

/-- If the article listing searches literally for a text, the text has none of these characters: a
table with the one wrong row tells. -/
theorem searchesArticles_plain (h : SearchesArticles env q) : Plain (strip q) := by
  by_contra hmeta
  have hq : Storable q := searches_storable (.inl h)
  have hstored := storable_shortestAround (storable_strip_of hq)
  have hanswer := h (titled _ hstored) none none .createdAt none none ⟨1, 1⟩
  unfold findForAdminPage at hanswer
  simp only [if_pos (bindable_some.mpr hq)] at hanswer
  have hrow := filter_eq_of_length (Prod.mk.inj (Except.ok.inj hanswer)).2
  let row : Article := { sampleArticle 1 [] .draft none with title := shortestAround 'a' (strip q) }
  obtain ⟨hfound, hnot⟩ :
      textFilter env (some q) (fun a : Article => [a.title, a.slug]) row = true ∧
        containsText env q (fun a : Article => [a.title, a.slug]) row = false :=
    textFilter_differs env _ hmeta List.mem_cons_self
      fun t ht => (List.mem_cons.mp ht).imp_right List.mem_singleton.mp
  rw [adminFilter, hfound, hnot] at hrow
  cases hrow

/-- The same for the web URLs, whose title and URL are long enough for the wrong row. -/
theorem searchesUrls_plain (h : SearchesUrls env q) : Plain (strip q) := by
  by_contra hmeta
  have hq : Storable q := searches_storable (.inr (.inl h))
  have hstored := storable_shortestAround (storable_strip_of hq)
  have hanswer := h (urlTitled _ hstored) .oldest .all none ⟨1, 1⟩
  unfold listUrls at hanswer
  simp only [if_pos (bindable_some.mpr hq)] at hanswer
  have hrow := filter_eq_of_length (Prod.mk.inj (Except.ok.inj hanswer)).2
  let row : WebUrl := ⟨1, [], shortestAround 'a' (strip q), [], none, 0, 0⟩
  have hothers : ∀ t ∈ [row.url, row.title, row.domain],
      t = shortestAround 'a' (strip q) ∨ t = [] := by
    intro t ht
    obtain rfl | ht := List.mem_cons.mp ht
    · exact .inr rfl
    · exact (List.mem_cons.mp ht).imp_right List.mem_singleton.mp
  obtain ⟨hfound, hnot⟩ :
      textFilter env (some q) (fun w : WebUrl => [w.url, w.title, w.domain]) row = true ∧
        containsText env q (fun w : WebUrl => [w.url, w.title, w.domain]) row = false :=
    textFilter_differs env _ hmeta (List.mem_cons_of_mem _ List.mem_cons_self) hothers
  rw [urlFilter, hfound, hnot] at hrow
  cases hrow

/-- The same for the users, unless the wrong row would be too long for its columns. -/
theorem searchesUsers_plain (h : SearchesUsers env q) :
    Plain (strip q) ∨ 255 < (shortestAround 'a' (strip q)).length := by
  by_contra hneither
  obtain ⟨hmeta, hshort⟩ := not_or.mp hneither
  have hq : Storable q := searches_storable (.inr (.inr h))
  have hstored := storable_shortestAround (storable_strip_of hq)
  -- a table of one row, whose address is the shortest text that matches only as a pattern
  have hanswer := h (addressed _ (Nat.not_lt.mp hshort) hstored) none
  rw [buildUserListQuery, if_pos (bindable_some.mpr hq)] at hanswer
  have hlength := congrArg List.length (Except.ok.inj hanswer)
  rw [usersContaining, orderBy_length, orderBy_length] at hlength
  have hrow := filter_eq_of_length hlength
  let row : UserRecord :=
    ⟨{ Auth.sampleUser 1 .user with email := shortestAround 'a' (strip q) }, 0⟩
  have hothers : ∀ t ∈ [row.user.name, row.user.email],
      t = shortestAround 'a' (strip q) ∨ t = [] := by
    intro t ht
    obtain rfl | ht := List.mem_cons.mp ht
    · exact .inr rfl
    · exact .inl (List.mem_singleton.mp ht)
  obtain ⟨hfound, hnot⟩ :
      textFilter env (some q) (fun u : UserRecord => [u.user.name, u.user.email]) row = true ∧
        containsText env q (fun u : UserRecord => [u.user.name, u.user.email]) row = false :=
    textFilter_differs env _ hmeta (List.mem_cons_of_mem _ List.mem_cons_self) hothers
  rw [hfound, hnot] at hrow
  cases hrow

/-- **Which texts the listings search for**: those that can be bound and are plain. In
the users' listing also those no name or address has room for. -/
theorem text_filters_iff (env : ListingEnv) (q : Text) :
    (SearchesArticles env q ↔ Storable q ∧ Plain (strip q)) ∧
      (SearchesUrls env q ↔ Storable q ∧ Plain (strip q)) ∧
      (SearchesUsers env q ↔ Storable q ∧
        (Plain (strip q) ∨ 255 < (shortestAround 'a' (strip q)).length)) := by
  refine ⟨⟨fun h => ?_, fun h => ?_⟩, ⟨fun h => ?_, fun h => ?_⟩, fun h => ?_, fun h => ?_⟩
  · exact ⟨searches_storable (.inl h), searchesArticles_plain h⟩
  · exact searchesArticles h.1 h.2
  · exact ⟨searches_storable (.inr (.inl h)), searchesUrls_plain h⟩
  · exact searchesUrls h.1 h.2
  · exact ⟨searches_storable (.inr (.inr h)), searchesUsers_plain h⟩
  · exact searchesUsers h.1 h.2

/-- "_" finds an article whose title is "a". -/
theorem underscore_finds_any : ¬ ∀ (env : ListingEnv) (q : Text),
    SearchesArticles env q ∧ SearchesUrls env q ∧ SearchesUsers env q := by
  intro hsearches
  have hanswer := (hsearches sampleListing "_".toList).1 (titled "a".toList (by decide)) none none
    .createdAt none none ⟨1, 24⟩
  have htotal := congrArg (fun answer => answer.toOption.map Prod.snd) hanswer
  exact absurd htotal (by decide)

end SarkariWorld.Admin
