import SarkariWorld.Content.PublishedDates
import SarkariWorld.Content.Uniqueness

/-!
# Publication dates on the wire

The API prints every date with `+05:30` and its bodies accept a date with any
offset or none. What a body sends goes to the driver as it is: `to_ist` is not
called on the way in, and for a column without a zone the driver refuses an aware
value. `date_survives_iff`: in a request that is accepted without it, a date
arrives as the IST wall clock of its instant, and sending a stored date back is
not a modification, exactly if the date is naive. The string the API prints
never is.

A column without a zone can only be given a naive value, and the driver says so with an
error instead of converting. So the fate of a date is settled before the database sees it:
an aware date ends the request in a 500, whatever it stands for, and a naive one is stored
as the wall clock it is.
-/

namespace SarkariWorld.Content

open SarkariWorld.Lib

/-! ## Requests without their date -/

/-- The `published_at` a body sends. -/
def PostRequest.publishedAt : PostRequest → Field Datetime
  | .createPost payload => payload.publishedAt
  | .updatePost _ payload => payload.publishedAt
  | .publishArticle payload => payload.publishedAt
  | .updatePostStatus _ _ | .deletePost _ => .omitted

/-- The body without its date. -/
def ArticleBase.undated (base : ArticleBase) : ArticleBase := { base with publishedAt := .omitted }

/-- The same request, with `published_at` left out of its body. -/
def PostRequest.undated : PostRequest → PostRequest
  | .createPost payload => .createPost
    { toArticleBase := payload.toArticleBase.undated
      slug := payload.slug
      htmlContent := payload.htmlContent
      articleStatus := payload.articleStatus
      accepted := payload.accepted
      title_sent := payload.title_sent
      slug_valid := payload.slug_valid
      html_short := payload.html_short }
  | .updatePost slug payload => .updatePost slug
    { toArticleBase := payload.toArticleBase.undated
      slug := payload.slug
      htmlContent := payload.htmlContent
      articleStatus := payload.articleStatus
      accepted := payload.accepted
      slug_valid := payload.slug_valid
      html_short := payload.html_short }
  | .publishArticle payload => .publishArticle
    { toArticleBase := payload.toArticleBase.undated
      slug := payload.slug
      content := payload.content
      accepted := payload.accepted
      title_sent := payload.title_sent
      slug_valid := payload.slug_valid
      content_short := payload.content_short }
  | request => request

/-- The request without its date, for comparison. -/
def PostCall.undated (c : PostCall) : PostCall := { c with request := c.request.undated }

/-! ## What is promised -/

/-- The date `d` of a request survives the wire. -/
structure Survives (env : Env) (s : Posts) (c : PostCall) (d : Datetime) : Prop where
  /-- The row holds the IST wall clock of the instant, in milliseconds. -/
  stored : ∃ t' row, perform env s c = .ok (t', some row) ∧
    row.publishedAt = some (timestamp3 (toIst d).wall)
  /-- A `PUT` that sends back the date the article has does what it does without it. -/
  echoed : ∀ slug payload a t, c.request = .updatePost slug payload →
    getArticle s.articles slug = .ok a → a.publishedAt = some t → toIst d = toIst (naive t) →
    perform env s c = perform env s c.undated

variable {env : Env} {t : ArticleTable} {clock : Nat} {nextId : Int}

/-! ## Rows with other dates -/

/-- A row stays within its columns whatever date it has. -/
theorem fits_redate {a : Article} {p : Option Int} {u : Int} (h : a.Fits)
    (hp : ∀ d ∈ p, timestamp3 d = d) (hu : timestamp3 u = u) :
    ({ a with publishedAt := p, updatedAt := u } : Article).Fits := by
  obtain ⟨hid, htitle, hdescription, hdates, htexts⟩ := h
  refine ⟨hid, htitle, hdescription, fun d hd => ?_, htexts⟩
  rcases List.mem_append.mp hd with hd | hd
  · exact hp d (Option.mem_toList.mp hd)
  · rcases List.mem_cons.mp hd with rfl | hd
    · exact hdates _ (List.mem_append_right _ (List.mem_cons_self ..))
    · obtain rfl := List.mem_singleton.mp hd
      exact hu

/-- What the driver encodes is what the column stores: the rounding is done. -/
theorem encodeDate_fits {d : Option Datetime} {e : Option Int} (h : encodeDate d = .ok e) :
    ∀ x ∈ e, timestamp3 x = x := by
  unfold encodeDate at h
  split at h
  · obtain rfl := Except.ok.inj h
    nofun
  · obtain rfl := Except.ok.inj h
    intro x hx
    obtain rfl := Option.some.inj hx
    exact timestamp3_idem _
  · cases h

/-- A list of rows that obeys the schema is stored. -/
theorem ArticleTable.write_of {rows : List Article} (hfits : ∀ a ∈ rows, a.Fits)
    (hid : UniqueCol ArticleOf.idCol rows) (hslug : UniqueCol ArticleOf.slugCol rows) :
    ∃ t', ArticleTable.write rows = .ok t' := by
  refine ⟨⟨rows, hfits, hid, hslug⟩, ?_⟩
  unfold ArticleTable.write
  rw [dif_pos hfits, dif_pos ⟨hid, hslug⟩]

/-- A new row with another date differs in its date alone. -/
theorem newRow_redated {data : ArticleData} {p : Option (Option Datetime)} {row : Article}
    {e : Option Int} (h : newRow { data with publishedAt := p } nextId clock = .ok row)
    (hencoded : encodeDate (data.publishedAt.getD none) = .ok e) :
    newRow data nextId clock = .ok { row with publishedAt := e } := by
  obtain ⟨encoded, -, h⟩ := bind_eq_ok.mp h
  refine bind_eq_ok.mpr ⟨e, hencoded, ?_⟩
  dsimp only at h ⊢
  split at h
  next => cases h
  next =>
    obtain rfl := Except.ok.inj h
    rfl

/-- A new row is stored where another with its number and its slug would be. -/
theorem insert_commits {data : ArticleData} {row row₀ : Article} {t₁ : ArticleTable}
    (hrow : newRow data nextId clock = .ok row) (hfits : row.Fits)
    (hrows : t₁.rows = t.rows ++ [row₀]) (hid : row.id = row₀.id) (hslug : row.slug = row₀.slug) :
    ∃ t', commitArticle t clock nextId (.insert data) = .ok (t', some row) := by
  have hnumbers : UniqueCol ArticleOf.idCol (t.rows ++ [row]) := by
    have hunique := t₁.uniqueId
    rw [hrows, UniqueCol, List.filterMap_append] at hunique
    rw [UniqueCol, List.filterMap_append, List.filterMap_cons, ArticleOf.idCol, hid]
    exact hunique
  have hslugs : UniqueCol ArticleOf.slugCol (t.rows ++ [row]) := by
    have hunique := t₁.uniqueSlug
    rw [hrows, UniqueCol, List.filterMap_append] at hunique
    rw [UniqueCol, List.filterMap_append, List.filterMap_cons, ArticleOf.slugCol, hslug]
    exact hunique
  obtain ⟨t', hwrite⟩ := ArticleTable.write_of
    (fun a ha => (List.mem_append.mp ha).elim (t.fits a) fun ha => List.mem_singleton.mp ha ▸ hfits)
    hnumbers hslugs
  exact ⟨t', bind_eq_ok.mpr ⟨_, hrow, bind_eq_ok.mpr ⟨t', hwrite, rfl⟩⟩⟩

/-- An insert that succeeds would do so with any date the driver takes. -/
theorem insert_redated {data : ArticleData} {p : Option (Option Datetime)} {t₀ : ArticleTable}
    {answer : Option Article} {e : Option Int}
    (h : commitArticle t clock nextId (.insert { data with publishedAt := p }) = .ok (t₀, answer))
    (hencoded : encodeDate (data.publishedAt.getD none) = .ok e) :
    ∃ t' row, commitArticle t clock nextId (.insert data) = .ok (t', some row) ∧
      row.publishedAt = e := by
  obtain ⟨row, hrow, h⟩ := bind_eq_ok.mp h
  obtain ⟨t₁, hwrite, -⟩ := bind_eq_ok.mp h
  have hrows := ArticleTable.write_ok hwrite
  have hfits : ({ row with publishedAt := e } : Article).Fits := by
    have hold : row.Fits :=
      t₁.fits row (hrows ▸ List.mem_append_right _ (List.mem_singleton_self _))
    refine fits_redate hold (encodeDate_fits hencoded) (hold.2.2.2.1 _ ?_)
    exact List.mem_append_right _ (List.mem_cons_of_mem _ (List.mem_singleton_self _))
  obtain ⟨t', hcommit⟩ := insert_commits (newRow_redated hrow hencoded) hfits hrows rfl rfl
  exact ⟨t', _, hcommit, rfl⟩

/-- An update that assigns nothing leaves the row it was loaded from. -/
theorem flushArticle_clean {loaded : ArticleObject} {encoded : Option Int} {stored : Article} :
    flushArticle loaded loaded encoded stored = stored := by
  simp [flushArticle]

/-- What an update writes has dates the column keeps. -/
theorem encodeChanged_fits {loaded assigned : ArticleObject} {e : Option Int}
    (h : encodeChanged loaded assigned = .ok e) : ∀ x ∈ e, timestamp3 x = x := by
  unfold encodeChanged at h
  split at h
  next =>
    obtain rfl := Except.ok.inj h
    nofun
  next => exact encodeDate_fits h

/-- A column of milliseconds holds a millisecond after a flush. -/
theorem flushColWith_fits (loaded assigned : Int) {stored : Int} (h : timestamp3 stored = stored) :
    timestamp3 (flushColWith timestamp3 loaded assigned stored) =
      flushColWith timestamp3 loaded assigned stored := by
  unfold flushColWith
  split
  next => exact h
  next => exact timestamp3_idem assigned

/-- What a commit stores of an update fits, whatever its date. -/
theorem flush_fits {loaded x : ArticleObject} {p : Option Datetime} {u : Int} {e e₀ : Option Int}
    {stored : Article} (hstored : stored.Fits) (h : (flushArticle loaded x e₀ stored).Fits)
    (he : ∀ d ∈ e, timestamp3 d = d) :
    (flushArticle loaded { x with publishedAt := p, updatedAt := u } e stored).Fits := by
  have hdate : ∀ d ∈ stored.publishedAt, timestamp3 d = d := fun d hd =>
    hstored.2.2.2.1 d (List.mem_append_left _ (Option.mem_toList.mpr hd))
  have hupdated : timestamp3 stored.updatedAt = stored.updatedAt :=
    hstored.2.2.2.1 _ (List.mem_append_right _ (List.mem_cons_of_mem _ (List.mem_singleton_self _)))
  have hfits := fits_redate h (p := if p = loaded.publishedAt then stored.publishedAt else e) ?_
    (flushColWith_fits loaded.updatedAt u hupdated)
  · exact hfits
  · split
    next => exact hdate
    next => exact he

/-- Written or not, the row an update leaves fits. -/
theorem update_fits {loaded x : ArticleObject} {t₀ : ArticleTable} {answer : Option Article}
    (h : commitArticle t clock nextId (.update loaded x) = .ok (t₀, answer)) :
    ∃ stored e, t.find loaded.id = some stored ∧ encodeChanged loaded x = .ok e ∧
      (flushArticle loaded x e stored).Fits := by
  simp only [commitArticle] at h
  split at h
  next => cases h
  next stored hstored =>
    obtain ⟨hmem, hid⟩ := ArticleTable.find_eq_some.mp hstored
    split at h
    next hclean =>
      refine ⟨stored, none, hstored, if_pos (congrArg ArticleOf.publishedAt hclean), ?_⟩
      rw [hclean, flushArticle_clean]
      exact t.fits stored hmem
    next =>
      obtain ⟨e, hencoded, h⟩ := bind_eq_ok.mp h
      obtain ⟨t₁, hwrite, -⟩ := bind_eq_ok.mp h
      refine ⟨stored, e, hstored, hencoded, t₁.fits _ ?_⟩
      rw [ArticleTable.write_ok hwrite]
      exact mem_updateWhere_of_eq hmem (ArticleOf.idCol_eq_some.mpr hid)

/-- An update whose row fits is stored. -/
theorem update_commits {loaded x : ArticleObject} {stored : Article} {e : Option Int}
    (hfree : takesSlug t (.update loaded x) = false) (hstored : t.find loaded.id = some stored)
    (hencoded : encodeChanged loaded x = .ok e) (hfits : (flushArticle loaded x e stored).Fits) :
    ∃ t', commitArticle t clock nextId (.update loaded x) =
      .ok (t', some (flushArticle loaded x e stored)) := by
  obtain ⟨hmem, hid⟩ := ArticleTable.find_eq_some.mp hstored
  simp only [commitArticle, hstored]
  split
  next hclean =>
    refine ⟨t, ?_⟩
    rw [hclean, flushArticle_clean]
  next =>
    have hrows : ∀ a ∈ updateWhere ArticleOf.idCol loaded.id (flushArticle loaded x e) t.rows,
        a.Fits := by
      intro a ha
      obtain ⟨b, hb, rfl⟩ := mem_updateWhere.mp ha
      split
      next hsame =>
        obtain rfl := eq_of_uniqueCol t.uniqueId hb hmem hsame (ArticleOf.idCol_eq_some.mpr hid)
        exact hfits
      next => exact t.fits b hb
    obtain ⟨t', hwrite⟩ := ArticleTable.write_of hrows updated_uniqueId (updated_uniqueSlug hfree)
    exact ⟨t', bind_eq_ok.mpr ⟨e, hencoded, bind_eq_ok.mpr ⟨t', hwrite, rfl⟩⟩⟩

/-- An update that succeeds would do so with any date the driver takes. -/
theorem update_redated {loaded x : ArticleObject} {p : Option Datetime} {u : Int}
    {t₀ : ArticleTable} {answer : Option Article} {e : Option Int}
    (h : commitArticle t clock nextId (.update loaded x) = .ok (t₀, answer))
    (hencoded : encodeChanged loaded { x with publishedAt := p, updatedAt := u } = .ok e) :
    ∃ t' stored, t.find loaded.id = some stored ∧
      commitArticle t clock nextId (.update loaded { x with publishedAt := p, updatedAt := u }) =
        .ok (t', some
          (flushArticle loaded { x with publishedAt := p, updatedAt := u } e stored)) := by
  have hslug : takesSlug t (.update loaded x) = false := takesSlug_of_commit h
  have hfree : takesSlug t (.update loaded { x with publishedAt := p, updatedAt := u }) = false :=
    hslug
  obtain ⟨stored, e₀, hstored, -, hfits⟩ := update_fits h
  obtain ⟨hmem, -⟩ := ArticleTable.find_eq_some.mp hstored
  obtain ⟨t', hcommit⟩ := update_commits hfree hstored hencoded
    (flush_fits (t.fits stored hmem) hfits (encodeChanged_fits hencoded))
  exact ⟨t', stored, hstored, hcommit⟩

/-! ## Requests with a date and without -/

/-- Two writes that differ in what they assign to `published_at`: the second has the
date `d`. -/
inductive Redates (t : ArticleTable) (d : Datetime) : ArticleWrite → ArticleWrite → Prop where
  | insert (data : ArticleData) (p : Option (Option Datetime))
      (hdate : data.publishedAt = some (some d)) :
      Redates t d (.insert { data with publishedAt := p }) (.insert data)
  | update (a : Article) (x : ArticleObject) (u : Int) (ha : a ∈ t.rows) :
      Redates t d (.update a.load x)
        (.update a.load { x with publishedAt := some d, updatedAt := u })

/-- Data with a date is not stamped. -/
theorem not_undatedPublish {data : ArticleData} {d : Datetime}
    (h : data.publishedAt = some (some d)) : ¬ data.undatedPublish := by
  rintro ⟨-, hnone⟩
  rw [h] at hnone
  cases hnone

theorem update_assigns (clock : Nat) (article : ArticleObject) (data : ArticleData) :
    ∃ u, update clock article data =
      .update article { data.assign article with updatedAt := u } := by
  unfold update stampUpdated
  split
  next => exact ⟨nowIst clock, rfl⟩
  next => exact ⟨(data.assign article).updatedAt, rfl⟩

/-- `update` with a date and without. -/
theorem update_redates {a : Article} {data : ArticleData} {p : Option (Option Datetime)}
    {d : Datetime} (ha : a ∈ t.rows) (hdate : data.publishedAt = some (some d)) :
    Redates t d (update clock a.load { data with publishedAt := p })
      (update clock a.load data) := by
  obtain ⟨u₀, hundated⟩ := update_assigns clock a.load { data with publishedAt := p }
  obtain ⟨u, hdated⟩ := update_assigns clock a.load data
  have hassigned : data.assign a.load =
      { ArticleData.assign { data with publishedAt := p } a.load with publishedAt := some d } := by
    unfold ArticleData.assign
    rw [hdate]
    rfl
  rw [hundated, hdated, hassigned]
  exact .update a { ArticleData.assign { data with publishedAt := p } a.load with updatedAt := u₀ }
    u ha

/-- Whether it is stamped or not, undated data differs from the dated in its date. -/
theorem stamp_redates (clock : Nat) (data : ArticleData) (q : Prop) [Decidable q] :
    ∃ p, (if q then ArticleData.stamp { data with publishedAt := none } clock
      else { data with publishedAt := none }) = { data with publishedAt := p } := by
  split
  next => exact ⟨_, rfl⟩
  next => exact ⟨none, rfl⟩

/-- **What the date of a request changes.** -/
theorem prepare_redates {actor : Author} {request : PostRequest} {d : Datetime}
    {write : ArticleWrite} (hsends : request.publishedAt = .value d)
    (h : prepare env t clock actor request.undated = .ok write) :
    ∃ dated, prepare env t clock actor request = .ok dated ∧ Redates t d write dated := by
  cases request with
  | createPost payload =>
    obtain ⟨hfree, h⟩ := ite_error_eq_ok.mp h
    obtain rfl := Except.ok.inj h
    have hdate : (buildArticleData env payload.dump (some actor) none).publishedAt =
        some (some d) := congrArg Field.sent hsends
    obtain ⟨p, hp⟩ := stamp_redates clock (buildArticleData env payload.dump (some actor) none)
      (ArticleData.undatedPublish
        { buildArticleData env payload.dump (some actor) none with publishedAt := none })
    -- A date of its own keeps the data from being stamped.
    refine ⟨.insert (buildArticleData env payload.dump (some actor) none), ?_, ?_⟩
    · refine ite_error_eq_ok.mpr
        ⟨hfree, congrArg (fun data => Except.ok (ArticleWrite.insert data)) ?_⟩
      exact if_neg (not_undatedPublish hdate)
    · exact hp ▸ .insert _ p hdate
  | publishArticle payload =>
    obtain ⟨hlong, h⟩ := ite_error_eq_ok.mp h
    obtain ⟨hfree, h⟩ := ite_error_eq_ok.mp h
    obtain rfl := Except.ok.inj h
    refine ⟨.insert { buildArticleData env payload.dump (some actor)
      (some (payload.content.get.getD [])) with articleStatus := some .draft }, ?_, ?_⟩
    · exact ite_error_eq_ok.mpr ⟨hlong, ite_error_eq_ok.mpr ⟨hfree, rfl⟩⟩
    · exact .insert { buildArticleData env payload.dump (some actor)
        (some (payload.content.get.getD [])) with articleStatus := some .draft } none
        (congrArg Field.sent hsends)
  | updatePost slug payload =>
    obtain ⟨a, hget, h⟩ := bind_eq_ok.mp h
    split at h
    next => cases h
    next hfree =>
      obtain rfl := Except.ok.inj h
      have hdate : (buildArticleData env payload.dump (some actor) none).publishedAt =
          some (some d) := congrArg Field.sent hsends
      obtain ⟨p, hp⟩ := stamp_redates clock (buildArticleData env payload.dump (some actor) none)
        (ArticleData.undatedPublish { buildArticleData env payload.dump (some actor) none with
          publishedAt := none } ∧ a.publishedAt = none)
      refine ⟨update clock a.load (buildArticleData env payload.dump (some actor) none), ?_, ?_⟩
      · refine bind_eq_ok.mpr ⟨a, hget, ?_⟩
        have hfree' : payload.slug.get.filter (fun s => slugExists t s (some a.id)) = none := hfree
        rw [hfree']
        refine congrArg (fun data => Except.ok (update clock a.load data)) ?_
        exact if_neg fun hstamp => not_undatedPublish hdate hstamp.1
      · exact hp ▸ update_redates (getArticle_ok hget).1 hdate
  | updatePostStatus slug status => cases hsends
  | deletePost slug => cases hsends

/-! ## Commits with a date and without -/

theorem encodeDate_some {d : Datetime} {e : Option Int} (h : encodeDate (some d) = .ok e) :
    d.tzinfo = none := by
  obtain ⟨wall, tzinfo⟩ := d
  cases tzinfo with
  | none => rfl
  | some offset => cases h

theorem encodeDate_naive {d : Datetime} (h : d.tzinfo = none) :
    encodeDate (some d) = .ok (some (timestamp3 d.wall)) := by
  obtain ⟨wall, tzinfo⟩ := d
  obtain rfl : tzinfo = none := h
  rfl

/-- A loaded date is naive. -/
theorem load_publishedAt {a : Article} {d : Datetime} (h : some d = a.load.publishedAt) :
    d.tzinfo = none ∧ a.publishedAt = some d.wall := by
  obtain ⟨wall, hwall, rfl⟩ := Option.map_eq_some_iff.mp h.symm
  exact ⟨rfl, hwall⟩

/-- A date that was changed and could be encoded was naive. -/
theorem encodeChanged_date {a : Article} {x : ArticleObject} {d : Datetime} {e : Option Int}
    (hdate : x.publishedAt = some d) (h : encodeChanged a.load x = .ok e) : d.tzinfo = none := by
  unfold encodeChanged at h
  rw [hdate] at h
  split at h
  next hsame => exact (load_publishedAt hsame).1
  next => exact encodeDate_some h

/-- **The driver takes naive dates only.** -/
theorem naive_of_commit {d : Datetime} {write dated : ArticleWrite}
    {r : ArticleTable × Option Article} (hredates : Redates t d write dated)
    (h : commitArticle t clock nextId dated = .ok r) : d.tzinfo = none := by
  cases hredates with
  | insert data p hdate =>
    obtain ⟨row, hrow, -⟩ := bind_eq_ok.mp h
    obtain ⟨encoded, hencoded, -⟩ := bind_eq_ok.mp hrow
    rw [hdate] at hencoded
    exact encodeDate_some hencoded
  | update a x u ha =>
    simp only [commitArticle] at h
    split at h
    next => cases h
    next =>
      split at h
      next hclean => exact (load_publishedAt (congrArg ArticleOf.publishedAt hclean)).1
      next =>
        obtain ⟨e, hencoded, -⟩ := bind_eq_ok.mp h
        exact encodeChanged_date rfl hencoded

/-- **A naive date is stored as it is.** -/
theorem commit_redated {d : Datetime} {write dated : ArticleWrite} {t₀ : ArticleTable}
    {answer : Option Article} (hredates : Redates t d write dated) (hnaive : d.tzinfo = none)
    (h : commitArticle t clock nextId write = .ok (t₀, answer)) :
    ∃ t' row, commitArticle t clock nextId dated = .ok (t', some row) ∧
      row.publishedAt = some (timestamp3 d.wall) := by
  cases hredates with
  | insert data p hdate =>
    refine insert_redated h ?_
    rw [hdate]
    exact encodeDate_naive hnaive
  | update a x u ha =>
    by_cases hsame : some d = a.load.publishedAt
    · obtain ⟨-, hwall⟩ := load_publishedAt hsame
      obtain ⟨t', stored, hstored, hcommit⟩ :=
        update_redated (p := some d) (u := u) h (if_pos hsame)
      refine ⟨t', _, hcommit, ?_⟩
      -- The date is the one that is stored.
      obtain ⟨hmem, hid⟩ := ArticleTable.find_eq_some.mp hstored
      obtain rfl := eq_of_uniqueCol t.uniqueId hmem ha (ArticleOf.idCol_eq_some.mpr hid) rfl
      have hfits : timestamp3 d.wall = d.wall :=
        (t.fits stored hmem).2.2.2.1 d.wall (List.mem_append_left _ (Option.mem_toList.mpr hwall))
      rw [hfits, ← hwall]
      exact if_pos hsame
    · obtain ⟨t', stored, hstored, hcommit⟩ := update_redated (p := some d) (u := u) h
        ((if_neg hsame).trans (encodeDate_naive hnaive))
      exact ⟨t', _, hcommit, if_neg hsame⟩

/-! ## The wire -/

variable {s : Posts} {c : PostCall} {d : Datetime}

theorem toIst_naive (h : d.tzinfo = none) : (toIst d).wall = d.wall := by
  unfold toIst
  rw [h]

/-- `update_post` on an article that is there. -/
theorem updatePost_eq {actor : Author} {slug : Text} {payload : ArticleUpdate} {a : Article}
    (hget : getArticle t slug = .ok a) :
    updatePost env t clock actor slug payload =
      match payload.slug.get.filter fun s => slugExists t s (some a.id) with
      | some taken => .error (slugInUse taken)
      | none =>
        let data := buildArticleData env payload.dump (some actor) none
        .ok (update clock a.load
          (if data.undatedPublish ∧ a.publishedAt = none then data.stamp clock else data)) := by
  unfold updatePost
  rw [hget]
  rfl

/-- A naive date that is sent back changes nothing. -/
theorem echo_prepare {actor : Author} {slug : Text} {payload : ArticleUpdate} {a : Article}
    {wall : Int} (hsends : payload.publishedAt = .value (naive wall))
    (hget : getArticle t slug = .ok a) (hdate : a.publishedAt = some wall) :
    prepare env t clock actor (.updatePost slug payload) =
      prepare env t clock actor (PostRequest.undated (.updatePost slug payload)) := by
  -- assigning the date that is already there is assigning nothing
  have hsame : ∀ data : ArticleData, data.publishedAt = some (some (naive wall)) →
      data.assign a.load = ArticleData.assign { data with publishedAt := none } a.load := by
    intro data hdata
    unfold ArticleData.assign
    rw [hdata]
    have hload : a.load.publishedAt = some (naive wall) := congrArg (Option.map naive) hdate
    rw [hload]
    rfl
  have hnotNull : ∀ p : Prop, ¬ (p ∧ a.publishedAt = none) := by
    rintro p ⟨-, hnone⟩
    cases hdate.symm.trans hnone
  simp only [prepare, PostRequest.undated]
  rw [updatePost_eq hget, updatePost_eq hget]
  dsimp only
  cases payload.slug.get.filter fun s => slugExists t s (some a.id) with
  | some taken => rfl
  | none =>
    dsimp only
    rw [if_neg (hnotNull _), if_neg (hnotNull _)]
    have hdata := hsame (buildArticleData env payload.dump (some actor) none)
      (congrArg Field.sent hsends)
    exact congrArg (fun x => Except.ok (stampUpdated a.load x (nowIst clock))) hdata

/-- The service takes the request. -/
def Accepts (env : Env) (s : Posts) (c : PostCall) : Prop := ∃ r, perform env s c = .ok r

/-- **A publication date survives the wire exactly if it is naive**, in a request that
is accepted without it. -/
theorem date_survives_iff (hsends : c.request.publishedAt = .value d)
    (haccepted : Accepts env s c.undated) : Survives env s c d ↔ d.tzinfo = none := by
  obtain ⟨⟨t₀, answer⟩, haccepted⟩ := haccepted
  obtain ⟨write, hprepare, hcommit⟩ := bind_eq_ok.mp haccepted
  obtain ⟨dated, hdated, hredates⟩ := prepare_redates hsends hprepare
  constructor
  -- an aware datetime never gets past the driver
  · intro hsurvives
    obtain ⟨t', row, hperform, -⟩ := hsurvives.stored
    obtain ⟨write', hprepare', hcommit'⟩ := bind_eq_ok.mp hperform
    obtain rfl := Except.ok.inj (hdated.symm.trans hprepare')
    exact naive_of_commit hredates (mapError_eq_ok.mp hcommit')
  · intro hnaive
    refine ⟨?_, fun slug payload a wall hrequest hget hdate hsame => ?_⟩
    · obtain ⟨t', row, hdatedCommit, hrow⟩ :=
        commit_redated hredates hnaive (mapError_eq_ok.mp hcommit)
      refine ⟨t', row, bind_eq_ok.mpr ⟨dated, hdated, mapError_eq_ok.mpr hdatedCommit⟩, ?_⟩
      rw [toIst_naive hnaive]
      exact hrow
    · have hwall : d = naive wall := by
        obtain ⟨w, tzinfo⟩ := d
        obtain rfl : tzinfo = none := hnaive
        exact congrArg naive (congrArg Datetime.wall hsame)
      rw [hrequest] at hsends
      unfold perform PostCall.undated
      rw [hrequest, echo_prepare (hwall ▸ hsends) hget hdate]

/-! ## An editor presses Save -/

/-- `POST /admin/posts` with this date. -/
def sampleDated (d : Datetime) : PostCall :=
  ⟨sampleActor, .createPost (samplePayload (.value d) .omitted), 7⟩

/-- `PUT /admin/posts/result` with this date. -/
def sampleSave (d : Datetime) : PostCall :=
  ⟨sampleActor, .updatePost "result".toList (sampleEdit (.value d) .omitted), 0⟩

/-- A naive date is stored. -/
theorem naive_date_survives :
    Survives sampleEnv samplePosts (sampleDated (naive (1600000000 * second)))
      (naive (1600000000 * second)) := by
  have haccepted : okAnd (perform sampleEnv samplePosts
      (sampleDated (naive (1600000000 * second))).undated) (fun _ => true) = true := by
    decide +kernel
  obtain ⟨r, hr, -⟩ := exists_of_okAnd haccepted
  exact (date_survives_iff rfl ⟨r, hr⟩).mpr rfl

/-- The wall clock an article published at once is dated with. -/
def sampleStamp : Int := nowIst (1700000000 * second)

/-- The console sends the date back as the API printed it: the request fails. -/
theorem printed_date_refused :
    ∃ s, exec (serve sampleEnv) samplePosts [sampleCreate] = some s ∧
      s.articles.rows.map ArticleOf.publishedAt = [some sampleStamp] ∧
      toIst ⟨sampleStamp, some istOffset⟩ = toIst (naive sampleStamp) ∧
      Accepts sampleEnv s (sampleSave ⟨sampleStamp, some istOffset⟩).undated ∧
      perform sampleEnv s (sampleSave ⟨sampleStamp, some istOffset⟩) = .error (.raised .dataError) ∧
      ¬ Survives sampleEnv s (sampleSave ⟨sampleStamp, some istOffset⟩)
        ⟨sampleStamp, some istOffset⟩ := by
  have hrun : (exec (serve sampleEnv) samplePosts [sampleCreate]).map (fun s : Posts =>
      decide (s.articles.rows.map ArticleOf.publishedAt = [some sampleStamp] ∧
        okAnd (perform sampleEnv s (sampleSave ⟨sampleStamp, some istOffset⟩).undated)
          (fun _ => true) = true ∧
        errorOf (perform sampleEnv s (sampleSave ⟨sampleStamp, some istOffset⟩)) =
          some (.raised .dataError))) = some true := by
    decide +kernel
  obtain ⟨s, hs, htest⟩ := exec_of_test hrun
  obtain ⟨hstamp, haccepted, hrefused⟩ := of_decide_eq_true htest
  obtain ⟨r, hr, -⟩ := exists_of_okAnd haccepted
  rw [errorOf_eq_some] at hrefused
  refine ⟨s, hs, hstamp, by decide, ⟨r, hr⟩, hrefused, fun hsurvives => ?_⟩
  obtain ⟨t', row, hstored, -⟩ := hsurvives.stored
  cases hrefused.symm.trans hstored

end SarkariWorld.Content
