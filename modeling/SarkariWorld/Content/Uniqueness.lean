import SarkariWorld.Content.Posts
import SarkariWorld.Content.WebUrl

/-!
# When a commit meets a unique index

Slugs and URLs are unique, and each endpoint checks for a conflict before it
writes. `takesSlug` and `takesUrl` ask the same question of a write at the time
of its commit. Where the answer is no, the commit does not raise an
`IntegrityError`; where it is yes, the commit does not succeed.

An `IntegrityError` can come from a row whose slug, URL or number is in use, or from a
column that is not filled; reading raises none. The lemmas ending in `ne_integrity`
exclude all but the index this module is about. The numbers are the sequences' business,
and are assumed to be fresh.

For the endpoints the conclusion is twofold. What they decide to write was free when they
looked (`insert_free`, `createWebUrl_free`), and if it still is at the commit, the commit
does not fail in this way.
-/

namespace SarkariWorld.Content

open SarkariWorld.Lib

/-- The write takes a slug that another article has. -/
def takesSlug (t : ArticleTable) : ArticleWrite → Bool
  | .insert data => data.slug.any fun slug => slugExists t slug none
  | .update loaded assigned =>
    assigned.slug ≠ loaded.slug && slugExists t assigned.slug (some loaded.id)
  | .delete _ => false

/-- The write takes a URL that is in the list. -/
def takesUrl (t : WebUrlTable) : WebUrlWrite → Bool
  | .insert url _ _ => (whereEq WebUrl.urlCol url t.rows).any fun _ => true
  | _ => false

/-! ## Articles -/

section Articles

variable {env : Env} {t t' : ArticleTable} {clock : Nat} {nextId : Int} {write : ArticleWrite}
  {answer : Option Article}

/-- The query of `slug_exists`: a row with the slug, other than the excepted one. -/
theorem slugExists_iff {slug : Text} {exceptId : Option Int} :
    slugExists t slug exceptId = true ↔ ∃ a ∈ t.rows, a.slug = slug ∧ exceptId ≠ some a.id := by
  simp only [slugExists, List.any_eq_true, mem_whereEq, ArticleOf.slugCol_eq_some,
    decide_eq_true_eq, and_assoc]

theorem ArticleTable.write_ne_integrity {rows : List Article}
    (hid : UniqueCol ArticleOf.idCol rows) (hslug : UniqueCol ArticleOf.slugCol rows) :
    ArticleTable.write rows ≠ .error .integrityError := by
  unfold ArticleTable.write
  split
  next => simp [hid, hslug]
  next => simp

/-- The driver refuses a date with another error. -/
theorem encodeDate_error {d : Option Datetime} {e : PyError} (h : encodeDate d = .error e) :
    e = .dataError := by
  unfold encodeDate at h
  split at h
  · cases h
  · cases h
  · exact (Except.error.inj h).symm

theorem newRow_slug {data : ArticleData} {slug : Text} {row : Article}
    (hnamed : data.slug = some slug) (h : newRow data nextId clock = .ok row) :
    row.slug = slug := by
  obtain ⟨encoded, -, h⟩ := bind_eq_ok.mp h
  rw [hnamed] at h
  rw [← Except.ok.inj h]

/-- A row that is given a slug does not lack one. The other columns that must be filled have
defaults. -/
theorem newRow_ne_integrity {data : ArticleData} {slug : Text} (hnamed : data.slug = some slug) :
    newRow data nextId clock ≠ .error .integrityError := by
  intro h
  rcases bind_eq_error.mp h with he | ⟨encoded, -, h⟩
  · cases encodeDate_error he
  · rw [hnamed] at h
    cases h

/-- A new row with a slug of its own and a new number. -/
theorem insert_ne_integrity {data : ArticleData} {slug : Text} (hnamed : data.slug = some slug)
    (hfresh : t.find nextId = none) (hfree : takesSlug t (.insert data) = false) :
    commitArticle t clock nextId (.insert data) ≠ .error .integrityError := by
  intro h
  rcases bind_eq_error.mp h with hrow | ⟨row, hrow, h⟩
  · exact newRow_ne_integrity hnamed hrow
  · have hslug : UniqueCol ArticleOf.slugCol (t.rows ++ [row]) := by
      refine uniqueCol_append t.uniqueSlug fun v hv a ha he => ?_
      rw [takesSlug, hnamed, Option.any_some, ← Bool.not_eq_true, slugExists_iff] at hfree
      refine hfree ⟨a, ha, ?_, nofun⟩
      rw [ArticleOf.slugCol_eq_some] at hv he
      rw [he, ← hv, newRow_slug hnamed hrow]
    have hid : UniqueCol ArticleOf.idCol (t.rows ++ [row]) := by
      refine uniqueCol_append t.uniqueId fun v hv a ha he => ?_
      rw [ArticleOf.idCol_eq_some, newRow_id hrow] at hv
      exact ArticleTable.find_eq_none.mp hfresh a ha (hv ▸ ArticleOf.idCol_eq_some.mp he)
    rcases bind_eq_error.mp h with hwrite | ⟨t', -, h⟩
    · exact ArticleTable.write_ne_integrity hid hslug hwrite
    · cases h

/-- An updated row keeps its number. -/
theorem updated_uniqueId {loaded assigned : ArticleObject} {encoded : Option Int} :
    UniqueCol ArticleOf.idCol
      (updateWhere ArticleOf.idCol loaded.id (flushArticle loaded assigned encoded) t.rows) := by
  exact uniqueCol_updateWhere_of_eq t.uniqueId t.uniqueId fun _ _ _ => rfl

/-- It may take a slug that is free. -/
theorem updated_uniqueSlug {loaded assigned : ArticleObject} {encoded : Option Int}
    (hfree : takesSlug t (.update loaded assigned) = false) :
    UniqueCol ArticleOf.slugCol
      (updateWhere ArticleOf.idCol loaded.id (flushArticle loaded assigned encoded) t.rows) := by
  refine uniqueCol_updateWhere t.uniqueId t.uniqueSlug fun x hx hxk v hv y hy hyk he => ?_
  have hslug : flushCol loaded.slug assigned.slug x.slug = v := ArticleOf.slugCol_eq_some.mp hv
  unfold flushCol at hslug
  split at hslug
  next hclean =>
    -- The row keeps its own slug.
    obtain rfl := eq_of_uniqueCol t.uniqueSlug hx hy (ArticleOf.slugCol_eq_some.mpr hslug) he
    exact hyk hxk
  next hdirty =>
    rw [takesSlug, decide_eq_true hdirty, Bool.true_and, ← Bool.not_eq_true,
      slugExists_iff] at hfree
    refine hfree ⟨y, hy, (ArticleOf.slugCol_eq_some.mp he).trans hslug.symm, fun hid => hyk ?_⟩
    rw [ArticleOf.idCol_eq_some]
    exact (Option.some.inj hid).symm

theorem update_ne_integrity {loaded assigned : ArticleObject}
    (hfree : takesSlug t (.update loaded assigned) = false) :
    commitArticle t clock nextId (.update loaded assigned) ≠ .error .integrityError := by
  intro h
  simp only [commitArticle] at h
  split at h
  next =>
    split at h
    next => cases h
    next => cases h
  next stored _ =>
    split at h
    next => cases h
    next =>
      rcases bind_eq_error.mp h with hencoded | ⟨encoded, -, h⟩
      · unfold encodeChanged at hencoded
        split at hencoded
        next => cases hencoded
        next => cases encodeDate_error hencoded
      · rcases bind_eq_error.mp h with hwrite | ⟨t', -, h⟩
        · exact ArticleTable.write_ne_integrity updated_uniqueId (updated_uniqueSlug hfree) hwrite
        · cases h

theorem delete_ne_integrity {loaded : ArticleObject} :
    commitArticle t clock nextId (.delete loaded) ≠ .error .integrityError := by
  intro h
  rcases bind_eq_error.mp h with hwrite | ⟨t', -, h⟩
  · exact ArticleTable.write_ne_integrity (t.uniqueId.sublist List.filter_sublist)
      (t.uniqueSlug.sublist List.filter_sublist) hwrite
  · cases h

/-- An insertion that was committed took a slug that was free. -/
theorem takesSlug_of_insert {data : ArticleData} {row : Article}
    (hrow : newRow data nextId clock = .ok row) (hrows : t'.rows = t.rows ++ [row]) :
    takesSlug t (.insert data) = false := by
  rw [takesSlug, ← Bool.not_eq_true, Option.any_eq_true]
  rintro ⟨slug, hnamed, hexists⟩
  obtain ⟨a, ha, rfl, -⟩ := slugExists_iff.mp hexists
  have hunique := t'.uniqueSlug
  rw [hrows] at hunique
  exact col_ne_of_append hunique (ArticleOf.slugCol_eq_some.mpr (newRow_slug hnamed hrow)) a ha rfl

theorem takesSlug_of_update {loaded assigned : ArticleObject} {encoded : Option Int}
    {stored : Article} (hstored : t.find loaded.id = some stored)
    (hrows : t'.rows =
      updateWhere ArticleOf.idCol loaded.id (flushArticle loaded assigned encoded) t.rows) :
    takesSlug t (.update loaded assigned) = false := by
  rw [takesSlug, ← Bool.not_eq_true, Bool.and_eq_true, decide_eq_true_eq, slugExists_iff]
  rintro ⟨hdirty, a, ha, hslug, hother⟩
  obtain ⟨hmem, hid⟩ := ArticleTable.find_eq_some.mp hstored
  have hne : ArticleOf.idCol a ≠ some loaded.id := fun he =>
    hother (congrArg some (ArticleOf.idCol_eq_some.mp he).symm)
  -- Both rows are in the new table, with one slug.
  have hrow : flushArticle loaded assigned encoded stored ∈ t'.rows :=
    hrows ▸ mem_updateWhere_of_eq hmem (ArticleOf.idCol_eq_some.mpr hid)
  have hother : a ∈ t'.rows := hrows ▸ mem_updateWhere_of_ne ha hne
  have hsame : (flushArticle loaded assigned encoded stored).slug = a.slug :=
    (flushCol_dirty hdirty).trans hslug.symm
  have heq := eq_of_uniqueCol t'.uniqueSlug hrow hother (ArticleOf.slugCol_eq_some.mpr hsame) rfl
  exact hne (ArticleOf.idCol_eq_some.mpr ((congrArg ArticleOf.id heq).symm.trans hid))

/-- **The unique index**: a write that takes another article's slug does not succeed. -/
theorem takesSlug_of_commit (h : commitArticle t clock nextId write = .ok (t', answer)) :
    takesSlug t write = false := by
  cases write with
  | insert data =>
    obtain ⟨row, hrow, h⟩ := bind_eq_ok.mp h
    obtain ⟨t₁, hwrite, h⟩ := bind_eq_ok.mp h
    obtain ⟨rfl, -⟩ := Prod.mk.inj (Except.ok.inj h)
    exact takesSlug_of_insert hrow (ArticleTable.write_ok hwrite)
  | update loaded assigned =>
    simp only [commitArticle] at h
    split at h
    next => cases h
    next stored hstored =>
      split at h
      next hclean => simp [takesSlug, hclean]
      next =>
        obtain ⟨encoded, -, h⟩ := bind_eq_ok.mp h
        obtain ⟨t₁, hwrite, h⟩ := bind_eq_ok.mp h
        obtain ⟨rfl, -⟩ := Prod.mk.inj (Except.ok.inj h)
        exact takesSlug_of_update hstored (ArticleTable.write_ok hwrite)
  | delete loaded => rfl

end Articles

/-! ## Web URLs -/

section WebUrls

variable {t t' : WebUrlTable} {clock : Nat} {nextId : Int} {url domain title : Text}
  {answer : Option WebUrl}

theorem takesUrl_iff :
    takesUrl t (.insert url domain title) = true ↔ ∃ w ∈ t.rows, w.url = url := by
  simp [takesUrl, List.any_eq_true, mem_whereEq]

theorem WebUrlTable.write_ne_integrity {rows : List WebUrl} (hid : UniqueCol WebUrl.idCol rows)
    (hurl : UniqueCol WebUrl.urlCol rows) : WebUrlTable.write rows ≠ .error .integrityError := by
  unfold WebUrlTable.write
  split
  next => simp [hid, hurl]
  next => simp

theorem insertUrl_ne_integrity (hfresh : t.find nextId = none)
    (hfree : takesUrl t (.insert url domain title) = false) :
    commitWebUrl t clock nextId (.insert url domain title) ≠ .error .integrityError := by
  intro h
  rcases bind_eq_error.mp h with hwrite | ⟨t', -, h⟩
  · refine WebUrlTable.write_ne_integrity ?_ ?_ hwrite
    · refine uniqueCol_append t.uniqueId fun v hv w hw he => ?_
      obtain rfl := WebUrl.idCol_eq_some.mp hv
      have hnone := WebUrlTable.find_eq_some.mpr ⟨hw, WebUrl.idCol_eq_some.mp he⟩
      cases hfresh.symm.trans hnone
    · refine uniqueCol_append t.uniqueUrl fun v hv w hw he => ?_
      obtain rfl := WebUrl.urlCol_eq_some.mp hv
      rw [← Bool.not_eq_true, takesUrl_iff] at hfree
      exact hfree ⟨w, hw, WebUrl.urlCol_eq_some.mp he⟩
  · cases h

/-- An insertion that was committed took a URL that was free. -/
theorem takesUrl_of_commit
    (h : commitWebUrl t clock nextId (.insert url domain title) = .ok (t', answer)) :
    takesUrl t (.insert url domain title) = false := by
  obtain ⟨t₁, hwrite, h⟩ := bind_eq_ok.mp h
  obtain ⟨rfl, -⟩ := Prod.mk.inj (Except.ok.inj h)
  rw [← Bool.not_eq_true, takesUrl_iff]
  rintro ⟨w, hw, he⟩
  have hunique := t₁.uniqueUrl
  rw [WebUrlTable.write_ok hwrite] at hunique
  exact col_ne_of_append hunique (WebUrl.urlCol_eq_some.mpr rfl) w hw
    (WebUrl.urlCol_eq_some.mpr he)

end WebUrls

/-! ## The checks before a write -/

section Checks

variable {env : Env} {t : ArticleTable} {u : WebUrlTable} {clock : Nat} {actor : Author}

/-- The slug the request asks for is another article's. -/
def asksTakenSlug (t : ArticleTable) : PostRequest → Bool
  | .createPost payload => slugExists t payload.slug none
  | .publishArticle payload => slugExists t payload.slug none
  | .updatePost slug payload =>
    okAnd (getArticle t slug) fun a => payload.slug.get.any fun s => slugExists t s (some a.id)
  | .updatePostStatus _ _ | .deletePost _ => false

/-- The URL the request asks for, once it is parsed, is in the list. -/
def asksTakenUrl (env : Env) (t : WebUrlTable) (payload : WebUrlCreate) : Bool :=
  (parseHttpUrl env payload.url).any fun parsed =>
    parsed.domain.length ≤ webUrlDomainMax &&
      (whereEq WebUrl.urlCol parsed.url t.rows).any fun _ => true

/-- **A check that finds the slug taken answers 409.** -/
theorem prepare_conflict {request : PostRequest} (h : asksTakenSlug t request = true) :
    ∃ message, prepare env t clock actor request = .error (.app (conflictError message)) := by
  cases request with
  | createPost payload => exact ⟨"Slug already in use: " ++ String.ofList payload.slug, if_pos h⟩
  | publishArticle payload =>
    by_cases hlong : payload.slug.length > slugMax
    · exact ⟨"Slug is too long.", if_pos hlong⟩
    · exact ⟨"Slug already in use: " ++ String.ofList payload.slug, (if_neg hlong).trans (if_pos h)⟩
  | updatePost slug payload =>
    obtain ⟨a, ha, hany⟩ := exists_of_okAnd h
    rw [Option.any_eq_true] at hany
    obtain ⟨s, hs, hexists⟩ := hany
    have htaken : payload.slug.get.filter (fun s => slugExists t s (some a.id)) = some s :=
      Option.filter_eq_some_iff.mpr ⟨hs, hexists⟩
    refine ⟨"Slug already in use: " ++ String.ofList s, ?_⟩
    simp only [prepare, updatePost, ha, bind, Except.bind, htaken]
    rfl
  | updatePostStatus slug status => cases h
  | deletePost slug => cases h

/-- Reading an article fails for other reasons. -/
theorem getArticle_ne_integrity {slug : Text} :
    getArticle t slug ≠ .error (.raised .integrityError) := by
  intro h
  unfold getArticle at h
  split at h
  next e he =>
    obtain rfl := Failure.raised.inj (Except.error.inj h)
    rw [findBySlug, scalarOneOrNone_whereEq t.uniqueSlug] at he
    split at he
    next => cases he
    next => cases he
  next => cases h
  next => cases h

theorem prepare_ne_integrity {request : PostRequest} :
    prepare env t clock actor request ≠ .error (.raised .integrityError) := by
  intro h
  cases request with
  | createPost payload =>
    -- a taken slug is refused with a conflict of its own, before any insert
    simp only [prepare, createPost] at h
    split at h
    next => cases h
    next => cases h
  | publishArticle payload =>
    simp only [prepare, publishArticle] at h
    split at h
    next => cases h
    next =>
      split at h
      next => cases h
      next => cases h
  | updatePost slug payload =>
    rcases bind_eq_error.mp h with h | ⟨a, -, h⟩
    · exact getArticle_ne_integrity h
    · split at h
      next => cases h
      next => cases h
  | updatePostStatus slug status =>
    rcases bind_eq_error.mp h with h | ⟨a, -, h⟩
    · exact getArticle_ne_integrity h
    · cases h
  | deletePost slug =>
    rcases bind_eq_error.mp h with h | ⟨a, -, h⟩
    · exact getArticle_ne_integrity h
    · cases h

/-- The slug of a body is the slug of its data. -/
theorem buildArticleData_slug {payload : Payload} {slug : Text} (author : Option Author)
    (markdown : Option Text) (hslug : payload.slug.get = some slug) (hvalid : ValidSlug slug) :
    (buildArticleData env payload author markdown).slug = some (env.lower (strip slug)) := by
  unfold buildArticleData
  dsimp only
  rw [hslug]
  cases slug with
  | nil => exact absurd hvalid.1 (Nat.not_succ_le_zero 0)
  | cons c cs => rfl

/-- Dating the data leaves its slug. -/
theorem stamp_slug {data : ArticleData} {p : Prop} [Decidable p] :
    (if p then data.stamp clock else data).slug = data.slug := by
  split
  next => rfl
  next => rfl

/-- An insert names its slug, and the check has found it free. -/
theorem prepare_insert {request : PostRequest} {data : ArticleData}
    (h : prepare env t clock actor request = .ok (.insert data)) :
    ∃ slug, ValidSlug slug ∧ data.slug = some (env.lower (strip slug)) ∧
      slugExists t slug none = false := by
  cases request with
  | createPost payload =>
    obtain ⟨hfree, h⟩ := ite_error_eq_ok.mp h
    obtain rfl := ArticleWrite.insert.inj (Except.ok.inj h)
    -- `create_post` and `publish_article` look the slug up with no article to leave out
    refine ⟨payload.slug, payload.slug_valid, ?_, Bool.eq_false_iff.mpr hfree⟩
    rw [stamp_slug]
    exact buildArticleData_slug _ _ rfl payload.slug_valid
  | publishArticle payload =>
    obtain ⟨-, h⟩ := ite_error_eq_ok.mp h
    obtain ⟨hfree, h⟩ := ite_error_eq_ok.mp h
    obtain rfl := ArticleWrite.insert.inj (Except.ok.inj h)
    refine ⟨payload.slug, payload.slug_valid, ?_, Bool.eq_false_iff.mpr hfree⟩
    dsimp only
    exact buildArticleData_slug _ _ rfl payload.slug_valid
  | updatePost slug payload =>
    obtain ⟨a, -, h⟩ := bind_eq_ok.mp h
    split at h
    next => cases h
    next => cases h
  | updatePostStatus slug status =>
    obtain ⟨a, -, h⟩ := bind_eq_ok.mp h
    cases h
  | deletePost slug =>
    obtain ⟨a, -, h⟩ := bind_eq_ok.mp h
    cases h

/-- `str.lower` leaves what a slug is made of. -/
def LowersSlugs (env : Env) : Prop := ∀ t : Text, t.all slugChar = true → env.lower t = t

/-- A slug has no white space, so trimming it changes nothing. -/
theorem slugChar_not_space {c : Char} (h : slugChar c = true) : isSpace c = false := by
  have hclass : (c.isLower = true ∨ c.isDigit = true) ∨ (c == '-') = true := by
    rw [← Bool.or_eq_true, ← Bool.or_eq_true]
    exact h
  have hcode : 97 ≤ c.toNat ∧ c.toNat ≤ 122 ∨ 48 ≤ c.toNat ∧ c.toNat ≤ 57 ∨ c.toNat = 45 := by
    rcases hclass with (hlower | hdigit) | hyphen
    · obtain ⟨hfirst, hlast⟩ := Bool.and_eq_true_iff.mp hlower
      exact .inl ⟨of_decide_eq_true hfirst, of_decide_eq_true hlast⟩
    · obtain ⟨hfirst, hlast⟩ := Bool.and_eq_true_iff.mp hdigit
      exact .inr (.inl ⟨of_decide_eq_true hfirst, of_decide_eq_true hlast⟩)
    · rw [beq_iff_eq.mp hyphen]
      exact .inr (.inr rfl)
  simp only [isSpace, Bool.or_eq_false_iff, Bool.and_eq_false_iff, decide_eq_false_iff_not,
    beq_eq_false_iff_ne]
  omega

/-- A slug is stored as it is sent. -/
theorem lower_strip_slug {slug : Text} (henv : LowersSlugs env) (h : ValidSlug slug) :
    env.lower (strip slug) = slug := by
  have hkept : ∀ t : Text, t.all slugChar = true → t.dropWhile isSpace = t := by
    intro t ht
    cases t with
    | nil => rfl
    | cons c cs =>
      rw [List.all_cons, Bool.and_eq_true] at ht
      rw [List.dropWhile_cons_of_neg (Bool.eq_false_iff.mp (slugChar_not_space ht.1))]
  have hreverse : slug.reverse.all slugChar = true := List.all_reverse.trans h.2.2
  rw [strip, hkept slug h.2.2, hkept slug.reverse hreverse, List.reverse_reverse]
  exact henv slug h.2.2

/-- What an endpoint decides to insert has a slug that is free. -/
theorem insert_free {request : PostRequest} {data : ArticleData} (henv : LowersSlugs env)
    (h : prepare env t clock actor request = .ok (.insert data)) :
    takesSlug t (.insert data) = false := by
  obtain ⟨slug, hvalid, hslug, hfree⟩ := prepare_insert h
  rw [takesSlug, hslug, Option.any_some, lower_strip_slug henv hvalid]
  exact hfree

theorem assignStatus_slug {article : ArticleObject} {status : ArticleStatus} {now : Int} :
    (article.assignStatus status now).slug = article.slug := by
  unfold ArticleOf.assignStatus
  dsimp only
  split
  next => rfl
  next => rfl

/-- An edit takes a slug only if it brings another one along. -/
theorem takesSlug_stampUpdated {article assigned : ArticleObject} {now : Int} :
    takesSlug t (stampUpdated article assigned now) =
      (assigned.slug ≠ article.slug && slugExists t assigned.slug (some article.id)) := by
  unfold stampUpdated
  split
  next => rfl
  next => rfl

/-- **A write that is checked is free**, until something else is written. -/
theorem prepare_free {request : PostRequest} {write : ArticleWrite} (henv : LowersSlugs env)
    (h : prepare env t clock actor request = .ok write) : takesSlug t write = false := by
  cases request with
  | createPost payload =>
    have hwrite := Except.ok.inj (ite_error_eq_ok.mp h).2
    rw [← hwrite] at h ⊢
    exact insert_free henv h
  | publishArticle payload =>
    have hwrite := Except.ok.inj (ite_error_eq_ok.mp (ite_error_eq_ok.mp h).2).2
    rw [← hwrite] at h ⊢
    exact insert_free henv h
  | updatePost slug payload =>
    obtain ⟨a, -, h⟩ := bind_eq_ok.mp h
    split at h
    next => cases h
    next hfree =>
      obtain rfl := Except.ok.inj h
      rw [update, takesSlug_stampUpdated, ← Bool.not_eq_true, Bool.and_eq_true, decide_eq_true_eq]
      rintro ⟨hdirty, hexists⟩
      have hassigned : ∀ data : ArticleData,
          (data.assign a.load).slug = data.slug.getD a.slug := fun _ => rfl
      rw [hassigned, stamp_slug] at hdirty hexists
      cases hslug : payload.slug.get with
      | none =>
        rw [buildArticleData_no_slug _ _ hslug] at hdirty
        exact hdirty rfl
      | some s =>
        have hvalid : ValidSlug s := payload.slug_valid s hslug
        rw [buildArticleData_slug _ _ hslug hvalid, Option.getD_some,
          lower_strip_slug henv hvalid] at hexists
        -- a slug was sent, and the check that ran first would have found it taken
        have hown : slugExists t s (some a.id) = true := hexists
        rw [hslug, Option.filter_some, if_pos hown] at hfree
        cases hfree
  | updatePostStatus slug status =>
    obtain ⟨a, -, h⟩ := bind_eq_ok.mp h
    obtain rfl := Except.ok.inj h
    rw [setStatus, takesSlug_stampUpdated, assignStatus_slug]
    simp
  | deletePost slug =>
    obtain ⟨a, -, h⟩ := bind_eq_ok.mp h
    obtain rfl := Except.ok.inj h
    rfl

/-- **A check that finds the URL in the list answers 409.** -/
theorem createWebUrl_conflict {payload : WebUrlCreate} (h : asksTakenUrl env u payload = true) :
    ∃ message, createWebUrl env u payload = .error (.app (conflictError message)) := by
  rw [asksTakenUrl, Option.any_eq_true] at h
  obtain ⟨parsed, hparsed, h⟩ := h
  rw [Bool.and_eq_true, decide_eq_true_eq, List.any_eq_true] at h
  obtain ⟨hshort, w, hw, -⟩ := h
  obtain ⟨hmem, hurl⟩ := mem_whereEq.mp hw
  -- What is in the list can be asked for.
  have hstorable : Storable parsed.url :=
    (u.fits w hmem).2.2 parsed.url (WebUrl.urlCol_eq_some.mp hurl ▸ List.mem_cons_self ..)
  have hfound : findByUrl u parsed.url = .ok (some w) := by
    rw [findByUrl, if_pos hstorable, scalarOneOrNone_whereEq u.uniqueUrl,
      lookup_of_mem u.uniqueUrl hmem hurl]
  refine ⟨"That URL is already in the list.", ?_⟩
  simp only [createWebUrl, hparsed, if_neg (Nat.not_lt.mpr hshort), hfound]
  rfl

theorem createWebUrl_ne_integrity {payload : WebUrlCreate} :
    createWebUrl env u payload ≠ .error (.raised .integrityError) := by
  intro h
  unfold createWebUrl at h
  split at h
  next => cases h
  next parsed _ =>
    split at h
    next => cases h
    next =>
      split at h
      next e he =>
        obtain rfl := Failure.raised.inj (Except.error.inj h)
        rw [findByUrl, scalarOneOrNone_whereEq u.uniqueUrl] at he
        split at he
        next => cases he
        next => cases he
      next => cases h
      next => cases h

theorem createWebUrl_free {payload : WebUrlCreate} {write : WebUrlWrite}
    (h : createWebUrl env u payload = .ok write) :
    (∃ url domain title, write = .insert url domain title) ∧ takesUrl u write = false := by
  obtain ⟨parsed, -, -, hnone, rfl⟩ := createWebUrl_ok h
  refine ⟨⟨_, _, _, rfl⟩, ?_⟩
  rw [findByUrl, scalarOneOrNone_whereEq u.uniqueUrl] at hnone
  split at hnone
  next =>
    rw [← Bool.not_eq_true, takesUrl_iff]
    rintro ⟨w, hw, hurl⟩
    exact lookup_eq_none_iff.mp (Except.ok.inj hnone) w hw (WebUrl.urlCol_eq_some.mpr hurl)
  next => cases hnone

end Checks

end SarkariWorld.Content
