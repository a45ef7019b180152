import SarkariWorld.Content.Listing
import SarkariWorld.Content.StatusChanges
import SarkariWorld.Content.StoredCopies

/-!
# `updated_at` is the time of the last net change

`services.articles.update` and `set_status`, on one article, with any data and at any
times. "The stamp is conditional on a *net* change, not on a request arriving": what
the code tests is whether the copy differs from the one it loaded, and that is the
same thing only if what differs is stored differently. A date that differs by less
than the column keeps does not, nor does the stamp itself: `NetOnly` is the call that
is not of that kind, and `updated_at_last_change` the law for runs of such calls.

The session is modelled as SQLAlchemy runs it: `update` is a list of assignments
(`setattrs`), and a flush sends the attributes that differ from what was loaded. That this
is the same as the function used everywhere else is `commitArticle_eq_commitKeyed` and
`setattrs_items`.

A column whose encoded value is the same is written by the flush and does not change. So
the two notions of a change, in the copy and in the row, differ in one direction only, and
the law fails only by stamps that mark no change.
-/

namespace SarkariWorld.Content

open SarkariWorld.Lib

/-- A key of a data dictionary with its value. -/
inductive Assignment where
  | id (value : Int)
  | title (value : Text)
  | description (value : Text)
  | slug (value : Text)
  | category (value : ArticleCategory)
  | htmlContent (value : Text)
  | articleStatus (value : ArticleStatus)
  | publishedAt (value : Option Datetime)
  | createdAt (value : Int)
  | updatedAt (value : Int)
  | authorId (value : Option Text)
  | authorName (value : Option Text)
  | instagramPostUrl (value : List UrlTitle)
  | youtubeVideoUrl (value : List UrlTitle)
  | faq (value : List FaqEntry)
  | links (value : List ArticleLink)
  | coverImageUrl (value : Option Text)
  | searchKeyword (value : List Text)
  | metaTitle (value : Option Text)
  | metaDescription (value : Option Text)
  deriving DecidableEq, Repr

/-- `setattr(article, field, value)`. -/
def Assignment.setattr (article : ArticleObject) : Assignment → ArticleObject
  | .id value => { article with id := value }
  | .title value => { article with title := value }
  | .description value => { article with description := value }
  | .slug value => { article with slug := value }
  | .category value => { article with category := value }
  | .htmlContent value => { article with htmlContent := value }
  | .articleStatus value => { article with articleStatus := value }
  | .publishedAt value => { article with publishedAt := value }
  | .createdAt value => { article with createdAt := value }
  | .updatedAt value => { article with updatedAt := value }
  | .authorId value => { article with authorId := value }
  | .authorName value => { article with authorName := value }
  | .instagramPostUrl value => { article with instagramPostUrl := value }
  | .youtubeVideoUrl value => { article with youtubeVideoUrl := value }
  | .faq value => { article with faq := value }
  | .links value => { article with links := value }
  | .coverImageUrl value => { article with coverImageUrl := value }
  | .searchKeyword value => { article with searchKeyword := value }
  | .metaTitle value => { article with metaTitle := value }
  | .metaDescription value => { article with metaDescription := value }

/-- `for field, value in data.items(): setattr(article, field, value)`. -/
def setattrs (data : List Assignment) (article : ArticleObject) : ArticleObject :=
  data.foldl Assignment.setattr article

/-- The dictionary `build_article_data` returns, as its keys and values. -/
def ArticleData.items (data : ArticleData) : List Assignment :=
  (data.title.map .title).toList ++ (data.description.map .description).toList ++
    (data.slug.map .slug).toList ++ (data.category.map .category).toList ++
    (data.articleStatus.map .articleStatus).toList ++
    (data.publishedAt.map .publishedAt).toList ++ (data.htmlContent.map .htmlContent).toList ++
    (data.metaTitle.map .metaTitle).toList ++ (data.metaDescription.map .metaDescription).toList ++
    (data.searchKeyword.map .searchKeyword).toList ++ (data.links.map .links).toList ++
    (data.faq.map .faq).toList ++ (data.instagramPostUrl.map .instagramPostUrl).toList ++
    (data.youtubeVideoUrl.map .youtubeVideoUrl).toList ++
    (data.coverImageUrl.map .coverImageUrl).toList ++
    (data.authorId.map fun v => .authorId (some v)).toList ++
    (data.authorName.map fun v => .authorName (some v)).toList

theorem setattrs_append (data data' : List Assignment) (article : ArticleObject) :
    setattrs (data ++ data') article = setattrs data' (setattrs data article) :=
  List.foldl_append

/-- A key that may be absent: without it the article keeps its old value. -/
theorem setattrs_item {α : Type} (key : α → Assignment) (old : α) (value : Option α)
    {article : ArticleObject} (hold : (key old).setattr article = article) :
    setattrs (value.map key).toList article = (key (value.getD old)).setattr article := by
  cases value with
  | none => exact hold.symm
  | some v => rfl

/-- The author's keys are never null. -/
theorem setattrs_author {α : Type} (key : Option α → Assignment) (old : Option α)
    (value : Option α) {article : ArticleObject} (hold : (key old).setattr article = article) :
    setattrs (value.map fun v => key (some v)).toList article =
      (key (value.or old)).setattr article := by
  cases value with
  | none => exact hold.symm
  | some v => rfl

/-- The two ways to say what `update` sets are the same. -/
theorem setattrs_items (data : ArticleData) (article : ArticleObject) :
    setattrs data.items article = data.assign article := by
  simp only [ArticleData.items, setattrs_append]
  -- `setattr` key by key, in the order of the source's dictionary
  rw [setattrs_item .title article.title _ rfl]
  dsimp only [Assignment.setattr]
  rw [setattrs_item .description article.description _ rfl]
  dsimp only [Assignment.setattr]
  rw [setattrs_item .slug article.slug _ rfl]
  dsimp only [Assignment.setattr]
  rw [setattrs_item .category article.category _ rfl]
  dsimp only [Assignment.setattr]
  rw [setattrs_item .articleStatus article.articleStatus _ rfl]
  dsimp only [Assignment.setattr]
  rw [setattrs_item .publishedAt article.publishedAt _ rfl]
  dsimp only [Assignment.setattr]
  rw [setattrs_item .htmlContent article.htmlContent _ rfl]
  dsimp only [Assignment.setattr]
  rw [setattrs_item .metaTitle article.metaTitle _ rfl]
  dsimp only [Assignment.setattr]
  rw [setattrs_item .metaDescription article.metaDescription _ rfl]
  dsimp only [Assignment.setattr]
  rw [setattrs_item .searchKeyword article.searchKeyword _ rfl]
  dsimp only [Assignment.setattr]
  rw [setattrs_item .links article.links _ rfl]
  dsimp only [Assignment.setattr]
  rw [setattrs_item .faq article.faq _ rfl]
  dsimp only [Assignment.setattr]
  rw [setattrs_item .instagramPostUrl article.instagramPostUrl _ rfl]
  dsimp only [Assignment.setattr]
  rw [setattrs_item .youtubeVideoUrl article.youtubeVideoUrl _ rfl]
  dsimp only [Assignment.setattr]
  rw [setattrs_item .coverImageUrl article.coverImageUrl _ rfl]
  dsimp only [Assignment.setattr]
  rw [setattrs_author .authorId article.authorId _ rfl]
  dsimp only [Assignment.setattr]
  rw [setattrs_author .authorName article.authorName _ rfl]
  dsimp only [Assignment.setattr]
  rfl

/-- A dictionary whose values are the article's own. -/
theorem setattrs_eq_self {data : List Assignment} {article : ArticleObject}
    (h : ∀ x ∈ data, x.setattr article = article) : setattrs data article = article := by
  induction data with
  | nil => rfl
  | cons x data ih =>
    show setattrs data (x.setattr article) = article
    rw [h x List.mem_cons_self]
    exact ih fun y hy => h y (List.mem_cons_of_mem x hy)

/-! ## The flush -/

/-- `flushArticle`, where the key may have been assigned too. -/
def flushKeyed (loaded assigned : ArticleObject) (encoded : Option Int) (stored : Article) :
    Article :=
  { flushArticle loaded assigned encoded stored with
    id := flushCol loaded.id assigned.id stored.id }

/-- `session.commit()` and `session.refresh(article)`, the key included. -/
def commitKeyed (t : ArticleTable) (loaded assigned : ArticleObject) :
    Except PyError (ArticleTable × Article) :=
  match t.find loaded.id with
  | none => .error (if assigned = loaded then .invalidRequestError else .staleDataError)
  | some stored =>
    if assigned = loaded then .ok (t, stored)
    else do
      let encoded ← encodeChanged loaded assigned
      let t' ← ArticleTable.write
        (updateWhere ArticleOf.idCol loaded.id (flushKeyed loaded assigned encoded) t.rows)
      pure (t', flushKeyed loaded assigned encoded stored)

variable {t t' : ArticleTable} {x : ArticleObject} {a b : Article}

/-- What a flush leaves in the row is the copy, as the driver sends it. -/
theorem encode_flushKeyed {encoded : Option Int} (hfits : a.Fits)
    (h : encodeChanged a.load x = .ok encoded) :
    x.encode = .ok (flushKeyed a.load x encoded a) := by
  have hflush : ({ x with id := a.id } : ArticleObject).encode =
      .ok (flushArticle a.load x encoded a) := encode_flushArticle hfits rfl h
  obtain ⟨date, hdate, hrow⟩ := encode_eq_ok.mp hflush
  refine encode_eq_ok.mpr ⟨date, hdate, ?_⟩
  rw [flushKeyed, hrow]
  show { x with
    id := flushCol a.id x.id a.id
    publishedAt := date
    createdAt := timestamp3 x.createdAt
    updatedAt := timestamp3 x.updatedAt } = _
  rw [flushCol_self]

/-- **What a commit stores**: the copy, as the columns hold it. -/
theorem commitKeyed_ok (ha : a ∈ t.rows) (h : commitKeyed t a.load x = .ok (t', b)) :
    b ∈ t'.rows ∧ ((x = a.load ∧ t' = t ∧ b = a) ∨ (x ≠ a.load ∧ x.encode = .ok b)) := by
  have hfound : t.find a.load.id = some a := ArticleTable.find_eq_some.mpr ⟨ha, rfl⟩
  unfold commitKeyed at h
  rw [hfound] at h
  dsimp only at h
  split at h
  next hclean =>
    obtain ⟨rfl, rfl⟩ := Prod.mk.inj (Except.ok.inj h)
    exact ⟨ha, .inl ⟨hclean, rfl, rfl⟩⟩
  next hdirty =>
    obtain ⟨encoded, hencoded, h⟩ := bind_eq_ok.mp h
    obtain ⟨t₁, hwrite, h⟩ := bind_eq_ok.mp h
    obtain ⟨rfl, rfl⟩ := Prod.mk.inj (Except.ok.inj h)
    refine ⟨?_, .inr ⟨hdirty, encode_flushKeyed (t.fits a ha) hencoded⟩⟩
    rw [ArticleTable.write_ok hwrite]
    exact mem_updateWhere_of_eq ha rfl

/-- An update that leaves the key alone is committed as `commitArticle` does. -/
theorem commitArticle_eq_commitKeyed (clock : Nat) (nextId : Int) {loaded : ArticleObject}
    (hid : x.id = loaded.id) : commitArticle t clock nextId (.update loaded x) =
      (commitKeyed t loaded x).map fun result => (result.1, some result.2) := by
  have hflush : flushKeyed loaded x = flushArticle loaded x := by
    funext encoded row
    show { flushArticle loaded x encoded row with id := flushCol loaded.id x.id row.id } = _
    rw [hid, flushCol, if_pos rfl]
    rfl
  simp only [commitArticle, commitKeyed, hflush]
  cases t.find loaded.id with
  | none => rfl
  | some stored =>
    dsimp only
    split
    next => rfl
    next =>
      cases encodeChanged loaded x with
      | error e => rfl
      | ok encoded =>
        show ArticleTable.write _ >>= _ = Except.map _ (ArticleTable.write _ >>= _)
        cases ArticleTable.write
          (updateWhere ArticleOf.idCol loaded.id (flushArticle loaded x encoded) t.rows) with
        | error e => rfl
        | ok articles => rfl

/-! ## The two calls -/

/-- `if session.is_modified(article): article.updated_at = now`. -/
def stampedCopy (article assigned : ArticleObject) (now : Int) : ArticleObject :=
  if assigned ≠ article then { assigned with updatedAt := now } else assigned

theorem stampUpdated_eq (article assigned : ArticleObject) (now : Int) :
    stampUpdated article assigned now = .update article (stampedCopy article assigned now) := rfl

/-- The two functions of the service that change an article. -/
inductive EditCall where
  | update (data : List Assignment) (now : Int)
  | setStatus (status : ArticleStatus) (now : Int)

/-- The time a call was made at. -/
def EditCall.now : EditCall → Int
  | .update _ now => now
  | .setStatus _ now => now

/-- The copy, before its stamp. -/
def EditCall.assigned (article : ArticleObject) : EditCall → ArticleObject
  | .update data _ => setattrs data article
  | .setStatus status now => article.assignStatus status now

/-- An article of a table, open in a session. -/
structure OpenArticle where
  articles : ArticleTable
  row : Article
  stored : row ∈ articles.rows

/-- A call. One that raises is rolled back. -/
def edit (s : OpenArticle) (c : EditCall) : Option OpenArticle :=
  match hcommit : commitKeyed s.articles s.row.load
    (stampedCopy s.row.load (c.assigned s.row.load) c.now) with
  | .ok (articles, row) => some ⟨articles, row, (commitKeyed_ok s.stored hcommit).1⟩
  | .error _ => some s

/-- A column other than `updated_at` is stored with another value. -/
def ChangedElsewhere (a b : Article) : Prop := { b with updatedAt := a.updatedAt } ≠ a

instance (a b : Article) : Decidable (ChangedElsewhere a b) := inferInstanceAs (Decidable (_ ≠ _))

/-- The time of the last call of a run that changed another column, as `updated_at`
keeps it. -/
def lastChange : OpenArticle → List EditCall → Option Int
  | _, [] => none
  | s, c :: cs =>
    match edit s c with
    | none => none
    | some s' =>
      (lastChange s' cs).or
        (if ChangedElsewhere s.row s'.row then some (timestamp3 c.now) else none)

/-- Every value of the data is the stored one, or the status is. -/
def NoOp (s : OpenArticle) : EditCall → Prop
  | .update data _ => ∀ x ∈ data, x.setattr s.row.load = s.row.load
  | .setStatus status _ => status = s.row.articleStatus

/-- What the columns keep of the copy, but for `updated_at`, is what they hold. -/
def StoredAlike (a : Article) (x : ArticleObject) : Prop :=
  ({ x with updatedAt := a.updatedAt } : ArticleObject).encode = .ok a

/-- The data sets nothing new, or something new that is stored; and `published` is not
set on an article that is published without a date. -/
def NetOnly (s : OpenArticle) : EditCall → Prop
  | .update data _ =>
    setattrs data s.row.load = s.row.load ∨ ¬ StoredAlike s.row (setattrs data s.row.load)
  | .setStatus status _ =>
    ¬ (status = .published ∧ s.row.articleStatus = .published ∧ s.row.publishedAt = none)

instance (a : Article) (x : ArticleObject) : Decidable (StoredAlike a x) :=
  inferInstanceAs (Decidable (_ = _))

instance (s : OpenArticle) : (c : EditCall) → Decidable (NetOnly s c)
  | .update _ _ => inferInstanceAs (Decidable (_ ∨ _))
  | .setStatus _ _ => inferInstanceAs (Decidable (¬ (_ ∧ _ ∧ _)))

/-! ## Steps and runs -/

variable {s s' m s₀ : OpenArticle} {c : EditCall} {calls : List EditCall}

/-- A call changes nothing, or stores its copy with the stamp. -/
theorem edit_cases (h : edit s c = some s') : s' = s ∨
    (c.assigned s.row.load ≠ s.row.load ∧
      ({ c.assigned s.row.load with updatedAt := c.now } : ArticleObject).encode =
        .ok s'.row) := by
  unfold edit at h
  split at h
  next articles row hcommit =>
    obtain rfl := Option.some.inj h
    obtain ⟨-, ⟨-, rfl, rfl⟩ | ⟨hdirty, hencode⟩⟩ := commitKeyed_ok s.stored hcommit
    · exact .inl rfl
    · unfold stampedCopy at hdirty hencode
      split at hencode
      next hassigned => exact .inr ⟨hassigned, hencode⟩
      next hassigned =>
        rw [if_neg hassigned] at hdirty
        exact absurd hdirty hassigned
  next => exact .inl (Option.some.inj h).symm

/-- What is stored under another stamp. -/
theorem storedAlike_of_encode {now : Int} (hfits : a.Fits)
    (h : ({ x with updatedAt := now } : ArticleObject).encode = .ok b)
    (hsame : ¬ ChangedElsewhere a b) : StoredAlike a x := by
  obtain ⟨date, hdate, rfl⟩ := encode_eq_ok.mp h
  have hsame := not_not.mp hsame
  refine encode_eq_ok.mpr ⟨date, hdate, ?_⟩
  rw [← hsame]
  show _ = { x with
    publishedAt := date
    createdAt := timestamp3 x.createdAt
    updatedAt := timestamp3 a.updatedAt }
  rw [(fits_dates hfits).2.2]

/-- A status change that is not a first publication is stored unless it changes
nothing. -/
theorem assignStatus_of_storedAlike {status : ArticleStatus} {now : Int}
    (h : StoredAlike a (a.load.assignStatus status now))
    (hdated : ¬ (status = .published ∧ a.articleStatus = .published ∧ a.publishedAt = none)) :
    a.load.assignStatus status now = a.load := by
  obtain ⟨date, hdate, hrow⟩ := encode_eq_ok.mp h
  have hstatus : a.articleStatus = status := by
    rw [congrArg ArticleOf.articleStatus hrow]
    exact assignStatus_status a.load status now
  subst hstatus
  unfold ArticleOf.assignStatus
  dsimp only
  split
  next hfirst =>
    exact absurd ⟨hfirst.1, hfirst.1, Option.map_eq_none_iff.mp hfirst.2⟩ hdated
  next => rfl

/-- **What a call does**: nothing at all, or it changes another column and stamps. -/
theorem edit_step (hnet : NetOnly s c) (h : edit s c = some s') : s' = s ∨
    (ChangedElsewhere s.row s'.row ∧ s'.row.updatedAt = timestamp3 c.now) := by
  obtain hsame | ⟨hassigned, hencode⟩ := edit_cases h
  · exact .inl hsame
  · right
    refine ⟨fun hsame => ?_, ?_⟩
    · have halike : StoredAlike s.row (c.assigned s.row.load) :=
        storedAlike_of_encode (s.articles.fits _ s.stored) hencode (not_not.mpr hsame)
      cases c with
      | update data now =>
        obtain hequal | hstored := hnet
        · exact hassigned hequal
        · exact hstored halike
      | setStatus status now => exact hassigned (assignStatus_of_storedAlike halike hnet)
    · obtain ⟨date, -, hrow⟩ := encode_eq_ok.mp hencode
      rw [hrow]

theorem edit_isSome (s : OpenArticle) (c : EditCall) : ∃ s', edit s c = some s' := by
  unfold edit
  split
  next => exact ⟨_, rfl⟩
  next => exact ⟨s, rfl⟩

/-- A call that changes nothing in the row assigns nothing, provided it is not one that differs by
less than the column keeps. -/
theorem assigned_of_noOp (hnet : NetOnly s c) (h : NoOp s c) :
    c.assigned s.row.load = s.row.load := by
  cases c with
  | update data now => exact setattrs_eq_self h
  | setStatus status now =>
    obtain rfl : status = s.row.articleStatus := h
    show s.row.load.assignStatus s.row.articleStatus now = _
    unfold ArticleOf.assignStatus
    dsimp only
    split
    next hfirst => exact absurd ⟨hfirst.1, hfirst.1, Option.map_eq_none_iff.mp hfirst.2⟩ hnet
    next => rfl

/-- A call that sets what is there leaves all of it alone. -/
theorem edit_noOp (hnet : NetOnly s c) (h : NoOp s c) : edit s c = some s := by
  obtain ⟨s', hs'⟩ := edit_isSome s c
  obtain rfl | ⟨hassigned, -⟩ := edit_cases hs'
  · exact hs'
  · exact absurd (assigned_of_noOp hnet h) hassigned

/-- After a run, the stamp is that of the last call that changed something, or the first one if none
did. -/
theorem updatedAt_lastChange (hrun : AllSteps edit NetOnly s₀ calls)
    (h : exec edit s₀ calls = some s) :
    s.row.updatedAt = (lastChange s₀ calls).getD s₀.row.updatedAt := by
  induction calls generalizing s₀ with
  | nil =>
    obtain rfl := Option.some.inj h
    rfl
  | cons c calls ih =>
    obtain ⟨s₁, hstep, hrest⟩ := exec_cons_some.mp h
    rw [ih (allSteps_cons hrun hstep) hrest]
    simp only [lastChange, hstep]
    -- The run after the call has a last change of its own, or this call may be it.
    cases lastChange s₁ calls with
    | some time => rfl
    | none =>
      obtain rfl | ⟨hchanged, htime⟩ := edit_step hrun.1 hstep
      · have hsame : ¬ ChangedElsewhere s₁.row s₁.row := not_not.mpr rfl
        rw [if_neg hsame]
        rfl
      · rw [if_pos hchanged]
        exact htime

/-- **`updated_at` is the time of the last net change**, in every run of calls that set
nothing new without its being stored; and a call that sets what is there leaves the row
as it is. -/
theorem updated_at_last_change (hrun : AllSteps edit NetOnly s₀ calls)
    (h : exec edit s₀ calls = some s) :
    s.row.updatedAt = (lastChange s₀ calls).getD s₀.row.updatedAt ∧
      ∀ pre c post m, calls = pre ++ c :: post → exec edit s₀ pre = some m → NoOp m c →
        edit m c = some m := by
  refine ⟨updatedAt_lastChange hrun h, fun pre c post m hcalls hpre hnoop => ?_⟩
  exact edit_noOp (allSteps_iff.mp hrun pre c post m hcalls hpre) hnoop

/-- An article published at the epoch. -/
def openSample : OpenArticle :=
  ⟨sampleTable, sampleArticle 1 "result".toList .published (some 0), List.mem_singleton_self _⟩

/-- It is saved unchanged, and then given a new title. -/
def sampleCalls : List EditCall :=
  [.update [.slug "result".toList, .publishedAt (some (naive 0))] 5000,
    .update [.title "Result out".toList] 7000]

theorem sampleCalls_last_change : ∃ s, exec edit openSample sampleCalls = some s ∧
    s.row.updatedAt = (lastChange openSample sampleCalls).getD openSample.row.updatedAt ∧
    ∀ pre c post m, sampleCalls = pre ++ c :: post → exec edit openSample pre = some m →
      NoOp m c → edit m c = some m := by
  have hrun : (exec edit openSample sampleCalls).map
      (fun s => decide (s.row.updatedAt = 7000)) = some true := by
    decide +kernel
  obtain ⟨s, hs, -⟩ := exec_of_test hrun
  exact ⟨s, hs, updated_at_last_change (by decide +kernel) hs⟩

/-- A date that differs by less than a millisecond moves `updated_at` and nothing else. -/
theorem updated_at_moves_alone : ¬ ∀ (s₀ s : OpenArticle) (calls : List EditCall),
    exec edit s₀ calls = some s →
      s.row.updatedAt = (lastChange s₀ calls).getD s₀.row.updatedAt ∧
        ∀ pre c post m, calls = pre ++ c :: post → exec edit s₀ pre = some m → NoOp m c →
          edit m c = some m := by
  intro hlaw
  have hrun : (exec edit openSample [.update [.publishedAt (some (naive 400))] 5000]).map
      (fun s => decide (s.row = { openSample.row with updatedAt := 5000 })) = some true := by
    decide +kernel
  obtain ⟨s, hs, hrow⟩ := exec_of_test hrun
  have hmoved := (hlaw _ _ _ hs).1
  rw [of_decide_eq_true hrow] at hmoved
  exact absurd hmoved (by decide +kernel)

end SarkariWorld.Content
