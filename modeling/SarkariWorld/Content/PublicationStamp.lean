import SarkariWorld.Content.PublishedDates
import SarkariWorld.Content.StoredCopies

/-!
# The publication date is stamped once

`create_post`, `update_post` and `set_status` stamp `published_at` in three places,
each on a test of its own. Over a run whose bodies bring no date of their own the three
amount to one rule: a request that leaves an undated article published dates it, and
nothing else touches the date (`date_after`). So the date is that of the first
publication, whatever happened before and since: `publication_stamped_once`.

The rule is put as a relation between the row before a request and the copy it writes
(`DatedByRule`), with one lemma for each of the three places. The run lemma then needs no
look at the endpoints any more.

Requests are served one at a time here. Each handler reads the date and writes it in one
step, so that a second publication finds the date of the first; two requests that overlap
may both find none.

The stamp is the clock of the request, rounded by the column. A run in which bodies do
bring dates is the subject of `Content.PublishedDates`, where the question is only whether
there is one.
-/

namespace SarkariWorld.Content

open SarkariWorld.Lib

/-- The path names the article with number `i`. -/
def NamedBy (t : ArticleTable) (i : Int) (slug : Text) : Prop :=
  ∃ a ∈ t.rows, a.id = i ∧ a.slug = slug

instance (t : ArticleTable) (i : Int) (slug : Text) : Decidable (NamedBy t i slug) :=
  inferInstanceAs (Decidable (∃ a ∈ t.rows, a.id = i ∧ a.slug = slug))

/-- If the event is a request on article `i`, its body has no `published_at` key; and it
does not delete the article. -/
def Dateless (i : Int) (s : Posts) : PostEvent → Prop
  | .tick _ => True
  | .call c =>
    match c.request with
    | .createPost payload => c.nextId = i → payload.publishedAt = .omitted
    | .updatePost slug payload => NamedBy s.articles i slug → payload.publishedAt = .omitted
    | .updatePostStatus _ _ => True
    | .deletePost slug => ¬ NamedBy s.articles i slug
    | .publishArticle payload => c.nextId = i → payload.publishedAt = .omitted

instance (i : Int) (s : Posts) : (e : PostEvent) → Decidable (Dateless i s e)
  | .tick _ => .isTrue trivial
  | .call ⟨_, .createPost payload, nextId⟩ =>
    inferInstanceAs (Decidable (nextId = i → payload.publishedAt = .omitted))
  | .call ⟨_, .updatePost slug payload, _⟩ =>
    inferInstanceAs (Decidable (NamedBy s.articles i slug → payload.publishedAt = .omitted))
  | .call ⟨_, .updatePostStatus _ _, _⟩ => .isTrue trivial
  | .call ⟨_, .deletePost slug, _⟩ => inferInstanceAs (Decidable (¬ NamedBy s.articles i slug))
  | .call ⟨_, .publishArticle payload, nextId⟩ =>
    inferInstanceAs (Decidable (nextId = i → payload.publishedAt = .omitted))

/-- Article `i` is stored, and published. -/
def isPublished (t : ArticleTable) (i : Int) : Bool :=
  (t.find i).any fun a => a.articleStatus = .published

/-- The time of the first event that leaves article `i` published, as the column keeps
it. -/
def firstPublication (env : Env) (i : Int) : Posts → List PostEvent → Option Int
  | _, [] => none
  | s, e :: es =>
    match serve env s e with
    | none => none
    | some s' =>
      if isPublished s'.articles i then some (timestamp3 (nowIst s.clock))
      else firstPublication env i s' es

/-- The date of article `i`, if it is stored and has one. -/
def dateOf (t : ArticleTable) (i : Int) : Option Int := (t.find i).bind ArticleOf.publishedAt

variable {env : Env} {i : Int} {s s' m s₀ : Posts} {e : PostEvent} {es events : List PostEvent}
  {t t' : ArticleTable} {clock : Nat} {nextId : Int} {actor : Author} {a b : Article}
  {answer : Option Article}

/-- The first publication of a run is that of its first part, or else of the rest. -/
theorem firstPublication_append (hpre : exec (serve env) s₀ es = some m) :
    firstPublication env i s₀ (es ++ events) =
      (firstPublication env i s₀ es).or (firstPublication env i m events) := by
  induction es generalizing s₀ with
  | nil =>
    obtain rfl := Option.some.inj hpre
    rfl
  | cons e es ih =>
    obtain ⟨s₁, hstep, hrest⟩ := exec_cons_some.mp hpre
    rw [List.cons_append, firstPublication, firstPublication, hstep]
    dsimp only
    split
    · rfl
    · exact ih hrest

/-- In a single event an article is published first if it is published after it. -/
theorem firstPublication_single (h : serve env s e = some s') :
    firstPublication env i s [e] =
      if isPublished s'.articles i then some (timestamp3 (nowIst s.clock)) else none := by
  rw [firstPublication, h]
  rfl

theorem dateOf_of_find (h : t.find i = some a) : dateOf t i = a.publishedAt := by
  rw [dateOf, h]
  rfl

theorem dateOf_of_missing (h : t.find i = none) : dateOf t i = none := by
  rw [dateOf, h]
  rfl

/-- An article that is there is published if its status says so. -/
theorem isPublished_of_find (h : t.find i = some a) :
    isPublished t i = decide (a.articleStatus = .published) := by
  rw [isPublished, h]
  rfl

/-! ## What a write stamps -/

/-- The copy is dated by the rule: it is published now and had no date, or it keeps the
date it was loaded with. -/
def DatedByRule (a : Article) (now : Int) (x : ArticleObject) : Prop :=
  x.publishedAt = if x.articleStatus = .published ∧ a.publishedAt = none then some (naive now)
    else a.publishedAt.map naive

/-- `updated_at` has no part in it. -/
theorem stampUpdated_datedByRule {x y : ArticleObject} {now : Int}
    (hy : DatedByRule a now y) (h : stampUpdated a.load y now = .update a.load x) :
    DatedByRule a now x := by
  unfold stampUpdated at h
  obtain ⟨-, rfl⟩ := ArticleWrite.update.inj h
  split
  · exact hy
  · exact hy

/-- The status endpoint dates by the rule: a first publication, at its own time. -/
theorem assignStatus_datedByRule (status : ArticleStatus) (now : Int) :
    DatedByRule a now (a.load.assignStatus status now) := by
  have hload : a.load.publishedAt = none ↔ a.publishedAt = none := Option.map_eq_none_iff
  unfold ArticleOf.assignStatus
  dsimp only
  split
  next hstamp => exact (if_pos ⟨hstamp.1, hload.mp hstamp.2⟩).symm
  next hnot => exact (if_neg fun hrule => hnot ⟨hrule.1, hload.mpr hrule.2⟩).symm

/-- The data of a body without a date, stamped on a first publication. -/
theorem assign_datedByRule {data : ArticleData} (hdate : data.publishedAt = none)
    (hdated : a.articleStatus = .published → a.publishedAt ≠ none) :
    DatedByRule a (nowIst clock)
      ((if data.undatedPublish ∧ a.publishedAt = none then data.stamp clock else data).assign
        a.load) := by
  unfold DatedByRule
  by_cases hstamp : data.undatedPublish ∧ a.publishedAt = none
  · rw [if_pos hstamp]
    have hpublished : (data.stamp clock).articleStatus.getD a.articleStatus = .published := by
      show data.articleStatus.getD a.articleStatus = .published
      rw [hstamp.1.1]
      rfl
    exact (if_pos ⟨hpublished, hstamp.2⟩).symm
  · rw [if_neg hstamp]
    -- A published copy without a stamp was dated before.
    have hnot : ¬ ((data.assign a.load).articleStatus = .published ∧ a.publishedAt = none) := by
      intro hrule
      refine hstamp ⟨⟨?_, by rw [hdate]; rfl⟩, hrule.2⟩
      have hstatus : data.articleStatus.getD a.articleStatus = .published := hrule.1
      cases hsent : data.articleStatus with
      | none =>
        rw [hsent] at hstatus
        exact absurd hrule.2 (hdated hstatus)
      | some status =>
        rw [hsent] at hstatus
        exact congrArg some hstatus
    rw [if_neg hnot]
    show data.publishedAt.getD a.load.publishedAt = _
    rw [hdate]
    rfl

/-- The rule, of a stored row. -/
theorem encode_datedByRule {x : ArticleObject} {now : Int} (hfits : a.Fits)
    (hx : DatedByRule a now x) (h : x.encode = .ok b) :
    b.publishedAt = a.publishedAt.or
      (if b.articleStatus = .published then some (timestamp3 now) else none) := by
  obtain ⟨date, hdate, rfl⟩ := encode_eq_ok.mp h
  rw [hx] at hdate
  show date = a.publishedAt.or (if x.articleStatus = .published then _ else none)
  cases hold : a.publishedAt with
  | some d =>
    rw [hold, if_neg (fun hrule => nomatch hrule.2)] at hdate
    have hround := (fits_dates hfits).1 d hold
    rw [encodeDate_load fun d' hd' => Option.some.inj hd' ▸ hround] at hdate
    exact (Except.ok.inj hdate).symm
  | none =>
    by_cases hpublished : x.articleStatus = .published
    · rw [if_pos ⟨hpublished, hold⟩] at hdate
      rw [if_pos hpublished]
      exact (Except.ok.inj hdate).symm
    · rw [if_neg (fun hrule => hpublished hrule.1), hold] at hdate
      rw [if_neg hpublished]
      exact (Except.ok.inj hdate).symm

/-- A new row whose data is dated by the rule. -/
theorem newRow_datedByRule {data : ArticleData}
    (hdata : data.publishedAt.getD none = if data.articleStatus.getD .draft = .published then
      some (naive (nowIst clock)) else none)
    (h : newRow data nextId clock = .ok b) :
    b.publishedAt =
      if b.articleStatus = .published then some (timestamp3 (nowIst clock)) else none := by
  obtain ⟨date, hdate, h⟩ := bind_eq_ok.mp h
  split at h
  next => cases h
  next =>
    obtain rfl := Except.ok.inj h
    rw [hdata] at hdate
    show date = if data.articleStatus.getD .draft = .published then _ else none
    by_cases hpublished : data.articleStatus.getD .draft = .published
    · rw [if_pos hpublished] at hdate ⊢
      exact (Except.ok.inj hdate).symm
    · rw [if_neg hpublished] at hdate ⊢
      exact (Except.ok.inj hdate).symm

/-! ## What a request stamps -/

/-- What is found under a number was not deleted from under it. -/
theorem find_after_isSome {write : ArticleWrite} (hrow : write.OfRow t)
    (h : Effect t t' clock nextId write) (ha : t.find i = some a) (hnot : write ≠ .delete a.load) :
    ∃ b, t'.find i = some b := by
  obtain ⟨hmem, hid⟩ := ArticleTable.find_eq_some.mp ha
  cases h with
  | insert data new hnew hrows =>
    refine ⟨a, ArticleTable.find_eq_some.mpr ⟨?_, hid⟩⟩
    rw [hrows]
    exact List.mem_append_left _ hmem
  | same loaded hrows =>
    refine ⟨a, ArticleTable.find_eq_some.mpr ⟨?_, hid⟩⟩
    rw [hrows]
    exact hmem
  | update loaded x encoded hencoded hrows =>
    let written := if a.idCol = some loaded.id then flushArticle loaded x encoded a else a
    refine ⟨written, ArticleTable.find_eq_some.mpr ⟨?_, ?_⟩⟩
    · rw [hrows, mem_updateWhere]
      exact ⟨a, hmem, rfl⟩
    · show (if a.idCol = some loaded.id then flushArticle loaded x encoded a else a).id = i
      split
      · exact hid
      · exact hid
  | delete loaded hrows =>
    obtain ⟨c, hc, rfl⟩ := hrow
    refine ⟨a, ArticleTable.find_eq_some.mpr ⟨?_, hid⟩⟩
    rw [hrows]
    refine List.mem_filter.mpr ⟨hmem, decide_eq_true fun he => hnot ?_⟩
    have hsame : a.id = c.id := he
    obtain rfl := eq_of_uniqueCol t.uniqueId hc hmem (ArticleOf.idCol_eq_some.mpr hsame.symm) rfl
    rfl

/-- The row that a loaded copy stands for. -/
theorem eq_of_load (ha : a ∈ t.rows) (hb : b ∈ t.rows) (h : a.load = b.load) : a = b :=
  eq_of_uniqueCol t.uniqueId ha hb rfl
    (ArticleOf.idCol_eq_some.mpr (congrArg ArticleOf.id h).symm)

theorem namedBy_of_load {c : Article} (ha : t.find i = some a) (hc : c ∈ t.rows)
    (h : c.load = a.load) : NamedBy t i c.slug := by
  obtain ⟨hmem, hid⟩ := ArticleTable.find_eq_some.mp ha
  obtain rfl := eq_of_load hc hmem h
  exact ⟨c, hc, hid, rfl⟩

/-- The copy a request on article `i` flushes. -/
theorem prepare_datedByRule {c : PostCall} {x : ArticleObject} (hdateless : Dateless i s (.call c))
    (ha : s.articles.find i = some a)
    (hdated : a.articleStatus = .published → a.publishedAt ≠ none)
    (h : prepare env s.articles s.clock c.actor c.request = .ok (.update a.load x)) :
    DatedByRule a (nowIst s.clock) x := by
  obtain ⟨actor, request, nextId⟩ := c
  cases request with
  | createPost payload =>
    obtain ⟨-, h⟩ := ite_error_eq_ok.mp h
    cases h
  | updatePost slug payload =>
    obtain ⟨c, hc, rfl, data, -, hdate, hwrite⟩ := updatePost_ok h
    have hload : c.load = a.load := by
      unfold update stampUpdated at hwrite
      exact (ArticleWrite.update.inj hwrite).1.symm
    -- the edit is of the article with this number, so it sends no date
    have homitted : payload.publishedAt = .omitted := hdateless (namedBy_of_load ha hc hload)
    obtain rfl := eq_of_load hc (ArticleTable.find_eq_some.mp ha).1 hload
    rw [homitted] at hdate
    exact stampUpdated_datedByRule (assign_datedByRule hdate hdated) hwrite.symm
  | updatePostStatus slug status =>
    obtain ⟨c, hget, hwrite⟩ := bind_eq_ok.mp h
    have hwrite : setStatus c.load status (nowIst s.clock) = .update a.load x :=
      Except.ok.inj hwrite
    have hload : c.load = a.load := by
      unfold setStatus stampUpdated at hwrite
      exact (ArticleWrite.update.inj hwrite).1
    obtain rfl := eq_of_load (getArticle_ok hget).1 (ArticleTable.find_eq_some.mp ha).1 hload
    exact stampUpdated_datedByRule (assignStatus_datedByRule status _) hwrite
  | deletePost slug =>
    obtain ⟨c, -, hwrite⟩ := bind_eq_ok.mp h
    cases hwrite
  | publishArticle payload =>
    obtain ⟨-, h⟩ := ite_error_eq_ok.mp h
    obtain ⟨-, h⟩ := ite_error_eq_ok.mp h
    cases h

/-- The data of a request that adds article `i`. -/
theorem prepare_data {c : PostCall} {data : ArticleData} (hdateless : Dateless i s (.call c))
    (hid : i = c.nextId)
    (h : prepare env s.articles s.clock c.actor c.request = .ok (.insert data)) :
    data.publishedAt.getD none = if data.articleStatus.getD .draft = .published then
      some (naive (nowIst s.clock)) else none := by
  obtain ⟨actor, request, nextId⟩ := c
  cases request with
  | createPost payload =>
    obtain ⟨-, h⟩ := ite_error_eq_ok.mp h
    have homitted : payload.publishedAt = .omitted := hdateless hid.symm
    have hwrite := ArticleWrite.insert.inj (Except.ok.inj h)
    have hdate : (buildArticleData env payload.dump (some actor) none).publishedAt = none := by
      show payload.publishedAt.sent = none
      rw [homitted]
      rfl
    generalize buildArticleData env payload.dump (some actor) none = built at hwrite hdate
    subst hwrite
    -- Without a date of its own, the data is stamped just if it publishes.
    by_cases hstamp : built.undatedPublish
    · rw [if_pos hstamp]
      have hpublished : (built.stamp s.clock).articleStatus.getD .draft = .published := by
        show built.articleStatus.getD .draft = .published
        rw [hstamp.1]
        rfl
      exact (if_pos hpublished).symm
    · rw [if_neg hstamp, hdate]
      refine (if_neg fun hpublished => hstamp ⟨?_, by rw [hdate]; rfl⟩).symm
      cases hsent : built.articleStatus with
      | none =>
        rw [hsent] at hpublished
        cases hpublished
      | some status =>
        rw [hsent] at hpublished
        exact congrArg some hpublished
  | updatePost slug payload =>
    obtain ⟨c, -, -, data, -, -, hwrite⟩ := updatePost_ok h
    cases hwrite
  | updatePostStatus slug status =>
    obtain ⟨c, -, hwrite⟩ := bind_eq_ok.mp h
    cases hwrite
  | deletePost slug =>
    obtain ⟨c, -, hwrite⟩ := bind_eq_ok.mp h
    cases hwrite
  | publishArticle payload =>
    obtain ⟨-, h⟩ := ite_error_eq_ok.mp h
    obtain ⟨-, h⟩ := ite_error_eq_ok.mp h
    have homitted : payload.publishedAt = .omitted := hdateless hid.symm
    obtain rfl := ArticleWrite.insert.inj (Except.ok.inj h)
    show payload.publishedAt.sent.getD none = none
    rw [homitted]
    rfl

/-- A request that deletes article `i` names it. -/
theorem not_delete_of_dateless {c : PostCall} (hdateless : Dateless i s (.call c))
    (ha : s.articles.find i = some a) :
    prepare env s.articles s.clock c.actor c.request ≠ .ok (.delete a.load) := by
  intro h
  obtain ⟨actor, request, nextId⟩ := c
  cases request with
  | createPost payload =>
    obtain ⟨-, h⟩ := ite_error_eq_ok.mp h
    cases h
  | updatePost slug payload =>
    obtain ⟨c, -, -, data, -, -, hwrite⟩ := updatePost_ok h
    cases hwrite
  | updatePostStatus slug status =>
    obtain ⟨c, -, hwrite⟩ := bind_eq_ok.mp h
    cases hwrite
  | deletePost slug =>
    obtain ⟨c, hget, hwrite⟩ := bind_eq_ok.mp h
    obtain ⟨hc, rfl, -⟩ := getArticle_ok hget
    exact hdateless (namedBy_of_load ha hc (ArticleWrite.delete.inj (Except.ok.inj hwrite)))
  | publishArticle payload =>
    obtain ⟨-, h⟩ := ite_error_eq_ok.mp h
    obtain ⟨-, h⟩ := ite_error_eq_ok.mp h
    cases h

/-- If article `i` is published, it has a date. -/
def DatedAt (t : ArticleTable) (i : Int) : Prop :=
  ∀ a, t.find i = some a → a.articleStatus = .published → a.publishedAt ≠ none

/-- The date article `i` gets now, if it is published and has none. -/
def stampAt (t' : ArticleTable) (i : Int) (clock : Nat) : Option Int :=
  if isPublished t' i then some (timestamp3 (nowIst clock)) else none

/-- **What a request does to the date of article `i`**, unless it brings one. -/
theorem date_after {c : PostCall} (hdateless : Dateless i s (.call c))
    (hdated : DatedAt s.articles i) (h : perform env s c = .ok (t', answer)) :
    dateOf t' i = (dateOf s.articles i).or (stampAt t' i s.clock) := by
  obtain ⟨write, hprepare, heffect⟩ := perform_effect h
  have hrow := prepare_ofRow hprepare
  cases hafter : t'.find i with
  | none =>
    cases hbefore : s.articles.find i with
    | none =>
      rw [dateOf_of_missing hafter, dateOf_of_missing hbefore, stampAt, isPublished, hafter]
      rfl
    | some a =>
      obtain ⟨b, hb⟩ := find_after_isSome hrow heffect hbefore
        fun he => not_delete_of_dateless hdateless hbefore (he ▸ hprepare)
      rw [hafter] at hb
      cases hb
  | some b =>
    have hstamp : stampAt t' i s.clock =
        if b.articleStatus = .published then some (timestamp3 (nowIst s.clock)) else none := by
      rw [stampAt, isPublished_of_find hafter]
      simp only [decide_eq_true_eq]
    rw [hstamp, dateOf_of_find hafter]
    cases found_after hrow heffect hafter with
    | inserted data hnew hid hfresh =>
      rw [dateOf_of_missing hfresh, Option.none_or]
      exact newRow_datedByRule (prepare_data hdateless hid hprepare) hnew
    | stored a x hfound hencode =>
      rw [dateOf_of_find hfound]
      have hfits := s.articles.fits a (ArticleTable.find_eq_some.mp hfound).1
      exact encode_datedByRule hfits
        (prepare_datedByRule hdateless hfound (hdated a hfound) hprepare) hencode
    | kept write hfound hother =>
      rw [dateOf_of_find hfound]
      cases hdate : b.publishedAt with
      | some d => rfl
      | none =>
        rw [if_neg fun hpublished => hdated b hfound hpublished hdate]
        rfl

/-- What an event does to it. -/
theorem date_step (hdateless : Dateless i s e) (hdated : DatedAt s.articles i)
    (h : serve env s e = some s') :
    dateOf s'.articles i = (dateOf s.articles i).or (firstPublication env i s [e]) := by
  rw [firstPublication_single h]
  obtain hsame | ⟨c, answer, rfl, hperform, -⟩ := serve_cases h
  · rw [hsame]
    cases hfind : s.articles.find i with
    | none =>
      rw [dateOf_of_missing hfind, isPublished, hfind]
      rfl
    | some a =>
      rw [dateOf_of_find hfind, isPublished_of_find hfind]
      cases hdate : a.publishedAt with
      | some d => rfl
      | none =>
        rw [if_neg fun hpublished => hdated a hfind (of_decide_eq_true hpublished) hdate]
        rfl
  · exact date_after hdateless hdated hperform

/-- The step keeps a published article dated. -/
theorem datedAt_step (hdateless : Dateless i s e) (hdated : DatedAt s.articles i)
    (h : serve env s e = some s') : DatedAt s'.articles i := by
  intro b hb hpublished hnone
  have hdate := date_step hdateless hdated h
  rw [firstPublication_single h, isPublished_of_find hb, if_pos (decide_eq_true hpublished),
    dateOf_of_find hb, hnone] at hdate
  cases hbefore : dateOf s.articles i with
  | none =>
    rw [hbefore] at hdate
    cases hdate
  | some d =>
    rw [hbefore] at hdate
    cases hdate

/-! ## Runs -/

/-- Article `i` has never been published: it is not stored yet, or it waits without a
date. -/
def Unpublished (t : ArticleTable) (i : Int) : Prop :=
  ∀ a ∈ t.rows, a.id = i → a.articleStatus ≠ .published ∧ a.publishedAt = none

instance (t : ArticleTable) (i : Int) : Decidable (Unpublished t i) :=
  inferInstanceAs (Decidable (∀ a ∈ t.rows, a.id = i → _))

theorem dateOf_unpublished (h : Unpublished t i) : dateOf t i = none := by
  cases hfind : t.find i with
  | none => exact dateOf_of_missing hfind
  | some a =>
    obtain ⟨hmem, hid⟩ := ArticleTable.find_eq_some.mp hfind
    rw [dateOf_of_find hfind]
    exact (h a hmem hid).2

/-- **The date is that of the first publication.** -/
theorem dateOf_eq_firstPublication (h₀ : Unpublished s₀.articles i)
    (hrun : AllSteps (serve env) (Dateless i) s₀ events) (h : exec (serve env) s₀ events = some s) :
    dateOf s.articles i = firstPublication env i s₀ events ∧ DatedAt s.articles i := by
  refine exec_hist (I := fun es m => exec (serve env) s₀ es = some m ∧
    (AllSteps (serve env) (Dateless i) s₀ es →
      dateOf m.articles i = firstPublication env i s₀ es ∧ DatedAt m.articles i))
    ?_ ⟨rfl, fun _ => ⟨dateOf_unpublished h₀, ?_⟩⟩ h |>.2 hrun
  · intro es m e m' ⟨hes, ih⟩ hstep
    refine ⟨exec_snoc_some.mpr ⟨m, hes, hstep⟩, fun hall => ?_⟩
    obtain ⟨hdate, hdated⟩ := ih (allSteps_left hall)
    have hdateless : Dateless i m e := (allSteps_right hall hes).1
    refine ⟨?_, datedAt_step hdateless hdated hstep⟩
    rw [firstPublication_append hes, date_step hdateless hdated hstep, hdate]
  · intro a ha hpublished
    obtain ⟨hmem, hid⟩ := ArticleTable.find_eq_some.mp ha
    exact absurd hpublished (h₀ a hmem hid).1

/-- **The publication date is stamped once**: it is missing until the first request that
publishes the article, it is the time of that request, and it stays. -/
theorem publication_stamped_once {pre post : List PostEvent} (h₀ : Unpublished s₀.articles i)
    (hrun : AllSteps (serve env) (Dateless i) s₀ (pre ++ post))
    (hpre : exec (serve env) s₀ pre = some m) (hpost : exec (serve env) m post = some s) :
    dateOf m.articles i = firstPublication env i s₀ pre ∧
      ∀ d, dateOf m.articles i = some d → dateOf s.articles i = some d := by
  have hdate := (dateOf_eq_firstPublication h₀ (allSteps_left hrun) hpre).1
  refine ⟨hdate, fun d hd => ?_⟩
  rw [(dateOf_eq_firstPublication h₀ hrun (exec_append_some.mpr ⟨m, hpre, hpost⟩)).1,
    firstPublication_append hpre, ← hdate, hd]
  rfl

/-- A draft, published a second later. -/
def samplePublication : List PostEvent :=
  [.call ⟨sampleActor, .createPost (samplePayload .omitted .omitted), 7⟩, .tick second,
    .call ⟨sampleActor, .updatePostStatus "result".toList .published, 0⟩]

/-- It is archived and, another second later, published again by an edit. -/
def sampleRepublication : List PostEvent :=
  [.call ⟨sampleActor, .updatePostStatus "result".toList .archived, 0⟩, .tick second,
    .call ⟨sampleActor, .updatePost "result".toList (sampleEdit .omitted (.value .published)), 0⟩]

/-- A run with a publication, and another behind it that archives and publishes again: the date
stays. -/
theorem samplePublication_stamped : ∃ m s,
    exec (serve sampleEnv) samplePosts samplePublication = some m ∧
      exec (serve sampleEnv) m sampleRepublication = some s ∧
      dateOf m.articles 7 = firstPublication sampleEnv 7 samplePosts samplePublication ∧
      (∀ d, dateOf m.articles 7 = some d → dateOf s.articles 7 = some d) ∧
      dateOf s.articles 7 = some (1700019801 * second) := by
  have hrun : (exec (serve sampleEnv) samplePosts (samplePublication ++ sampleRepublication)).map
      (fun s => decide (dateOf s.articles 7 = some (1700019801 * second))) = some true := by
    decide +kernel
  obtain ⟨s, hs, hdate⟩ := exec_of_test hrun
  obtain ⟨m, hpre, hpost⟩ := exec_append_some.mp hs
  obtain ⟨hfirst, hkept⟩ :=
    publication_stamped_once (i := 7) (by decide) (by decide +kernel) hpre hpost
  exact ⟨m, s, hpre, hpost, hfirst, hkept, of_decide_eq_true hdate⟩

end SarkariWorld.Content
