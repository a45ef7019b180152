import SarkariWorld.Content.Posts
import SarkariWorld.Lib.Run

/-!
# Published articles are dated

Three endpoints put an article into `published`, each stamping a missing date
under its own condition. Between them they keep every published article dated,
with one exception: `update_post` looks at the *stored* date before it stamps,
and writes the body's afterwards. A body with `published_at: null` over a dated
article is not stamped, and leaves it published without a date.

`prepare_dated_iff` settles one request: given a table whose published articles
are dated, what it writes keeps them so exactly when it is not of that kind
(`undates`). The run lemma follows.

That a date is `None` and that it is `NULL` are the same thing only after the driver has
encoded it, and an aware date is refused there. So the request lemma speaks of what is
written, and the step lemma of what is stored.

The condition is on the requests of a run and on nothing that the service computes:
whether a body has a null date and puts, or leaves, the article in `published`. An ingest
cannot do either, since its article is a draft.
-/

namespace SarkariWorld.Content

open SarkariWorld.Lib

/-- Every published article has a date. -/
def Dated (t : ArticleTable) : Prop :=
  ∀ a ∈ t.rows, a.articleStatus = .published → a.publishedAt ≠ none

instance (t : ArticleTable) : Decidable (Dated t) :=
  inferInstanceAs (Decidable (∀ a ∈ t.rows, a.articleStatus = .published → a.publishedAt ≠ none))

/-- The body sends `published_at: null` over a dated article that is, or becomes,
published. -/
def ClearsDate (a : Article) (payload : ArticleUpdate) : Prop :=
  payload.publishedAt = .null ∧ a.publishedAt ≠ none ∧
    payload.articleStatus.get.getD a.articleStatus = .published

instance (a : Article) (payload : ArticleUpdate) : Decidable (ClearsDate a payload) :=
  inferInstanceAs (Decidable (_ ∧ _ ∧ _))

/-- The request is an update that clears the date of a published article. -/
def undates (t : ArticleTable) : PostRequest → Prop
  | .updatePost slug payload => ∃ a ∈ t.rows, a.slug = slug ∧ ClearsDate a payload
  | _ => False

instance decidableUndates (t : ArticleTable) :
    (request : PostRequest) → Decidable (undates t request)
  | .updatePost slug payload =>
    inferInstanceAs (Decidable (∃ a ∈ t.rows, a.slug = slug ∧ ClearsDate a payload))
  | .createPost _ | .updatePostStatus _ _ | .deletePost _ | .publishArticle _ => .isFalse id

/-- The same, for an event of the service. -/
def undatesAt (s : Posts) : PostEvent → Prop
  | .call c => undates s.articles c.request
  | .tick _ => False

instance (s : Posts) : (e : PostEvent) → Decidable (undatesAt s e)
  | .call c => decidableUndates s.articles c.request
  | .tick _ => .isFalse id

/-! ## Writes -/

/-- The write leaves its row dated if it leaves it published. -/
def ArticleWrite.Keeps : ArticleWrite → Prop
  | .insert data =>
    data.articleStatus.getD .draft = .published → data.publishedAt.getD none ≠ none
  | .update _ assigned => assigned.articleStatus = .published → assigned.publishedAt ≠ none
  | .delete _ => True

/-- The write goes back to the row it was loaded from. -/
def ArticleWrite.LoadedFrom (t : ArticleTable) : ArticleWrite → Prop
  | .insert _ => True
  | .update loaded _ | .delete loaded => ∃ a ∈ t.rows, loaded = a.load

variable {env : Env} {t t' : ArticleTable} {clock : Nat} {nextId : Int} {actor : Author}

/-- The driver makes `NULL` of `None` and of nothing else. -/
theorem encodeDate_ok {d : Option Datetime} {encoded : Option Int}
    (h : encodeDate d = .ok encoded) : encoded = none ↔ d = none := by
  unfold encodeDate at h
  split at h
  · obtain rfl := Except.ok.inj h
    simp
  · obtain rfl := Except.ok.inj h
    simp
  · cases h

/-- An inserted row has the status and the date, if any, of its data. -/
theorem newRow_date {data : ArticleData} {row : Article} (h : newRow data nextId clock = .ok row) :
    row.articleStatus = data.articleStatus.getD .draft ∧
      (row.publishedAt = none ↔ data.publishedAt.getD none = none) := by
  obtain ⟨encoded, hencoded, h⟩ := bind_eq_ok.mp h
  split at h
  next => cases h
  next =>
    obtain rfl := Except.ok.inj h
    exact ⟨rfl, encodeDate_ok hencoded⟩

/-- A row flushed over itself has the status and the date, if any, of the copy. -/
theorem flush_date {a : Article} {assigned : ArticleObject} {encoded : Option Int}
    (h : encodeChanged a.load assigned = .ok encoded) :
    (flushArticle a.load assigned encoded a).articleStatus = assigned.articleStatus ∧
      ((flushArticle a.load assigned encoded a).publishedAt = none ↔
        assigned.publishedAt = none) := by
  refine ⟨flushCol_self, ?_⟩
  unfold encodeChanged at h
  show (if assigned.publishedAt = a.load.publishedAt then a.publishedAt else encoded) = none ↔ _
  split
  next hsame =>
    rw [hsame]
    show a.publishedAt = none ↔ a.publishedAt.map naive = none
    rw [Option.map_eq_none_iff]
  next hdirty =>
    rw [if_neg hdirty] at h
    exact encodeDate_ok h

/-- **What a write does to the invariant.** -/
theorem effect_dated_iff {write : ArticleWrite} (hdated : Dated t) (hload : write.LoadedFrom t)
    (h : Effect t t' clock nextId write) : Dated t' ↔ write.Keeps := by
  cases h with
  | insert data row hrow hrows =>
    obtain ⟨hstatus, hdate⟩ := newRow_date hrow
    constructor
    · intro hdated' hpub
      have hmem : row ∈ t'.rows := by
        rw [hrows]
        exact List.mem_append_right _ (List.mem_singleton_self row)
      exact mt hdate.mpr (hdated' row hmem (hstatus.trans hpub))
    · intro hkeeps a ha hpub
      rw [hrows] at ha
      rcases List.mem_append.mp ha with hold | hnew
      · exact hdated a hold hpub
      · obtain rfl := List.mem_singleton.mp hnew
        exact mt hdate.mp (hkeeps (hstatus.symm.trans hpub))
  | same loaded hrows =>
    obtain ⟨a, ha, rfl⟩ := hload
    -- Nothing was assigned, so the row keeps the date it has.
    have hkeeps : ArticleWrite.Keeps (.update a.load a.load) := by
      intro hpub
      have hdate : a.publishedAt ≠ none := hdated a ha hpub
      show a.publishedAt.map naive ≠ none
      rw [ne_eq, Option.map_eq_none_iff]
      exact hdate
    exact ⟨fun _ => hkeeps, fun _ => by unfold Dated; rw [hrows]; exact hdated⟩
  | update loaded assigned encoded hencoded hrows =>
    obtain ⟨a, ha, rfl⟩ := hload
    obtain ⟨hstatus, hdate⟩ := flush_date hencoded
    constructor
    · intro hdated' hpub
      have hmem : flushArticle a.load assigned encoded a ∈ t'.rows := by
        rw [hrows]
        exact mem_updateWhere_of_eq ha rfl
      exact mt hdate.mpr (hdated' _ hmem (hstatus.trans hpub))
    · intro hkeeps b hb hpub
      rw [hrows, mem_updateWhere] at hb
      obtain ⟨x, hx, rfl⟩ := hb
      split at hpub
      next hid =>
        rw [if_pos hid]
        -- Ids are unique, so this is the row that was loaded.
        obtain rfl := eq_of_uniqueCol t.uniqueId hx ha hid rfl
        exact mt hdate.mp (hkeeps (hstatus.symm.trans hpub))
      next hid =>
        rw [if_neg hid]
        exact hdated x hx hpub
  | delete loaded hrows =>
    refine ⟨fun _ => trivial, fun _ a ha hpub => ?_⟩
    rw [hrows] at ha
    exact hdated a (List.mem_filter.mp ha).1 hpub

/-! ## Requests -/

/-- What `update_post` writes: the body's data, stamped if it publishes an undated
article without a date of its own. -/
theorem updatePost_ok {slug : Text} {payload : ArticleUpdate} {write : ArticleWrite}
    (h : updatePost env t clock actor slug payload = .ok write) :
    ∃ a ∈ t.rows, a.slug = slug ∧ ∃ data : ArticleData,
      data.articleStatus = payload.articleStatus.get ∧
      data.publishedAt = payload.publishedAt.sent ∧
      write = update clock a.load (if data.undatedPublish ∧ a.publishedAt = none then
        data.stamp clock else data) := by
  obtain ⟨a, hget, h⟩ := bind_eq_ok.mp h
  obtain ⟨hmem, hslug, -⟩ := getArticle_ok hget
  split at h
  next => cases h
  next =>
    obtain rfl := Except.ok.inj h
    exact ⟨a, hmem, hslug, buildArticleData env payload.dump (some actor) none, rfl, rfl, rfl⟩

/-- Stamping `updated_at` does not matter here. -/
theorem stampUpdated_keeps_iff (article assigned : ArticleObject) (now : Int) :
    (stampUpdated article assigned now).Keeps ↔
      (assigned.articleStatus = .published → assigned.publishedAt ≠ none) := by
  unfold stampUpdated
  split
  · rfl
  · rfl

/-- An update keeps its article dated exactly when it does not clear the date. -/
theorem update_clears_iff {a : Article} {payload : ArticleUpdate} {data : ArticleData}
    (hstatus : data.articleStatus = payload.articleStatus.get)
    (hdate : data.publishedAt = payload.publishedAt.sent)
    (hdated : a.articleStatus = .published → a.publishedAt ≠ none) :
    (update clock a.load (if data.undatedPublish ∧ a.publishedAt = none then
        data.stamp clock else data)).Keeps ↔ ¬ ClearsDate a payload := by
  have hload : a.load.publishedAt = none ↔ a.publishedAt = none := Option.map_eq_none_iff
  unfold update
  rw [stampUpdated_keeps_iff]
  split
  next hstamp =>
    -- A stamped article has its date, and had none to clear.
    refine ⟨fun _ hclears => hclears.2.1 hstamp.2, fun _ _ => nofun⟩
  next hnot =>
    -- Without a stamp, an undated article is published only if the body dates it.
    have hundated : payload.articleStatus.get.getD a.articleStatus = .published →
        payload.publishedAt.sent.getD none = none → a.publishedAt ≠ none := by
      intro hpub hsent hnone
      cases hs : payload.articleStatus.get with
      | none =>
        rw [hs] at hpub
        exact hdated hpub hnone
      | some status =>
        rw [hs] at hpub
        refine hnot ⟨⟨?_, ?_⟩, hnone⟩
        · rw [hstatus, hs]
          exact congrArg some hpub
        · rw [hdate, hsent]
    show (data.articleStatus.getD a.articleStatus = .published →
      data.publishedAt.getD a.load.publishedAt ≠ none) ↔ _
    rw [hstatus, hdate]
    unfold ClearsDate
    cases hsent : payload.publishedAt with
    | value d => exact ⟨fun _ hclears => (nomatch hclears.1), fun _ _ => nofun⟩
    | null =>
      refine ⟨fun hkeeps hclears => hkeeps hclears.2.2 rfl, fun hclears hpub => ?_⟩
      exact absurd ⟨rfl, hundated hpub (by rw [hsent]; rfl), hpub⟩ hclears
    | omitted =>
      refine ⟨fun _ hclears => (nomatch hclears.1), fun _ hpub => ?_⟩
      exact mt hload.mp (hundated hpub (by rw [hsent]; rfl))

/-- A status change leaves a published article dated. -/
theorem setStatus_keeps (a : ArticleObject) (status : ArticleStatus) (now : Int) :
    (setStatus a status now).Keeps := by
  unfold setStatus
  rw [stampUpdated_keeps_iff]
  unfold ArticleOf.assignStatus
  dsimp only
  split
  next => exact fun _ => nofun
  next hnot => exact fun hpub hnone => hnot ⟨hpub, hnone⟩

/-- **What a request does to the invariant.** -/
theorem prepare_dated_iff {request : PostRequest} {write : ArticleWrite} (hdated : Dated t)
    (h : prepare env t clock actor request = .ok write) :
    write.LoadedFrom t ∧ (write.Keeps ↔ ¬ undates t request) := by
  cases request with
  | createPost payload =>
    obtain ⟨-, h⟩ := ite_error_eq_ok.mp h
    obtain rfl := Except.ok.inj h
    -- a creation that is published without a date is stamped
    refine ⟨trivial, fun _ => id, fun _ hpub => ?_⟩
    split
    next => exact nofun
    next hnot =>
      rw [if_neg hnot] at hpub
      intro hnone
      refine hnot ⟨?_, hnone⟩
      cases hs : (buildArticleData env payload.dump (some actor) none).articleStatus with
      | none =>
        rw [hs] at hpub
        cases hpub
      | some status =>
        rw [hs] at hpub
        exact congrArg some hpub
  | updatePost slug payload =>
    -- an edit can send `published_at: null`, and nothing looks at the date again
    obtain ⟨a, hmem, rfl, data, hstatus, hdate, rfl⟩ := updatePost_ok h
    refine ⟨⟨a, hmem, rfl⟩, ?_⟩
    rw [update_clears_iff hstatus hdate (hdated a hmem)]
    constructor
    · intro hclears hundates
      obtain ⟨b, hb, hslug, hb'⟩ := hundates
      obtain rfl := eq_of_uniqueCol t.uniqueSlug hb hmem (ArticleOf.slugCol_eq_some.mpr hslug) rfl
      exact hclears hb'
    · exact fun hundates hclears => hundates ⟨a, hmem, rfl, hclears⟩
  | updatePostStatus slug status =>
    obtain ⟨a, hget, h⟩ := bind_eq_ok.mp h
    obtain rfl := Except.ok.inj h
    exact ⟨⟨a, (getArticle_ok hget).1, rfl⟩, fun _ => id, fun _ => setStatus_keeps _ _ _⟩
  | deletePost slug =>
    obtain ⟨a, hget, h⟩ := bind_eq_ok.mp h
    obtain rfl := Except.ok.inj h
    exact ⟨⟨a, (getArticle_ok hget).1, rfl⟩, fun _ => id, fun _ => trivial⟩
  | publishArticle payload =>
    obtain ⟨-, h⟩ := ite_error_eq_ok.mp h
    obtain ⟨-, h⟩ := ite_error_eq_ok.mp h
    obtain rfl := Except.ok.inj h
    -- an ingested article is a draft
    exact ⟨trivial, fun _ => id, fun _ hpub => (nomatch hpub)⟩

/-- A successful request keeps every published article dated exactly when it is
not one that clears a date. -/
theorem perform_dated_iff {s : Posts} {c : PostCall} {answer : Option Article}
    (hdated : Dated s.articles) (h : perform env s c = .ok (t', answer)) :
    Dated t' ↔ ¬ undates s.articles c.request := by
  obtain ⟨write, hprepare, heffect⟩ := perform_effect h
  obtain ⟨hload, hkeeps⟩ := prepare_dated_iff hdated hprepare
  rw [effect_dated_iff hdated hload heffect, hkeeps]

/-! ## Runs -/

/-- An event that does not undate an article leaves every published article dated. -/
theorem dated_step {s s' : Posts} {e : PostEvent} (hok : ¬ undatesAt s e)
    (hdated : Dated s.articles) (h : serve env s e = some s') : Dated s'.articles := by
  rcases serve_cases h with hsame | ⟨c, answer, rfl, hperform, -⟩
  · rw [hsame]
    exact hdated
  · exact (perform_dated_iff hdated hperform).mpr hok

/-- **Every published article is dated**, in every run none of whose requests
clears the date of a published article. -/
theorem published_articles_dated {s s' : Posts} {events : List PostEvent}
    (hdated : Dated s.articles)
    (hrun : AllSteps (serve env) (fun s e => ¬ undatesAt s e) s events)
    (h : exec (serve env) s events = some s') : Dated s'.articles :=
  exec_inv (I := fun s => Dated s.articles) (fun _ _ _ hok hd hstep => dated_step hok hd hstep)
    hrun hdated h

/-! ## A short editorial history -/

/-- A body that sends a title, and `published_at` as given. -/
def sampleBase (title : Field Text) (publishedAt : Field Datetime) : ArticleBase :=
  ⟨title, .omitted, .omitted, .omitted, .omitted, .omitted, .omitted, .omitted, .omitted,
    .omitted, .omitted, publishedAt⟩

/-- The editor of the sample requests. -/
def sampleActor : Author := ⟨1, "Editor".toList⟩

/-- The body of `POST /admin/posts`, for the slug `result`. -/
def samplePayload (publishedAt : Field Datetime) (status : Field ArticleStatus) :
    ArticleCreate where
  toArticleBase := sampleBase (.value "Result".toList) publishedAt
  slug := "result".toList
  htmlContent := .omitted
  articleStatus := status
  accepted := (by decide : (sampleBase (.value "Result".toList) .omitted).Accepted)
  title_sent := ⟨_, rfl, by decide⟩
  slug_valid := by decide
  html_short := nofun

/-- The body of `POST /admin/publish/articles`, for the same slug. -/
def samplePublish : ArticlePublish where
  toArticleBase := sampleBase (.value "Result".toList) .omitted
  slug := "result".toList
  content := .omitted
  accepted := by decide
  title_sent := ⟨_, rfl, by decide⟩
  slug_valid := by decide
  content_short := nofun

/-- The body of `PUT /admin/posts/result`. -/
def sampleEdit (publishedAt : Field Datetime) (status : Field ArticleStatus) : ArticleUpdate where
  toArticleBase := sampleBase .omitted publishedAt
  slug := .omitted
  htmlContent := .omitted
  articleStatus := status
  accepted := (by decide : (sampleBase .omitted .omitted).Accepted)
  slug_valid := nofun
  html_short := nofun

/-- `POST /admin/posts`, published without a date. -/
def sampleCreate : PostEvent :=
  .call ⟨sampleActor, .createPost (samplePayload .omitted (.value .published)), 7⟩

/-- `PUT /admin/posts/result` with `published_at: null` and this status. -/
def sampleClear (status : Field ArticleStatus) : PostEvent :=
  .call ⟨sampleActor, .updatePost "result".toList (sampleEdit .null status), 0⟩

/-- A service without articles, in November 2023. -/
def samplePosts : Posts := ⟨.empty, 1700000000 * second⟩

/-- Clearing the date while archiving is harmless: publishing again stamps it. -/
theorem archived_and_republished :
    ∃ s, exec (serve sampleEnv) samplePosts
        [sampleCreate, sampleClear (.value .archived), .tick second,
          .call ⟨sampleActor, .updatePostStatus "result".toList .published, 0⟩] = some s ∧
      s.articles.rows.map ArticleOf.articleStatus = [.published] ∧ Dated s.articles := by
  have hrun : (exec (serve sampleEnv) samplePosts
      [sampleCreate, sampleClear (.value .archived), .tick second,
        .call ⟨sampleActor, .updatePostStatus "result".toList .published, 0⟩]).map
      (fun s => decide (s.articles.rows.map ArticleOf.articleStatus = [.published]))
        = some true := by
    decide +kernel
  obtain ⟨s, hs, hpublished⟩ := exec_of_test hrun
  exact ⟨s, hs, of_decide_eq_true hpublished,
    published_articles_dated (by decide) (by decide +kernel) hs⟩

/-- Cleared while it stays published, the article is published without a date. -/
theorem published_without_date :
    Dated samplePosts.articles ∧
      ∃ s, exec (serve sampleEnv) samplePosts [sampleCreate, sampleClear .omitted] = some s ∧
        ¬ Dated s.articles := by
  have hrun : (exec (serve sampleEnv) samplePosts [sampleCreate, sampleClear .omitted]).map
      (fun s => decide (Dated s.articles)) = some false := by
    decide +kernel
  obtain ⟨s, hs, hundated⟩ := exec_of_test hrun
  exact ⟨by decide, s, hs, of_decide_eq_false hundated⟩

end SarkariWorld.Content
