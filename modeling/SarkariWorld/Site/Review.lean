import SarkariWorld.Site.Service

/-!
# Review of ingested articles

`publish_article` creates drafts: "automated content goes through human review
before it can appear publicly". Nothing else stands between an ingested article
and the public, and the guard of the status endpoint does not look at how its
caller was authenticated. `ingested_stay_unpublished` says what is left of the
promise: an ingested article is not published until a request publishes it.

Two endpoints can publish, the status endpoint and the edit of an article whose body names
a status. That a run leaves an ingested article alone is a condition on its requests,
`leavesForReview`, which looks at the article each of them names. The invariant is the
conclusion itself, for every ingested number at once: a number belongs to one article for
good.
-/

namespace SarkariWorld.Site

open SarkariWorld.Lib SarkariWorld.Auth SarkariWorld.Content

variable (auth : Auth.Env) (content : Content.Env)

/-- No ingested article is published. -/
def Unpublished (s : Service) : Prop :=
  ∀ a ∈ s.db.articles.rows, a.id ∈ s.ingested → a.articleStatus ≠ .published

/-- The step does not set an ingested article to published. -/
def leavesForReview (s : Service) (e : Event) : Prop :=
  ∀ a ∈ s.db.articles.rows, a.id ∈ s.ingested → s.sets auth content a.slug e ≠ some .published

/-- Whoever the step authenticates, it is by an API key. -/
def keyOnly (s : Service) : Event → Prop
  | .call c => ∀ found ∈ (currentUser auth s.db.users s.clock c.creds).toOption.bind id,
      found.2 = .apiKey
  | .tick _ => True

instance decidableUnpublished (s : Service) : Decidable (Unpublished s) :=
  inferInstanceAs (Decidable (∀ a ∈ s.db.articles.rows, a.id ∈ s.ingested →
    a.articleStatus ≠ .published))

instance decidableLeaves (s : Service) (e : Event) :
    Decidable (leavesForReview auth content s e) :=
  inferInstanceAs (Decidable (∀ a ∈ s.db.articles.rows, a.id ∈ s.ingested →
    s.sets auth content a.slug e ≠ some .published))

instance decidableKeyOnly (s : Service) : (e : Event) → Decidable (keyOnly auth s e)
  | .call c => inferInstanceAs (Decidable (∀ found ∈
      (currentUser auth s.db.users s.clock c.creds).toOption.bind id, found.2 = AuthVia.apiKey))
  | .tick _ => .isTrue trivial

variable {auth content} {s s' : Service} {e : Event}

/-- One request that leaves ingested articles for review: none of them is published by it, and the
article it may ingest is a draft. -/
theorem unpublished_step (h : serve auth content s e = some s')
    (hleaves : leavesForReview auth content s e) (hcounted : Counted s) (hs : Unpublished s) :
    Unpublished s' := by
  have hstep := serve_step h
  intro row hrow hingested hpub
  cases article_after hstep row hrow with
  | kept a ha hid hstatus =>
    have hlt := hcounted.articles a ha
    have hold : a.id ∈ s.ingested := by
      rcases (step_count hstep).2 row.id hingested with hold | hnew
      · exact hid ▸ hold
      · omega
    rcases hstatus with hsame | hset
    · exact hs a ha hold (hsame ▸ hpub)
    · exact hleaves a ha hold (hpub ▸ hset)
  | new hlow hhigh hstatus =>
    rcases hstatus with hdraft | hsame
    · cases hdraft.symm.trans hpub
    · have hlt := hcounted.ingested row.id (hsame ▸ hingested)
      omega

/-- **Ingested articles stay unpublished**, in every run none of whose requests sets
one to published. -/
theorem ingested_stay_unpublished {events : List Event} (hcounted : Counted s)
    (hstart : ∀ a ∈ s.db.articles.rows, a.articleStatus ≠ .published)
    (hrun : AllSteps (serve auth content) (leavesForReview auth content) s events)
    (h : exec (serve auth content) s events = some s') : Unpublished s' := by
  have hinv : Counted s' ∧ Unpublished s' :=
    exec_inv (I := fun s => Counted s ∧ Unpublished s)
      (fun _ _ _ hleaves hs hstep => ⟨counted_step (serve_step hstep) hs.1,
        unpublished_step hstep hleaves hs.1 hs.2⟩)
      hrun ⟨hcounted, fun a ha _ => hstart a ha⟩ h
  exact hinv.2

/-! ## A bot with a key -/

/-- `POST /admin/publish/articles`. -/
def sampleIngest : Event := keyCall (.post (.publishArticle samplePublish)) 1

/-- `PATCH /admin/posts/result/status`. -/
def samplePatch (status : ArticleStatus) : Event :=
  keyCall (.post (.updatePostStatus "result".toList status)) 0

/-- Ingested and archived: nobody has read it. -/
theorem ingested_and_archived :
    ∃ s, exec (serve Auth.sampleEnv Content.sampleEnv) sampleInstallation
        [sampleIngest, samplePatch .archived] = some s ∧
      s.db.articles.rows.map ArticleOf.articleStatus = [.archived] ∧ Unpublished s := by
  have hrun : (exec (serve Auth.sampleEnv Content.sampleEnv) sampleInstallation
      [sampleIngest, samplePatch .archived]).map
      (fun s => decide (s.db.articles.rows.map ArticleOf.articleStatus = [.archived])) =
        some true := by
    decide +kernel
  obtain ⟨s, hs, harchived⟩ := exec_of_test hrun
  exact ⟨s, hs, of_decide_eq_true harchived, ingested_stay_unpublished sampleInstallation_counted
    (fun _ ha => absurd ha List.not_mem_nil) (by decide +kernel) hs⟩

/-- With nothing but its key, a bot ingests an article and publishes it. -/
theorem bot_publishes_itself :
    (∀ a ∈ sampleInstallation.db.articles.rows, a.articleStatus ≠ .published) ∧
      AllSteps (serve Auth.sampleEnv Content.sampleEnv) (keyOnly Auth.sampleEnv) sampleInstallation
        [sampleIngest, samplePatch .published] ∧
      ∃ s, exec (serve Auth.sampleEnv Content.sampleEnv) sampleInstallation
          [sampleIngest, samplePatch .published] = some s ∧ ¬ Unpublished s := by
  have hrun : (exec (serve Auth.sampleEnv Content.sampleEnv) sampleInstallation
      [sampleIngest, samplePatch .published]).map (fun s => decide (Unpublished s)) =
        some false := by
    decide +kernel
  obtain ⟨s, hs, hpublished⟩ := exec_of_test hrun
  exact ⟨fun _ ha => absurd ha List.not_mem_nil, by decide +kernel, s, hs,
    of_decide_eq_false hpublished⟩

end SarkariWorld.Site
