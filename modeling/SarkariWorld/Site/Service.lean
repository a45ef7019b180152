import SarkariWorld.Auth.System
import SarkariWorld.Content.StatusChanges
import SarkariWorld.Content.Toggles
import SarkariWorld.Lib.Run
import SarkariWorld.Site.Handlers

/-!
# The whole service, one request at a time

Runs of the write endpoints over the four tables. Every endpoint that is not a
`WriteRequest` only reads, and is a step that changes nothing. A call says who
asks, for what, and how the database behaves meanwhile; what is stored when its
handler ends is the next state, whether it answered or raised.

Articles are numbered by a sequence, which may skip numbers but never goes back,
so the number of a deleted article is not given to another one. `ingested` is a
ghost: the numbers of the articles that `publish_article` created.

A run carries the clock and what the sequences still have to give, since later requests
depend on both. The results about runs that name a request of its own for each step
(`ingested_stay_unpublished`, for one) are stated here, over sequences of requests; those
that say what may happen between the exchanges of a request are over `Site.Threads`.
-/

namespace SarkariWorld.Site

open SarkariWorld.Lib SarkariWorld.Auth SarkariWorld.Content

/-- A request, with what it draws from its surroundings: the secret of a key, the number of a new
row and what goes wrong in its exchanges. -/
structure Call where
  creds : Credentials
  request : WriteRequest
  draw : KeyDraw
  nextId : Int
  faults : List (Option PyError)

/-- The service between two requests. -/
structure Service where
  db : Database
  clock : Nat
  /-- The least number the articles' sequence may still give. -/
  sequence : Int
  ingested : List Int

/-- A request is served, or time passes. -/
inductive Event where
  | call (c : Call)
  | tick (microseconds : Nat)

variable (auth : Auth.Env) (content : Content.Env)

/-- What the handler of a call depends on. -/
def Service.context (s : Service) (c : Call) : Context :=
  ⟨auth, content, s.clock, c.creds, c.draw, c.nextId⟩

/-- The requests that insert an article. -/
def insertsArticle : WriteRequest → Bool
  | .post request => addsArticle request
  | _ => false

/-- The requests whose articles are to be reviewed. -/
def ingests : WriteRequest → Bool
  | .post (.publishArticle _) => true
  | _ => false

/-- Whether the number went to a new article. -/
def numbered (before after : Database) (id : Int) : Bool :=
  (before.articles.find id).isNone && (after.articles.find id).isSome

/-- The state after a call that leaves `stored`. -/
def Service.after (s : Service) (c : Call) (stored : Database) : Service where
  db := stored
  clock := s.clock
  sequence := if numbered s.db stored c.nextId then c.nextId + 1 else s.sequence
  ingested :=
    if numbered s.db stored c.nextId && ingests c.request then c.nextId :: s.ingested
    else s.ingested

/-- One step of the service. A call that is answered leaves what its handler committed; one for
which the sequence would have to go back does not happen. -/
def serve (s : Service) : Event → Option Service
  | .call c =>
    if insertsArticle c.request = true ∧ c.nextId < s.sequence then none
    else
      some (s.after c (serveWrite (s.context auth content c) s.db c.faults c.request).2.stored)
  | .tick microseconds => some { s with clock := s.clock + microseconds }

/-! ## What a step does -/

variable {auth content} {s s' : Service} {c : Call} {e : Event}

/-- No article is new in a database compared with itself. -/
theorem numbered_self (d : Database) (id : Int) : numbered d d id = false := by
  unfold numbered
  cases d.articles.find id <;> rfl

/-- A step leaves the database alone, or carries a request out. -/
inductive Step (auth : Auth.Env) (content : Content.Env) (s s' : Service) : Event → Prop where
  | quiet (e : Event) (hdb : s'.db = s.db) (hsequence : s'.sequence = s.sequence)
      (hingested : s'.ingested = s.ingested) : Step auth content s s' e
  | carried (c : Call) (hsequence : insertsArticle c.request = true → s.sequence ≤ c.nextId)
      (change : Change)
      (hplan : plan (s.context auth content c) s.db c.request = .ok change)
      (hflush : flush s.clock c.nextId s.db change = .ok s'.db)
      (hafter : s' = s.after c s'.db) : Step auth content s s' (.call c)

theorem serve_step (h : serve auth content s e = some s') : Step auth content s s' e := by
  cases e with
  | tick microseconds =>
    obtain rfl := Option.some.inj h
    exact .quiet _ rfl rfl rfl
  | call c =>
    obtain ⟨hnumber, h⟩ := Option.ite_none_left_eq_some.mp h
    obtain rfl := Option.some.inj h
    have htransacts : Transacts s.db (handleWrite (s.context auth content c) c.request) _ :=
      handleWrite_transacts c.request
    rcases htransacts (.begin s.db (c.faults.map (Option.map Failure.raised)))
        ⟨rfl, rfl, rfl, rfl⟩ with ⟨-, -, hstored⟩ | ⟨-, -, hcarried, -⟩
    · have hsame :
          (serveWrite (s.context auth content c) s.db c.faults c.request).2.stored = s.db := hstored
      rw [hsame]
      refine .quiet _ rfl ?_ ?_
      · show (if numbered s.db s.db c.nextId = true then _ else _) = _
        rw [numbered_self]
        rfl
      · show (if (numbered s.db s.db c.nextId && _) = true then _ else _) = _
        rw [numbered_self]
        rfl
    · obtain ⟨change, hplan, hflush⟩ := bind_eq_ok.mp hcarried
      exact .carried c (fun hinserts => Int.not_lt.mp fun hlt => hnumber ⟨hinserts, hlt⟩) change
        hplan hflush rfl

/-! ## What a step does to the articles -/

/-- The status a call sets on the article under `slug`, if its guard lets it
through. -/
def Service.sets (auth : Auth.Env) (content : Content.Env) (s : Service) (slug : Text) :
    Event → Option ArticleStatus
  | .call c =>
    match c.request with
    | .post request =>
      match authorize (s.context auth content c) (.manage (postMethod request)) s.db with
      | .ok _ => newStatus slug request
      | .error _ => none
    | _ => none
  | .tick _ => none

/-- Where an article comes from: it was there, and has the status it had or the one
the call sets; or it is new, and then a draft or not ingested. -/
inductive ArticleAfter (auth : Auth.Env) (content : Content.Env) (s s' : Service) (e : Event)
    (row : Article) : Prop where
  | kept (a : Article) (ha : a ∈ s.db.articles.rows) (hid : row.id = a.id)
      (hstatus : row.articleStatus = a.articleStatus ∨
        s.sets auth content a.slug e = some row.articleStatus)
  | new (hlow : s.sequence ≤ row.id) (hhigh : s'.sequence = row.id + 1)
      (hstatus : row.articleStatus = .draft ∨ s'.ingested = s.ingested)

theorem articleAfter_of_mem {row : Article} (h : row ∈ s.db.articles.rows) :
    ArticleAfter auth content s s' e row :=
  .kept row h rfl (.inl rfl)

/-- A new article takes the number of the call. -/
theorem numbered_new {d d' : Database} {row : Article} (hrow : row ∈ d'.articles.rows)
    (hfresh : ∀ a ∈ d.articles.rows, a.id ≠ row.id) : numbered d d' row.id = true := by
  have hbefore : d.articles.find row.id = none := ArticleTable.find_eq_none.mpr hfresh
  have hafter : d'.articles.find row.id = some row := ArticleTable.find_eq_some.mpr ⟨hrow, rfl⟩
  rw [numbered, hbefore, hafter]
  rfl

/-- **What a step does to the articles.** -/
theorem article_after (h : Step auth content s s' e) :
    ∀ row ∈ s'.db.articles.rows, ArticleAfter auth content s s' e row := by
  intro row hrow
  cases h with
  | quiet e hdb hsequence hingested =>
    rw [hdb] at hrow
    exact articleAfter_of_mem hrow
  | carried c hsequence change hplan hflush hafter =>
    have hplanned := plan_planned hplan
    generalize hrequest : c.request = request at hplanned
    cases hplanned with
    | user request write =>
      obtain ⟨-, -, hrest⟩ := flush_user hflush
      rw [hrest] at hrow
      exact articleAfter_of_mem hrow
    | bookmark slug actor write hactor htoggle =>
      rw [(flush_bookmark hflush).2] at hrow
      exact articleAfter_of_mem hrow
    | webUrl request write =>
      rw [(flush_webUrl hflush).2] at hrow
      exact articleAfter_of_mem hrow
    | article post actor write hactor hprepare =>
      obtain ⟨heffect, -⟩ := flush_article hflush
      cases status_after (prepare_follows hprepare) heffect row hrow with
      | kept a ha hid hstatus =>
        refine .kept a ha hid (hstatus.imp id fun hset => ?_)
        simp only [Service.sets, hrequest, hactor, hset]
      | new hid hadds hfresh hdraft =>
        -- The new row has taken the number the call brought.
        have hnumbered : numbered s.db s'.db c.nextId = true :=
          hid ▸ numbered_new hrow (hid ▸ hfresh)
        have hingested : s'.ingested = if numbered s.db s'.db c.nextId && ingests c.request then
            c.nextId :: s.ingested else s.ingested := by
          rw [hafter]
          rfl
        refine .new ?_ ?_ ?_
        · rw [hid]
          exact hsequence (by rw [hrequest]; exact hadds)
        · rw [hafter, hid]
          exact if_pos hnumbered
        · cases post with
          | publishArticle payload => exact .inl (hdraft ⟨payload, rfl⟩)
          | createPost payload =>
            rw [hnumbered, hrequest] at hingested
            exact .inr hingested
          | updatePost slug payload => cases hadds
          | updatePostStatus slug status => cases hadds
          | deletePost slug => cases hadds

/-! ## Numbers -/

/-- The sequence is past every article, and past every article there was. -/
structure Counted (s : Service) : Prop where
  articles : ∀ a ∈ s.db.articles.rows, a.id < s.sequence
  ingested : ∀ i ∈ s.ingested, i < s.sequence

/-- A number that is given out is the number of a new article. -/
theorem lt_sequence_of_numbered (h : Step auth content s s' e) {id : Int}
    (hnumbered : numbered s.db s'.db id = true) : s.sequence ≤ id ∧ s'.sequence = id + 1 := by
  obtain ⟨hbefore, hafter⟩ := Bool.and_eq_true_iff.mp hnumbered
  obtain ⟨row, hrow⟩ := Option.isSome_iff_exists.mp hafter
  obtain ⟨hmem, rfl⟩ := ArticleTable.find_eq_some.mp hrow
  cases article_after h row hmem with
  | kept a ha hsame hstatus =>
    have hnone := ArticleTable.find_eq_none.mp (Option.isNone_iff_eq_none.mp hbefore)
    exact absurd hsame.symm (hnone a ha)
  | new hlow hhigh hstatus => exact ⟨hlow, hhigh⟩

/-- The sequence goes forward only, and the ghost gains numbers from it only. -/
theorem step_count (h : Step auth content s s' e) :
    s.sequence ≤ s'.sequence ∧
      ∀ i ∈ s'.ingested, i ∈ s.ingested ∨ s.sequence ≤ i ∧ i < s'.sequence := by
  cases h with
  | quiet e hdb hsequence hingested =>
    rw [hsequence, hingested]
    exact ⟨Int.le_refl _, fun i hi => .inl hi⟩
  | carried c hinserts change hplan hflush hafter =>
    have hsequence := congrArg Service.sequence hafter
    have hingested := congrArg Service.ingested hafter
    dsimp only [Service.after] at hsequence hingested
    cases hnumbered : numbered s.db s'.db c.nextId with
    | false =>
      rw [hnumbered] at hsequence hingested
      rw [hsequence, hingested]
      exact ⟨Int.le_refl _, fun i hi => .inl hi⟩
    | true =>
      obtain ⟨hlow, hhigh⟩ :=
        lt_sequence_of_numbered (.carried c hinserts change hplan hflush hafter) hnumbered
      refine ⟨by omega, fun i hi => ?_⟩
      rw [hingested] at hi
      split at hi
      next =>
        rcases List.mem_cons.mp hi with rfl | hi
        · exact .inr ⟨hlow, by omega⟩
        · exact .inl hi
      next => exact .inl hi

/-- The ghost keeps counting: the ingested articles have numbers the sequence has passed, so that no
other article will get one. -/
theorem counted_step (h : Step auth content s s' e) (hcounted : Counted s) : Counted s' := by
  obtain ⟨hforward, hingested⟩ := step_count h
  refine ⟨fun row hrow => ?_, fun i hi => ?_⟩
  · cases article_after h row hrow with
    | kept a ha hid hstatus =>
      have hlt := hcounted.articles a ha
      omega
    | new hlow hhigh hstatus => omega
  · rcases hingested i hi with hold | ⟨-, hlt⟩
    · have hlt := hcounted.ingested i hold
      omega
    · exact hlt

/-! ## A small installation -/

/-- A member of staff who holds an API key. -/
def keyHolder (role : UserRole) : User :=
  { sampleUser 1 role with
    apiKeyPrefix := some (drawA.token.secret.take apiKeyLookupPrefixLength)
    apiKeyHash := some ('$' :: drawA.token.secret)
    apiKeyCreatedAt := some 0 }

/-- Nothing but the key holder. -/
def sampleDatabase (role : UserRole) (h : ∀ u ∈ [keyHolder role], u.Fits)
    (hk : Keyed [keyHolder role]) : Database :=
  ⟨⟨[keyHolder role], h, hk⟩, .empty, .empty, .empty⟩

/-- An editor's installation, before its first article. -/
def sampleInstallation : Service := ⟨sampleDatabase .editor (by decide) (by decide), 0, 1, []⟩

theorem sampleInstallation_counted : Counted sampleInstallation where
  articles _ ha := absurd ha List.not_mem_nil
  ingested _ hi := absurd hi List.not_mem_nil

/-- A request authenticated by the key. -/
def keyCall (request : WriteRequest) (nextId : Int) : Event :=
  .call ⟨⟨some drawA.token.secret, none, none⟩, request, drawA, nextId, []⟩

end SarkariWorld.Site
