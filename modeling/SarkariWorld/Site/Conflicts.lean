import SarkariWorld.Content.PublishedDates
import SarkariWorld.Content.Uniqueness
import SarkariWorld.Site.Service

/-!
# Racing for a slug or a URL

Any number of requests at once, each in two steps: its checks (`plan`) and, at
some later moment, its commit (`flush`). A check that finds the slug or the URL
taken answers 409. If it is taken between a request's check and its commit, the
unique index refuses the row, and no handler turns that `IntegrityError` into a
conflict: the request ends in a 500. `conflicts_reported_iff`: uniqueness
conflicts are reported as conflicts in the runs in which no commit comes too
late, and in no others.

This is a server with two steps to a request instead of one for each exchange, which is
enough here: what matters is which commits come between a check and its own commit.
Requests that compete for nothing, the bookmarks and the accounts, take part in the
interleaving all the same.
-/

namespace SarkariWorld.Site

open SarkariWorld.Lib SarkariWorld.Auth SarkariWorld.Content

/-! ## The race -/

/-- How far a request is. -/
inductive Stage where
  | idle
  | checked (request : WriteRequest) (change : Change)
  /-- `taken` is a ghost: at its last step, the request found the slug or URL it
  asks for taken by another row. -/
  | ended (request : WriteRequest) (taken : Bool) (outcome : Except Failure Unit)

/-- A commit that succeeded. -/
structure Win where
  call : Nat
  change : Change
  clock : Nat
  nextId : Int

/-- The database in the middle of a race. -/
structure Race where
  db : Database
  clock : Nat
  stage : Nat → Stage
  /-- The successful commits in their order. A ghost: the code keeps no log. -/
  log : List Win

/-- The next step of any of the requests, or the clock going on. -/
inductive RaceAction where
  | check (call : Nat) (creds : Credentials) (draw : KeyDraw) (request : WriteRequest)
  | commit (call : Nat) (nextId : Int)
  | tick (microseconds : Nat)

/-- The request goes on to the stage. -/
def Race.setStage (s : Race) (call : Nat) (stage : Stage) : Race :=
  { s with stage := Function.update s.stage call stage }

variable (auth : Auth.Env) (content : Content.Env)

/-- What a check depends on. It draws no number yet. -/
def Race.context (s : Race) (creds : Credentials) (draw : KeyDraw) : Context :=
  ⟨auth, content, s.clock, creds, draw, 0⟩

/-- The request gets as far as its check for a conflict, and the check finds one. -/
def asksTaken (ctx : Context) (d : Database) : WriteRequest → Bool
  | .post request =>
    okAnd (authorize ctx (.manage (postMethod request)) d) fun _ =>
      asksTakenSlug d.articles request
  | .createWebUrl payload =>
    okAnd (authorize ctx (.manage .post) d) fun _ => asksTakenUrl ctx.content d.webUrls payload
  | _ => false

/-- The change takes a slug or a URL that another row has. -/
def collides (d : Database) : Change → Bool
  | .article write => takesSlug d.articles write
  | .webUrl write => takesUrl d.webUrls write
  | .user _ | .bookmark _ => false

/-- A sequence gives a new row a number that no row has. -/
def unused (d : Database) (nextId : Int) : Change → Bool
  | .article (.insert _) => (d.articles.find nextId).isNone
  | .webUrl (.insert _ _ _) => (d.webUrls.find nextId).isNone
  | .bookmark (.insert _ _) => (lookup Bookmark.idCol nextId d.bookmarks.rows).isNone
  | .user (.insert _) => (d.users.find nextId).isNone
  | _ => true

/-- One step of the race. A commit is given the number of its new row; it does not take place with a
number that is in use, for a sequence would not give it. -/
def raceStep (s : Race) : RaceAction → Option Race
  | .check call creds draw request =>
    match s.stage call with
    | .idle =>
      let ctx := s.context auth content creds draw
      match plan ctx s.db request with
      | .error e => some (s.setStage call (.ended request (asksTaken ctx s.db request) (.error e)))
      | .ok change => some (s.setStage call (.checked request change))
    | _ => none
  | .commit call nextId =>
    match s.stage call with
    | .checked request change =>
      if unused s.db nextId change then
        match flush s.clock nextId s.db change with
        | .error e => some (s.setStage call (.ended request (collides s.db change) (.error e)))
        | .ok db =>
          some { s.setStage call (.ended request (collides s.db change) (.ok ())) with
            db := db
            log := s.log ++ [⟨call, change, s.clock, nextId⟩] }
      else none
    | _ => none
  | .tick microseconds => some { s with clock := s.clock + microseconds }

/-- The action commits a change whose slug or URL was taken after the check. -/
def comesTooLate (s : Race) : RaceAction → Bool
  | .commit call _ =>
    match s.stage call with
    | .checked _ change => collides s.db change
    | _ => false
  | _ => false

/-! ## What is promised -/

/-- The requests that compete for slugs and URLs. -/
def competes : WriteRequest → Prop
  | .post _ | .createWebUrl _ => True
  | _ => False

/-- One commit again, on a database where what it takes is free. -/
def replay (d : Database) (w : Win) : Option Database :=
  if collides d w.change then none else (flush w.clock w.nextId d w.change).toOption

/-- Uniqueness conflicts are reported as conflicts. -/
structure ConflictsReported (s₀ s : Race) : Prop where
  /-- The successful commits alone make the database what it is, and each of them
  took what was free: at most one of several competitors for it succeeds. -/
  replayed : exec replay s₀.db s.log = some s.db
  /-- Only successful requests are among them. -/
  won : ∀ w ∈ s.log, ∃ request, s.stage w.call = .ended request false (.ok ())
  /-- The others end in a 409. -/
  lost : ∀ call request outcome, s.stage call = .ended request true outcome →
    ∃ message, outcome = .error (.app (conflictError message))
  /-- No competitor ends in an `IntegrityError`. -/
  handled : ∀ call request taken, competes request →
    s.stage call ≠ .ended request taken (.error (.raised .integrityError))

/-- No request has begun. -/
structure Race.Starts (s : Race) : Prop where
  idle : ∀ call, s.stage call = .idle
  log : s.log = []

variable {auth content} {s s' : Race} {action : RaceAction}

/-- **What a step is.** -/
theorem raceStep_cases (h : raceStep auth content s action = some s') :
    (∃ call creds draw request e, action = .check call creds draw request ∧
      s.stage call = .idle ∧
      plan (s.context auth content creds draw) s.db request = .error e ∧
      s' = s.setStage call (.ended request
        (asksTaken (s.context auth content creds draw) s.db request) (.error e))) ∨
    (∃ call creds draw request change, action = .check call creds draw request ∧
      s.stage call = .idle ∧
      plan (s.context auth content creds draw) s.db request = .ok change ∧
      s' = s.setStage call (.checked request change)) ∨
    (∃ call nextId request change e, action = .commit call nextId ∧
      s.stage call = .checked request change ∧ unused s.db nextId change = true ∧
      flush s.clock nextId s.db change = .error e ∧
      s' = s.setStage call (.ended request (collides s.db change) (.error e))) ∨
    (∃ call nextId request change db, action = .commit call nextId ∧
      s.stage call = .checked request change ∧
      flush s.clock nextId s.db change = .ok db ∧
      s' = { s.setStage call (.ended request (collides s.db change) (.ok ())) with
        db := db
        log := s.log ++ [⟨call, change, s.clock, nextId⟩] }) ∨
    ∃ microseconds, action = .tick microseconds ∧
      s' = { s with clock := s.clock + microseconds } := by
  cases action with
  | check call creds draw request =>
    simp only [raceStep] at h
    split at h
    next hidle =>
      split at h
      -- the check refuses: the call ends here, whatever the others do
      next e hplan =>
        exact .inl ⟨call, creds, draw, request, e, rfl, hidle, hplan, (Option.some.inj h).symm⟩
      next change hplan =>
        exact .inr (.inl ⟨call, creds, draw, request, change, rfl, hidle, hplan,
          (Option.some.inj h).symm⟩)
    next => cases h
  | commit call nextId =>
    simp only [raceStep] at h
    split at h
    next request change hchecked =>
      split at h
      -- a number is only drawn once: a used one makes the step impossible
      next hunused =>
        split at h
        next e hflush =>
          exact .inr (.inr (.inl ⟨call, nextId, request, change, e, rfl, hchecked, hunused, hflush,
            (Option.some.inj h).symm⟩))
        next db hflush =>
          exact .inr (.inr (.inr (.inl ⟨call, nextId, request, change, db, rfl, hchecked, hflush,
            (Option.some.inj h).symm⟩)))
      next => cases h
    next => cases h
  | tick microseconds =>
    exact .inr (.inr (.inr (.inr ⟨microseconds, rfl, (Option.some.inj h).symm⟩)))

/-! ## Checks -/

section Checks

variable {ctx : Context} {d : Database} {request : WriteRequest} {change : Change}

/-- **A check that finds a conflict reports it.** -/
theorem plan_conflict (h : asksTaken ctx d request = true) :
    ∃ message, plan ctx d request = .error (.app (conflictError message)) := by
  cases request with
  | post request =>
    obtain ⟨actor, hactor, htaken⟩ := exists_of_okAnd h
    obtain ⟨message, hprepare⟩ := prepare_conflict htaken
    exact ⟨message, bind_eq_error.mpr (.inr ⟨actor, hactor, bind_eq_error.mpr (.inl hprepare)⟩)⟩
  | createWebUrl payload =>
    obtain ⟨actor, hactor, htaken⟩ := exists_of_okAnd h
    obtain ⟨message, hcreate⟩ := createWebUrl_conflict htaken
    exact ⟨message, bind_eq_error.mpr (.inr ⟨actor, hactor, bind_eq_error.mpr (.inl hcreate)⟩)⟩
  | toggleBookmark slug => cases h
  | markViewed webUrlId => cases h
  | markAllViewed => cases h
  | deleteWebUrl webUrlId => cases h
  | updateRole userId role => cases h
  | issueApiKey userId name => cases h
  | revokeApiKey userId => cases h
  | signIn verified => cases h
  | logout => cases h

/-- A guard writes nothing, so it does not meet the unique index. -/
theorem authorize_ne_integrity {guard : Guard} (hb : BcryptRaises ctx.auth) :
    authorize ctx guard d ≠ .error (.raised .integrityError) := by
  intro h
  unfold authorize at h
  split at h
  next e he => exact currentUser_ne_integrity hb (Failure.raised.inj (Except.error.inj h) ▸ he)
  next =>
    obtain ⟨e, -, h⟩ := mapError_eq_error.mp h
    cases h

/-- A check only reads. -/
theorem plan_ne_integrity (hb : BcryptRaises ctx.auth) (hcompetes : competes request) :
    plan ctx d request ≠ .error (.raised .integrityError) := by
  intro h
  cases request with
  | post request =>
    rcases bind_eq_error.mp h with h | ⟨actor, -, h⟩
    · exact authorize_ne_integrity hb h
    · rcases bind_eq_error.mp h with h | ⟨write, -, h⟩
      · exact prepare_ne_integrity h
      · cases h
  | createWebUrl payload =>
    rcases bind_eq_error.mp h with h | ⟨actor, -, h⟩
    · exact authorize_ne_integrity hb h
    · rcases bind_eq_error.mp h with h | ⟨write, -, h⟩
      · exact createWebUrl_ne_integrity h
      · cases h
  | _ => cases hcompetes

/-- What a competitor commits: an article write, which has a slug if it is new, or a
new URL. -/
def Vetted : Change → Prop
  | .article (.insert data) => ∃ slug, data.slug = some slug
  | .article (.update _ _) | .article (.delete _) => True
  | .webUrl (.insert _ _ _) => True
  | _ => False

/-- A change that was planned has passed the check for its slug or URL, at that moment. -/
theorem plan_vetted (h : plan ctx d request = .ok change) (hcompetes : competes request) :
    Vetted change := by
  cases request with
  | post request =>
    obtain ⟨actor, -, h⟩ := bind_eq_ok.mp h
    obtain ⟨write, hprepare, h⟩ := bind_eq_ok.mp h
    obtain rfl := Except.ok.inj h
    cases write with
    | insert data =>
      obtain ⟨slug, -, hslug, -⟩ := prepare_insert hprepare
      exact ⟨_, hslug⟩
    | update loaded assigned => trivial
    | delete loaded => trivial
  | createWebUrl payload =>
    obtain ⟨actor, -, h⟩ := bind_eq_ok.mp h
    obtain ⟨write, hcreate, h⟩ := bind_eq_ok.mp h
    obtain rfl := Except.ok.inj h
    obtain ⟨⟨url, domain, title, rfl⟩, -⟩ := createWebUrl_free hcreate
    trivial
  | _ => cases hcompetes

/-- **A change is free when it is checked.** -/
theorem plan_free (hslugs : LowersSlugs ctx.content) (h : plan ctx d request = .ok change) :
    competes request → collides d change = false := by
  intro hcompetes
  cases request with
  | post request =>
    obtain ⟨actor, -, h⟩ := bind_eq_ok.mp h
    obtain ⟨write, hprepare, h⟩ := bind_eq_ok.mp h
    obtain rfl := Except.ok.inj h
    exact prepare_free hslugs hprepare
  | createWebUrl payload =>
    obtain ⟨actor, -, h⟩ := bind_eq_ok.mp h
    obtain ⟨write, hcreate, h⟩ := bind_eq_ok.mp h
    obtain rfl := Except.ok.inj h
    exact (createWebUrl_free hcreate).2
  | _ => cases hcompetes

end Checks

/-! ## Commits -/

section Commits

variable {d d' : Database} {change : Change} {clock : Nat} {nextId : Int}

/-- A commit that succeeds took what was free. -/
theorem free_of_flush (h : flush clock nextId d change = .ok d') : collides d change = false := by
  cases change with
  | user write => rfl
  | bookmark write => rfl
  | article write =>
    simp only [flush] at h
    split at h
    -- nothing changed on the row, so nothing is sent, and its own slug is no collision
    next hclean =>
      cases write with
      | insert data => cases hclean
      | delete loaded => rfl
      | update loaded assigned =>
        obtain rfl : assigned = loaded := of_decide_eq_true hclean
        simp [collides, takesSlug]
    next =>
      obtain ⟨⟨t, row⟩, hcommit, -⟩ := map_eq_ok.mp h
      exact takesSlug_of_commit (mapError_eq_ok.mp hcommit)
  | webUrl write =>
    cases write with
    | insert url domain title =>
      obtain ⟨⟨t, row⟩, hcommit, -⟩ := map_eq_ok.mp h
      exact takesUrl_of_commit (mapError_eq_ok.mp hcommit)
    | view loaded stamped => rfl
    | viewAll stamped => rfl
    | delete loaded => rfl

/-- A commit raises what the database raises, and nothing turns it into a conflict. -/
theorem flush_error {e : Failure} (h : flush clock nextId d change = .error e) :
    ∃ raised, e = .raised raised := by
  cases change with
  | user write =>
    obtain ⟨raised, -, rfl⟩ := mapError_eq_error.mp (map_eq_error.mp h)
    exact ⟨raised, rfl⟩
  | bookmark write =>
    obtain ⟨raised, -, rfl⟩ := mapError_eq_error.mp (map_eq_error.mp h)
    exact ⟨raised, rfl⟩
  | article write =>
    simp only [flush] at h
    split at h
    next => cases h
    next =>
      obtain ⟨raised, -, rfl⟩ := mapError_eq_error.mp (map_eq_error.mp h)
      exact ⟨raised, rfl⟩
  | webUrl write =>
    simp only [flush] at h
    split at h
    next => cases h
    next =>
      obtain ⟨raised, -, rfl⟩ := mapError_eq_error.mp (map_eq_error.mp h)
      exact ⟨raised, rfl⟩

/-- **A commit in time meets no unique index.** -/
theorem flush_ne_integrity (hvetted : Vetted change) (hunused : unused d nextId change = true)
    (hfree : collides d change = false) :
    flush clock nextId d change ≠ .error (.raised .integrityError) := by
  intro h
  cases change with
  | user write => cases hvetted
  | bookmark write => cases hvetted
  | article write =>
    simp only [flush] at h
    split at h
    next => cases h
    next =>
      obtain ⟨raised, hcommit, heq⟩ := mapError_eq_error.mp (map_eq_error.mp h)
      obtain rfl := Failure.raised.inj heq
      cases write with
      | insert data =>
        obtain ⟨slug, hslug⟩ := hvetted
        exact insert_ne_integrity hslug (Option.isNone_iff_eq_none.mp hunused) hfree hcommit
      | update loaded assigned => exact update_ne_integrity hfree hcommit
      | delete loaded => exact delete_ne_integrity hcommit
  | webUrl write =>
    cases write with
    | insert url domain title =>
      obtain ⟨raised, hcommit, heq⟩ := mapError_eq_error.mp (map_eq_error.mp h)
      obtain rfl := Failure.raised.inj heq
      exact insertUrl_ne_integrity (Option.isNone_iff_eq_none.mp hunused) hfree hcommit
    | view loaded stamped => cases hvetted
    | viewAll stamped => cases hvetted
    | delete loaded => cases hvetted

end Commits

/-! ## Runs -/

/-- What is promised, and what the checked requests will commit. -/
structure RaceInv (s₀ s : Race) : Prop extends ConflictsReported s₀ s where
  vetted : ∀ call request change, s.stage call = .checked request change → competes request →
    Vetted change

variable {s₀ : Race}

theorem Race.Starts.inv (h : s₀.Starts) : RaceInv s₀ s₀ where
  replayed := by
    rw [h.log]
    rfl
  won w hw := by
    rw [h.log] at hw
    cases hw
  lost call request outcome hended := by
    rw [h.idle call] at hended
    cases hended
  handled call request taken _ hended := by
    rw [h.idle call] at hended
    cases hended
  vetted call request change hchecked _ := by
    rw [h.idle call] at hchecked
    cases hchecked

theorem setStage_self {call : Nat} {stage : Stage} : (s.setStage call stage).stage call = stage :=
  Function.update_self ..

/-- The stage of a call after one of them moved. -/
theorem setStage_stage {call i : Nat} {stage now : Stage}
    (h : (s.setStage call stage).stage i = now) :
    i = call ∧ stage = now ∨ i ≠ call ∧ s.stage i = now := by
  by_cases hi : i = call
  · subst hi
    exact .inl ⟨rfl, setStage_self.symm.trans h⟩
  · exact .inr ⟨hi, (Function.update_of_ne hi ..).symm.trans h⟩

/-- A call that is not at its end has no entry in the log. -/
theorem setStage_won {call : Nat} {stage : Stage} (hinv : ConflictsReported s₀ s)
    (hopen : ∀ request taken outcome, s.stage call ≠ .ended request taken outcome) :
    ∀ w ∈ s.log, ∃ request,
      (s.setStage call stage).stage w.call = .ended request false (.ok ()) := by
  intro w hw
  obtain ⟨request, hended⟩ := hinv.won w hw
  have hne : w.call ≠ call := by
    rintro rfl
    exact hopen request false (.ok ()) hended
  exact ⟨request, (Function.update_of_ne hne ..).trans hended⟩

/-- The invariant survives a call that moves to a stage of which all of it holds. -/
theorem inv_setStage {call : Nat} {stage : Stage} (hinv : RaceInv s₀ s)
    (hopen : ∀ request taken outcome, s.stage call ≠ .ended request taken outcome)
    (hlost : ∀ request outcome, stage = .ended request true outcome →
      ∃ message, outcome = .error (.app (conflictError message)))
    (hhandled : ∀ request taken, competes request →
      stage ≠ .ended request taken (.error (.raised .integrityError)))
    (hvetted : ∀ request change, stage = .checked request change → competes request →
      Vetted change) : RaceInv s₀ (s.setStage call stage) where
  replayed := hinv.replayed
  won := setStage_won hinv.toConflictsReported hopen
  lost i request outcome hended := by
    rcases setStage_stage hended with ⟨-, hnow⟩ | ⟨-, hold⟩
    · exact hlost request outcome hnow
    · exact hinv.lost i request outcome hold
  handled i request taken hcompetes hended := by
    rcases setStage_stage hended with ⟨-, hnow⟩ | ⟨-, hold⟩
    · exact hhandled request taken hcompetes hnow
    · exact hinv.handled i request taken hcompetes hold
  vetted i request change hchecked hcompetes := by
    rcases setStage_stage hchecked with ⟨-, hnow⟩ | ⟨-, hold⟩
    · exact hvetted request change hnow hcompetes
    · exact hinv.vetted i request change hold hcompetes

/-- The step of the invariant, for an action that is not a commit coming too late. A check adds a
conflict or a vetted change, and a commit in time finds its slug free, as it did when it looked. -/
theorem race_inv (hb : BcryptRaises auth) (hinv : RaceInv s₀ s)
    (htime : comesTooLate s action = false) (h : raceStep auth content s action = some s') :
    RaceInv s₀ s' := by
  rcases raceStep_cases h with ⟨call, creds, draw, request, e, rfl, hidle, hplan, rfl⟩ |
    ⟨call, creds, draw, request, change, rfl, hidle, hplan, rfl⟩ |
    ⟨call, nextId, request, change, e, rfl, hchecked, hunused, hflush, rfl⟩ |
    ⟨call, nextId, request, change, db, rfl, hchecked, hflush, rfl⟩ | ⟨d, rfl, rfl⟩
  · -- The plan failed: the name was taken when it was looked up, or something else was wrong.
    refine inv_setStage hinv (fun _ _ _ hended => ?_) (fun _ outcome hnow => ?_)
      (fun _ taken hcompetes hnow => ?_) (fun _ _ hnow => ?_)
    · cases hidle.symm.trans hended
    · obtain ⟨rfl, htaken, rfl⟩ := Stage.ended.inj hnow
      obtain ⟨message, hconflict⟩ := plan_conflict htaken
      exact ⟨message, congrArg _ (Except.error.inj (hplan.symm.trans hconflict))⟩
    · obtain ⟨rfl, -, houtcome⟩ := Stage.ended.inj hnow
      obtain rfl := Except.error.inj houtcome
      exact plan_ne_integrity hb hcompetes hplan
    · cases hnow
  · -- The plan has a change to commit, and the change is one that was looked up as free.
    refine inv_setStage hinv (fun _ _ _ hended => ?_) (fun _ _ hnow => ?_) (fun _ _ _ hnow => ?_)
      (fun _ _ hnow hcompetes => ?_)
    · cases hidle.symm.trans hended
    · cases hnow
    · cases hnow
    · obtain ⟨rfl, rfl⟩ := Stage.checked.inj hnow
      exact plan_vetted hplan hcompetes
  · -- A commit that fails in time fails for another reason than the name.
    have hfree : collides s.db change = false := by
      rw [comesTooLate, hchecked] at htime
      exact htime
    refine inv_setStage hinv (fun _ _ _ hended => ?_) (fun _ outcome hnow => ?_)
      (fun _ taken hcompetes hnow => ?_) (fun _ _ hnow => ?_)
    · cases hchecked.symm.trans hended
    · obtain ⟨-, htaken, -⟩ := Stage.ended.inj hnow
      cases hfree.symm.trans htaken
    · obtain ⟨rfl, -, houtcome⟩ := Stage.ended.inj hnow
      obtain rfl := Except.error.inj houtcome
      exact flush_ne_integrity (hinv.vetted call request change hchecked hcompetes) hunused hfree
        hflush
    · cases hnow
  · -- A commit that succeeds joins the replay.
    have hfree := free_of_flush hflush
    rw [hfree]
    have hmoved : RaceInv s₀ (s.setStage call (.ended request false (.ok ()))) := by
      refine inv_setStage hinv (fun _ _ _ hended => ?_) (fun _ _ hnow => ?_) (fun _ _ _ hnow => ?_)
        (fun _ _ hnow => ?_)
      · cases hchecked.symm.trans hended
      · cases hnow
      · cases hnow
      · cases hnow
    refine ⟨⟨?_, fun w hw => ?_, hmoved.lost, hmoved.handled⟩, hmoved.vetted⟩
    · refine exec_snoc_some.mpr ⟨s.db, hinv.replayed, ?_⟩
      rw [replay, hfree, hflush]
      rfl
    · rcases List.mem_append.mp hw with hold | hnew
      · exact hmoved.won w hold
      · obtain rfl := List.mem_singleton.mp hnew
        exact ⟨request, setStage_self⟩
  · exact ⟨⟨hinv.replayed, hinv.won, hinv.lost, hinv.handled⟩, hinv.vetted⟩

/-- A request that has ended stays as it ended. -/
theorem ended_step {call : Nat} {request : WriteRequest} {taken : Bool}
    {outcome : Except Failure Unit} (hended : s.stage call = .ended request taken outcome)
    (h : raceStep auth content s action = some s') :
    s'.stage call = .ended request taken outcome := by
  have hother : ∀ i stage, (∀ r t o, s.stage i ≠ .ended r t o) →
      (s.setStage i stage).stage call = .ended request taken outcome := by
    intro i stage hopen
    have hne : call ≠ i := by
      rintro rfl
      exact hopen _ _ _ hended
    exact (Function.update_of_ne hne ..).trans hended
  rcases raceStep_cases h with ⟨i, creds, draw, r, e, rfl, hidle, -, rfl⟩ |
    ⟨i, creds, draw, r, change, rfl, hidle, -, rfl⟩ |
    ⟨i, nextId, r, change, e, rfl, hchecked, -, -, rfl⟩ |
    ⟨i, nextId, r, change, db, rfl, hchecked, -, rfl⟩ | ⟨d, rfl, rfl⟩
  · exact hother i _ fun _ _ _ he => nomatch hidle.symm.trans he
  · exact hother i _ fun _ _ _ he => nomatch hidle.symm.trans he
  · exact hother i _ fun _ _ _ he => nomatch hchecked.symm.trans he
  · exact hother i _ fun _ _ _ he => nomatch hchecked.symm.trans he
  · exact hended

/-- A commit that comes too late ends in a 500. -/
theorem late_step (hlate : comesTooLate s action = true)
    (h : raceStep auth content s action = some s') :
    ∃ call request raised, s'.stage call = .ended request true (.error (.raised raised)) := by
  rcases raceStep_cases h with ⟨i, creds, draw, r, e, rfl, hidle, -, rfl⟩ |
    ⟨i, creds, draw, r, change, rfl, hidle, -, rfl⟩ |
    ⟨i, nextId, r, change, e, rfl, hchecked, -, hflush, rfl⟩ |
    ⟨i, nextId, r, change, db, rfl, hchecked, hflush, rfl⟩ | ⟨d, rfl, rfl⟩
  · cases hlate
  · cases hlate
  · rw [comesTooLate, hchecked] at hlate
    obtain ⟨raised, rfl⟩ := flush_error hflush
    refine ⟨i, r, raised, ?_⟩
    rw [show collides s.db change = true from hlate]
    exact setStage_self
  · rw [comesTooLate, hchecked] at hlate
    cases hlate.symm.trans (free_of_flush hflush)
  · cases hlate

/-- If every conflict is reported as one, no commit came too late. -/
theorem in_time_of_reported {actions : List RaceAction}
    (h : exec (raceStep auth content) s actions = some s')
    (hreported : ConflictsReported s₀ s') :
    AllSteps (raceStep auth content) (fun s a => comesTooLate s a = false) s actions := by
  induction actions generalizing s with
  | nil => trivial
  | cons action actions ih =>
    obtain ⟨m, hstep, hrest⟩ := exec_cons_some.mp h
    refine ⟨Bool.eq_false_iff.mpr fun hlate => ?_, fun m' hm' => ?_⟩
    · obtain ⟨call, request, raised, hended⟩ := late_step hlate hstep
      have hkept : s'.stage call = .ended request true (.error (.raised raised)) :=
        exec_inv_of_step (fun _ _ _ hs hstep => ended_step hs hstep) hended hrest
      obtain ⟨message, hconflict⟩ := hreported.lost call request _ hkept
      cases hconflict
    · rw [hstep, Option.some.injEq] at hm'
      exact hm' ▸ ih hrest

/-- **Uniqueness conflicts are reported as conflicts exactly in the runs in which
no commit comes too late.** -/
theorem conflicts_reported_iff (hb : BcryptRaises auth) (h₀ : s₀.Starts)
    {actions : List RaceAction} (h : exec (raceStep auth content) s₀ actions = some s) :
    ConflictsReported s₀ s ↔
      AllSteps (raceStep auth content) (fun s a => comesTooLate s a = false) s₀ actions := by
  refine ⟨in_time_of_reported h, fun hall => ?_⟩
  have hinv : RaceInv s₀ s :=
    exec_inv (fun _ _ _ htime hinv hstep => race_inv hb hinv htime hstep) hall h₀.inv h
  exact hinv.toConflictsReported

/-- A commit that follows its check is in time. -/
theorem in_time_of_check (hslugs : LowersSlugs content) {call : Nat} {creds : Credentials}
    {draw : KeyDraw} {request : WriteRequest} {nextId : Int} (hcompetes : competes request)
    (h : raceStep auth content s (.check call creds draw request) = some s') :
    comesTooLate s' (.commit call nextId) = false := by
  rcases raceStep_cases h with ⟨i, _, _, r, e, haction, -, -, rfl⟩ |
    ⟨i, _, _, r, change, haction, -, hplan, rfl⟩ | ⟨_, _, _, _, _, haction, -⟩ |
    ⟨_, _, _, _, _, haction, -⟩ | ⟨_, haction, -⟩
  · obtain ⟨rfl, rfl, rfl, rfl⟩ := RaceAction.check.inj haction
    rw [comesTooLate, setStage_self]
  · obtain ⟨rfl, rfl, rfl, rfl⟩ := RaceAction.check.inj haction
    rw [comesTooLate, setStage_self]
    exact plan_free hslugs hplan hcompetes
  · cases haction
  · cases haction
  · cases haction

/-! ## Two requests and a slug -/

/-- `POST /admin/posts`. -/
def createResult : WriteRequest := .post (.createPost (samplePayload .omitted .omitted))

/-- `POST /admin/publish/articles`. -/
def publishResult : WriteRequest := .post (.publishArticle samplePublish)

/-- An editor's installation, before any request. -/
def sampleRace : Race := ⟨sampleInstallation.db, 0, fun _ => .idle, []⟩

theorem sampleRace_starts : sampleRace.Starts := ⟨fun _ => rfl, rfl⟩

/-- A check by the editor's key. -/
def keyCheck (call : Nat) (request : WriteRequest) : RaceAction :=
  .check call ⟨some drawA.token.secret, none, none⟩ drawA request

/-- How the call failed. -/
def Race.failure (s : Race) (call : Nat) : Option Failure :=
  match s.stage call with
  | .ended _ _ (.error e) => some e
  | _ => none

/-- One after the other: the second request is told of the conflict. -/
theorem second_told :
    ∃ s, exec (raceStep Auth.sampleEnv Content.sampleEnv) sampleRace
        [keyCheck 0 createResult, .commit 0 1, keyCheck 1 publishResult] = some s ∧
      s.failure 1 = some (.app (conflictError "Slug already in use: result")) ∧
      ConflictsReported sampleRace s := by
  have hrun : (exec (raceStep Auth.sampleEnv Content.sampleEnv) sampleRace
      [keyCheck 0 createResult, .commit 0 1, keyCheck 1 publishResult]).map (fun s =>
        decide (s.failure 1 = some (.app (conflictError "Slug already in use: result")))) =
          some true := by
    decide +kernel
  obtain ⟨s, hs, htold⟩ := exec_of_test hrun
  exact ⟨s, hs, of_decide_eq_true htold,
    (conflicts_reported_iff sampleEnv_raises sampleRace_starts hs).mpr (by decide +kernel)⟩

/-- At once: both find the slug free, and the second one to commit ends in a 500. -/
theorem both_find_it_free :
    ∃ s, exec (raceStep Auth.sampleEnv Content.sampleEnv) sampleRace
        [keyCheck 0 createResult, keyCheck 1 publishResult, .commit 0 1, .commit 1 2] = some s ∧
      s.failure 1 = some (.raised .integrityError) ∧ ¬ ConflictsReported sampleRace s := by
  have hrun : (exec (raceStep Auth.sampleEnv Content.sampleEnv) sampleRace
      [keyCheck 0 createResult, keyCheck 1 publishResult, .commit 0 1, .commit 1 2]).map (fun s =>
        decide (s.failure 1 = some (.raised .integrityError))) = some true := by
    decide +kernel
  obtain ⟨s, hs, hraised⟩ := exec_of_test hrun
  refine ⟨s, hs, of_decide_eq_true hraised, fun hreported => ?_⟩
  have hlate : ¬ AllSteps (raceStep Auth.sampleEnv Content.sampleEnv)
      (fun s a => comesTooLate s a = false) sampleRace
      [keyCheck 0 createResult, keyCheck 1 publishResult, .commit 0 1, .commit 1 2] := by
    decide +kernel
  exact hlate (in_time_of_reported hs hreported)

end SarkariWorld.Site
