import SarkariWorld.Site.Licences
import SarkariWorld.Site.Service

/-!
# Requests that overlap

What can be said of a run in which any number of write requests overlap. Whatever the
others do, a request is carried out by one commit or not at all, and the commits alone
have made the database what it is (`writes_atomic`); and it is over after a number of
moves that does not depend on the others (`requests_bounded`). Whether it ever gets to
move is another matter: a row lock, a wait for a unique index or for a connection of the
pool is a delay here, in which the others move and it does not.

`site_committing` is the inversion lemma of the server, on which the results about runs
rest: a move leaves the database alone, or it is a commit that one of the licences of
`Site.Licences` covers.

Both results are instances of rules of `Lib.Interleaving`. What is shown here, handler by
handler, is what these rules ask of a thread: that it raises the application's errors only
before its commit, that it commits once before it answers (`Transactional`), and that it
comes to an end within a number of its own exchanges (`Within`).
-/

namespace SarkariWorld.Site.Threads

open SarkariWorld.Lib SarkariWorld.Auth SarkariWorld.Content
open SarkariWorld.Lib.Thread

/-! ## One commit in each handler -/

section Handlers

variable {o : Origin}

/-- The conflict is raised before the commit, and after it there is only the refresh. -/
theorem createPost_transactional (payload : ArticleCreate) :
    (createPost o payload).Transactional store.Late := by
  refine transactional_read fun actor => transactional_read fun taken => ?_
  split
  next => exact transactional_raise _
  next => exact transactional_now fun _ => transactional_save fun _ => refreshArticle_quiet _

/-- Three refusals may come before the commit: by the guard, of the article and of the new slug. -/
theorem updatePost_transactional (slug : Text) (payload : ArticleUpdate) :
    (updatePost o slug payload).Transactional store.Late := by
  refine transactional_read fun actor => transactional_read fun a => ?_
  cases payload.slug.get with
  | none =>
    exact transactional_now fun _ => transactional_now fun _ => transactional_save fun _ =>
      refreshArticle_quiet _
  | some slug =>
    unfold checkSlug
    rw [bind_bind]
    refine transactional_read fun taken => ?_
    split
    next => exact transactional_raise _
    next =>
      exact transactional_now fun _ => transactional_now fun _ => transactional_save fun _ =>
        refreshArticle_quiet _

/-- The ingest refuses a slug that is too long or in use, and then inserts. -/
theorem publishArticle_transactional (payload : ArticlePublish) :
    (publishArticle o payload).Transactional store.Late := by
  refine transactional_read fun actor => ?_
  split
  next => exact transactional_raise _
  next =>
    refine transactional_read fun taken => ?_
    split
    next => exact transactional_raise _
    next => exact transactional_save fun _ => refreshArticle_quiet _

/-- The five article endpoints. The change of status and the deletion have no refusal of their own.
-/
theorem handlePost_transactional (request : PostRequest) :
    (handlePost o request).Transactional store.Late := by
  cases request with
  | createPost payload => exact createPost_transactional payload
  | updatePost slug payload => exact updatePost_transactional slug payload
  | updatePostStatus slug status =>
    exact transactional_read fun _ => transactional_read fun _ => transactional_now fun _ =>
      transactional_save fun _ => refreshArticle_quiet _
  | deletePost slug =>
    exact transactional_read fun _ => transactional_read fun _ =>
      transactional_save fun _ => quiet_pure _
  | publishArticle payload => exact publishArticle_transactional payload

/-- Once the article is found, the toggle commits an insertion or a deletion, and answers. -/
theorem toggleBookmark_transactional (slug : Text) :
    (toggleBookmark o slug).Transactional store.Late := by
  refine transactional_read fun user => transactional_read fun found => ?_
  cases found with
  | none => exact transactional_raise _
  | some article =>
    exact transactional_read fun write => transactional_save fun _ => quiet_pure _

/-- A URL that does not parse, a long domain and a listed URL are all refused before the insert. -/
theorem createWebUrl_transactional (payload : WebUrlCreate) :
    (createWebUrl o payload).Transactional store.Late := by
  refine transactional_read fun actor => ?_
  split
  next => exact transactional_raise _
  next parsed _ =>
    split
    next => exact transactional_raise _
    next =>
      refine transactional_read fun found => ?_
      cases found with
      | some row => exact transactional_raise _
      | none => exact transactional_save fun _ => refreshWebUrl_quiet _

/-- One's own role is refused before anything is written. -/
theorem updateRole_transactional (userId : Int) (role : UserRole) :
    (updateRole o userId role).Transactional store.Late := by
  refine transactional_read fun actor => ?_
  split
  next => exact transactional_raise _
  next =>
    exact transactional_read fun user => transactional_save fun _ =>
      quiet_refreshed fun row => quiet_pure (Answer.auth (.user row))

/-- A user who may not hold a key is refused before anything is written. -/
theorem issueApiKey_transactional (userId : Int) (name : Option Text) :
    (issueApiKey o userId name).Transactional store.Late := by
  refine transactional_read fun actor => transactional_read fun user => ?_
  refine transactional_now fun clock => ?_
  cases issue o.auth user name clock o.draw with
  | error e => exact transactional_raise _
  | ok issued => exact transactional_save fun _ => quiet_pure _

/-- An account without a key is refused before anything is written. -/
theorem revokeApiKey_transactional (userId : Int) :
    (revokeApiKey o userId).Transactional store.Late := by
  refine transactional_read fun actor => transactional_read fun user => ?_
  split
  next => exact transactional_raise _
  next => exact transactional_now fun _ => transactional_save fun _ => quiet_pure _

/-- A sign-in that was not verified ends at once. A verified one commits an insertion or an update,
and then reads the account back. -/
theorem signIn_transactional (verified : Except Failure OAuthProfile) :
    (signIn o verified).Transactional store.Late := by
  cases verified with
  | error e => exact transactional_raise e
  | ok profile =>
    exact transactional_read fun found => transactional_now fun _ => transactional_save fun _ =>
      quiet_refreshed fun user => quiet_now fun _ => quiet_pure _

/-- **Every write request is one transaction**: no error of the application after its commit, and no
answer without one. -/
theorem handleWrite_transactional (request : WriteRequest) :
    (handleWrite o request).Transactional store.Late := by
  cases request with
  | post request => exact handlePost_transactional request
  | toggleBookmark slug => exact toggleBookmark_transactional slug
  | createWebUrl payload => exact createWebUrl_transactional payload
  | markViewed webUrlId =>
    exact transactional_read fun _ => transactional_read fun _ => transactional_now fun _ =>
      transactional_save fun _ => refreshWebUrl_quiet _
  | markAllViewed =>
    exact transactional_read fun _ => transactional_now fun _ =>
      transactional_save fun _ => quiet_pure _
  | deleteWebUrl webUrlId =>
    exact transactional_read fun _ => transactional_read fun _ =>
      transactional_save fun _ => quiet_pure _
  | updateRole userId role => exact updateRole_transactional userId role
  | issueApiKey userId name => exact issueApiKey_transactional userId name
  | revokeApiKey userId => exact revokeApiKey_transactional userId
  | signIn verified => exact signIn_transactional verified
  | logout =>
    exact transactional_read fun _ => transactional_now fun _ =>
      transactional_save fun _ => quiet_pure _

/-! ## How many exchanges -/

theorem refreshArticle_within (id : Int) : (refreshArticle id).Within 1 :=
  within_read fun row => within_pure (Answer.article row)

theorem refreshWebUrl_within (id : Int) : (refreshWebUrl id).Within 1 :=
  within_read fun row => within_pure (Answer.webUrl row)

theorem createPost_within (payload : ArticleCreate) : (createPost o payload).Within 5 := by
  refine within_read fun actor => within_read fun taken => ?_
  split
  next => exact within_raise _
  next => exact within_now fun _ => within_save fun _ => refreshArticle_within _

/-- The longest of the handlers. -/
theorem updatePost_within (slug : Text) (payload : ArticleUpdate) :
    (updatePost o slug payload).Within 7 := by
  refine within_read fun actor => within_read fun a => ?_
  cases payload.slug.get with
  | none =>
    exact Within.mono (n := 4) (within_now fun _ => within_now fun _ => within_save fun _ =>
      refreshArticle_within _) (by omega)
  | some slug =>
    unfold checkSlug
    rw [bind_bind]
    refine within_read fun taken => ?_
    split
    next => exact within_raise _
    next =>
      exact within_now fun _ => within_now fun _ => within_save fun _ => refreshArticle_within _

/-- Guard, lookup, commit, refresh: a draft is not dated. -/
theorem publishArticle_within (payload : ArticlePublish) :
    (publishArticle o payload).Within 4 := by
  refine within_read fun actor => ?_
  split
  next => exact within_raise _
  next =>
    refine within_read fun taken => ?_
    split
    next => exact within_raise _
    next => exact within_save fun _ => refreshArticle_within _

/-- The longest is an edit that brings a slug along and reads the clock twice. -/
theorem handlePost_within (request : PostRequest) : (handlePost o request).Within 7 := by
  cases request with
  | createPost payload => exact (createPost_within payload).mono (by omega)
  | updatePost slug payload => exact updatePost_within slug payload
  | updatePostStatus slug status =>
    exact Within.mono (n := 5) (within_read fun _ => within_read fun _ => within_now fun _ =>
      within_save fun _ => refreshArticle_within _) (by omega)
  | deletePost slug =>
    exact Within.mono (n := 3) (within_read fun _ => within_read fun _ => within_save fun _ =>
      within_pure _) (by omega)
  | publishArticle payload => exact (publishArticle_within payload).mono (by omega)

theorem toggleBookmark_within (slug : Text) : (toggleBookmark o slug).Within 4 := by
  refine within_read fun user => within_read fun found => ?_
  cases found with
  | none => exact within_raise _
  | some article => exact within_read fun write => within_save fun _ => within_pure _

theorem createWebUrl_within (payload : WebUrlCreate) : (createWebUrl o payload).Within 4 := by
  refine within_read fun actor => ?_
  split
  next => exact within_raise _
  next parsed _ =>
    split
    next => exact within_raise _
    next =>
      refine within_read fun found => ?_
      cases found with
      | some row => exact within_raise _
      | none => exact within_save fun _ => refreshWebUrl_within _

theorem updateRole_within (userId : Int) (role : UserRole) :
    (updateRole o userId role).Within 4 := by
  refine within_read fun actor => ?_
  split
  next => exact within_raise _
  next =>
    exact within_read fun user => within_save fun _ => within_read fun row =>
      within_pure (Answer.auth (.user row))

theorem issueApiKey_within (userId : Int) (name : Option Text) :
    (issueApiKey o userId name).Within 4 := by
  refine within_read fun actor => within_read fun user => within_now fun clock => ?_
  cases issue o.auth user name clock o.draw with
  | error e => exact within_raise _
  | ok issued => exact within_save fun _ => within_pure _

theorem revokeApiKey_within (userId : Int) : (revokeApiKey o userId).Within 4 := by
  refine within_read fun actor => within_read fun user => ?_
  split
  next => exact within_raise _
  next => exact within_now fun _ => within_save fun _ => within_pure _

/-- Lookup, clock, commit, refresh and the clock of the session's token. -/
theorem signIn_within (verified : Except Failure OAuthProfile) : (signIn o verified).Within 5 := by
  cases verified with
  | error e => exact within_raise e
  | ok profile =>
    exact within_read fun found => within_now fun _ => within_save fun _ =>
      within_read fun user => within_now fun _ => within_pure _

/-- No write request has more than seven exchanges, whatever it finds in the database. One more move
ends it. -/
theorem handleWrite_within (request : WriteRequest) : (handleWrite o request).Within 7 := by
  cases request with
  | post request => exact handlePost_within request
  | toggleBookmark slug => exact (toggleBookmark_within slug).mono (by omega)
  | createWebUrl payload => exact (createWebUrl_within payload).mono (by omega)
  | markViewed webUrlId =>
    exact Within.mono (n := 5) (within_read fun _ => within_read fun _ => within_now fun _ =>
      within_save fun _ => refreshWebUrl_within _) (by omega)
  | markAllViewed =>
    exact Within.mono (n := 3) (within_read fun _ => within_now fun _ => within_save fun _ =>
      within_pure _) (by omega)
  | deleteWebUrl webUrlId =>
    exact Within.mono (n := 3) (within_read fun _ => within_read fun _ => within_save fun _ =>
      within_pure _) (by omega)
  | updateRole userId role => exact (updateRole_within userId role).mono (by omega)
  | issueApiKey userId name => exact (issueApiKey_within userId name).mono (by omega)
  | revokeApiKey userId => exact (revokeApiKey_within userId).mono (by omega)
  | signIn verified => exact (signIn_within verified).mono (by omega)
  | logout =>
    exact Within.mono (n := 3) (within_read fun _ => within_now fun _ => within_save fun _ =>
      within_pure _) (by omega)

end Handlers

section Runs

variable {auth : Auth.Env} {content : Content.Env} {s₀ s s' : Traffic} {moves : List SiteMove}
  {action : SiteMove}

/-- The change the move commits, unless the database refuses it. -/
def Traffic.committing (s : Traffic) : SiteMove → Option Change
  | .go r _ =>
    match s.slot r with
    | .running _ (.commit change _) => some change
    | _ => none
  | _ => none

/-- **What a move does**: nothing to the database, or a licensed commit. -/
theorem site_committing (h₀ : s₀.Fresh) (h : exec (siteMove auth content) s₀ moves = some s)
    (hmove : siteMove auth content s action = some s') :
    s'.stored = s.stored ∧ s'.next = s.next ∨
      ∃ (r : Nat) (number : Int) (asked : Asked) (change : Change) (seen : Moments),
        action = .go r number ∧ s.committing action = some change ∧
        Move.start r asked ∈ moves ∧ SeenIn store (program auth content) s₀ moves seen ∧
        Licence ⟨auth, content, asked.creds, asked.draw⟩ seen asked.request change ∧
        store.numbers s.next change number = true ∧
        flush s.clock number s.stored change = .ok s'.stored ∧
        s'.next = store.advance s.next change number := by
  rcases (move_moved hmove).stored_eq with hsame | ⟨r, number, asked, change, next, rfl, hslot,
    hnumbers, happly, hnext⟩
  · exact .inl hsame
  · have hlicensed : ∀ asked : Asked, (program auth content asked).Justified
        (Licence ⟨auth, content, asked.creds, asked.draw⟩ · asked.request) [] :=
      fun asked => handleWrite_licensed asked.request
    obtain ⟨seen, hseen, hlicence⟩ := exec_justified
      (J := fun asked seen => Licence ⟨auth, content, asked.creds, asked.draw⟩ seen asked.request)
      hlicensed h₀ h hslot
    have hcommitting : s.committing (.go r number) = some change := by
      simp only [Traffic.committing, hslot]
    exact .inr ⟨r, number, asked, change, seen, rfl, hcommitting, exec_started h₀ h hslot, hseen,
      hlicence, hnumbers, happly, hnext⟩

/-- The same, where it does not matter what the state says of the commit. -/
theorem site_moved (h₀ : s₀.Fresh) (h : exec (siteMove auth content) s₀ moves = some s)
    (hmove : siteMove auth content s action = some s') :
    s'.stored = s.stored ∧ s'.next = s.next ∨
      ∃ (r : Nat) (number : Int) (asked : Asked) (change : Change) (seen : Moments),
        action = .go r number ∧ Move.start r asked ∈ moves ∧
        SeenIn store (program auth content) s₀ moves seen ∧
        Licence ⟨auth, content, asked.creds, asked.draw⟩ seen asked.request change ∧
        store.numbers s.next change number = true ∧
        flush s.clock number s.stored change = .ok s'.stored ∧
        s'.next = store.advance s.next change number := by
  rcases site_committing h₀ h hmove with hsame | ⟨r, number, asked, change, seen, hact, -, hrest⟩
  · exact .inl hsame
  · exact .inr ⟨r, number, asked, change, seen, hact, hrest⟩

/-! ## All or nothing -/

/-- **All or nothing, when requests overlap.** A request that answered has had one
commit; one that raised an error of the application has had none; and the commits, in
their order, have made the database what it is. -/
theorem writes_atomic (h₀ : s₀.Fresh) (h : exec (siteMove auth content) s₀ moves = some s) :
    store.replay s₀.stored s.log = .ok s.stored ∧
      ∀ r asked,
        (∀ answer, s.slot r = .ended asked (.ok answer) → commitsOf r s.log = 1) ∧
        (∀ e, s.slot r = .ended asked (.error (.app e)) → commitsOf r s.log = 0) ∧
        ∀ e, s.slot r = .ended asked (.error (.raised e)) → commitsOf r s.log ≤ 1 := by
  refine ⟨exec_replayed h₀ h, fun r asked => ?_⟩
  have hprogram : ∀ asked, (program auth content asked).Transactional store.Late :=
    fun asked => handleWrite_transactional asked.request
  have hatomic := exec_atomic hprogram h₀ h r
  refine ⟨fun answer hended => ?_, fun e hended => ?_, fun e hended => ?_⟩
  · rw [hended] at hatomic
    exact hatomic
  · rw [hended] at hatomic
    rcases hatomic with hnone | ⟨-, fault, he⟩
    · exact hnone
    · cases he
  · rw [hended] at hatomic
    rcases hatomic with hnone | ⟨hone, -⟩
    · omega
    · omega

end Runs

/-! Three requests with one key: it is revoked by one, after another has been let
through and before the third is. -/

/-- How the request has ended, if it has. -/
def Traffic.result (s : Traffic) (r : Nat) : Option (Except Failure Answer) :=
  match s.slot r with
  | .ended _ result => some result
  | _ => none

theorem Traffic.result_eq_some {s : Traffic} {r : Nat} {result : Except Failure Answer}
    (h : s.result r = some result) : ∃ asked : Asked, s.slot r = .ended asked result := by
  unfold Traffic.result at h
  split at h
  next asked result' hslot =>
    obtain rfl := Option.some.inj h
    exact ⟨asked, hslot⟩
  next => cases h

/-- The admin of the example is a row its table can hold. -/
theorem keyHolder_fits : ∀ u ∈ [keyHolder .admin], u.Fits := by decide

theorem keyHolder_keyed : Keyed [keyHolder .admin] := by decide

/-- An admin's installation, before any request. -/
def quietSite : Traffic :=
  ⟨sampleDatabase .admin keyHolder_fits keyHolder_keyed, 0, fun _ => 2, fun _ => .idle, []⟩

theorem quietSite_fresh : quietSite.Fresh := ⟨fun _ => rfl, rfl⟩

/-- A request by the admin's key. -/
def keyStart (r : Nat) (request : WriteRequest) : SiteMove :=
  .start r ⟨⟨some drawA.token.secret, none, none⟩, drawA, request⟩

/-- Request 1 revokes the key that all three were sent with. Request 2 passes its guard before that
and commits after it; request 0 reaches its guard too late. -/
def revokedMeanwhile : List SiteMove :=
  [keyStart 0 (.updateRole 1 .user), keyStart 1 (.revokeApiKey 1), keyStart 2 .logout, .go 1 1,
    .go 2 1, .tick 1500, .go 1 1, .go 1 1, .go 1 1, .go 1 1, .go 2 1, .go 2 1, .go 2 1, .go 0 1,
    .go 0 1]

/-- The request that was let through in time is carried out. -/
theorem revoked_meanwhile :
    ∃ s, exec (siteMove Auth.sampleEnv Content.sampleEnv) quietSite revokedMeanwhile = some s ∧
      commitsOf 0 s.log = 0 ∧ commitsOf 1 s.log = 1 ∧ commitsOf 2 s.log = 1 ∧
      store.replay quietSite.stored s.log = .ok s.stored := by
  have hrun : (exec (siteMove Auth.sampleEnv Content.sampleEnv) quietSite revokedMeanwhile).map
      (fun s => decide (s.result 0 = some (.error (.app (unauthorizedError "Login required."))) ∧
        s.result 1 = some (.ok (.auth .noContent)) ∧
        s.result 2 = some (.ok (.auth .noContent)))) = some true := by
    decide +kernel
  obtain ⟨s, hs, hresults⟩ := exec_of_test hrun
  obtain ⟨hrefused, hrevoked, hlate⟩ := of_decide_eq_true hresults
  obtain ⟨hreplay, hatomic⟩ := writes_atomic quietSite_fresh hs
  obtain ⟨asked₀, hslot₀⟩ := Traffic.result_eq_some hrefused
  obtain ⟨asked₁, hslot₁⟩ := Traffic.result_eq_some hrevoked
  obtain ⟨asked₂, hslot₂⟩ := Traffic.result_eq_some hlate
  exact ⟨s, hs, (hatomic 0 asked₀).2.1 _ hslot₀, (hatomic 1 asked₁).1 _ hslot₁,
    (hatomic 2 asked₂).1 _ hslot₂, hreplay⟩

section Runs

variable {auth : Auth.Env} {content : Content.Env} {s₀ s : Traffic} {moves : List SiteMove}

/-! ## How many moves -/

/-- **A request is over after eight moves of its own**, however many others overlap it
and whatever they do meanwhile: no handler has a loop or a retry that they could prolong. -/
theorem requests_bounded (h₀ : s₀.Fresh) (h : exec (siteMove auth content) s₀ moves = some s) :
    ∀ r, movesOf r moves ≤ 8 ∧
      ∀ (asked : Asked) thread, s.slot r = .running asked thread → movesOf r moves < 8 := by
  intro r
  -- seven exchanges at most, and one move more to answer
  have hprogram : ∀ asked, (program auth content asked).Within 7 :=
    fun asked => handleWrite_within asked.request
  have hbounded := exec_bounded hprogram h₀ h r
  refine ⟨?_, fun asked thread hslot => ?_⟩
  · cases hslot : s.slot r with
    | idle =>
      rw [hslot] at hbounded
      show movesOf r moves ≤ 8
      rw [show movesOf r moves = 0 from hbounded]
      omega
    | running asked thread =>
      rw [hslot] at hbounded
      obtain ⟨left, -, hle⟩ := hbounded
      omega
    | ended asked result =>
      rw [hslot] at hbounded
      exact hbounded
  · rw [hslot] at hbounded
    obtain ⟨left, -, hle⟩ := hbounded
    omega

/-- The last request of `revokedMeanwhile`, before it answers. -/
theorem late_logout_moves :
    ∃ s, exec (siteMove Auth.sampleEnv Content.sampleEnv) quietSite (revokedMeanwhile.take 12) =
        some s ∧ movesOf 2 (revokedMeanwhile.take 12) = 3 ∧
      ∀ r, movesOf r (revokedMeanwhile.take 12) ≤ 8 := by
  have hrun : (exec (siteMove Auth.sampleEnv Content.sampleEnv) quietSite
      (revokedMeanwhile.take 12)).map (fun _ => true) = some true := by
    decide +kernel
  obtain ⟨s, hs, -⟩ := exec_of_test hrun
  exact ⟨s, hs, by decide +kernel, fun r => (requests_bounded quietSite_fresh hs r).1⟩

end Runs

end SarkariWorld.Site.Threads
