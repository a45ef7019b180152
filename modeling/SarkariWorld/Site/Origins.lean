import SarkariWorld.Auth.OAuth
import SarkariWorld.Site.Mediation

/-!
# Where rows come from

There is no row without a request that made it. `rows_originate` follows every account,
bookmark and web URL of a state back to the state the run began in, or to the request
that created it, however requests overlap.

For accounts the trail goes on past the handler: `accounts_vouched` ends at a credential
Google vouched for. Verification comes before the first exchange with the database, so a
sign-in that is refused never becomes a request of `Traffic`.

Rows may change after they were made, so what is followed is what no write touches: the
`id` and the address of an account, the whole of a bookmark, the parts of a URL. A row of
a later state that has these from a row of an earlier one is that row; any other was
inserted on the way, and its insertion is some request's commit.

A statement about a run goes on holding when the run does, since the request that is named
has been received once and for all (the lemmas ending in `snoc`). The induction therefore
only has to look at the last move.
-/

namespace SarkariWorld.Site.Threads

open SarkariWorld.Lib SarkariWorld.Auth SarkariWorld.Content

section Provenance

variable (auth : Auth.Env) (content : Content.Env) (s₀ : Traffic) (moves : List SiteMove)

/-- The bookmark was made by its reader, of an article that was published at a moment of
the run, under the slug the reader named. -/
def Bookmarked (b : Bookmark) : Prop :=
  WasAsked auth content s₀ moves .auth fun actor request =>
    actor.id = b.userId ∧ ∃ slug, request = .toggleBookmark slug ∧
      ∃ m, PassedThrough store (program auth content) s₀ moves m ∧
        ∃ a ∈ published m.stored.articles.rows, a.slug = slug ∧ a.id = b.articleId

/-- A member of staff listed the URL, and these are its parts. -/
def Listed (w : WebUrl) : Prop :=
  WasAsked auth content s₀ moves (.manage .post) fun actor request =>
    actor.role ∈ staffRoles ∧ ∃ payload, request = .createWebUrl payload ∧
      parseHttpUrl content payload.url = some ⟨w.url, w.domain⟩ ∧
      w.title = (strip (payload.title.getD [])).take webUrlTitleMax

/-- The rows of `d'` are those of `d`, or came to be in the run. -/
structure Provenance (d d' : Database) : Prop where
  accounts : ∀ u' ∈ d'.users.rows, (∃ u ∈ d.users.rows, u.id = u'.id ∧ u.email = u'.email) ∨
    SignedIn moves fun profile => u'.email = profile.normalized auth
  bookmarks : ∀ b' ∈ d'.bookmarks.rows, b' ∈ d.bookmarks.rows ∨
    Bookmarked auth content s₀ moves b'
  webUrls : ∀ w' ∈ d'.webUrls.rows, (∃ w ∈ d.webUrls.rows, w.id = w'.id ∧ urlCore w = urlCore w') ∨
    Listed auth content s₀ moves w'

end Provenance

section Runs

variable {auth : Auth.Env} {content : Content.Env} {s₀ s s' : Traffic} {moves : List SiteMove}
  {action : SiteMove} {d d' d'' : Database}

/-! ## Longer runs -/

/-- A request that was received and let through remains so in a longer run. -/
theorem WasAsked.snoc {guard : Guard} {p q : User → WriteRequest → Prop}
    (h : WasAsked auth content s₀ moves guard p) (hpq : ∀ actor request, p actor request →
      q actor request) : WasAsked auth content s₀ (moves ++ [action]) guard q := by
  obtain ⟨r, asked, actor, m, hstart, hm, hactor, hp⟩ := h
  exact ⟨r, asked, actor, m, List.mem_append_left _ hstart, passedThrough_snoc hm, hactor,
    hpq _ _ hp⟩

theorem SignedIn.snoc {p : OAuthProfile → Prop} (h : SignedIn moves p) :
    SignedIn (moves ++ [action]) p := by
  obtain ⟨r, asked, profile, hstart, hrequest, hp⟩ := h
  exact ⟨r, asked, profile, List.mem_append_left _ hstart, hrequest, hp⟩

theorem Bookmarked.snoc {b : Bookmark} (h : Bookmarked auth content s₀ moves b) :
    Bookmarked auth content s₀ (moves ++ [action]) b := by
  refine WasAsked.snoc h fun actor request hp => ?_
  obtain ⟨hactor, slug, hrequest, m, hm, ha⟩ := hp
  exact ⟨hactor, slug, hrequest, m, passedThrough_snoc hm, ha⟩

theorem Provenance.snoc (h : Provenance auth content s₀ moves d d') :
    Provenance auth content s₀ (moves ++ [action]) d d' where
  accounts u' hu' := (h.accounts u' hu').imp_right SignedIn.snoc
  bookmarks b' hb' := (h.bookmarks b' hb').imp_right Bookmarked.snoc
  webUrls w' hw' := (h.webUrls w' hw').imp_right fun hlisted => WasAsked.snoc hlisted
    fun _ _ hp => hp

theorem Provenance.refl (d : Database) : Provenance auth content s₀ moves d d where
  accounts u' hu' := .inl ⟨u', hu', rfl, rfl⟩
  bookmarks _ hb' := .inl hb'
  webUrls w' hw' := .inl ⟨w', hw', rfl, rfl⟩

/-- Rows that are traced to a state in between are traced from there on. -/
theorem Provenance.trans (h : Provenance auth content s₀ moves d d')
    (h' : Provenance auth content s₀ moves d' d'') : Provenance auth content s₀ moves d d'' where
  accounts u'' hu'' := by
    rcases h'.accounts u'' hu'' with ⟨u', hu', hid', hemail'⟩ | hnew
    · rcases h.accounts u' hu' with ⟨u, hu, hid, hemail⟩ | hnew
      · exact .inl ⟨u, hu, hid.trans hid', hemail.trans hemail'⟩
      · rw [hemail'] at hnew
        exact .inr hnew
    · exact .inr hnew
  bookmarks b'' hb'' := (h'.bookmarks b'' hb'').elim (h.bookmarks b'') .inr
  webUrls w'' hw'' := by
    rcases h'.webUrls w'' hw'' with ⟨w', hw', hid', hcore'⟩ | hnew
    · rcases h.webUrls w' hw' with ⟨w, hw, hid, hcore⟩ | hnew
      · exact .inl ⟨w, hw, hid.trans hid', hcore.trans hcore'⟩
      · have hurl : w'.url = w''.url := congrArg Prod.fst hcore'
        have hdomain : w'.domain = w''.domain := congrArg (fun c => c.2.1) hcore'
        have htitle : w'.title = w''.title := congrArg (fun c => c.2.2.1) hcore'
        unfold Listed at hnew
        rw [hurl, hdomain, htitle] at hnew
        exact .inr hnew
    · exact .inr hnew

/-! ## One commit -/

section Commit

variable {r : Nat} {asked : Asked} {change : Change} {seen : Moments} {number : Int}

/-- One commit, for the accounts: every row after it was there before under its `id`, or is the row
of a sign-in. -/
theorem accounts_provenance (hstems : StemsFrom change number d d')
    (hmediated : Mediated auth content s₀ moves d d') :
    ∀ u' ∈ d'.users.rows, (∃ u ∈ d.users.rows, u.id = u'.id ∧ u.email = u'.email) ∨
      SignedIn moves fun profile => u'.email = profile.normalized auth := by
  intro u' hu'
  by_cases hold : ∃ u ∈ d.users.rows, u.id = u'.id
  · obtain ⟨u, hu, hid⟩ := hold
    obtain ⟨v, hv, hvid, hemail⟩ := hstems.accounts u hu
    have hsame : v = u' :=
      eq_of_uniqueCol d'.users.keyed.id hv hu' (User.idCol_eq_some.mpr (hvid.trans hid)) rfl
    exact .inl ⟨u, hu, hid, (hsame ▸ hemail).symm⟩
  · refine .inr (hmediated.users.newcomer u' hu' fun u hu hid => hold ⟨u, hu, hid⟩).2.2

/-- One commit, for the bookmarks. Only the toggle inserts one, and its licence has what
`Bookmarked` asks for. -/
theorem bookmarks_provenance (hstart : Move.start r asked ∈ moves)
    (hseen : SeenIn store (program auth content) s₀ moves seen)
    (hlicence : Licence ⟨auth, content, asked.creds, asked.draw⟩ seen asked.request change)
    (hflush : flush s.clock number d change = .ok d') :
    ∀ b' ∈ d'.bookmarks.rows, b' ∈ d.bookmarks.rows ∨ Bookmarked auth content s₀ moves b' := by
  intro b' hb'
  have hstems := flush_stems hlicence.faithful hflush
  rcases hstems.bookmarks b' hb' with ⟨b, hb, -, rfl⟩ | ⟨hdrawn, hid⟩
  · exact .inl hb
  · generalize hrequest : asked.request = request at hlicence
    cases hlicence with
    | addBookmark slug actor a hactor ha hslug =>
      obtain ⟨hcommit, -⟩ := flush_bookmark hflush
      rw [(commit_insert hcommit).1] at hb'
      rcases List.mem_append.mp hb' with hold | hnew
      · exact .inl hold
      · obtain rfl := List.mem_singleton.mp hnew
        obtain ⟨dₐ, time, hmoment, hpublished⟩ := ha
        obtain ⟨m, hm, heq⟩ := hseen.passed _ hmoment
        obtain ⟨rfl, rfl⟩ := Prod.mk.inj heq
        exact .inr (wasAsked_of_admitted hstart hseen hactor
          ⟨rfl, slug, hrequest, m, hm, a, hpublished, hslug, rfl⟩)
    | _ => cases hdrawn

/-- One commit, for the web URLs. A view writes the time it was viewed, which is not among its
parts. -/
theorem webUrls_provenance (hstart : Move.start r asked ∈ moves)
    (hseen : SeenIn store (program auth content) s₀ moves seen)
    (hlicence : Licence ⟨auth, content, asked.creds, asked.draw⟩ seen asked.request change)
    (hflush : flush s.clock number d change = .ok d') :
    ∀ w' ∈ d'.webUrls.rows, (∃ w ∈ d.webUrls.rows, w.id = w'.id ∧ urlCore w = urlCore w') ∨
      Listed auth content s₀ moves w' := by
  intro w' hw'
  -- a row of the result was there, or has the number that the commit drew
  rcases (flush_stems hlicence.faithful hflush).webUrls w' hw' with hold | ⟨hdrawn, hid⟩
  · exact .inl hold
  · generalize hrequest : asked.request = request at hlicence
    cases hlicence with
    | addWebUrl payload actor parsed hactor hparsed =>
      obtain ⟨hcase, -⟩ := flush_webUrl hflush
      rcases hcase with ⟨hclean, -⟩ | ⟨row, hcommit⟩
      · cases hclean
      · obtain ⟨t, hwrite, hend⟩ := bind_eq_ok.mp hcommit
        obtain ⟨rfl, -⟩ := Prod.mk.inj (Except.ok.inj hend)
        rw [WebUrlTable.write_ok hwrite] at hw'
        rcases List.mem_append.mp hw' with hold | hnew
        · exact .inl ⟨w', hold, rfl, rfl⟩
        · obtain rfl := List.mem_singleton.mp hnew
          exact .inr (wasAsked_of_manage hstart hseen hactor fun hstaff _ =>
            ⟨hstaff, payload, hrequest, hparsed, rfl⟩)
    | _ => cases hdrawn

end Commit

/-! ## Runs -/

/-- What one move leaves. -/
theorem move_provenance (h₀ : s₀.Fresh) (hbelow : Below s₀.stored s₀.next)
    (h : exec (siteMove auth content) s₀ moves = some s)
    (hmove : siteMove auth content s action = some s') :
    Provenance auth content s₀ moves s.stored s'.stored := by
  rcases site_moved h₀ h hmove with ⟨hstored, -⟩ | ⟨r, number, asked, change, seen, -, hstart,
    hseen, hlicence, -, hflush, -⟩
  · rw [hstored]
    exact .refl _
  · have hmediated : Mediated auth content s₀ moves s.stored s'.stored :=
      hlicence.mediated hstart hseen (exec_follows h₀ hbelow h) hflush
    exact ⟨accounts_provenance (flush_stems hlicence.faithful hflush) hmediated,
      bookmarks_provenance hstart hseen hlicence hflush,
      webUrls_provenance hstart hseen hlicence hflush⟩

/-- **No row without a request that made it.** -/
theorem rows_originate (h₀ : s₀.Fresh) (hbelow : Below s₀.stored s₀.next)
    (h : exec (siteMove auth content) s₀ moves = some s) :
    Provenance auth content s₀ moves s₀.stored s.stored := by
  let I : List SiteMove → Traffic → Prop := fun moves s =>
    exec (siteMove auth content) s₀ moves = some s ∧
      Provenance auth content s₀ moves s₀.stored s.stored
  have hstep : ∀ moves s a s', I moves s → siteMove auth content s a = some s' →
      I (moves ++ [a]) s' := by
    intro moves s a s' hI hmove
    have hone := move_provenance h₀ hbelow hI.1 hmove
    exact ⟨exec_snoc_some.mpr ⟨s, hI.1, hmove⟩, (hI.2.trans hone).snoc⟩
  have hI : I moves s := exec_hist hstep ⟨rfl, .refl _⟩ h
  exact hI.2

end Runs

/-- A first sign-in, and a bookmark of an article that is not there. -/
def firstSignIn (request : WriteRequest) : List SiteMove :=
  [.start 0 ⟨⟨none, none, none⟩, drawA, request⟩, keyStart 1 (.toggleBookmark ['a']), .go 0 2,
    .go 1 2, .go 0 2, .go 1 2, .go 0 2, .go 0 2, .go 1 2, .go 0 2, .go 0 2]

/-- The profile of somebody who has no account yet. -/
def firstProfile : OAuthProfile := ⟨"ana@example.org".toList, [], ['1'], none⟩

/-- A first sign-in, whose account is traced back to it. -/
theorem first_account_originates :
    ∃ s, exec (siteMove Auth.sampleEnv Content.sampleEnv) quietSite
        (firstSignIn (.signIn (.ok firstProfile))) = some s ∧
      s.stored.users.rows.map User.id = [1, 2] ∧
      Provenance Auth.sampleEnv Content.sampleEnv quietSite
        (firstSignIn (.signIn (.ok firstProfile))) quietSite.stored s.stored := by
  have hrun : (exec (siteMove Auth.sampleEnv Content.sampleEnv) quietSite
      (firstSignIn (.signIn (.ok firstProfile)))).map
        (fun s => decide (s.stored.users.rows.map User.id = [1, 2])) = some true := by
    decide +kernel
  obtain ⟨s, hs, hids⟩ := exec_of_test hrun
  exact ⟨s, hs, of_decide_eq_true hids, rows_originate quietSite_fresh quietSite_below hs⟩

/-! ## Verified sign-ins -/

/-- A request as a client sends it. -/
inductive ClientRequest where
  | write (request : WriteRequest) (hrequest : ∀ verified, request ≠ .signIn verified)
  /-- `POST /auth/{provider}`. -/
  | signIn (provider credential : Text)

/-- A request as it arrives, before any of it has been looked at. -/
structure Incoming where
  creds : Credentials
  draw : KeyDraw
  request : ClientRequest

/-- What verifying a credential depends on: the settings and `google-auth`, which is not part of the
repository. -/
structure Google where
  settings : OAuthSettings
  verifyOauth2Token : VerifyOauth2Token

section Clients

variable (auth : Auth.Env) (content : Content.Env) (google : Google)

/-- The request once its handler turns to the database; `none` if it has ended before. -/
def Incoming.received (clock : Nat) (incoming : Incoming) : Option Asked :=
  match incoming.request with
  | .write request _ => some ⟨incoming.creds, incoming.draw, request⟩
  | .signIn provider credential =>
    match verifyCredential auth google.settings google.verifyOauth2Token clock provider
      credential with
    | .ok profile => some ⟨incoming.creds, incoming.draw, .signIn (.ok profile)⟩
    | .error _ => none

/-- One move of the service, with clients that send credentials. A sign-in is verified when it
arrives; if that fails it has been answered, and the state is as it was. -/
def clientMove (s : Traffic) : Move Incoming PyError → Option Traffic
  | .start r incoming =>
    match incoming.received auth google s.clock with
    | some asked => siteMove auth content s (.start r asked)
    | none => some s
  | .go r number => siteMove auth content s (.go r number)
  | .fail r fault => siteMove auth content s (.fail r fault)
  | .tick microseconds => siteMove auth content s (.tick microseconds)

/-- A client has sent a credential Google vouched for, with this profile. -/
def VouchedFor (moves : List (Move Incoming PyError)) (p : OAuthProfile → Prop) : Prop :=
  ∃ r creds draw credential clock profile claims,
    Move.start r ⟨creds, draw, .signIn Auth.google credential⟩ ∈ moves ∧
      Vouched auth google.settings google.verifyOauth2Token clock credential profile claims ∧
      p profile

variable {auth content google} {s₀ s s' : Traffic} {moves : List (Move Incoming PyError)}
  {action : Move Incoming PyError}

/-- The sign-in a client's request becomes has been vouched for. -/
theorem received_signIn {clock : Nat} {r : Nat} {incoming : Incoming} {asked : Asked}
    {profile : OAuthProfile} (h : incoming.received auth google clock = some asked)
    (hrequest : asked.request = .signIn (.ok profile)) :
    VouchedFor auth google [.start r incoming] (· = profile) := by
  obtain ⟨creds, draw, sent⟩ := incoming
  unfold Incoming.received at h
  cases sent with
  | write request hother =>
    obtain rfl := Option.some.inj h
    exact absurd hrequest (hother (.ok profile))
  | signIn provider credential =>
    dsimp only at h
    split at h
    next verified hverified =>
      obtain rfl := Option.some.inj h
      obtain rfl := Except.ok.inj (WriteRequest.signIn.inj hrequest)
      obtain ⟨rfl, claims, hvouched⟩ := verifyCredential_ok_iff.mp hverified
      exact ⟨r, creds, draw, credential, clock, verified, claims, List.mem_singleton_self _,
        hvouched, rfl⟩
    next => cases h

/-- A credential that was sent in a one-move run was sent in any run with that move. -/
theorem VouchedFor.of_mem {p : OAuthProfile → Prop} (h : VouchedFor auth google [action] p)
    (hmem : action ∈ moves) : VouchedFor auth google moves p := by
  obtain ⟨r, creds, draw, credential, clock, profile, claims, hstart, hvouched, hp⟩ := h
  rw [← List.mem_singleton.mp hstart] at hmem
  exact ⟨r, creds, draw, credential, clock, profile, claims, hmem, hvouched, hp⟩

/-- What a client does is nothing, or a move of the site. -/
theorem clientMove_cases (h : clientMove auth content google s action = some s') :
    s' = s ∨ ∃ move, siteMove auth content s move = some s' ∧
      ∀ p, SignedIn [move] p → VouchedFor auth google [action] p := by
  have hother : ∀ {move : SiteMove}, (∀ r asked, move ≠ .start r asked) → ∀ p,
      SignedIn [move] p → VouchedFor auth google [action] p := by
    rintro move hne p ⟨r, asked, profile, hstart, -⟩
    exact absurd (List.mem_singleton.mp hstart).symm (hne r asked)
  cases action with
  | start r incoming =>
    simp only [clientMove] at h
    split at h
    next asked hreceived =>
      refine .inr ⟨.start r asked, h, ?_⟩
      rintro p ⟨r', asked', profile, hstart, hrequest, hp⟩
      obtain ⟨rfl, rfl⟩ := Move.start.inj (List.mem_singleton.mp hstart)
      obtain ⟨r, creds, draw, credential, clock, _, claims, hsent, hvouched, rfl⟩ :=
        received_signIn (r := r') hreceived hrequest
      exact ⟨r, creds, draw, credential, clock, _, claims, hsent, hvouched, hp⟩
    next => exact .inl (Option.some.inj h).symm
  | go r number => exact .inr ⟨.go r number, h, hother fun _ _ he => by cases he⟩
  | fail r fault => exact .inr ⟨.fail r fault, h, hother fun _ _ he => by cases he⟩
  | tick microseconds => exact .inr ⟨.tick microseconds, h, hother fun _ _ he => by cases he⟩

theorem VouchedFor.snoc {p : OAuthProfile → Prop} (h : VouchedFor auth google moves p) :
    VouchedFor auth google (moves ++ [action]) p := by
  obtain ⟨r, creds, draw, credential, clock, profile, claims, hsent, hrest⟩ := h
  exact ⟨r, creds, draw, credential, clock, profile, claims, List.mem_append_left _ hsent, hrest⟩

/-- The run of the site that a run of clients is; its sign-ins were all vouched for, and so
were the accounts made meanwhile. -/
structure Tracked (auth : Auth.Env) (content : Content.Env) (google : Google) (s₀ : Traffic)
    (moves : List (Move Incoming PyError)) (s : Traffic) (moves' : List SiteMove) : Prop where
  run : exec (siteMove auth content) s₀ moves' = some s
  signIns : ∀ p, SignedIn moves' p → VouchedFor auth google moves p
  accounts : ∀ u ∈ s.stored.users.rows,
    (∃ u₀ ∈ s₀.stored.users.rows, u₀.id = u.id ∧ u₀.email = u.email) ∨
      VouchedFor auth google moves fun profile => u.email = profile.normalized auth

/-- One more move of the clients is at most one more move of the service, and the sign-ins of the
latter remain vouched for. -/
theorem Tracked.snoc {moves' : List SiteMove} (h₀ : s₀.Fresh) (hbelow : Below s₀.stored s₀.next)
    (h : Tracked auth content google s₀ moves s moves')
    (hmove : clientMove auth content google s action = some s') :
    ∃ moves'', Tracked auth content google s₀ (moves ++ [action]) s' moves'' := by
  rcases clientMove_cases hmove with rfl | ⟨move, hmove', hvouched⟩
  · exact ⟨moves', h.run, fun p hp => (h.signIns p hp).snoc,
      fun u hu => (h.accounts u hu).imp_right VouchedFor.snoc⟩
  · refine ⟨moves' ++ [move], exec_snoc_some.mpr ⟨s, h.run, hmove'⟩, fun p hp => ?_,
      fun u' hu' => ?_⟩
    · obtain ⟨r, asked, profile, hstart, hrest⟩ := hp
      rcases List.mem_append.mp hstart with hold | hnew
      · exact (h.signIns p ⟨r, asked, profile, hold, hrest⟩).snoc
      · exact (hvouched p ⟨r, asked, profile, hnew, hrest⟩).of_mem
          (List.mem_append_right _ (List.mem_singleton_self _))
    · rcases (move_provenance h₀ hbelow h.run hmove').accounts u' hu' with
        ⟨u, hu, hid, hemail⟩ | hsigned
      · rw [← hid, ← hemail]
        exact (h.accounts u hu).imp_right VouchedFor.snoc
      · exact .inr (h.signIns _ hsigned).snoc

/-- **Every account was vouched for**: its address is one Google had verified, in a
credential for this installation, when somebody signed in with it. -/
theorem accounts_vouched (h₀ : s₀.Fresh) (hbelow : Below s₀.stored s₀.next)
    (h : exec (clientMove auth content google) s₀ moves = some s) :
    ∀ u ∈ s.stored.users.rows,
      (∃ u₀ ∈ s₀.stored.users.rows, u₀.id = u.id ∧ u₀.email = u.email) ∨
        VouchedFor auth google moves fun profile => u.email = profile.normalized auth := by
  have hstart : Tracked auth content google s₀ [] s₀ [] := by
    refine ⟨rfl, fun p hp => ?_, fun u hu => .inl ⟨u, hu, rfl, rfl⟩⟩
    obtain ⟨r, asked, profile, hstart, -⟩ := hp
    cases hstart
  obtain ⟨moves', htracked⟩ := exec_hist
    (I := fun moves s => ∃ moves', Tracked auth content google s₀ moves s moves')
    (fun moves s a s' hs hmove => hs.elim fun _ hs => hs.snoc h₀ hbelow hmove) ⟨[], hstart⟩ h
  exact htracked.accounts

end Clients

/-- A Google that takes an address for a credential. -/
def sampleGoogle : Google where
  settings := ⟨some ['a', 'p', 'p'], none⟩
  verifyOauth2Token := fun _ credential _ => .ok {
    get := fun name =>
      if name = "email".toList then some (.text credential)
      else if name = "email_verified".toList then some (.bool true)
      else if name = "sub".toList then some (.text ['1'])
      else none
    picture := none }

/-- A first sign-in with Google, from the credential to the answer. -/
def firstCredential : List (Move Incoming PyError) :=
  [.start 0 ⟨⟨none, none, none⟩, drawA, .signIn Auth.google firstProfile.email⟩, .go 0 2, .go 0 2,
    .go 0 2, .go 0 2, .go 0 2, .go 0 2]

/-- Its account has the address that Google vouched for. -/
theorem first_account_vouched :
    ∃ s, exec (clientMove Auth.sampleEnv Content.sampleEnv sampleGoogle) quietSite
        firstCredential = some s ∧
      ∃ u ∈ s.stored.users.rows, u.id = 2 ∧ VouchedFor Auth.sampleEnv sampleGoogle firstCredential
        fun profile => u.email = profile.normalized Auth.sampleEnv := by
  have hrun : (exec (clientMove Auth.sampleEnv Content.sampleEnv sampleGoogle) quietSite
      firstCredential).map (fun s => (s.stored.users.find 2).isSome) = some true := by
    decide +kernel
  obtain ⟨s, hs, hfound⟩ := exec_of_test hrun
  obtain ⟨u, hu⟩ := Option.isSome_iff_exists.mp hfound
  obtain ⟨hmem, hid⟩ := UserTable.find_eq_some.mp hu
  refine ⟨s, hs, u, hmem, hid, ?_⟩
  rcases accounts_vouched quietSite_fresh quietSite_below hs u hmem with ⟨v, hv, hvid, -⟩ | hvouched
  · obtain rfl := List.mem_singleton.mp hv
    exact absurd (hvid.trans hid) (by decide)
  · exact hvouched

end SarkariWorld.Site.Threads
