import SarkariWorld.Site.Permanence

/-!
# Stamps

A request reads the clock at one moment and writes what it read at a later one, and others
may be carried out in between. `stamps_timely` says what holds of the stored times all the
same: none is ahead of the clock, and an article is never older than its last change.

The clock itself only goes forward (`Lib.Interleaving`), so a time that was read at one
moment stays in the past at every later one, whatever is carried out in between. What has
to be shown is that every statement that writes a time writes one that its own request has
read, or leaves the column as it is stored. The licence of a flush (`Site.Licences`)
supplies the first half, and the column-wise `UPDATE` the second.

The tables come one after the other: accounts, bookmarks, web URLs and articles. Each has
the same shape, a predicate on one row, its persistence as the clock goes on, and one
lemma about the commit that may change it.
-/

namespace SarkariWorld.Site.Threads

open SarkariWorld.Lib SarkariWorld.Auth SarkariWorld.Content

/-- A `TIMESTAMP(3)` column may have taken this from the clock by now. -/
def Elapsed (clock : Nat) (t : Int) : Prop := t ≤ timestamp3 (nowIst clock)

instance (clock : Nat) (t : Int) : Decidable (Elapsed clock t) :=
  inferInstanceAs (Decidable (_ ≤ _))

/-- None of an account's four `TIMESTAMP(3)` columns is ahead of the clock. The time of the last
sign-out is kept in full, so it is compared with the clock itself. -/
structure AccountTimely (clock : Nat) (u : User) : Prop where
  keyCreated : ∀ t ∈ u.apiKeyCreatedAt, Elapsed clock t
  keyUsed : ∀ t ∈ u.apiKeyLastUsedAt, Elapsed clock t
  keyRevoked : ∀ t ∈ u.apiKeyRevokedAt, Elapsed clock t
  login : ∀ t ∈ u.lastLoginAt, Elapsed clock t
  sessions : ∀ t ∈ u.sessionInvalidatedAt, t.instant ≤ clock

/-- The three times of a web URL, of which only the last view may be missing. -/
def UrlTimely (clock : Nat) (w : WebUrl) : Prop :=
  Elapsed clock w.createdAt ∧ Elapsed clock w.updatedAt ∧ ∀ t ∈ w.lastViewedAt, Elapsed clock t

/-- Every stored time has passed. The articles also keep their two times in order, and that is what
a commit must not undo: it may have been decided on a row that has changed since. -/
structure Timely (clock : Nat) (d : Database) : Prop where
  accounts : ∀ u ∈ d.users.rows, AccountTimely clock u
  articles : ∀ a ∈ d.articles.rows, a.createdAt ≤ a.updatedAt ∧ Elapsed clock a.updatedAt
  bookmarks : ∀ b ∈ d.bookmarks.rows, Elapsed clock b.createdAt
  webUrls : ∀ w ∈ d.webUrls.rows, UrlTimely clock w

section Later

variable {clock now : Nat}

/-- A reading of the clock is in the past from then on, also after the column has rounded it. -/
theorem elapsed_now (h : clock ≤ now) : Elapsed now (timestamp3 (nowIst clock)) := by
  refine timestamp3_mono ?_
  unfold nowIst
  omega

/-- What has passed stays in the past. -/
theorem Elapsed.later {t : Int} (h : Elapsed clock t) (hle : clock ≤ now) : Elapsed now t :=
  Int.le_trans h (elapsed_now hle)

/-- The same for the times of one account, column by column. -/
theorem AccountTimely.later {u : User} (h : AccountTimely clock u) (hle : clock ≤ now) :
    AccountTimely now u where
  keyCreated t ht := (h.keyCreated t ht).later hle
  keyUsed t ht := (h.keyUsed t ht).later hle
  keyRevoked t ht := (h.keyRevoked t ht).later hle
  login t ht := (h.login t ht).later hle
  sessions t ht := Int.le_trans (h.sessions t ht) (Int.ofNat_le.mpr hle)

/-- A clock that goes on makes no stored time wrong. -/
theorem Timely.later {d : Database} (h : Timely clock d) (hle : clock ≤ now) :
    Timely now d where
  accounts u hu := (h.accounts u hu).later hle
  articles a ha := ⟨(h.articles a ha).1, (h.articles a ha).2.later hle⟩
  bookmarks b hb := (h.bookmarks b hb).later hle
  webUrls w hw :=
    have ⟨hcreated, hupdated, hviewed⟩ := h.webUrls w hw
    ⟨hcreated.later hle, hupdated.later hle, fun t ht => (hviewed t ht).later hle⟩

end Later

/-! ## Accounts -/

section Accounts

variable {clock now : Nat} {u loaded row : User}

/-- The copy's times are those that were loaded, or what the clock showed. -/
structure Restamped (clock : Nat) (loaded row : User) : Prop where
  keyCreated : row.apiKeyCreatedAt ≠ loaded.apiKeyCreatedAt →
    ∀ t ∈ row.apiKeyCreatedAt, t = nowIst clock
  keyUsed : row.apiKeyLastUsedAt ≠ loaded.apiKeyLastUsedAt →
    ∀ t ∈ row.apiKeyLastUsedAt, t = nowIst clock
  keyRevoked : row.apiKeyRevokedAt ≠ loaded.apiKeyRevokedAt →
    ∀ t ∈ row.apiKeyRevokedAt, t = nowIst clock
  login : row.lastLoginAt ≠ loaded.lastLoginAt → ∀ t ∈ row.lastLoginAt, t = nowIst clock
  sessions : row.sessionInvalidatedAt ≠ loaded.sessionInvalidatedAt →
    ∀ t ∈ row.sessionInvalidatedAt, t = utcNow clock

/-- One of the four `TIMESTAMP(3)` columns. -/
theorem column_timely {loaded row stored : Option Int} (hle : clock ≤ now)
    (hstored : ∀ t ∈ stored, Elapsed now t)
    (hrow : row ≠ loaded → ∀ t ∈ row, t = nowIst clock) :
    ∀ t ∈ flushColWith (Option.map timestamp3) loaded row stored, Elapsed now t := by
  refine flushColWith_keeps (P := fun col => ∀ t ∈ col, Elapsed now t) hstored fun hdirty => ?_
  intro t ht
  obtain ⟨t', ht', rfl⟩ := Option.map_eq_some_iff.mp ht
  rw [hrow hdirty t' ht']
  exact elapsed_now hle

/-- The flush of a copy is column-wise: a column the request did not touch keeps what is stored,
which may be newer than what was loaded, and one it did touch receives a time of its own. -/
theorem Restamped.timely (h : Restamped clock loaded row) (hle : clock ≤ now)
    (hu : AccountTimely now u) : AccountTimely now (User.flush loaded row u) where
  keyCreated := column_timely hle hu.keyCreated h.keyCreated
  keyUsed := column_timely hle hu.keyUsed h.keyUsed
  keyRevoked := column_timely hle hu.keyRevoked h.keyRevoked
  login := column_timely hle hu.login h.login
  sessions := by
    refine flushCol_keeps (P := fun col => ∀ t : Datetime, t ∈ col → t.instant ≤ now)
      hu.sessions fun hdirty => ?_
    intro t ht
    rw [h.sessions hdirty t ht, utcNow_instant]
    exact Int.ofNat_le.mpr hle

/-- A first sign-in stamps the login alone; the key and session columns start empty. -/
theorem newAccount_timely (auth : Auth.Env) (profile : OAuthProfile) (number : Int)
    (hle : clock ≤ now) :
    AccountTimely now { (newOauthUser auth profile clock).asStored with id := number } where
  keyCreated t ht := by cases ht
  keyUsed t ht := by cases ht
  keyRevoked t ht := by cases ht
  login t ht := by
    obtain rfl := Option.some.inj ht
    exact elapsed_now hle
  sessions t ht := by cases ht

end Accounts

/-! ## One commit -/

section Licences

variable {o : Origin} {seen : Moments} {request : WriteRequest}

/-- A request that passed its guard has read the clock, for the guard does so itself. -/
theorem told_of_admitted {guard : Guard} {actor : User} (h : Admitted o seen guard actor) :
    ∃ told, Told seen told := by
  obtain ⟨d, clock, hmem, -⟩ := h
  cases seen with
  | nil => cases hmem
  | cons moment earlier => exact ⟨moment.2, moment.1, earlier, rfl⟩

/-- Every update of an account the service makes takes its times from the request's own readings of
the clock. The five cases are the five endpoints that change an account. -/
theorem Licence.restamped {loaded row : User}
    (h : Licence o seen request (.user (.update loaded row))) :
    ∃ told, Told seen told ∧ Restamped told loaded row := by
  -- each request stamps one column, and leaves the others as they were loaded
  cases h with
  | updateRole userId role actor user hactor huser hid hother =>
    obtain ⟨told, htold⟩ := told_of_admitted hactor
    exact ⟨told, htold, fun h => absurd rfl h, fun h => absurd rfl h, fun h => absurd rfl h,
      fun h => absurd rfl h, fun h => absurd rfl h⟩
  | issueApiKey userId name actor user row secret clock hactor huser hid hissue hclock =>
    obtain ⟨-, -, rfl⟩ := issue_ok hissue
    refine ⟨clock, hclock, fun _ t ht => (Option.some.inj ht).symm, fun _ t ht => ?_,
      fun _ t ht => ?_, fun h => absurd rfl h, fun h => absurd rfl h⟩
    · cases ht
    · cases ht
  | revokeApiKey userId actor user clock hactor huser hid hclock =>
    exact ⟨clock, hclock, fun h => absurd rfl h, fun h => absurd rfl h,
      fun _ t ht => (Option.some.inj ht).symm, fun h => absurd rfl h, fun h => absurd rfl h⟩
  | knownAccount profile clock user huser hemail hclock =>
    exact ⟨clock, hclock, fun h => absurd rfl h, fun h => absurd rfl h, fun h => absurd rfl h,
      fun _ t ht => (Option.some.inj ht).symm, fun h => absurd rfl h⟩
  | logout actor clock hactor hstored hclock =>
    exact ⟨clock, hclock, fun h => absurd rfl h, fun h => absurd rfl h, fun h => absurd rfl h,
      fun h => absurd rfl h, fun _ t ht => (Option.some.inj ht).symm⟩

end Licences

section Commit

variable {auth : Auth.Env} {content : Content.Env} {s₀ s : Traffic} {moves : List SiteMove}
  {o : Origin} {seen : Moments} {request : WriteRequest} {change : Change} {number : Int}
  {d' : Database}

/-- What the clock showed a request, it showed during the run. -/
theorem Told.le {told : Nat} (h : Told seen told)
    (hseen : SeenIn store (program auth content) s₀ moves seen)
    (hrun : exec (siteMove auth content) s₀ moves = some s) : told ≤ s.clock := by
  obtain ⟨d, earlier, rfl⟩ := h
  obtain ⟨m, hm, heq⟩ := hseen.passed _ (List.mem_cons_self ..)
  obtain ⟨rfl, rfl⟩ := Prod.mk.inj heq
  exact hm.clock_le hrun

/-- The commit of a request, for the accounts. The row it writes was stamped when the request read
the clock, which is no later than now, and every other row is as it was. -/
theorem accounts_timely {write : Auth.Write} {t t' : UserTable} {written : Option Int}
    (hlicence : Licence o seen request (.user write))
    (hlast : ∀ told, Told seen told → told ≤ s.clock)
    (h : ∀ u ∈ t.rows, AccountTimely s.clock u)
    (hcommit : commitWrite t write number = .ok (t', written)) :
    ∀ u ∈ t'.rows, AccountTimely s.clock u := by
  cases write with
  | nothing => cases hlicence
  | insert row =>
    rw [(commitRow_insert (commitWrite_insert.mp hcommit).1).1, List.forall_mem_append]
    refine ⟨h, fun u hu => ?_⟩
    obtain rfl := List.mem_singleton.mp hu
    cases hlicence with
    | newAccount profile clock hclock =>
      exact newAccount_timely o.auth profile number (hlast _ hclock)
  | update loaded row =>
    obtain ⟨told, htold, hrestamped⟩ := hlicence.restamped
    rw [commitRow_update (commitWrite_update.mp hcommit).1]
    exact forall_updateWhere h fun u hu _ => hrestamped.timely (hlast told htold) (h u hu)

/-- The commit of a toggle: a new bookmark carries the clock of the insert, and a deletion leaves
only rows that were there. -/
theorem bookmarks_timely {write : BookmarkWrite} {t t' : BookmarkTable} {clock : Nat}
    (h : ∀ b ∈ t.rows, Elapsed clock b.createdAt)
    (hcommit : commitBookmark t clock number write = .ok t') :
    ∀ b ∈ t'.rows, Elapsed clock b.createdAt := by
  cases write with
  | delete existing =>
    rw [← Except.ok.inj hcommit]
    exact fun b hb => h b (List.mem_filter.mp hb).1
  | insert userId articleId =>
    rw [(commit_insert hcommit).1, List.forall_mem_append]
    refine ⟨h, fun b hb => ?_⟩
    obtain rfl := List.mem_singleton.mp hb
    exact Int.le_refl _

/-- Viewing a URL writes `last_viewed_at`, and does not touch the other two. -/
theorem UrlTimely.stamp {told clock : Nat} {w : WebUrl} (h : UrlTimely clock w)
    (hle : told ≤ clock) : UrlTimely clock (w.stamp (nowIst told)) := by
  refine ⟨h.1, h.2.1, fun t ht => ?_⟩
  obtain rfl := Option.some.inj ht
  exact elapsed_now hle

/-- The commit of a request, for the web URLs: an insert takes the clock of the commit, a view the
time the request has read, and `mark-all-viewed` does the same to every row. -/
theorem webUrls_timely {write : WebUrlWrite} {t t' : WebUrlTable} {row : Option WebUrl}
    (hlicence : Licence o seen request (.webUrl write))
    (hlast : ∀ told, Told seen told → told ≤ s.clock)
    (h : ∀ w ∈ t.rows, UrlTimely s.clock w)
    (hcommit : commitWebUrl t s.clock number write = .ok (t', row)) :
    ∀ w ∈ t'.rows, UrlTimely s.clock w := by
  cases hlicence with
  | addWebUrl payload actor parsed hactor hparsed =>
    obtain ⟨t₁, hwrite, hend⟩ := bind_eq_ok.mp hcommit
    obtain ⟨rfl, -⟩ := Prod.mk.inj (Except.ok.inj hend)
    rw [WebUrlTable.write_ok hwrite, List.forall_mem_append]
    refine ⟨h, fun w hw => ?_⟩
    obtain rfl := List.mem_singleton.mp hw
    -- a new address has both dates from the commit's clock and was never viewed
    exact ⟨Int.le_refl _, Int.le_refl _, fun t ht => by cases ht⟩
  | viewWebUrl webUrlId actor loaded told hactor hloaded htold =>
    simp only [commitWebUrl] at hcommit
    split at hcommit
    next => cases hcommit
    next =>
      split at hcommit
      next =>
        obtain ⟨rfl, -⟩ := Prod.mk.inj (Except.ok.inj hcommit)
        exact h
      next =>
        obtain ⟨t₁, hwrite, hend⟩ := bind_eq_ok.mp hcommit
        obtain ⟨rfl, -⟩ := Prod.mk.inj (Except.ok.inj hend)
        rw [WebUrlTable.write_ok hwrite]
        -- the stamp was read before the commit, and clocks do not run back
        exact forall_updateWhere h fun w hw _ => (h w hw).stamp (hlast told htold)
  | viewAll actor told hactor htold =>
    obtain ⟨t₁, hwrite, hend⟩ := bind_eq_ok.mp hcommit
    obtain ⟨rfl, -⟩ := Prod.mk.inj (Except.ok.inj hend)
    rw [WebUrlTable.write_ok hwrite]
    intro w hw
    obtain ⟨x, hx, rfl⟩ := List.mem_map.mp hw
    exact (h x hx).stamp (hlast told htold)
  | deleteWebUrl webUrlId actor loaded hactor hloaded hid =>
    obtain ⟨t₁, hwrite, hend⟩ := bind_eq_ok.mp hcommit
    obtain ⟨rfl, -⟩ := Prod.mk.inj (Except.ok.inj hend)
    rw [WebUrlTable.write_ok hwrite]
    exact fun w hw => h w (List.mem_filter.mp hw).1

/-- A request that changes an article has read it no later than the clock, and it was
created before that. -/
theorem Licence.edited {loaded assigned : ArticleObject}
    (h : Licence o seen request (.article (.update loaded assigned)))
    (hseen : SeenIn store (program auth content) s₀ moves seen)
    (hrun : exec (siteMove auth content) s₀ moves = some s)
    (hpast : ∀ m, PassedThrough store (program auth content) s₀ moves m → Timely m.clock m.stored)
    (hfollows : ∀ m, PassedThrough store (program auth content) s₀ moves m →
      Below m.stored m.next ∧ Follows m s) {a : Article} (ha : a ∈ s.stored.articles.rows)
    (hid : a.id = loaded.id) (hdirty : assigned.updatedAt ≠ loaded.updatedAt) :
    a.createdAt ≤ timestamp3 assigned.updatedAt ∧
      Elapsed s.clock (timestamp3 assigned.updatedAt) := by
  cases h with
  | editArticle post actor read assigned hactor hedits hread hcreated hstamped =>
    rcases hstamped with hsame | ⟨told, htold, hstamp⟩
    · exact absurd hsame hdirty
    rw [hstamp]
    obtain ⟨d, clock, hmoment, hmem⟩ := hread
    obtain ⟨m, hm, heq⟩ := hseen.passed _ hmoment
    obtain ⟨rfl, rfl⟩ := Prod.mk.inj heq
    -- the article was read no later than the stamp was taken
    have hearlier : m.clock ≤ told := by
      obtain ⟨d, earlier, rfl⟩ := htold
      rcases List.mem_cons.mp hmoment with hlast | hbefore
      · exact Nat.le_of_eq (congrArg Prod.snd hlast)
      · exact (List.pairwise_cons.mp hseen.ordered).1 _ hbefore
    -- and the creation date that was read is the one that is stored now
    have hsame : a.createdAt = read.createdAt :=
      ((hfollows m hm).2.permanent (hfollows m hm).1).articles read hmem a ha hid
    refine ⟨?_, elapsed_now (htold.le hseen hrun)⟩
    calc a.createdAt = read.createdAt := hsame
      _ ≤ read.updatedAt := ((hpast m hm).articles read hmem).1
      _ ≤ timestamp3 (nowIst m.clock) := ((hpast m hm).articles read hmem).2
      _ ≤ timestamp3 (nowIst told) := elapsed_now hearlier

/-- A new article gets both its times from one reading of the clock, so they are equal. -/
theorem newRow_timely {data : ArticleData} {row : Article} {clock : Nat}
    (h : newRow data number clock = .ok row) :
    row.createdAt = timestamp3 (nowIst clock) ∧ row.updatedAt = timestamp3 (nowIst clock) := by
  obtain ⟨encoded, -, h⟩ := bind_eq_ok.mp h
  split at h
  next => cases h
  next =>
    rw [← Except.ok.inj h]
    exact ⟨rfl, rfl⟩

/-- The commit of a request, for the articles. An edit writes a new `updated_at` beside a
`created_at` that no edit touches; the article was created before it was loaded (`hpast` and
`hfollows` carry that over to the commit), so the order of the two is kept. -/
theorem articles_timely {write : ArticleWrite}
    (hlicence : Licence o seen request (.article write))
    (hseen : SeenIn store (program auth content) s₀ moves seen)
    (hrun : exec (siteMove auth content) s₀ moves = some s)
    (hpast : ∀ m, PassedThrough store (program auth content) s₀ moves m → Timely m.clock m.stored)
    (hfollows : ∀ m, PassedThrough store (program auth content) s₀ moves m →
      Below m.stored m.next ∧ Follows m s)
    (heffect : Effect s.stored.articles d'.articles s.clock number write) :
    ∀ a ∈ d'.articles.rows, a.createdAt ≤ a.updatedAt ∧ Elapsed s.clock a.updatedAt := by
  have h := (hpast s (passedThrough_end hrun)).articles
  cases heffect with
  | insert data row hrow hrows =>
    rw [hrows, List.forall_mem_append]
    refine ⟨h, fun a ha => ?_⟩
    obtain rfl := List.mem_singleton.mp ha
    obtain ⟨hcreated, hupdated⟩ := newRow_timely hrow
    rw [hcreated, hupdated]
    exact ⟨Int.le_refl _, Int.le_refl _⟩
  | same loaded hrows =>
    rw [hrows]
    exact h
  | update loaded assigned encoded hencoded hrows =>
    rw [hrows]
    refine forall_updateWhere h fun a ha hid => ?_
    -- no request assigns the creation date
    have hcreated : assigned.createdAt = loaded.createdAt := hlicence.faithful
    show flushColWith timestamp3 loaded.createdAt assigned.createdAt a.createdAt ≤
        flushColWith timestamp3 loaded.updatedAt assigned.updatedAt a.updatedAt ∧
      Elapsed s.clock (flushColWith timestamp3 loaded.updatedAt assigned.updatedAt a.updatedAt)
    rw [hcreated, flushColWith_clean]
    exact flushColWith_keeps (P := fun t => a.createdAt ≤ t ∧ Elapsed s.clock t) (h a ha)
      fun hdirty => hlicence.edited hseen hrun hpast hfollows ha (Option.some.inj hid) hdirty
  | delete loaded hrows =>
    rw [hrows]
    exact fun a ha => h a (List.mem_filter.mp ha).1

/-- The four tables together: one flush changes one of them and leaves the others alone. -/
theorem flush_timely (hlicence : Licence o seen request change)
    (hseen : SeenIn store (program auth content) s₀ moves seen)
    (hrun : exec (siteMove auth content) s₀ moves = some s)
    (hpast : ∀ m, PassedThrough store (program auth content) s₀ moves m → Timely m.clock m.stored)
    (hfollows : ∀ m, PassedThrough store (program auth content) s₀ moves m →
      Below m.stored m.next ∧ Follows m s)
    (hflush : flush s.clock number s.stored change = .ok d') : Timely s.clock d' := by
  have h := hpast s (passedThrough_end hrun)
  -- what a request was told of the time is not later than its commit
  have hlast : ∀ told, Told seen told → told ≤ s.clock := fun _ htold => htold.le hseen hrun
  cases change with
  | user write =>
    obtain ⟨written, hcommit, hrest⟩ := flush_user hflush
    rw [hrest]
    exact ⟨accounts_timely hlicence hlast h.accounts hcommit, h.articles, h.bookmarks, h.webUrls⟩
  | article write =>
    obtain ⟨heffect, hrest⟩ := flush_article hflush
    rw [hrest]
    exact ⟨h.accounts, articles_timely hlicence hseen hrun hpast hfollows heffect, h.bookmarks,
      h.webUrls⟩
  | bookmark write =>
    obtain ⟨hcommit, hrest⟩ := flush_bookmark hflush
    rw [hrest]
    exact ⟨h.accounts, h.articles, bookmarks_timely h.bookmarks hcommit, h.webUrls⟩
  | webUrl write =>
    obtain ⟨hcase, hrest⟩ := flush_webUrl hflush
    rw [hrest]
    refine ⟨h.accounts, h.articles, h.bookmarks, ?_⟩
    rcases hcase with ⟨-, hsame⟩ | ⟨row, hcommit⟩
    · rw [hsame]
      exact h.webUrls
    · exact webUrls_timely hlicence hlast h.webUrls hcommit

end Commit

/-! ## Runs -/

section Runs

variable {auth : Auth.Env} {content : Content.Env} {s₀ s s' : Traffic} {moves : List SiteMove}
  {action : SiteMove}

/-- The step of the invariant. Only a commit writes to the database; every other move changes
threads or lets the clock go on. -/
theorem timely_moved (h₀ : s₀.Fresh) (hbelow : Below s₀.stored s₀.next)
    (h : exec (siteMove auth content) s₀ moves = some s)
    (hpast : ∀ m, PassedThrough store (program auth content) s₀ moves m → Timely m.clock m.stored)
    (hmove : siteMove auth content s action = some s') : Timely s'.clock s'.stored := by
  have hlater : s.clock ≤ s'.clock := (move_moved hmove).clock_le
  refine Timely.later ?_ hlater
  rcases site_moved h₀ h hmove with ⟨hstored, -⟩ | ⟨r, number, asked, change, seen, -, -, hseen,
    hlicence, -, hflush, -⟩
  · rw [hstored]
    exact hpast s (passedThrough_end h)
  · exact flush_timely hlicence hseen h hpast (exec_follows h₀ hbelow h) hflush

/-- **No stamp is ahead of the clock**, at any moment of a run of overlapping requests, and
no article was last changed before it was created. -/
theorem stamps_timely (h₀ : s₀.Fresh) (hbelow : Below s₀.stored s₀.next)
    (hstart : Timely s₀.clock s₀.stored) (h : exec (siteMove auth content) s₀ moves = some s) :
    Timely s.clock s.stored :=
  exec_passed (P := fun m => Timely m.clock m.stored)
    (fun _ _ _ _ hrun hpast hmove => timely_moved h₀ hbelow hrun hpast hmove) hstart h

end Runs

/-- The database that is used as an example holds no time that is ahead of its clock. -/
theorem quietSite_timely : Timely quietSite.clock quietSite.stored := by
  refine ⟨fun u hu => ?_, fun a ha => ?_, fun b hb => ?_, fun w hw => ?_⟩
  · obtain rfl := List.mem_singleton.mp hu
    refine ⟨fun t ht => ?_, fun t ht => ?_, fun t ht => ?_, fun t ht => ?_, fun t ht => ?_⟩
    · obtain rfl := Option.some.inj ht
      decide
    all_goals cases ht
  · cases ha
  · cases hb
  · cases hw

/-- The key of `revokedMeanwhile` was revoked while another request was under way. -/
theorem revoked_key_timely :
    ∃ s, exec (siteMove Auth.sampleEnv Content.sampleEnv) quietSite revokedMeanwhile = some s ∧
      s.stored.users.rows.map User.apiKeyRevokedAt = [some (timestamp3 (nowIst 1500))] ∧
      Timely s.clock s.stored := by
  have hrun : (exec (siteMove Auth.sampleEnv Content.sampleEnv) quietSite revokedMeanwhile).map
      (fun s => decide (s.stored.users.rows.map User.apiKeyRevokedAt =
        [some (timestamp3 (nowIst 1500))])) = some true := by
    decide +kernel
  obtain ⟨s, hs, hrevoked⟩ := exec_of_test hrun
  exact ⟨s, hs, of_decide_eq_true hrevoked,
    stamps_timely quietSite_fresh quietSite_below quietSite_timely hs⟩

end SarkariWorld.Site.Threads
