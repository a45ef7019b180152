import SarkariWorld.Admin.PagedListings
import SarkariWorld.Lib.TwoRuns
import SarkariWorld.Site.Paging
import SarkariWorld.Site.Replies

/-!
# What a reader can learn

`public_reads_noninterfering` is about nobody's requests to the public router. A reader who
has signed in can do more: keep bookmarks, sign out, and try every route of the console.
`reader_noninterference` compares two installations that differ in whatever a reader is not
shown, and lets the reader send any requests to both: no answer tells them apart.

What a reader is shown of a database is defined first (`SeenAlike`), field by field of the
answers: who the reader is, what is published, and for each bookmark the article it is of,
published or not, by number, slug and title. Everything else may differ, the other
accounts, the drafts, the list of URLs, and the numbers that new rows will get.

Each handler a reader can get to is then run on both databases side by side (`Alike`, from
`Lib.TwoRuns`). The others refuse a reader, and refuse alike, because the guard looks at
the caller's row and at nothing else.
-/

namespace SarkariWorld.Site

open SarkariWorld.Lib SarkariWorld.Content SarkariWorld.Admin Program Std
open SarkariWorld.Auth (Guard User UserRole UserTable Credentials currentUser looksLikeApiKey
  verifySessionToken)

/-! ## What is shown to a reader -/

/-- A bookmark, as its owner's list shows it. -/
structure Shelved where
  articleId : Int
  createdAt : Int
  article : Option BookmarkedArticle
  deriving DecidableEq, Repr

/-- A bookmark as its reader is shown it. -/
def shelved (articles : ArticleTable) (b : Bookmark) : Shelved where
  articleId := b.articleId
  createdAt := b.createdAt
  article := (articles.find b.articleId).map fun a =>
    ⟨a.slug, a.title, categoryEnumToSlug a.category⟩

/-- A reader's bookmarks in the order of the list. -/
def shelf (d : Database) (userId : Int) : List Shelved :=
  (orderBy latestFirst (bookmarksOf d.bookmarks userId)).map (shelved d.articles)

/-- The two databases show this reader the same: the published articles, the account, and
the bookmarks. Whatever else is in them may differ, the numbers of the bookmarks included. -/
structure SeenAlike (userId : Int) (d d' : Database) : Prop where
  published : SamePublished d.articles d'.articles
  account : d.users.find userId = d'.users.find userId
  reader : ∀ row ∈ d.users.find userId, row.role = .user
  shelf : shelf d userId = shelf d' userId

/-- The credentials are this reader's own, or nobody's. -/
structure OwnCredentials (env : Auth.Env) (clock : Nat) (userId : Int) (creds : Credentials) :
    Prop where
  noKey : looksLikeApiKey creds.candidate = false
  session : ∀ token ∈ creds.token, ∀ claims ∈ verifySessionToken env clock token,
    ∀ i ∈ parseInt claims.sub, i = userId

/-- The sequence and the clock are ahead of the bookmarks. -/
structure Ahead (clock : Nat) (nextId : Int) (userId : Int) (d : Database) : Prop where
  fits : Int4 nextId
  numbers : ∀ b ∈ d.bookmarks.rows, b.id < nextId
  stamps : ∀ b ∈ d.bookmarks.rows, b.userId = userId → b.createdAt ≤ timestamp3 (nowIst clock)

instance (clock : Nat) (nextId userId : Int) (d : Database) :
    Decidable (Ahead clock nextId userId d) :=
  decidable_of_iff (Int4 nextId ∧ (∀ b ∈ d.bookmarks.rows, b.id < nextId) ∧
      ∀ b ∈ d.bookmarks.rows, b.userId = userId → b.createdAt ≤ timestamp3 (nowIst clock))
    ⟨fun ⟨hfits, hnumbers, hstamps⟩ => ⟨hfits, hnumbers, hstamps⟩,
      fun h => ⟨h.fits, h.numbers, h.stamps⟩⟩

/-- Visits of one reader to two installations side by side, and what they are answered.
The sequences may be at different numbers. In between, others may do whatever does not show. -/
inductive Visits (site : Installation) (userId : Int) :
    Database → Database → List (Reply × Reply) → Prop where
  | done (d d' : Database) : Visits site userId d d' []
  | own {d d' : Database} {replies : List (Reply × Reply)} (r : Visit) (nextId' : Int)
    (hown : OwnCredentials site.auth r.clock userId (credentials site.web r.scope.headers))
    (hother : (site.route r.toHttpRequest).map Prod.fst ≠ some .signIn)
    (hahead : Ahead r.clock r.nextId userId d) (hahead' : Ahead r.clock nextId' userId d')
    (hrest : Visits site userId (site.respond r.toHttpRequest d)
      (site.respond { r.toHttpRequest with nextId := nextId' } d') replies) :
    Visits site userId d d'
      ((site.reply r d, site.reply { r with nextId := nextId' } d') :: replies)
  | others {d d' e e' : Database} {replies : List (Reply × Reply)} (hseen : SeenAlike userId e e')
    (hrest : Visits site userId e e' replies) : Visits site userId d d' replies

/-! ## The shelf -/

section Shelf

variable {d d' : Database} {userId articleId nextId : Int} {clock : Nat}

/-- A reader has one bookmark of an article at most, so the order of the list leaves no ties. -/
theorem bookmarksOf_separates (t : BookmarkTable) (userId : Int) :
    Separates latestFirst (bookmarksOf t userId) := by
  intro a ha b hb he
  have hid : a.id = b.id := descOn_eq (compareLex_eq_eq.mp he).2
  exact eq_of_uniqueCol t.uniqueId (List.mem_filter.mp ha).1 (List.mem_filter.mp hb).1 rfl
    (congrArg some hid.symm)

/-- The list is what the shelf shows. -/
theorem listBookmarks_eq (d : Database) (userId : Int) (page perPage : Option Int) :
    listBookmarks d.bookmarks d.articles userId page perPage =
      .build (((publicPageParams page perPage).slice (shelf d userId)).map fun s =>
        ⟨s.articleId, toIstIso (naive s.createdAt), s.article⟩) (shelf d userId).length
        (publicPageParams page perPage) := by
  unfold listBookmarks listByUser shelf
  simp only [slice_map, List.map_map, List.length_map, orderBy_length]
  rfl

/-- Whoever has the article on the shelf has bookmarked it. -/
theorem on_shelf : (∃ b ∈ d.bookmarks.rows, b.userId = userId ∧ b.articleId = articleId) ↔
    ∃ s ∈ shelf d userId, s.articleId = articleId := by
  constructor
  · intro ⟨b, hb, hown, harticle⟩
    refine ⟨shelved d.articles b, List.mem_map_of_mem (mem_orderBy.mpr ?_), harticle⟩
    exact List.mem_filter.mpr ⟨hb, decide_eq_true hown⟩
  · intro ⟨s, hs, harticle⟩
    obtain ⟨b, hb, rfl⟩ := List.mem_map.mp hs
    obtain ⟨hmem, hown⟩ := List.mem_filter.mp (mem_orderBy.mp hb)
    exact ⟨b, hmem, of_decide_eq_true hown, harticle⟩

/-- A bookmark that is taken off its owner's shelf. -/
theorem shelf_delete {b : Bookmark} (hb : b ∈ d.bookmarks.rows) :
    shelf { d with bookmarks := d.bookmarks.delete b.id } b.userId =
      (shelf d b.userId).filter fun s => s.articleId ≠ b.articleId := by
  have hrows : bookmarksOf (d.bookmarks.delete b.id) b.userId =
      (bookmarksOf d.bookmarks b.userId).filter fun c => c.articleId ≠ b.articleId := by
    unfold bookmarksOf BookmarkTable.delete
    rw [List.filter_comm]
    refine List.filter_congr fun c hc => ?_
    obtain ⟨hmem, hown⟩ := List.mem_filter.mp hc
    refine decide_eq_decide.mpr (not_congr ⟨fun hid => ?_, fun harticle => ?_⟩)
    · rw [eq_of_uniqueCol d.bookmarks.uniqueId hmem hb rfl (congrArg some hid.symm)]
    · have hpair : b.pairCol = c.pairCol := by
        unfold Bookmark.pairCol
        rw [of_decide_eq_true hown, harticle]
      rw [eq_of_uniqueCol d.bookmarks.uniquePair hmem hb rfl hpair]
  unfold shelf
  rw [hrows, orderBy_filter (bookmarksOf_separates d.bookmarks b.userId), List.filter_map]
  rfl

/-- A bookmark that is put on it. -/
theorem shelf_insert {t : BookmarkTable} (hahead : Ahead clock nextId userId d)
    (hrows : t.rows = d.bookmarks.rows ++
      [⟨nextId, userId, articleId, timestamp3 (nowIst clock)⟩]) :
    shelf { d with bookmarks := t } userId =
      shelved d.articles ⟨nextId, userId, articleId, timestamp3 (nowIst clock)⟩ ::
        shelf d userId := by
  have hkept : bookmarksOf t userId = bookmarksOf d.bookmarks userId ++
      [⟨nextId, userId, articleId, timestamp3 (nowIst clock)⟩] := by
    unfold bookmarksOf
    rw [hrows, List.filter_append]
    simp
  -- the new bookmark is not older than any other, and its number breaks a tie
  have hfirst : ∀ b ∈ bookmarksOf d.bookmarks userId,
      latestFirst ⟨nextId, userId, articleId, timestamp3 (nowIst clock)⟩ b = .lt := by
    intro b hb
    obtain ⟨hmem, hown⟩ := List.mem_filter.mp hb
    have hstamp := hahead.stamps b hmem (of_decide_eq_true hown)
    have hid := hahead.numbers b hmem
    refine Ordering.then_eq_lt.mpr ?_
    by_cases hold : b.createdAt < timestamp3 (nowIst clock)
    · exact .inl (Int.compare_eq_lt.mpr hold)
    · have heq : b.createdAt = timestamp3 (nowIst clock) := by omega
      exact .inr ⟨Int.compare_eq_eq.mpr heq, Int.compare_eq_lt.mpr hid⟩
  unfold shelf
  rw [hkept, orderBy_concat (bookmarksOf_separates d.bookmarks userId) hfirst]
  rfl

end Shelf

/-! ## The caller -/

section Caller

variable {env : Auth.Env} {t t' : UserTable} {clock : Nat} {creds : Credentials} {userId : Int}

/-- A reader's own credentials are resolved from the reader's row. -/
theorem currentUser_own (hown : OwnCredentials env clock userId creds)
    (hrow : t.find userId = t'.find userId) :
    currentUser env t clock creds = currentUser env t' clock creds := by
  have hsession : ∀ token ∈ creds.token,
      Auth.sessionUser env t clock token = Auth.sessionUser env t' clock token := by
    intro token htoken
    unfold Auth.sessionUser
    cases hclaims : verifySessionToken env clock token with
    | none => rfl
    | some claims =>
      dsimp only
      cases hsub : parseInt claims.sub with
      | none => rfl
      | some i =>
        -- the token names the reader's own account, which is the same row in both databases
        obtain rfl := hown.session token htoken claims hclaims i hsub
        have hget : Auth.getById t i = Auth.getById t' i := by
          unfold Auth.getById
          rw [hrow]
        dsimp only
        rw [hget]
  have hkey : ¬ looksLikeApiKey creds.candidate = true := by
    rw [hown.noKey]
    exact Bool.false_ne_true
  unfold currentUser
  rw [if_neg hkey, if_neg hkey]
  cases htoken : creds.token with
  | none => rfl
  | some token =>
    dsimp only
    rw [hsession token htoken]

/-- The reader's credentials lead to the reader's account or to none. -/
theorem currentUser_own_id {u : User} {via : Auth.AuthVia}
    (hown : OwnCredentials env clock userId creds)
    (h : currentUser env t clock creds = .ok (some (u, via))) : u.id = userId := by
  rcases Auth.currentUser_some h with ⟨-, key, hkey, hlooks, -⟩ | ⟨-, token, htoken, hsession⟩
  · have hnone := hown.noKey
    rw [hkey, hlooks] at hnone
    cases hnone
  · obtain ⟨claims, hclaims, hsub, -, -⟩ := Auth.sessionUser_some hsession
    exact hown.session token htoken claims hclaims u.id hsub

variable {d d' : Database} {ctx : Context} {guard : Guard} {actor : User}

/-- The number a sequence would give makes no difference to a guard. -/
def Context.numbered (ctx : Context) (nextId : Int) : Context := { ctx with nextId := nextId }

theorem authorize_numbered (nextId : Int) :
    authorize (ctx.numbered nextId) guard d = authorize ctx guard d := rfl

/-- The guard lets the reader through in both databases, as the same account, or in neither, with
the same error. -/
theorem authorize_own (hown : OwnCredentials ctx.auth ctx.clock userId ctx.creds)
    (hseen : SeenAlike userId d d') : authorize ctx guard d = authorize ctx guard d' := by
  unfold authorize
  rw [currentUser_own hown hseen.account]

/-- Whoever a guard lets through is the reader. -/
theorem authorize_own_row (hown : OwnCredentials ctx.auth ctx.clock userId ctx.creds)
    (h : authorize ctx guard d = .ok actor) :
    actor.id = userId ∧ d.users.find userId = some actor := by
  have hfind := authorize_find h
  unfold authorize at h
  split at h
  next => cases h
  next found hfound =>
    have hcaller := Auth.guardCheck_ok (mapError_eq_ok.mp h)
    obtain ⟨⟨u, via⟩, rfl, rfl⟩ := Option.map_eq_some_iff.mp hcaller
    have hid := currentUser_own_id hown hfound
    rw [hid] at hfind
    exact ⟨hid, hfind⟩

/-- The console is closed to readers. -/
theorem console_refuses (hown : OwnCredentials ctx.auth ctx.clock userId ctx.creds)
    (hreader : ∀ row ∈ d.users.find userId, row.role = .user)
    (hguard : UserRole.user ∉ guardRoles guard) : ∃ e, authorize ctx guard d = .error e := by
  have hrole : ∀ u via, currentUser ctx.auth d.users ctx.clock ctx.creds = .ok (some (u, via)) →
      u.role ∉ guardRoles guard := by
    intro u via hcaller
    have hfind := UserTable.find_of_mem (Auth.currentUser_mem hcaller)
    rw [currentUser_own_id hown hcaller] at hfind
    rw [hreader u hfind]
    exact hguard
  obtain ⟨e, he, -⟩ := authorize_refuses ctx d guard [] hrole
  exact ⟨e, he⟩

end Caller

/-! ## Commits -/

section Commits

variable {d d' : Database} {userId articleId nextId nextId' : Int} {clock : Nat}

/-- A new bookmark is stored. -/
theorem commit_bookmark (hahead : Ahead clock nextId userId d) (huser : Int4 userId)
    (harticle : Int4 articleId)
    (hnone : ∀ b ∈ d.bookmarks.rows, ¬ (b.userId = userId ∧ b.articleId = articleId)) :
    ∃ t, commitBookmark d.bookmarks clock nextId (.insert userId articleId) = .ok t ∧
      t.rows = d.bookmarks.rows ++ [⟨nextId, userId, articleId, timestamp3 (nowIst clock)⟩] := by
  have hfits : ∀ b ∈ d.bookmarks.rows ++
      [⟨nextId, userId, articleId, timestamp3 (nowIst clock)⟩], b.Fits := by
    intro b hb
    rw [List.mem_append, List.mem_singleton] at hb
    rcases hb with hb | rfl
    · exact d.bookmarks.fits b hb
    · exact ⟨hahead.fits, huser, harticle, timestamp3_idem _⟩
  -- the number lies ahead of every row, and the pair is not there yet
  have hunique : UniqueCol Bookmark.idCol (d.bookmarks.rows ++
        [⟨nextId, userId, articleId, timestamp3 (nowIst clock)⟩]) ∧
      UniqueCol Bookmark.pairCol (d.bookmarks.rows ++
        [⟨nextId, userId, articleId, timestamp3 (nowIst clock)⟩]) := by
    constructor
    · refine uniqueCol_append d.bookmarks.uniqueId fun i hi b hb he => ?_
      have hold : b.id = i := Bookmark.idCol_eq_some.mp he
      have hnew : nextId = i := Bookmark.idCol_eq_some.mp hi
      have := hahead.numbers b hb
      omega
    · refine uniqueCol_append d.bookmarks.uniquePair fun pair hpair b hb he => hnone b hb ?_
      have hnew : (userId, articleId) = pair := Option.some.inj hpair
      rw [← hnew] at he
      exact Bookmark.pairCol_eq_some.mp he
  refine ⟨⟨_, hfits, hunique.1, hunique.2⟩, ?_, rfl⟩
  show BookmarkTable.write _ = _
  unfold BookmarkTable.write
  rw [dif_pos hfits, dif_pos hunique]

/-- The same decision of a toggle in both installations. The bookmarks it found may have
different numbers. -/
inductive TogglesAlike (userId articleId : Int) (d d' : Database) :
    BookmarkWrite → BookmarkWrite → Prop where
  | delete (b b' : Bookmark) (hb : b ∈ d.bookmarks.rows) (hb' : b' ∈ d'.bookmarks.rows)
    (hown : b.userId = userId ∧ b.articleId = articleId)
    (hown' : b'.userId = userId ∧ b'.articleId = articleId) :
    TogglesAlike userId articleId d d' (.delete b) (.delete b')
  | insert
    (hnone : ∀ b ∈ d.bookmarks.rows, ¬ (b.userId = userId ∧ b.articleId = articleId))
    (hnone' : ∀ b ∈ d'.bookmarks.rows, ¬ (b.userId = userId ∧ b.articleId = articleId)) :
    TogglesAlike userId articleId d d' (.insert userId articleId) (.insert userId articleId)

theorem toggle_insert_none {t : BookmarkTable}
    (h : lookup Bookmark.pairCol (userId, articleId) t.rows = none) :
    ∀ b ∈ t.rows, ¬ (b.userId = userId ∧ b.articleId = articleId) := by
  intro b hb hown
  exact lookup_eq_none_iff.mp h b hb (Bookmark.pairCol_eq_some.mpr hown)

/-- In both databases the toggle adds a bookmark, or in both it removes one of the same article. The
two rows may have different numbers. -/
theorem toggle_alike (hseen : SeenAlike userId d d') :
    TogglesAlike userId articleId d d' (toggle d.bookmarks userId articleId)
      (toggle d'.bookmarks userId articleId) := by
  have hboth : (∃ b ∈ d.bookmarks.rows, b.userId = userId ∧ b.articleId = articleId) ↔
      ∃ b ∈ d'.bookmarks.rows, b.userId = userId ∧ b.articleId = articleId := by
    rw [on_shelf, on_shelf, hseen.shelf]
  unfold toggle
  cases hfound : lookup Bookmark.pairCol (userId, articleId) d.bookmarks.rows with
  | none =>
    have hnone := toggle_insert_none hfound
    cases hfound' : lookup Bookmark.pairCol (userId, articleId) d'.bookmarks.rows with
    | none => exact .insert hnone (toggle_insert_none hfound')
    | some b' =>
      obtain ⟨hmem', hpair'⟩ := mem_of_lookup hfound'
      obtain ⟨b, hb, hown⟩ := hboth.mpr ⟨b', hmem', Bookmark.pairCol_eq_some.mp hpair'⟩
      exact absurd hown (hnone b hb)
  | some b =>
    obtain ⟨hmem, hpair⟩ := mem_of_lookup hfound
    cases hfound' : lookup Bookmark.pairCol (userId, articleId) d'.bookmarks.rows with
    | none =>
      obtain ⟨b', hb', hown'⟩ := hboth.mp ⟨b, hmem, Bookmark.pairCol_eq_some.mp hpair⟩
      exact absurd hown' (toggle_insert_none hfound' b' hb')
    | some b' =>
      obtain ⟨hmem', hpair'⟩ := mem_of_lookup hfound'
      exact .delete b b' hmem hmem' (Bookmark.pairCol_eq_some.mp hpair)
        (Bookmark.pairCol_eq_some.mp hpair')

/-- The bookmarks may be exchanged as long as the reader's shelf is the same. -/
theorem seen_bookmarks (hseen : SeenAlike userId d d') {t t' : BookmarkTable}
    (h : shelf { d with bookmarks := t } userId = shelf { d' with bookmarks := t' } userId) :
    SeenAlike userId { d with bookmarks := t } { d' with bookmarks := t' } :=
  ⟨hseen.published, hseen.account, hseen.reader, h⟩

/-- The commit of a toggle changes the two shelves alike. -/
theorem flush_toggle_alike (hseen : SeenAlike userId d d')
    (hahead : Ahead clock nextId userId d) (hahead' : Ahead clock nextId' userId d')
    (huser : Int4 userId) (harticle : Int4 articleId)
    (hfind : d.articles.find articleId = d'.articles.find articleId) {write write' : BookmarkWrite}
    (h : TogglesAlike userId articleId d d' write write') :
    Agrees (SeenAlike userId) (flush clock nextId d (.bookmark write))
      (flush clock nextId' d' (.bookmark write')) := by
  cases h with
  | delete b b' hb hb' hown hown' =>
    refine .ok (seen_bookmarks hseen ?_)
    have hshelf := shelf_delete hb
    have hshelf' := shelf_delete hb'
    rw [hown.1, hown.2] at hshelf
    rw [hown'.1, hown'.2] at hshelf'
    rw [hshelf, hshelf', hseen.shelf]
  | insert hnone hnone' =>
    obtain ⟨t, hcommit, hrows⟩ := commit_bookmark hahead huser harticle hnone
    obtain ⟨t', hcommit', hrows'⟩ := commit_bookmark hahead' huser harticle hnone'
    simp only [flush, hcommit, hcommit']
    refine .ok (seen_bookmarks hseen ?_)
    rw [shelf_insert hahead hrows, shelf_insert hahead' hrows', hseen.shelf]
    unfold shelved
    rw [hfind]

/-- A logout commits. -/
theorem commit_logout {t : UserTable} {u : User} (hu : u ∈ t.rows) (clock : Nat) (nextId : Int) :
    ∃ t', Auth.commitWrite t (.update u (Auth.invalidateSessions u clock)) nextId =
      .ok (t', some u.id) := by
  have hfits : (User.flush u (Auth.invalidateSessions u clock) u).Fits := by
    have hold := t.fits u hu
    unfold User.Fits User.texts at hold ⊢
    simpa only [User.flush, Auth.invalidateSessions, flushCol_clean, flushColWith_clean] using hold
  obtain ⟨t', hcommit⟩ := Auth.commitRow_current (Auth.invalidateSessions u clock) nextId hu hfits
    rfl (fun v hv hid _ hg => UserTable.other_ne t.keyed.googleId hu hv hid hg)
    fun v hv hid _ hp => UserTable.other_ne t.keyed.apiKeyPrefix hu hv hid hp
  exact ⟨t', Auth.commitWrite_update.mpr ⟨hcommit, rfl⟩⟩

/-- The commit of a logout changes the two accounts alike. -/
theorem flush_logout_alike {u : User} (hseen : SeenAlike userId d d') (hid : u.id = userId)
    (hfind : d.users.find userId = some u) :
    Agrees (SeenAlike userId)
      (flush clock nextId d (.user (.update u (Auth.invalidateSessions u clock))))
      (flush clock nextId' d' (.user (.update u (Auth.invalidateSessions u clock)))) := by
  have hfind' := hseen.account.symm.trans hfind
  obtain ⟨t, hcommit⟩ := commit_logout (UserTable.find_eq_some.mp hfind).1 clock nextId
  obtain ⟨t', hcommit'⟩ := commit_logout (UserTable.find_eq_some.mp hfind').1 clock nextId'
  have hrow := Auth.commitWrite_find hcommit userId
  have hrow' := Auth.commitWrite_find hcommit' userId
  rw [hfind, Auth.Write.onRow, if_pos hid.symm, Option.map_some] at hrow
  rw [hfind', Auth.Write.onRow, if_pos hid.symm, Option.map_some] at hrow'
  simp only [flush, hcommit, hcommit']
  refine .ok ⟨hseen.published, hrow.trans hrow'.symm, ?_, hseen.shelf⟩
  intro row hmem
  obtain rfl := Option.some.inj (hrow.symm.trans hmem)
  show flushCol u.role u.role u.role = .user
  rw [flushCol_clean]
  exact hseen.reader u hfind

end Commits

/-! ## Requests -/

section Requests

variable {d d' : Database} {userId : Int} {ctx : Context} {guard : Guard} {nextId' : Int}

/-- What the console answers a reader is the same refusal. -/
theorem alike_refused {f g : User → Handler Answer}
    (hown : OwnCredentials ctx.auth ctx.clock userId ctx.creds) (hseen : SeenAlike userId d d')
    (hguard : UserRole.user ∉ guardRoles guard) (faults : List (Option Failure)) :
    Alike (SeenAlike userId) (authed ctx guard >>= f) (authed (ctx.numbered nextId') guard >>= g)
      (.begin d faults) (.begin d' faults) := by
  obtain ⟨e, he⟩ := console_refuses hown hseen.reader hguard
  have he' := (authorize_own hown hseen).symm.trans he
  refine alike_read (Q := fun _ _ => False) rfl hseen ?_ fun _ _ _ hfalse => hfalse.elim
  show Agrees _ (authorize ctx guard d) (authorize ctx guard d')
  rw [he, he']
  exact .error e

/-- A reader is let through in both installations or in neither. -/
theorem authorize_agrees (guard : Guard) (hown : OwnCredentials ctx.auth ctx.clock userId ctx.creds)
    (hseen : SeenAlike userId d d') :
    Agrees (fun u v => u = v ∧ u.id = userId ∧ d.users.find userId = some u)
      (authorize ctx guard d) (authorize ctx guard d') := by
  exact agrees_of_eq (authorize_own hown hseen) fun u hu => ⟨rfl, authorize_own_row hown hu⟩

/-- The article of a toggle is the same in both installations. -/
theorem findPublished_agrees (hseen : SeenAlike userId d d') (slug : Text) :
    Agrees (fun x y => x = y ∧ ∀ a ∈ x, Int4 a.id ∧ d.articles.find a.id = some a ∧
        d'.articles.find a.id = some a)
      ((findPublishedBySlug d.articles slug).mapError Failure.raised)
      ((findPublishedBySlug d'.articles slug).mapError Failure.raised) := by
  refine .mapError _ (agrees_of_eq (findPublishedBySlug_congr hseen.published slug) ?_)
  intro found hfound
  refine ⟨rfl, fun a ha => ?_⟩
  obtain rfl : found = some a := ha
  have hfound' := (findPublishedBySlug_congr hseen.published slug).symm.trans hfound
  have hmem := (findPublishedBySlug_ok hfound).1
  exact ⟨(d.articles.fits a hmem).1, ArticleTable.find_eq_some.mpr ⟨hmem, rfl⟩,
    ArticleTable.find_eq_some.mpr ⟨(findPublishedBySlug_ok hfound').1, rfl⟩⟩

/-- The toggle answers alike on both sides and leaves them alike. -/
theorem toggleBookmark_alike (hown : OwnCredentials ctx.auth ctx.clock userId ctx.creds)
    (hseen : SeenAlike userId d d') (hahead : Ahead ctx.clock ctx.nextId userId d)
    (hahead' : Ahead ctx.clock nextId' userId d') (slug : Text) (faults : List (Option Failure)) :
    Alike (SeenAlike userId) (toggleBookmark ctx slug) (toggleBookmark (ctx.numbered nextId') slug)
      (.begin d faults) (.begin d' faults) := by
  refine alike_read rfl hseen (authorize_agrees .auth hown hseen) fun u v rest hu => ?_
  obtain ⟨rfl, rfl, hfind⟩ := hu
  refine alike_read rfl hseen (findPublished_agrees hseen slug) fun found found' rest hfound => ?_
  obtain ⟨rfl, harticle⟩ := hfound
  cases found with
  | none => exact alike_raise _ hseen
  | some article =>
    obtain ⟨hfits, harticle, harticle'⟩ := harticle article rfl
    have huser := (d.users.fits u (UserTable.find_eq_some.mp hfind).1).1
    refine alike_read (Q := TogglesAlike u.id article.id d d') rfl hseen
      (.ok (toggle_alike hseen)) fun write write' rest htoggle => ?_
    have hflush := flush_toggle_alike hseen hahead hahead' huser hfits
      (harticle.trans harticle'.symm) htoggle
    have hanswer : write.bookmarked = write'.bookmarked := by
      cases htoggle <;> rfl
    refine alike_save rfl hseen rfl rfl hflush fun t t' rest hafter => ?_
    rw [hanswer]
    exact alike_pure _ hafter

/-- Signing out writes one column of the reader's own row, on both sides the same. -/
theorem logout_alike (hown : OwnCredentials ctx.auth ctx.clock userId ctx.creds)
    (hseen : SeenAlike userId d d') (faults : List (Option Failure)) :
    Alike (SeenAlike userId) (logout ctx) (logout (ctx.numbered nextId')) (.begin d faults)
      (.begin d' faults) := by
  refine alike_read rfl hseen (authorize_agrees .auth hown hseen) fun u v rest hu => ?_
  obtain ⟨rfl, hid, hfind⟩ := hu
  exact alike_save rfl hseen rfl rfl (flush_logout_alike hseen hid hfind)
    fun t t' rest hafter => alike_pure _ hafter

/-- **One request of a reader that writes**, or would like to. -/
theorem handleWrite_alike (hown : OwnCredentials ctx.auth ctx.clock userId ctx.creds)
    (hseen : SeenAlike userId d d') (hahead : Ahead ctx.clock ctx.nextId userId d)
    (hahead' : Ahead ctx.clock nextId' userId d') {request : WriteRequest}
    (hother : endpointOf request ≠ .signIn) (faults : List (Option Failure)) :
    Alike (SeenAlike userId) (handleWrite ctx request)
      (handleWrite (ctx.numbered nextId') request) (.begin d faults) (.begin d' faults) := by
  by_cases hconsole : ∃ guard, endpointGuard (endpointOf request) = some guard ∧
      UserRole.user ∉ guardRoles guard
  · obtain ⟨guard, hguard, hroles⟩ := hconsole
    obtain ⟨f, hf⟩ := handleWrite_guarded ctx hguard
    obtain ⟨g, hg⟩ := handleWrite_guarded (ctx.numbered nextId') hguard
    rw [hf, hg]
    exact alike_refused hown hseen hroles faults
  · cases request with
    | toggleBookmark slug => exact toggleBookmark_alike hown hseen hahead hahead' slug faults
    | logout => exact logout_alike hown hseen faults
    | signIn verified => exact absurd rfl hother
    | post request => cases request <;> exact absurd ⟨_, rfl, by decide⟩ hconsole
    | _ => exact absurd ⟨_, rfl, by decide⟩ hconsole

/-- **One request of a reader that reads**, or would like to. -/
theorem answerRead_alike (hown : OwnCredentials ctx.auth ctx.clock userId ctx.creds)
    (hseen : SeenAlike userId d d') (env : ReadEnv) (request : ReadRequest env.decimals) :
    answerRead env ctx d request = answerRead env (ctx.numbered nextId') d' request := by
  by_cases hconsole : ∃ guard, endpointGuard request.endpoint = some guard ∧
      UserRole.user ∉ guardRoles guard
  -- a console read: the reader is refused on both sides, with the same error
  · obtain ⟨guard, hguard, hroles⟩ := hconsole
    obtain ⟨f, hf⟩ := answerRead_guarded ctx d hguard
    obtain ⟨g, hg⟩ := answerRead_guarded (ctx.numbered nextId') d' hguard
    obtain ⟨e, he⟩ := console_refuses hown hseen.reader hroles
    have he' := (authorize_own hown hseen).symm.trans he
    rw [hf, hg]
    unfold guarded
    rw [authorize_numbered, he, he']
    rfl
  -- the other reads show the reader's own rows and what is published
  · cases request with
    | listProviders => rfl
    | readMe =>
      have hcaller := currentUser_own hown hseen.account
      simp only [answerRead, Context.numbered, hcaller]
    | listBookmarks page perPage =>
      have hguard := authorize_agrees .auth hown hseen
      refine Agrees.eq (hguard.mapError ReadFailure.failed |>.bind fun u v hu => ?_)
      obtain ⟨rfl, rfl, -⟩ := hu
      dsimp only
      rw [listBookmarks_eq, listBookmarks_eq, hseen.shelf]
      exact .ok rfl
    | publicRouter request =>
      simp only [answerRead, respond, Context.numbered, handle_eq hseen.published]
    | _ => exact absurd ⟨_, rfl, by decide⟩ hconsole

end Requests

/-! ## Visits -/

section Visits

variable {site : Installation} {d d' : Database} {userId nextId' : Int} {r : Visit}

/-- The reader's own credentials, at the context a request gets. -/
abbrev OwnVisit (site : Installation) (userId : Int) (r : Visit) : Prop :=
  OwnCredentials site.auth r.clock userId (credentials site.web r.scope.headers)

/-- A request that does not validate is answered by the guard or by the 422, and in either case
alike. -/
theorem invalidReply_alike {ctx : Context}
    (hown : OwnCredentials ctx.auth ctx.clock userId ctx.creds) (hseen : SeenAlike userId d d')
    (endpoint : Endpoint) :
    invalidReply ctx d endpoint = invalidReply (ctx.numbered nextId') d' endpoint := by
  unfold invalidReply
  cases endpointGuard endpoint with
  | none => rfl
  | some guard =>
    dsimp only
    rw [authorize_numbered, authorize_own hown hseen]

/-- A write of the reader's own, through the decoder. -/
theorem visit_wrote (hown : OwnVisit site userId r) (hseen : SeenAlike userId d d')
    (hother : (site.route r.toHttpRequest).map Prod.fst ≠ some .signIn)
    (hahead : Ahead r.clock r.nextId userId d) (hahead' : Ahead r.clock nextId' userId d')
    {endpoint : Endpoint} {params : Params} {request : WriteRequest}
    (hroute : site.route r.toHttpRequest = some (endpoint, params))
    (hdecode : site.decoder.decode endpoint params r.body = some request) :
    Alike (SeenAlike userId) (handleWrite (site.context r.toHttpRequest) request)
      (handleWrite ((site.context r.toHttpRequest).numbered nextId') request)
      (.begin d (r.faults.map (Option.map Failure.raised)))
      (.begin d' (r.faults.map (Option.map Failure.raised))) := by
  refine handleWrite_alike hown hseen hahead hahead' (fun hsignIn => hother ?_) _
  rw [hroute, Option.map_some, ← site.decoder.sound hdecode, hsignIn]

theorem reply_alike (hown : OwnVisit site userId r) (hseen : SeenAlike userId d d')
    (hother : (site.route r.toHttpRequest).map Prod.fst ≠ some .signIn)
    (hahead : Ahead r.clock r.nextId userId d) (hahead' : Ahead r.clock nextId' userId d') :
    site.reply r d = site.reply { r with nextId := nextId' } d' := by
  -- neither the routing nor the decoding of the form knows the next number
  have hroute' : site.route { r.toHttpRequest with nextId := nextId' } =
    site.route r.toHttpRequest := rfl
  have hcontext : site.context { r.toHttpRequest with nextId := nextId' } =
    (site.context r.toHttpRequest).numbered nextId' := rfl
  have hunread : ∀ endpoint, site.unread endpoint { r.toHttpRequest with nextId := nextId' } =
    site.unread endpoint r.toHttpRequest := fun _ => rfl
  unfold Installation.reply
  split
  next =>
    dsimp only
    rw [hroute', hcontext]
    cases hroute : site.route r.toHttpRequest with
    | none => rfl
    -- from here the two visits branch alike: the endpoint, the form and the query are the same
    | some found =>
      obtain ⟨endpoint, params⟩ := found
      dsimp only
      split
      next => rfl
      next =>
        split
        next =>
          rw [hunread]
          cases site.unread endpoint r.toHttpRequest with
          | some error => rfl
          | none =>
            dsimp only
            cases hdecode : site.decoder.decode endpoint params r.body with
            | none => exact invalidReply_alike hown hseen endpoint
            | some request =>
              exact congrArg Reply.wrote
                (visit_wrote hown hseen hother hahead hahead' hroute hdecode).answer
        next =>
          cases site.readDecoder.decode endpoint params r.query with
          | none => exact invalidReply_alike hown hseen endpoint
          | some request =>
            exact congrArg Reply.read (answerRead_alike hown hseen site.reads request)
  next => rfl

theorem respond_alike (hown : OwnVisit site userId r) (hseen : SeenAlike userId d d')
    (hother : (site.route r.toHttpRequest).map Prod.fst ≠ some .signIn)
    (hahead : Ahead r.clock r.nextId userId d) (hahead' : Ahead r.clock nextId' userId d') :
    SeenAlike userId (site.respond r.toHttpRequest d)
      (site.respond { r.toHttpRequest with nextId := nextId' } d') := by
  have hroute' : site.route { r.toHttpRequest with nextId := nextId' } =
    site.route r.toHttpRequest := rfl
  have hunread : ∀ endpoint, site.unread endpoint { r.toHttpRequest with nextId := nextId' } =
    site.unread endpoint r.toHttpRequest := fun _ => rfl
  unfold HttpSite.respond
  split
  next =>
    rw [hroute']
    cases hroute : site.route r.toHttpRequest with
    | none => exact hseen
    | some found =>
      obtain ⟨endpoint, params⟩ := found
      dsimp only
      rw [hunread]
      cases site.unread endpoint r.toHttpRequest with
      | some error => exact hseen
      | none =>
        dsimp only
        cases hdecode : site.decoder.decode endpoint params r.body with
        | none => exact hseen
        | some request =>
          exact (visit_wrote hown hseen hother hahead hahead' hroute hdecode).stored
  next => exact hseen

/-- **A reader learns nothing else.** Whatever requests a reader sends, with whatever the
others do in between, the answers are a function of the published articles, the reader's own
account and the reader's own bookmarks. -/
theorem reader_noninterference (hseen : SeenAlike userId d d') {replies : List (Reply × Reply)}
    (h : Visits site userId d d' replies) : ∀ pair ∈ replies, pair.1 = pair.2 := by
  induction h with
  | done d d' =>
    intro pair hpair
    cases hpair
  | own r nextId' hown hother hahead hahead' hrest ih =>
    intro pair hpair
    rcases List.mem_cons.mp hpair with rfl | hlater
    · exact reply_alike hown hseen hother hahead hahead'
    · exact ih (respond_alike hown hseen hother hahead hahead') pair hlater
  | others hafter hrest ih => exact ih hafter

end Visits

/-! ## A reader of two libraries -/

/-- The same, behind an admin who keeps drafts and a bookmark. -/
def busyLibrary : Database :=
  ⟨⟨[Auth.sampleUser 1 .admin, Auth.sampleUser 7 .user], by decide, by decide⟩,
    busySite.articles, ⟨[⟨5, 1, 3, 0⟩], by decide, by decide, by decide⟩, busySite.webUrls⟩

/-- The second library has an admin with a bookmark, and articles that are not public. Reader 7 sees
the same in both. -/
theorem libraries_seen_alike : SeenAlike 7 quietLibrary busyLibrary where
  published a := (samples_same_published a).symm
  account := by decide
  reader := by decide
  shelf := by decide

theorem readerVisit_own (method path : String) (nextId : Int) :
    OwnVisit readerSite 7 (readerVisit method path nextId) := by
  have hcreds : credentials readerSite.web
      [("authorization".toList, "Bearer 0.9.1.7".toList)] =
        ⟨none, some "0.9.1.7".toList, none⟩ := by decide
  have hsession : (verifySessionToken readerSite.auth 1 "0.9.1.7".toList).all
      (fun claims => (parseInt claims.sub).all fun i => i = 7) = true := by decide
  show OwnCredentials readerSite.auth 1 7 (credentials readerSite.web
    [("authorization".toList, "Bearer 0.9.1.7".toList)])
  rw [hcreds]
  refine ⟨by decide, fun token htoken claims hclaims i hi => ?_⟩
  have hsent : "0.9.1.7".toList = token := Option.some.inj htoken
  rw [← hsent] at hclaims
  rw [hclaims] at hsession
  have hsub : (parseInt claims.sub).all (fun i => i = 7) = true := hsession
  rw [hi] at hsub
  exact of_decide_eq_true hsub

/-- The reader toggles a bookmark. -/
def readerToggle (nextId : Int) : Visit :=
  readerVisit "POST" "/v1/account/bookmarks/toggle" nextId

/-- The reader looks at the list. -/
def readerList (nextId : Int) : Visit := readerVisit "GET" "/v1/account/bookmarks" nextId

/-- A toggle and the list after it, on either side. -/
theorem libraries_answer_alike :
    readerSite.reply (readerToggle 1) quietLibrary =
        readerSite.reply (readerToggle 6) busyLibrary ∧
      readerSite.reply (readerList 2)
          (readerSite.respond (readerToggle 1).toHttpRequest quietLibrary) =
        readerSite.reply (readerList 7)
          (readerSite.respond (readerToggle 6).toHttpRequest busyLibrary) := by
  have halike := reader_noninterference libraries_seen_alike
    (.own (readerToggle 1) 6 (readerVisit_own _ _ _) (by decide) (by decide) (by decide)
      (.own (readerList 2) 7 (readerVisit_own _ _ _) (by decide) (by decide +kernel)
        (by decide +kernel) (.done _ _)))
  have hlast := halike _ (List.mem_cons_of_mem _ (List.mem_cons_self ..))
  exact ⟨halike _ (List.mem_cons_self ..), hlast⟩

end SarkariWorld.Site
