import SarkariWorld.Migrations.FirstRun

/-!
# Running the chain again

0007 keeps an account that has a bookmark, and 0008 deletes a bookmark whose article is
gone. An account all of whose bookmarks go that way is deleted by the next run: the
chain is a no-op on its own result if every account that 0007 keeps for its bookmarks
has one that 0008 keeps (`chain_again`).

The files look at the tables one after the other, and 0007 at bookmarks that 0008 has yet
to judge. The second run of 0007 sees the result of both. What it deletes is expressed in
terms of the database before the first run, through the columns the chain leaves alone
there (`Untouched`).
-/

namespace SarkariWorld.Migrations

open SarkariWorld.Lib SarkariWorld.Lib.Sql Statement Database

variable {db : Database Cell} {n : Name} {columns : List Name}

/-! ## What the last two files find -/

/-- What 0007 reads of an account. -/
def userColumns : List Name :=
  ["id", "role", "auth_provider", "google_id", "last_login_at", "api_key_hash"]

/-- What 0007 and 0008 read of an article. -/
def articleColumns : List Name := ["id", "author_id"]

/-- What they read of a bookmark. -/
def bookmarkColumns : List Name := ["user_id", "article_id"]

/-- The columns of an article that the first seven files write. -/
def writtenColumns : List Name :=
  ["instagram_post_url", "cover_image_url", "cover_instagram_url", "article_status", "category"]

/-- Values that none of the first seven files changes. -/
structure Untouched (n : Name) (columns : List Name) : Prop where
  written : n = "Article" → ∀ c ∈ writtenColumns, c ∉ columns
  dropped : ∀ c ∈ columns, (n, c) ∉ droppedColumns
  table : n ∉ removedTables

/-- What the two read is untouched by the seven files before them. -/
theorem view_stage (h : Untouched n columns) :
    (stage 7 db).view n columns = db.view n columns := by
  have hwritten : ∀ c ∈ writtenColumns, n = "Article" → c ∉ columns :=
    fun c hc hn => h.written hn c hc
  have hfiles : ∀ s ∈ migrations.take 7, Leaves s fun db => db.view n columns := by
    simp only [migrations, List.take_succ_cons, List.take_zero, List.forall_mem_cons]
    exact ⟨view_preserveInstagramTags fun hn =>
      ⟨h.written hn _ (by decide), h.written hn _ (by decide)⟩,
      fun _ => rfl, view_addHashedApiKeyColumns,
      view_renameCoverImageUrl fun hn => ⟨h.written hn _ (by decide), h.written hn _ (by decide)⟩,
      view_removeSavedArticleStatus (hwritten _ (by decide)),
      view_alignToTrimmedSchema (hwritten _ (by decide)) h.dropped h.table,
      view_clearNonImageCoverUrls (hwritten _ (by decide)), fun _ hs => absurd hs List.not_mem_nil⟩
  exact block_frame hfiles db

theorem view_stage_user : (stage 7 db).view "User" userColumns = db.view "User" userColumns :=
  view_stage ⟨fun hn => absurd hn (by decide), by decide, by decide⟩

theorem view_stage_article :
    (stage 7 db).view "Article" articleColumns = db.view "Article" articleColumns :=
  view_stage ⟨fun _ => by decide, by decide, by decide⟩

theorem view_stage_bookmark :
    (stage 7 db).view "Bookmark" bookmarkColumns = db.view "Bookmark" bookmarkColumns :=
  view_stage ⟨fun hn => absurd hn (by decide), by decide, by decide⟩

/-! ## The accounts, as far as some columns go -/

section Congr

variable {db' : Database Cell}

theorem authorIds_congr (h : db.view "Article" articleColumns = db'.view "Article" articleColumns) :
    authorIds db = authorIds db' := by
  have hview : ∀ d : Database Cell, authorIds d =
      ((d.view "Article" articleColumns).map fun r =>
        textOf (r "author_id")).filter Option.isSome := by
    intro d
    rw [Database.view, List.map_map]
    rfl
  rw [hview, hview, h]

theorem bookmarkUserIds_congr
    (h : db.view "Bookmark" bookmarkColumns = db'.view "Bookmark" bookmarkColumns) :
    bookmarkUserIds db = bookmarkUserIds db' := by
  have hview : ∀ d : Database Cell, bookmarkUserIds d =
      (d.view "Bookmark" bookmarkColumns).map fun r => intOf (r "user_id") := by
    intro d
    rw [Database.view, List.map_map]
    rfl
  rw [hview, hview, h]

/-- Whether an account is inert depends on its row and on the articles. -/
theorem isInert_congr (h : db.view "Article" articleColumns = db'.view "Article" articleColumns)
    (r : Row Cell) : isInert db r = isInert db' r := by
  rw [isInert, isInert, authorIds_congr h]

/-- Whether it is deleted depends on the bookmarks as well. -/
theorem isSubscription_congr
    (harticle : db.view "Article" articleColumns = db'.view "Article" articleColumns)
    (hbookmark : db.view "Bookmark" bookmarkColumns = db'.view "Bookmark" bookmarkColumns)
    (r : Row Cell) : isSubscription db r = isSubscription db' r := by
  rw [isSubscription, isSubscription, isInert_congr harticle, bookmarkUserIds_congr hbookmark]

theorem isSubscription_restrict (r : Row Cell) :
    isSubscription db (restrict userColumns r) = isSubscription db r := rfl

end Congr

/-! ## What the first run leaves -/

theorem view_chain_article :
    (chain.effect db).view "Article" articleColumns = db.view "Article" articleColumns := by
  have hrows : (stage (7 + 2) db).rows "Article" = (stage 7 db).rows "Article" := by
    rw [stage_add]
    exact block_frame rows_lastTwo (stage 7 db)
  have hview : (stage (7 + 2) db).view "Article" articleColumns =
      (stage 7 db).view "Article" articleColumns :=
    congrArg (List.map (restrict articleColumns)) hrows
  exact hview.trans view_stage_article

/-- The accounts 0007 keeps. -/
theorem view_chain_user : (chain.effect db).view "User" userColumns =
    (db.view "User" userColumns).filter fun r => !isSubscription db r := by
  have hlast : (stage (8 + 1) db).view "User" userColumns =
      (stage 8 db).view "User" userColumns := by
    rw [stage_succ 8 (by decide)]
    have hdelete : Leaves deleteOrphans fun db => db.view "User" userColumns := fun d =>
      congrArg (List.map (restrict userColumns)) ((rows_deleteOrphans d).trans (if_neg (by decide)))
    exact (hdelete _).trans (view_clearSecrets (by decide) (stage 8 db))
  have hkept : (stage 8 db).rows "User" =
      ((stage 7 db).rows "User").filter fun r => !isSubscription (stage 7 db) r := by
    rw [stage_succ 7 (by decide)]
    exact (rows_setDefault _).trans ((rows_delete (stage 7 db)).trans (if_pos rfl))
  have hfound : (stage 7 db).view "User" userColumns = db.view "User" userColumns := view_stage_user
  refine hlast.trans ?_
  rw [← hfound, Database.view, Database.view, List.filter_map, hkept]
  refine congrArg (List.map (restrict userColumns)) (List.filter_congr fun r _ => ?_)
  rw [Function.comp_apply, isSubscription_restrict,
    isSubscription_congr view_stage_article view_stage_bookmark]

/-- So an article is there after it if it was there before. -/
theorem hasId_chain_article (id : Option Int) :
    hasId (chain.effect db) "Article" id = hasId db "Article" id := by
  have hview : ∀ d : Database Cell, hasId d "Article" id =
      (d.view "Article" articleColumns).any fun r =>
        (intOf (r "id")).isSome && intOf (r "id") == id := by
    intro d
    rw [Database.view, List.any_map]
    rfl
  rw [hview, hview, view_chain_article]

/-- The bookmarks 0008 keeps. -/
theorem view_chain_bookmark : (chain.effect db).view "Bookmark" bookmarkColumns =
    (db.view "Bookmark" bookmarkColumns).filter fun b => !isOrphan (chain.effect db) b := by
  -- the second statement of 0008 changes no table that its own test reads
  have hids : ∀ name, name ≠ "Bookmark" → (stage (8 + 1) db).view name ["id"] =
      (clearSecrets.effect (stage 8 db)).view name ["id"] := by
    intro name hname
    rw [stage_succ 8 (by decide)]
    exact congrArg (List.map (restrict ["id"]))
      ((rows_deleteOrphans (clearSecrets.effect (stage 8 db))).trans (if_neg hname))
  have hlast : (stage (8 + 1) db).rows "Bookmark" = ((stage 7 db).rows "Bookmark").filter
      fun b => !isOrphan (stage (8 + 1) db) b := by
    have hsecond : (stage 8 db).rows "Bookmark" = (stage 7 db).rows "Bookmark" := by
      rw [stage_succ 7 (by decide)]
      exact rows_removeSubscriptionAccounts (by decide) (stage 7 db)
    have horphan : ∀ b, isOrphan (stage (8 + 1) db) b =
        isOrphan (clearSecrets.effect (stage 8 db)) b :=
      isOrphan_congr (hids _ (by decide)) (hids _ (by decide))
    simp only [horphan]
    have hsecrets : (clearSecrets.effect (stage 8 db)).rows "Bookmark" =
        (stage 8 db).rows "Bookmark" := rows_clearSecrets (by decide)
    rw [stage_succ 8 (by decide), ← hsecond, ← hsecrets]
    exact (rows_deleteOrphans (clearSecrets.effect (stage 8 db))).trans (if_pos rfl)
  have hfound : (stage 7 db).view "Bookmark" bookmarkColumns = db.view "Bookmark" bookmarkColumns :=
    view_stage_bookmark
  show (stage (8 + 1) db).view "Bookmark" bookmarkColumns =
    (db.view "Bookmark" bookmarkColumns).filter fun b => !isOrphan (stage (8 + 1) db) b
  rw [← hfound, Database.view, Database.view, List.filter_map, hlast]
  rfl

/-! ## The accounts that are kept for a bookmark -/

/-- The account has a bookmark, of whatever article. -/
def hasBookmark (db : Database Cell) (u : Row Cell) : Bool :=
  (db.rows "Bookmark").any fun b => intOf (b "user_id") == intOf (u "id")

/-- One of the account's bookmarks is on an article that exists. -/
def hasLiveBookmark (db : Database Cell) (u : Row Cell) : Bool :=
  (db.rows "Bookmark").any fun b =>
    intOf (b "user_id") == intOf (u "id") && hasId db "Article" (intOf (b "article_id"))

/-- The test of 0007, where neither of its columns has nulls. -/
theorem notIn_bookmarks {u : Row Cell} (hid : (intOf (u "id")).isSome = true)
    (hids : ∀ b ∈ db.rows "Bookmark", (intOf (b "user_id")).isSome = true) :
    notIn (intOf (u "id")) (bookmarkUserIds db) = !hasBookmark db u := by
  rw [Bool.eq_iff_iff, Bool.not_eq_true', hasBookmark, List.any_eq_false, notIn, bookmarkUserIds,
    List.all_map, List.all_eq_true]
  refine forall₂_congr fun b hb => ?_
  rw [Function.comp_apply, hid, hids b hb, Bool.and_true, Bool.true_and, bne_iff_ne, ne_comm,
    beq_iff_eq]

/-- The accounts of the second run are those 0007 keeps. -/
theorem forall_chain_user {P : Row Cell → Prop} (hP : ∀ u, P (restrict userColumns u) ↔ P u) :
    (∀ u ∈ (chain.effect db).rows "User", P u) ↔
      ∀ u ∈ db.rows "User", isSubscription db u = false → P u := by
  rw [← forall_view hP, view_chain_user]
  have hkept : ∀ u, (isSubscription db (restrict userColumns u) = false →
    P (restrict userColumns u)) ↔
      (isSubscription db u = false → P u) := fun u => imp_congr Iff.rfl (hP u)
  rw [← forall_view hkept]
  simp only [List.mem_filter, Bool.not_eq_true', and_imp]

/-- The deletion is a no-op exactly if no account is to be deleted. -/
theorem removeAccounts_eq_self : removeAccounts db = db ↔
    ∀ u ∈ db.rows "User", isSubscription db u = false := by
  constructor
  · intro hsame
    have hrows : (removeAccounts db).rows "User" = _ := rows_removeAccounts "User"
    rw [hsame, if_pos rfl] at hrows
    have hkept := List.filter_eq_self.mp hrows.symm
    exact fun u hu => by simpa using hkept u hu
  · intro hnone
    refine onTable_unchanged fun t ht => ?_
    have hrows : t.rows = db.rows "User" := by rw [Database.rows, ht]; rfl
    have hall : (t.rows.filter fun r => !isSubscription db r) = t.rows := by
      rw [hrows]
      exact List.filter_eq_self.mpr fun u hu => by rw [hnone u hu]; rfl
    rw [hall]

section Again

variable (h : NodeEra db)
include h

theorem chain_userIds : ∀ u ∈ (chain.effect db).rows "User", (intOf (u "id")).isSome = true := by
  rw [forall_chain_user fun _ => Iff.rfl]
  exact fun u hu _ => h.userIds u hu

theorem chain_bookmarkUsers :
    ∀ b ∈ (chain.effect db).rows "Bookmark", (intOf (b "user_id")).isSome = true := by
  have hids : ∀ b ∈ db.view "Bookmark" bookmarkColumns, (intOf (b "user_id")).isSome = true :=
    (forall_view fun _ => Iff.rfl).mpr h.bookmarkUsers
  have hkept : ∀ b ∈ (chain.effect db).view "Bookmark" bookmarkColumns,
      (intOf (b "user_id")).isSome = true := by
    rw [view_chain_bookmark]
    exact fun b hb => hids b (List.mem_of_mem_filter hb)
  exact (forall_view fun _ => Iff.rfl).mp hkept

/-- A bookmark of an account that is still there is kept if its article is. -/
theorem hasBookmark_chain {u : Row Cell} (hu : u ∈ (chain.effect db).rows "User") :
    hasBookmark (chain.effect db) u = hasLiveBookmark db u := by
  have huser : hasId (chain.effect db) "User" (intOf (u "id")) = true :=
    List.any_eq_true.mpr
      ⟨u, hu, Bool.and_eq_true_iff.mpr ⟨chain_userIds h u hu, beq_self_eq_true _⟩⟩
  have hview : ∀ d : Database Cell, hasBookmark d u = (d.view "Bookmark" bookmarkColumns).any
      fun b => intOf (b "user_id") == intOf (u "id") := by
    intro d
    rw [Database.view, List.any_map]
    rfl
  have hlive : hasLiveBookmark db u = (db.view "Bookmark" bookmarkColumns).any fun b =>
      intOf (b "user_id") == intOf (u "id") && hasId db "Article" (intOf (b "article_id")) := by
    rw [Database.view, List.any_map]
    rfl
  rw [hview, hlive, view_chain_bookmark, List.any_filter]
  refine List.any_congr rfl fun b => ?_
  by_cases hmine : intOf (b "user_id") = intOf (u "id")
  · rw [isOrphan, hmine, huser, hasId_chain_article, Bool.not_true, Bool.false_or, Bool.not_not,
      Bool.and_comm]
  · rw [beq_false_of_ne hmine, Bool.and_false, Bool.false_and]

/-- What the second run deletes. -/
theorem isSubscription_chain {u : Row Cell} (hu : u ∈ (chain.effect db).rows "User") :
    isSubscription (chain.effect db) u = (isInert db u && !hasLiveBookmark db u) := by
  rw [isSubscription, isInert_congr view_chain_article, ← hasBookmark_chain h hu,
    notIn_bookmarks (chain_userIds h u hu) (chain_bookmarkUsers h)]

/-- **Running the chain again** changes nothing if every account that is kept for a
bookmark has one on an article that exists. -/
theorem chain_again : removeAccounts (chain.effect db) = chain.effect db ↔
    ∀ u ∈ db.rows "User", isInert db u = true → hasBookmark db u = true →
      hasLiveBookmark db u = true := by
  have hlive : ∀ u ∈ (chain.effect db).rows "User", (isSubscription (chain.effect db) u = false ↔
      (isInert db u = true → hasLiveBookmark db u = true)) := by
    intro u hu
    rw [isSubscription_chain h hu, Bool.and_eq_false_imp]
    rw [Bool.not_eq_false']
  rw [removeAccounts_eq_self, forall₂_congr hlive, forall_chain_user fun _ => Iff.rfl]
  refine forall₂_congr fun u hu => ?_
  rw [isSubscription, notIn_bookmarks (h.userIds u hu) h.bookmarkUsers, Bool.and_eq_false_imp]
  constructor
  · intro hkept hinert hmark
    exact hkept (fun _ => by rw [hmark]; rfl) hinert
  · intro hkept hmark hinert
    refine hkept hinert ?_
    simpa using hmark hinert

end Again

/-- The chain runs, and run on its result it changes nothing if and only if every
account that 0007 would delete but for its bookmarks, and that has one, has one whose
article exists. -/
theorem rerun_noop_iff (h : NodeEra db) : ∃ migrated, chain.run db = some migrated ∧
    (chain.run migrated = some migrated ↔
      ∀ u ∈ db.rows "User", isInert db u = true → hasBookmark db u = true →
        hasLiveBookmark db u = true) := by
  have hrun : chain.run db = some (chain.effect db) := if_pos (chain_needs h)
  obtain ⟨hneeds, heffect⟩ := chain_migrated (chain_nodeEra h)
  have hagain : chain.run (chain.effect db) = some (removeAccounts (chain.effect db)) := by
    rw [← heffect]
    exact if_pos hneeds
  refine ⟨chain.effect db, hrun, ?_⟩
  rw [hagain, Option.some.injEq]
  exact chain_again h

/-- An account of the newsletter. -/
def subscriber : Row Cell :=
  rowOf [("id", .int 1), ("role", .text "user".toList),
    ("auth_provider", .text "subscription".toList)]

/-- Its only bookmark is on an article that was deleted. -/
def abandoned : Database Cell :=
  nodeDatabase [] [subscriber] [rowOf [("user_id", .int 1), ("article_id", .int 7)]]

theorem nodeEra_abandoned : NodeEra abandoned := by
  refine nodeEra_nodeDatabase (fun _ hr => absurd hr List.not_mem_nil)
    (fun _ hr => absurd hr List.not_mem_nil) ?_ ?_ ?_
  all_goals exact List.forall_mem_singleton.mpr rfl

/-- Its one account has a bookmark of an article that is missing, so the second run is not a no-op.
-/
theorem abandoned_runs : ∃ migrated, chain.run abandoned = some migrated ∧
    (chain.run migrated = some migrated ↔
      ∀ u ∈ abandoned.rows "User", isInert abandoned u = true → hasBookmark abandoned u = true →
        hasLiveBookmark abandoned u = true) :=
  rerun_noop_iff nodeEra_abandoned

/-- The second run deletes the account. -/
theorem rerun_deletes : ¬ ∀ db migrated, NodeEra db → chain.run db = some migrated →
    chain.run migrated = some migrated := by
  intro hnoop
  have hrun : chain.run abandoned = some (chain.effect abandoned) :=
    if_pos (chain_needs nodeEra_abandoned)
  have hagain := hnoop abandoned _ nodeEra_abandoned hrun
  obtain ⟨hneeds, heffect⟩ := chain_migrated (chain_nodeEra nodeEra_abandoned)
  rw [Statement.run, if_pos hneeds, Option.some.injEq, heffect] at hagain
  have hlive := (chain_again nodeEra_abandoned).mp hagain subscriber List.mem_cons_self rfl rfl
  exact absurd hlive (by decide)

end SarkariWorld.Migrations
