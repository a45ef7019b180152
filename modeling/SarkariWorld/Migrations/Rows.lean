import SarkariWorld.Migrations.InstagramTags

/-!
# Row by row

What the chain does to the rows, column by column, by any number of runs
(`migration_exact`): every article is there, under a status and a category the service
knows; the accounts that go are those of the newsletter; the bookmarks that go point at
nothing. After two runs there is nothing left to do (`runs_settle`).

The results here are about whole tables: the rows after a run are matched with those
before, in their order (`List.Forall₂`), or are a filter of them. As columns are
independent of each other, it is enough to know each column of the result
(`rows_of_cells`). There is one lemma for the columns that are kept, one for the status,
one for the category and one for the accounts.
-/

namespace SarkariWorld.Migrations

open SarkariWorld.Lib SarkariWorld.Lib.Sql SarkariWorld.Content Statement Database

variable {db : Database Cell} {n c : Name} {columns : List Name}

/-! ## The articles -/

/-- The rows are of the two types as the Node service had them. -/
structure NodeTypes (db : Database Cell) : Prop where
  status : db.labels "ArticleStatus" = some nodeStatuses
  category : db.labels "ArticleCategory" = some nodeCategories

/-- 0004, on a row. -/
def unsaved (r : Row Cell) : Option Text :=
  (textOf (r "article_status")).map fun status =>
    if status = "saved".toList then "draft".toList else status

/-- An article before the migrations, and after; of its tags and its cover see
`Carried`. -/
structure Rehomed (before after : Row Cell) : Prop where
  kept : ∀ c, c ∉ writtenColumns → ("Article", c) ∉ droppedColumns → after c = before c
  status : after "article_status" = (unsaved before).map Cell.text
  category : after "category" = (rehome before).map Cell.text

theorem restrict_mem {r : Row Cell} (hc : c ∈ columns) : restrict columns r c = r c := if_pos hc

/-- Whatever is read off the articles can be read off before the last two files. -/
theorem map_lastTwo {β : Type} (f : Row Cell → β) : ((chain.effect db).rows "Article").map f =
    ((stage 7 db).rows "Article").map f := by
  have hrows : (stage (7 + 2) db).rows "Article" = (stage 7 db).rows "Article" := by
    rw [stage_add]
    exact block_frame rows_lastTwo (stage 7 db)
  exact congrArg (List.map f) hrows

/-- A column that no file writes or drops is what it was, in every row. -/
theorem cells_kept (db : Database Cell) (hwritten : c ∉ writtenColumns)
    (hdropped : ("Article", c) ∉ droppedColumns) :
    ((chain.effect db).rows "Article").map (fun r => r c) =
      (db.rows "Article").map fun r => r c := by
  have hone : Untouched "Article" [c] := by
    refine ⟨fun _ w hw hc => hwritten ?_, List.forall_mem_singleton.mpr hdropped, by decide⟩
    rwa [← List.mem_singleton.mp hc]
  rw [map_lastTwo]
  exact map_of_view (fun _ => restrict_mem List.mem_cons_self) (view_stage hone)

theorem rows_swapType {name column type old : Name} {labels : List Text}
    {mentions : List (Name × Name)} {cast : Row Cell → Option Text} {default : String}
    (db : Database Cell) :
    ((block (swapType name column type old labels mentions cast default)).effect db).rows name =
      (db.rows name).map fun r => r.set column ((cast r).map Cell.text) := by
  have halter : ∀ d : Database Cell,
      ((alterType name column type mentions cast Cell.text).effect d).rows name =
        (d.rows name).map fun r => r.set column ((cast r).map Cell.text) :=
    fun d => (rows_alterType d).trans (if_pos rfl)
  refine (rows_setDefault _).trans ((halter _).trans (congrArg (List.map _) ?_))
  exact (rows_renameType _).trans (rows_setDefault db)

/-! ### The statuses -/

/-- A saved article is a draft, any other has the status it had. -/
theorem unsaved_drafted (r : Row Cell) :
    textOf ((if isSaved r then r.set "article_status" (textCell "draft") else r)
      "article_status") = unsaved r := by
  unfold unsaved
  cases hsaved : isSaved r with
  | true =>
    rw [eq_of_beq hsaved, if_pos rfl, Row.set_self, Option.map_some, if_pos rfl]
    rfl
  | false =>
    rw [if_neg Bool.false_ne_true]
    cases hstatus : textOf (r "article_status") with
    | none => rfl
    | some status =>
      have hne : status ≠ "saved".toList := by
        intro he
        rw [isSaved, hstatus, he, beq_self_eq_true] at hsaved
        exact Bool.noConfusion hsaved
      rw [Option.map_some, if_neg hne]

theorem cells_unsaved {d : Database Cell} (h : d.hasLabel "ArticleStatus" "saved".toList = true) :
    ((removeSavedArticleStatus.effect d).rows "Article").map (fun r => r "article_status") =
      (d.rows "Article").map fun r => (unsaved r).map Cell.text := by
  let drafted := (block [draftSaved, dropIndex "Article_published_created_at_idx",
    dropIndex "Article_published_views_idx",
    dropIndex "Article_status_category_created_at_idx"]).effect d
  have hdrafted : drafted.rows "Article" = (d.rows "Article").map fun r =>
      if isSaved r then r.set "article_status" (textCell "draft") else r := by
    show (draftSaved.effect d).rows "Article" = _
    exact (rows_update d).trans (if_pos rfl)
  have hrows : (removeSavedArticleStatus.effect d).rows "Article" =
      ((block swapStatus).effect drafted).rows "Article" := by
    rw [removeSavedArticleStatus, whenever_true h, statusStatements, block_append, block_append]
    rfl
  rw [hrows, swapStatus, rows_swapType, hdrafted, List.map_map, List.map_map]
  refine List.map_congr_left fun r _ => ?_
  exact congrArg (Option.map Cell.text) (unsaved_drafted r)

theorem cells_status (htypes : NodeTypes db) :
    ((chain.effect db).rows "Article").map (fun r => r "article_status") =
      (db.rows "Article").map fun r => (unsaved r).map Cell.text := by
  have hlabel : (stage 4 db).hasLabel "ArticleStatus" "saved".toList = true := by
    have hlabels : (stage 4 db).labels "ArticleStatus" = db.labels "ArticleStatus" :=
      block_frame (stage_labels (by decide)) db
    rw [Database.hasLabel, hlabels, htypes.status]
    rfl
  have hbefore : (stage 4 db).view "Article" ["article_status"] =
      db.view "Article" ["article_status"] := block_frame (stage_view (by decide)) db
  have hafter : (stage 7 db).view "Article" ["article_status"] =
      (stage 5 db).view "Article" ["article_status"] := by
    rw [stage_succ 6 (by decide), stage_succ 5 (by decide)]
    exact (view_clearNonImageCoverUrls (fun _ => by decide) _).trans
      (view_alignToTrimmedSchema (fun _ => by decide) (by decide) (by decide) _)
  rw [map_lastTwo, map_of_view (fun _ => restrict_mem List.mem_cons_self) hafter,
    stage_succ 4 (by decide)]
  exact (cells_unsaved hlabel).trans (map_of_view (fun _ => rfl) hbefore)

/-! ### The categories -/

theorem view_trimSchema (h : ∀ c ∈ columns, (n, c) ∉ droppedColumns) (htable : n ∉ removedTables) :
    ∀ s ∈ trimSchema, Leaves s fun db => db.view n columns := by
  refine forall_trimSchema (fun _ => rfl) (fun m hm => ?_) (fun name hname => ?_)
    fun _ _ => dropTypeIfExists_frame fun _ => rfl
  · refine view_dropColumn fun hn hc => h m.2 hc ?_
    rwa [hn]
  · refine view_dropTable fun hsame => htable ?_
    rwa [hsame]

theorem cells_rehomed {d : Database Cell} (h : d.hasLabel "ArticleCategory" "job".toList = true) :
    ((alignToTrimmedSchema.effect d).rows "Article").map (fun r => r "category") =
      (d.rows "Article").map fun r => (rehome r).map Cell.text := by
  have hrest : (alignToTrimmedSchema.effect d).view "Article" ["category"] =
      (replaceCategories.effect d).view "Article" ["category"] :=
    block_frame (view_trimSchema (by decide) (by decide)) (replaceCategories.effect d)
  have hswapped : (replaceCategories.effect d).rows "Article" =
      (d.rows "Article").map fun r => r.set "category" ((rehome r).map Cell.text) := by
    rw [replaceCategories, whenever_true h]
    exact rows_swapType d
  rw [map_of_view (fun _ => restrict_mem List.mem_cons_self) hrest, hswapped, List.map_map]
  exact List.map_congr_left fun r _ => Row.set_self

theorem cells_category (htypes : NodeTypes db) :
    ((chain.effect db).rows "Article").map (fun r => r "category") =
      (db.rows "Article").map fun r => (rehome r).map Cell.text := by
  have hlabel : (stage 5 db).hasLabel "ArticleCategory" "job".toList = true := by
    have hlabels : (stage 5 db).labels "ArticleCategory" = db.labels "ArticleCategory" := by
      rw [stage_succ 4 (by decide)]
      exact (labels_removeSavedArticleStatus (by decide) (by decide) (stage 4 db)).trans
        (block_frame (stage_labels (by decide)) db)
    rw [Database.hasLabel, hlabels, htypes.category]
    rfl
  have hbefore : (stage 5 db).view "Article" ["category", "title"] =
      db.view "Article" ["category", "title"] := by
    rw [stage_succ 4 (by decide)]
    exact (view_removeSavedArticleStatus (fun _ => by decide) (stage 4 db)).trans
      (block_frame (stage_view (by decide)) db)
  have hafter : (stage 7 db).view "Article" ["category"] =
      (stage 6 db).view "Article" ["category"] := by
    rw [stage_succ 6 (by decide)]
    exact view_clearNonImageCoverUrls (fun _ => by decide) _
  rw [map_lastTwo, map_of_view (fun _ => restrict_mem List.mem_cons_self) hafter,
    stage_succ 5 (by decide)]
  exact (cells_rehomed hlabel).trans (map_of_view (fun _ => rfl) hbefore)

/-! ## The accounts and the bookmarks -/

/-- An account before the migrations, and after. -/
def SameAccount (before after : Row Cell) : Prop :=
  ∀ c, c ∉ removedUserColumns → c ≠ "api_key" → after c = before c

/-- Whether an account goes is up to the columns that are read. -/
theorem isSubscription_of_read (hread : ∀ c ∈ userColumns, c ∈ columns) (r : Row Cell) :
    isSubscription db (restrict columns r) = isSubscription db r := by
  have hcell : ∀ c ∈ userColumns, restrict columns r c = r c :=
    fun c hc => restrict_mem (hread c hc)
  have hid := hcell "id" (by decide)
  have hunused : isUnused (restrict columns r) = isUnused r := by
    rw [isUnused, isUnused, hcell "auth_provider" (by decide), hcell "google_id" (by decide),
      hcell "last_login_at" (by decide), hcell "api_key_hash" (by decide),
      hcell "role" (by decide)]
  rw [isSubscription, isSubscription, isInert, isInert, hunused, hid]

/-- The accounts the first run keeps, as far as more columns go. -/
theorem view_left (hread : ∀ c ∈ userColumns, c ∈ columns) (h : Untouched "User" columns)
    (hsecret : "api_key" ∉ columns) : (chain.effect db).view "User" columns =
      ((db.rows "User").filter fun r => !isSubscription db r).map (restrict columns) := by
  -- 0008 clears the secrets and keeps the accounts
  have hlast : (stage (8 + 1) db).view "User" columns = (stage 8 db).view "User" columns := by
    rw [stage_succ 8 (by decide)]
    have hdelete : Leaves deleteOrphans fun db => db.view "User" columns := fun d =>
      congrArg (List.map (restrict columns)) ((rows_deleteOrphans d).trans (if_neg (by decide)))
    exact (hdelete _).trans (view_clearSecrets hsecret (stage 8 db))
  -- 0007 deletes the accounts of subscriptions
  have hkept : (stage 8 db).rows "User" =
      ((stage 7 db).rows "User").filter fun r => !isSubscription (stage 7 db) r := by
    rw [stage_succ 7 (by decide)]
    exact (rows_setDefault _).trans ((rows_delete (stage 7 db)).trans (if_pos rfl))
  have hfilter : ∀ d : Database Cell, (d.view "User" columns).filter
      (fun r => !isSubscription db r) =
        ((d.rows "User").filter fun r => !isSubscription db r).map (restrict columns) := by
    intro d
    rw [Database.view, List.filter_map]
    refine congrArg (List.map _) (List.filter_congr fun r _ => ?_)
    rw [Function.comp_apply, isSubscription_of_read hread]
  -- and what it judges them by has not changed since the start
  have hsame : ∀ r, isSubscription (stage 7 db) r = isSubscription db r :=
    isSubscription_congr view_stage_article view_stage_bookmark
  simp only [hsame] at hkept
  calc (stage (8 + 1) db).view "User" columns
    _ = ((stage 8 db).rows "User").map (restrict columns) := hlast
    _ = ((stage 7 db).view "User" columns).filter fun r => !isSubscription db r := by
      rw [hkept, hfilter]
    _ = ((db.rows "User").filter fun r => !isSubscription db r).map (restrict columns) := by
      rw [view_stage h, hfilter]

/-- A column of the accounts, after a run: the accounts of the newsletter are gone, the others have
what they had. -/
theorem cells_left (db : Database Cell) (hremoved : c ∉ removedUserColumns)
    (hsecret : c ≠ "api_key") :
    ((chain.effect db).rows "User").map (fun r => r c) =
      ((db.rows "User").filter fun r => !isSubscription db r).map fun r => r c := by
  have huntouched : Untouched "User" (c :: userColumns) := by
    refine ⟨fun hn => absurd hn (by decide), List.forall_mem_cons.mpr ⟨?_, by decide⟩, by decide⟩
    have hdropped : ∀ m ∈ droppedColumns, m.1 = "User" → m.2 ∈ removedUserColumns := by decide
    exact fun hc => hremoved (hdropped _ hc rfl)
  have hunsecret : "api_key" ∉ c :: userColumns := fun hmem =>
    (List.mem_cons.mp hmem).elim (fun he => hsecret he.symm) (by decide)
  have hview : (chain.effect db).view "User" (c :: userColumns) =
      ((db.rows "User").filter fun r => !isSubscription db r).map (restrict (c :: userColumns)) :=
    view_left (fun _ hc => List.mem_cons_of_mem _ hc) huntouched hunsecret
  have hcells := congrArg (List.map fun r : Row Cell => r c) hview
  rw [Database.view, List.map_map, List.map_map] at hcells
  have hread : ((fun r : Row Cell => r c) ∘ restrict (c :: userColumns)) = fun r => r c :=
    funext fun r => restrict_mem List.mem_cons_self
  rwa [hread] at hcells

theorem accounts_left (db : Database Cell) : List.Forall₂ SameAccount
    ((db.rows "User").filter fun r => !isSubscription db r) ((chain.effect db).rows "User") := by
  have hcells := forall₂_of_cells (fun c => c ∉ removedUserColumns ∧ c ≠ "api_key")
    (fun r c => r c) "id" (by decide) fun c hc => cells_left db hc.1 hc.2
  exact hcells.imp fun r r' hr c hremoved hsecret => hr c ⟨hremoved, hsecret⟩

/-- An account with a bookmark is none of those 0007 deletes. -/
theorem hasId_left (h : NodeEra db) {b : Row Cell} (hb : b ∈ db.rows "Bookmark") :
    hasId (chain.effect db) "User" (intOf (b "user_id")) =
      hasId db "User" (intOf (b "user_id")) := by
  have hview : ∀ d : Database Cell, hasId d "User" (intOf (b "user_id")) =
      (d.view "User" userColumns).any fun r =>
        (intOf (r "id")).isSome && intOf (r "id") == intOf (b "user_id") := by
    intro d
    rw [Database.view, List.any_map]
    rfl
  rw [hview, view_left (fun _ hc => hc) ⟨fun hn => absurd hn (by decide), by decide, by decide⟩
    (by decide), List.any_map, List.any_filter, hasId, Bool.eq_iff_iff, List.any_eq_true,
    List.any_eq_true]
  refine exists_congr fun u => and_congr_right fun hu => ?_
  show (!isSubscription db u && ((intOf (u "id")).isSome && intOf (u "id") == _)) = true ↔ _
  by_cases howner : intOf (u "id") = intOf (b "user_id")
  · have hmark : hasBookmark db u = true :=
      List.any_eq_true.mpr ⟨b, hb, beq_iff_eq.mpr howner.symm⟩
    have hkept : isSubscription db u = false := by
      rw [isSubscription, notIn_bookmarks (h.userIds u hu) h.bookmarkUsers, hmark]
      exact Bool.and_false _
    rw [hkept, Bool.not_false, Bool.true_and]
  · rw [beq_false_of_ne howner, Bool.and_false, Bool.and_false]

/-- The bookmarks the first run keeps. -/
theorem bookmarks_left (h : NodeEra db) : (chain.effect db).rows "Bookmark" =
    (db.rows "Bookmark").filter fun b => !isOrphan db b := by
  -- no script before 0007 touches a cell of a bookmark
  have hfound : (stage 7 db).rows "Bookmark" = db.rows "Bookmark" := by
    have htables : ∀ m ∈ droppedColumns, m.1 ≠ "Bookmark" := by decide
    have hone : ∀ c, Untouched "Bookmark" [c] := fun c =>
      ⟨fun hn => absurd hn (by decide),
        List.forall_mem_singleton.mpr fun hc => htables _ hc rfl, by decide⟩
    exact rows_of_cells fun c =>
      map_of_view (fun _ => restrict_mem List.mem_cons_self) (view_stage (hone c))
  -- so 0008 finds them as they were, once it has cleared the secrets
  have hsecond : (clearSecrets.effect (stage 8 db)).rows "Bookmark" = db.rows "Bookmark" := by
    rw [rows_clearSecrets (by decide), ← hfound, stage_succ 7 (by decide)]
    exact rows_removeSubscriptionAccounts (by decide) (stage 7 db)
  have hids : ∀ name, name ≠ "Bookmark" → (chain.effect db).view name ["id"] =
      (clearSecrets.effect (stage 8 db)).view name ["id"] := by
    intro name hname
    show (stage (8 + 1) db).view name ["id"] = _
    rw [stage_succ 8 (by decide)]
    exact congrArg (List.map (restrict ["id"]))
      ((rows_deleteOrphans (clearSecrets.effect (stage 8 db))).trans (if_neg hname))
  have hrows : (chain.effect db).rows "Bookmark" = (db.rows "Bookmark").filter fun b =>
      !isOrphan (clearSecrets.effect (stage 8 db)) b := by
    show (stage (8 + 1) db).rows "Bookmark" = _
    rw [stage_succ 8 (by decide), ← hsecond]
    exact (rows_deleteOrphans (clearSecrets.effect (stage 8 db))).trans (if_pos rfl)
  -- an orphan after 0007 is an orphan before it: who has a bookmark is not deleted
  rw [hrows]
  refine List.filter_congr fun b hb => ?_
  rw [← isOrphan_congr (hids _ (by decide)) (hids _ (by decide)), isOrphan, isOrphan,
    hasId_left h hb, hasId_chain_article]

/-! ## Further runs -/

theorem removeAccounts_idempotent : removeAccounts (removeAccounts db) = removeAccounts db := by
  refine removeAccounts_eq_self.mpr fun u hu => ?_
  have hother : ∀ name columns, name ≠ "User" →
      (removeAccounts db).view name columns = db.view name columns := fun name columns hname =>
    congrArg (List.map (restrict columns)) ((rows_removeAccounts name).trans (if_neg hname))
  rw [rows_removeAccounts, if_pos rfl] at hu
  rw [isSubscription_congr (hother _ _ (by decide)) (hother _ _ (by decide))]
  have hkept := (List.mem_filter.mp hu).2
  rwa [Bool.not_eq_true'] at hkept

theorem run_migrated (h : Migrated db) : chain.run db = some (removeAccounts db) := by
  obtain ⟨hneeds, heffect⟩ := chain_migrated h
  rw [← heffect]
  exact if_pos hneeds

theorem runs_again (h : Migrated db) (n : Nat) : runs (n + 1) db = some (removeAccounts db) := by
  induction n generalizing db with
  | zero =>
    rw [runs, run_migrated h]
    rfl
  | succ n ih =>
    rw [runs, run_migrated h, Option.bind_some, ih (removeAccounts_migrated h),
      removeAccounts_idempotent]

theorem runs_nodeEra (h : NodeEra db) (n : Nat) :
    runs (n + 1) db = runs n (chain.effect db) := by
  have hrun : chain.run db = some (chain.effect db) := if_pos (chain_needs h)
  rw [runs, hrun, Option.bind_some]

/-- **Two runs are enough**: any more leave the database as it is. -/
theorem runs_settle (h : NodeEra db) (n : Nat) :
    ∃ settled, runs 2 db = some settled ∧ runs (n + 2) db = some settled := by
  refine ⟨removeAccounts (chain.effect db), ?_, ?_⟩
  · rw [runs_nodeEra h 1]
    exact runs_again (chain_nodeEra h) 0
  · rw [runs_nodeEra h (n + 1)]
    exact runs_again (chain_nodeEra h) n

theorem abandoned_settles : ∃ settled, runs 2 abandoned = some settled ∧
    runs 5 abandoned = some settled :=
  runs_settle nodeEra_abandoned 3

/-- The account is there after that many more runs than one: it was in use, or it is kept
for a bookmark, of an article that exists unless this is the first run. -/
def isLeft (db : Database Cell) : Nat → Row Cell → Bool
  | 0, u => !isInert db u || hasBookmark db u
  | _ + 1, u => !isInert db u || hasLiveBookmark db u

/-- The rows, after that many more runs than one. -/
structure MigratedRows (db : Database Cell) (n : Nat) (migrated : Database Cell) : Prop where
  articles : List.Forall₂ Rehomed (db.rows "Article") (migrated.rows "Article")
  /-- No article has a label the service does not know. -/
  statuses : ∀ r ∈ migrated.rows "Article", ∀ label ∈ textOf (r "article_status"),
    ∃ status : ArticleStatus, status.value = label
  categories : ∀ r ∈ migrated.rows "Article", ∀ label ∈ textOf (r "category"),
    ∃ category : ArticleCategory, category.value = label
  accounts : List.Forall₂ SameAccount ((db.rows "User").filter (isLeft db n))
    (migrated.rows "User")
  secrets : ∀ u ∈ migrated.rows "User", u "api_key" = none
  bookmarks : migrated.rows "Bookmark" = (db.rows "Bookmark").filter fun b => !isOrphan db b

/-- Every article is there after a run, under its new status and category. -/
theorem articles_rehomed (htypes : NodeTypes db) :
    List.Forall₂ Rehomed (db.rows "Article") ((chain.effect db).rows "Article") := by
  have hkept := forall₂_of_cells
    (fun c => c ∉ writtenColumns ∧ ("Article", c) ∉ droppedColumns) (fun r c => r c) "id"
    (by decide) fun c hc => cells_kept db hc.1 hc.2
  have hstatus := forall₂_of_cells (fun c => c = "article_status")
    (fun r _ => (unsaved r).map Cell.text) _ rfl fun c hc => hc ▸ cells_status htypes
  have hcategory := forall₂_of_cells (fun c => c = "category")
    (fun r _ => (rehome r).map Cell.text) _ rfl fun c hc => hc ▸ cells_category htypes
  rw [List.forall₂_iff_get] at hkept hstatus hcategory ⊢
  refine ⟨hkept.1, fun i hi hi' => ⟨fun c hwritten hdropped => ?_, ?_, ?_⟩⟩
  · exact hkept.2 i hi hi' c ⟨hwritten, hdropped⟩
  · exact hstatus.2 i hi hi' _ rfl
  · exact hcategory.2 i hi hi' _ rfl

theorem textOf_text (label : Option Text) : textOf (label.map Cell.text) = label := by
  cases label <;> rfl

theorem unsaved_known {r : Row Cell}
    (h : ∀ label ∈ textOf (r "article_status"), label ∈ nodeStatuses) :
    ∀ label ∈ unsaved r, ∃ status : ArticleStatus, status.value = label := by
  have hknown : ∀ label ∈ nodeStatuses, ∃ status ∈ ArticleStatus.all,
      status.value = if label = "saved".toList then "draft".toList else label := by decide
  intro label hlabel
  obtain ⟨status, hstatus, rfl⟩ := Option.map_eq_some_iff.mp hlabel
  obtain ⟨known, -, hvalue⟩ := hknown status (h status hstatus)
  exact ⟨known, hvalue⟩

theorem rehome_known {r : Row Cell} (h : ∀ label ∈ textOf (r "category"), label ∈ nodeCategories) :
    ∀ label ∈ rehome r, ∃ category : ArticleCategory, category.value = label := by
  have hknown : ∀ label ∈ categoryLabels, ∃ category ∈ ArticleCategory.all,
      category.value = label := by decide
  intro label hlabel
  obtain ⟨category, -, hvalue⟩ := hknown label (rehome_mem h label hlabel)
  exact ⟨category, hvalue⟩

/-- The accounts the second run finds, and those it leaves. -/
theorem isLeft_next (h : NodeEra db) {u u' : Row Cell} (hsame : SameAccount u u')
    (hu' : u' ∈ (chain.effect db).rows "User") :
    isSubscription (chain.effect db) u' = (isInert db u && !hasLiveBookmark db u) := by
  have hcell : ∀ c ∈ userColumns, u' c = u c := by
    have hread : ∀ c ∈ userColumns, c ∉ removedUserColumns ∧ c ≠ "api_key" := by decide
    exact fun c hc => hsame c (hread c hc).1 (hread c hc).2
  rw [isSubscription_chain h hu', isInert, isInert, isUnused, isUnused, hasLiveBookmark,
    hasLiveBookmark, hcell "auth_provider" (by decide), hcell "google_id" (by decide),
    hcell "last_login_at" (by decide), hcell "api_key_hash" (by decide),
    hcell "role" (by decide), hcell "id" (by decide)]

theorem isLeft_first (h : NodeEra db) {u : Row Cell} (hu : u ∈ db.rows "User") :
    isLeft db 0 u = !isSubscription db u := by
  rw [isLeft, isSubscription, notIn_bookmarks (h.userIds u hu) h.bookmarkUsers, Bool.not_and,
    Bool.not_not]

/-- A bookmark of an article that is there is a bookmark. -/
theorem hasLiveBookmark_hasBookmark {u : Row Cell} (h : hasLiveBookmark db u = true) :
    hasBookmark db u = true := by
  obtain ⟨b, hb, hlive⟩ := List.any_eq_true.mp h
  exact List.any_eq_true.mpr ⟨b, hb, (Bool.and_eq_true_iff.mp hlive).1⟩

/-- The second run, account by account. -/
theorem accounts_later (h : NodeEra db) (n : Nat) : List.Forall₂ SameAccount
    ((db.rows "User").filter (isLeft db (n + 1)))
    ((removeAccounts (chain.effect db)).rows "User") := by
  have hfirst : List.Forall₂ (fun u u' => u' ∈ (chain.effect db).rows "User" ∧ SameAccount u u')
      ((db.rows "User").filter fun r => !isSubscription db r)
      ((chain.effect db).rows "User") := by
    obtain ⟨hlength, hsame⟩ := List.forall₂_iff_get.mp (accounts_left db)
    exact List.forall₂_iff_get.mpr ⟨hlength, fun i hi hi' => ⟨List.get_mem _ _, hsame i hi hi'⟩⟩
  -- and of these the second takes those whose last bookmark 0008 has deleted
  have hsecond := List.rel_filter (p := fun u => !(isInert db u && !hasLiveBookmark db u))
    (q := fun u' => !isSubscription (chain.effect db) u') (fun u u' hu => by
      dsimp only
      rw [isLeft_next h hu.2 hu.1]) hfirst
  rw [rows_removeAccounts, if_pos rfl]
  have hleft : (db.rows "User").filter (isLeft db (n + 1)) =
      ((db.rows "User").filter fun r => !isSubscription db r).filter fun u =>
        !(isInert db u && !hasLiveBookmark db u) := by
    rw [List.filter_filter]
    refine List.filter_congr fun u hu => ?_
    rw [← isLeft_first h hu, isLeft, isLeft, Bool.not_and, Bool.not_not]
    cases hlive : hasLiveBookmark db u with
    | true =>
      rw [hasLiveBookmark_hasBookmark hlive, Bool.or_true]
      rfl
    | false =>
      cases isInert db u <;> rfl
  rw [hleft]
  exact hsecond.imp fun _ _ hu => hu.2

/-- **The migrations, row by row**: each article is as it was but for what 0004 and 0005
say of its status and category; an account goes only if it was of the newsletter and
never used, and loses nothing but its plaintext key; a bookmark goes only if its account
or its article does not exist. -/
theorem migration_exact (h : NodeEra db) (htypes : NodeTypes db) (n : Nat) :
    ∃ migrated, runs (n + 1) db = some migrated ∧ MigratedRows db n migrated := by
  have hfirst : MigratedRows db 0 (chain.effect db) := by
    have harticles := articles_rehomed htypes
    refine ⟨harticles, fun r' hr' => ?_, fun r' hr' => ?_, ?_, (chain_nodeEra h).noSecrets,
      bookmarks_left h⟩
    · have hcell := List.mem_map_of_mem (f := fun r : Row Cell => r "article_status") hr'
      rw [cells_status htypes] at hcell
      obtain ⟨r, hr, hstatus⟩ := List.mem_map.mp hcell
      rw [← hstatus, textOf_text]
      exact unsaved_known (h.statuses r hr)
    · have hcell := List.mem_map_of_mem (f := fun r : Row Cell => r "category") hr'
      rw [cells_category htypes] at hcell
      obtain ⟨r, hr, hcategory⟩ := List.mem_map.mp hcell
      rw [← hcategory, textOf_text]
      exact rehome_known (h.categories r hr)
    · rw [List.filter_congr fun u hu => isLeft_first h hu]
      exact accounts_left db
  -- the later runs change nothing but the accounts, and that once
  rw [runs_nodeEra h n]
  cases n with
  | zero => exact ⟨_, rfl, hfirst⟩
  | succ n =>
    -- the second run takes away accounts whose bookmarks were orphans
    have hother : ∀ name, name ≠ "User" → (removeAccounts (chain.effect db)).rows name =
        (chain.effect db).rows name := fun name hname =>
      (rows_removeAccounts name).trans (if_neg hname)
    refine ⟨_, runs_again (chain_nodeEra h) n, ?_⟩
    refine ⟨?_, ?_, ?_, accounts_later h n, (removeAccounts_migrated (chain_nodeEra h)).noSecrets,
      ?_⟩
    · rw [hother _ (by decide)]
      exact hfirst.articles
    · rw [hother _ (by decide)]
      exact hfirst.statuses
    · rw [hother _ (by decide)]
      exact hfirst.categories
    · rw [hother _ (by decide)]
      exact hfirst.bookmarks

/-- A saved article of the legacy bucket. -/
def savedExam : Row Cell :=
  rowOf [("id", .int 7), ("title", .text "SSC Answer Key Result".toList),
    ("category", .text "exam".toList), ("article_status", .text "saved".toList)]

example : rehome savedExam = some "answer_key".toList := by decide

/-- A saved article from the legacy bucket and an account of the newsletter, after two runs. -/
theorem savedExam_migrated : ∃ migrated, runs 2 (nodeDatabase [savedExam] [subscriber] []) =
    some migrated ∧ MigratedRows (nodeDatabase [savedExam] [subscriber] []) 1 migrated := by
  have hstatus : ∀ label ∈ textOf (savedExam "article_status"), label ∈ nodeStatuses := by
    intro label hlabel
    obtain rfl := Option.some.inj hlabel
    decide
  have hcategory : ∀ label ∈ textOf (savedExam "category"), label ∈ nodeCategories := by
    intro label hlabel
    obtain rfl := Option.some.inj hlabel
    decide
  exact migration_exact (nodeEra_nodeDatabase (List.forall_mem_singleton.mpr hstatus)
    (List.forall_mem_singleton.mpr hcategory) (List.forall_mem_singleton.mpr rfl)
    (List.forall_mem_singleton.mpr rfl) fun _ hb => absurd hb List.not_mem_nil) ⟨rfl, rfl⟩ 1

end SarkariWorld.Migrations
