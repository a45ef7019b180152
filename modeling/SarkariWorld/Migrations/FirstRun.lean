import SarkariWorld.Migrations.NodeEra

/-!
# The first run

The chain, run on a database of the Node service, leaves a migrated one
(`chain_nodeEra`). Each fact about the result is there after one of the files
(`stage_succ`), and the files that are still to come keep it (`stage_keeps`).

`Migrated` has nineteen fields, and most of them are the doing of one file each. A field
is therefore proved at the stage behind that file and carried to the end by a frame: the
lemmas `forall_last...` say what has to be checked of the files that remain. The two that
depend on rows, the missing secrets and orphans, are the work of the last file.
-/

namespace SarkariWorld.Migrations

open SarkariWorld.Lib SarkariWorld.Lib.Sql Statement Database

variable {db : Database Cell} {n c : Name}

/-! ## The files still to come -/

section Later

variable {P : Statement Cell → Prop}

theorem forall_lastThree (hcovers : P clearNonImageCoverUrls)
    (haccounts : P removeSubscriptionAccounts)
    (horphans : P clearLegacySecretsAndOrphans) : ∀ s ∈ migrations.drop 6, P s := by
  simp only [migrations, List.drop_succ_cons, List.drop_zero, List.forall_mem_cons]
  exact ⟨hcovers, haccounts, horphans, fun _ hs => absurd hs List.not_mem_nil⟩

theorem forall_lastFour (halign : P alignToTrimmedSchema) (h : ∀ s ∈ migrations.drop 6, P s) :
    ∀ s ∈ migrations.drop 5, P s :=
  List.forall_mem_cons.mpr ⟨halign, h⟩

theorem forall_lastFive (hstatus : P removeSavedArticleStatus) (h : ∀ s ∈ migrations.drop 5, P s) :
    ∀ s ∈ migrations.drop 4, P s :=
  List.forall_mem_cons.mpr ⟨hstatus, h⟩

end Later

/-- After the renaming no column comes, and only those of 0005 go. -/
theorem has_afterRename (h : Aligned n c) :
    ∀ s ∈ migrations.drop 4, Leaves s fun db => db.has n c :=
  forall_lastFive has_removeSavedArticleStatus (forall_lastFour (has_alignToTrimmedSchema h)
    (forall_lastThree has_update has_removeSubscriptionAccounts has_clearLegacySecretsAndOrphans))

theorem labels_lastThree : ∀ s ∈ migrations.drop 6, Leaves s fun db => db.labels n :=
  forall_lastThree (fun _ => rfl) (fun _ => rfl) fun _ => rfl

theorem indexes_lastThree {i : Name} : ∀ s ∈ migrations.drop 6, Leaves s fun db => db.indexes i :=
  forall_lastThree (fun _ => rfl) (fun _ => rfl) fun _ => rfl

theorem has_lastThree : ∀ s ∈ migrations.drop 6, Leaves s fun db => db.has n c :=
  forall_lastThree has_update has_removeSubscriptionAccounts has_clearLegacySecretsAndOrphans

/-- The last three files know tables that 0005 does not drop. -/
theorem noTable_lastThree (h : n ∉ ["Article", "User", "Bookmark"]) :
    ∀ s ∈ migrations.drop 6, Leaves s fun db => db.tables n := by
  have hne : ∀ name ∈ ["Article", "User", "Bookmark"], n ≠ name := fun name hname hsame =>
    h (hsame ▸ hname)
  refine forall_lastThree (fun _ => if_neg (hne _ (by decide)))
    (block_frame (forall_pair (fun _ => if_neg (hne _ (by decide))) fun _ =>
      if_neg (hne _ (by decide))))
    (block_frame (forall_pair (fun _ => if_neg (hne _ (by decide))) fun _ =>
      if_neg (hne _ (by decide))))

/-! ## What the files establish -/

theorem stage_editor (h : NodeEra db) :
    (stage 2 db).hasLabel "UserRole" "editor".toList = true := by
  have hrole : (stage 1 db).labels "UserRole" = db.labels "UserRole" :=
    labels_preserveInstagramTags db
  rw [stage_succ 1 (by decide)]
  refine hasLabel_addValue ?_
  rw [hrole]
  exact h.userRole

theorem labels_afterEditor : ∀ s ∈ migrations.drop 2, Leaves s fun db => db.labels "UserRole" := by
  refine List.forall_mem_cons.mpr ⟨labels_addHashedApiKeyColumns,
    List.forall_mem_cons.mpr ⟨labels_renameCoverImageUrl, ?_⟩⟩
  exact forall_lastFive (labels_removeSavedArticleStatus (by decide) (by decide))
    (forall_lastFour (labels_alignToTrimmedSchema (by decide) (by decide) (by decide))
      labels_lastThree)

/-- The index is made by 0002: none was there before. -/
theorem stage_apiKeyIndex (h : NodeEra db) :
    (stage 3 db).indexes "User_api_key_prefix_key" = some apiKeyIndex := by
  have hfree : (stage 2 db).indexes "User_api_key_prefix_key" = none := by
    have hpreserved : (preserveInstagramTags.effect db).indexes "User_api_key_prefix_key" = none :=
      whenever_keeps (forall_pair (fun _ hdb => hdb) noIndex_dropColumn) db h.noPrefixIndex
    exact hpreserved
  have hcolumns : ∀ s ∈ apiKeyColumns.map fun column =>
      addColumn (V := Cell) "User" column.1 column.2,
      Keeps s fun db => db.indexes "User_api_key_prefix_key" = none := by
    intro s hs
    obtain ⟨column, -, rfl⟩ := List.mem_map.mp hs
    exact fun _ hdb => hdb
  have hcreate : ∀ d : Database Cell, d.indexes "User_api_key_prefix_key" = none →
      (createApiKeyIndex.effect d).indexes "User_api_key_prefix_key" = some apiKeyIndex := by
    intro d hd
    show some ((d.indexes "User_api_key_prefix_key").getD apiKeyIndex) = some apiKeyIndex
    rw [hd]
    rfl
  rw [stage_succ 2 (by decide)]
  show ((block apiKeyStatements).effect (stage 2 db)).indexes "User_api_key_prefix_key" = _
  exact block_establishes (P := fun d => d.indexes "User_api_key_prefix_key" = some apiKeyIndex)
    hcolumns hcreate (fun _ hs => absurd hs List.not_mem_nil) hfree

theorem apiKeyIndex_afterKeys : ∀ s ∈ migrations.drop 3,
    Keeps s fun db => db.indexes "User_api_key_prefix_key" = some apiKeyIndex := by
  have hrename : Keeps renameCoverImageUrl
      fun db => db.indexes "User_api_key_prefix_key" = some apiKeyIndex :=
    whenever_keeps (List.forall_mem_singleton.mpr (index_renameColumn (by decide)))
  refine List.forall_mem_cons.mpr ⟨hrename, ?_⟩
  exact forall_lastFive apiKeyIndex_removeSavedArticleStatus
    (forall_lastFour apiKeyIndex_alignToTrimmedSchema fun s hs => (indexes_lastThree s hs).keeps)

theorem stage_noSaved : (stage 5 db).hasLabel "ArticleStatus" "saved".toList = false := by
  rw [stage_succ 4 (by decide)]
  exact noSaved_removeSavedArticleStatus (stage 4 db)

theorem noSaved_afterStatus : ∀ s ∈ migrations.drop 5,
    Keeps s fun db => db.hasLabel "ArticleStatus" "saved".toList = false := by
  have hlabels : ∀ s ∈ migrations.drop 5, Leaves s fun db => db.labels "ArticleStatus" :=
    forall_lastFour (labels_alignToTrimmedSchema (by decide) (by decide) (by decide))
      labels_lastThree
  intro s hs d hd
  have hsame : (s.effect d).labels "ArticleStatus" = d.labels "ArticleStatus" := hlabels s hs d
  unfold Database.hasLabel at hd ⊢
  rw [hsame, hd]

theorem stage_covers : ∀ r ∈ (stage 7 db).rows "Article",
    (textOf (r "cover_image_url")).any isInstagramUrl = false := by
  intro r hr
  have hstage : stage 7 db = clearNonImageCoverUrls.effect (stage 6 db) := stage_succ 6 (by decide)
  rw [hstage, clearNonImageCoverUrls, rows_update, if_pos rfl] at hr
  obtain ⟨r, -, rfl⟩ := List.mem_map.mp hr
  by_cases hinstagram : (textOf (r "cover_image_url")).any isInstagramUrl = true
  · rw [if_pos hinstagram, Row.set_self]
    rfl
  · rw [if_neg hinstagram]
    exact Bool.eq_false_iff.mpr hinstagram

theorem rows_lastTwo : ∀ s ∈ migrations.drop 7, Leaves s fun db => db.rows "Article" := by
  refine List.forall_mem_cons.mpr ⟨rows_removeSubscriptionAccounts (by decide),
    List.forall_mem_singleton.mpr ?_⟩
  exact block_frame (forall_pair (fun d => (rows_update d).trans (if_neg (by decide)))
    fun d => (rows_delete d).trans (if_neg (by decide)))

theorem stage_google (h : NodeEra db) :
    (stage 9 db).default "User" "auth_provider" = textCell "google" := by
  have hprovider := stage_has h 7 (show ("User", "auth_provider") ∈ nodeColumns by decide)
  have hset : (stage 8 db).default "User" "auth_provider" = textCell "google" := by
    rw [stage_succ 7 (by decide)]
    exact default_setDefault ((has_delete (stage 7 db)).trans hprovider)
  have hleaves : Leaves clearLegacySecretsAndOrphans fun db => db.default "User" "auth_provider" :=
    block_frame (forall_pair default_update default_delete)
  rw [stage_succ 8 (by decide)]
  exact (hleaves (stage 8 db)).trans hset

/-- Whether a row is there depends on the numbers of its table. -/
theorem hasId_congr {db db' : Database Cell} {name : Name}
    (h : db.view name ["id"] = db'.view name ["id"]) (id : Option Int) :
    hasId db name id = hasId db' name id := by
  have hview : ∀ d : Database Cell, hasId d name id = (d.view name ["id"]).any fun r =>
      (intOf (r "id")).isSome && intOf (r "id") == id := by
    intro d
    rw [Database.view, List.any_map]
    rfl
  rw [hview, hview, h]

/-- So an orphan is one in any two databases with the same numbers. -/
theorem isOrphan_congr {db db' : Database Cell}
    (huser : db.view "User" ["id"] = db'.view "User" ["id"])
    (harticle : db.view "Article" ["id"] = db'.view "Article" ["id"]) (r : Row Cell) :
    isOrphan db r = isOrphan db' r := by
  rw [isOrphan, isOrphan, hasId_congr huser, hasId_congr harticle]

/-- The first statement of 0008. -/
def clearSecrets : Statement Cell :=
  update "User" [("User", "api_key")] (fun r => (r "api_key").isSome) fun r => r.set "api_key" none

/-- The second statement of 0008. -/
def deleteOrphans : Statement Cell :=
  delete "Bookmark" [("Bookmark", "user_id"), ("Bookmark", "article_id"), ("User", "id"),
    ("Article", "id")] isOrphan

theorem clearLegacySecretsAndOrphans_eq (db : Database Cell) :
    clearLegacySecretsAndOrphans.effect db = deleteOrphans.effect (clearSecrets.effect db) := rfl

theorem rows_deleteOrphans (db : Database Cell) : (deleteOrphans.effect db).rows n =
    if n = "Bookmark" then (db.rows n).filter fun r => !isOrphan db r else db.rows n :=
  rows_delete db

theorem rows_clearSecrets (h : n ≠ "User") : (clearSecrets.effect db).rows n = db.rows n :=
  (rows_update db).trans (if_neg h)

theorem noSecrets_clearSecrets :
    ∀ r ∈ (clearSecrets.effect db).rows "User", r "api_key" = none := by
  intro r hr
  rw [clearSecrets, rows_update, if_pos rfl] at hr
  obtain ⟨r, -, rfl⟩ := List.mem_map.mp hr
  by_cases hsecret : (r "api_key").isSome = true
  · rw [if_pos hsecret, Row.set_self]
  · rw [if_neg hsecret]
    exact Option.not_isSome_iff_eq_none.mp hsecret

theorem view_clearSecrets {columns : List Name} (h : "api_key" ∉ columns) :
    Leaves clearSecrets fun db => db.view n columns :=
  view_update fun _ _ => restrict_set h

theorem noSecrets_clearLegacySecretsAndOrphans :
    ∀ r ∈ (clearLegacySecretsAndOrphans.effect db).rows "User", r "api_key" = none := by
  rw [clearLegacySecretsAndOrphans_eq, rows_deleteOrphans, if_neg (by decide)]
  exact noSecrets_clearSecrets

theorem noOrphans_clearLegacySecretsAndOrphans :
    ∀ r ∈ (clearLegacySecretsAndOrphans.effect db).rows "Bookmark",
      isOrphan (clearLegacySecretsAndOrphans.effect db) r = false := by
  have hrows : ∀ name, name ≠ "Bookmark" → (clearLegacySecretsAndOrphans.effect db).rows name =
      (clearSecrets.effect db).rows name := fun name hname =>
    (rows_deleteOrphans (clearSecrets.effect db)).trans (if_neg hname)
  have hview : ∀ name, name ≠ "Bookmark" →
    (clearLegacySecretsAndOrphans.effect db).view name ["id"] =
      (clearSecrets.effect db).view name ["id"] := fun name hname =>
    congrArg (List.map (restrict ["id"])) (hrows name hname)
  intro r hr
  rw [isOrphan_congr (hview _ (by decide)) (hview _ (by decide))]
  rw [clearLegacySecretsAndOrphans_eq, rows_deleteOrphans, if_pos rfl] at hr
  have hkept := (List.mem_filter.mp hr).2
  rwa [Bool.not_eq_true'] at hkept

/-- What 0005 establishes and the last three files keep. -/
theorem chain_afterAlign {P : Database Cell → Prop}
    (halign : ∀ db, P (alignToTrimmedSchema.effect db))
    (hkeeps : ∀ s ∈ migrations.drop 6, Keeps s P) : P (chain.effect db) := by
  have hstage : P (stage 6 db) := by
    rw [stage_succ 5 (by decide)]
    exact halign (stage 5 db)
  exact stage_keeps hstage hkeeps 3

/-- **The first run** leaves a migrated database. -/
theorem chain_nodeEra (h : NodeEra db) : Migrated (chain.effect db) where
  -- each clause is made by one script and kept by those after it
  accounts m hm := stage_has h 9 (List.mem_append_left _ hm)
  renamed := by
    have hkeeps : ∀ s ∈ migrations.drop 4,
        Keeps s fun db => db.has "Article" "cover_instagram_url" = false :=
      fun s hs => (has_afterRename ⟨by decide, by decide⟩ s hs).keeps
    exact stage_keeps (stage_renamed h).2 hkeeps 5
  cover := by
    have hkeeps : ∀ s ∈ migrations.drop 4,
        Keeps s fun db => db.has "Article" "cover_image_url" = true :=
      fun s hs => (has_afterRename ⟨by decide, by decide⟩ s hs).keeps
    exact stage_keeps (stage_renamed h).1 hkeeps 5
  editor := by
    -- 0001 adds the label, and the seven scripts after it leave the type alone
    have hlabels : (stage (2 + 7) db).labels "UserRole" = (stage 2 db).labels "UserRole" := by
      rw [stage_add]
      exact block_frame labels_afterEditor (stage 2 db)
    have heditor := stage_editor h
    unfold Database.hasLabel at heditor
    show ((stage (2 + 7) db).labels "UserRole").any _ = true
    rw [hlabels, heditor]
  apiKeys column hcolumn := apiKey_kept h hcolumn 6
  apiKeyIndex := by
    -- 0002 builds the index
    have hindex := stage_keeps (stage_apiKeyIndex h) apiKeyIndex_afterKeys 6
    show ((stage (3 + 6) db).indexes "User_api_key_prefix_key").isSome = true
    rw [hindex]
    rfl
  noSaved := stage_keeps stage_noSaved noSaved_afterStatus 4
  noJob := chain_afterAlign (P := fun db => db.hasLabel "ArticleCategory" "job".toList = false)
    noJob_alignToTrimmedSchema
      (forall_lastThree (fun _ hdb => hdb) (fun _ hdb => hdb) fun _ hdb => hdb)
  noViewsIndex :=
    chain_afterAlign noViewsIndex_alignToTrimmedSchema fun s hs => (indexes_lastThree s hs).keeps
  noViews := chain_afterAlign
    (fun db => noColumn_alignToTrimmedSchema db
      (show ("Article", "views") ∈ droppedColumns by decide))
    fun s hs => (has_lastThree s hs).keeps
  noRelated := chain_afterAlign
    (fun db => noColumn_alignToTrimmedSchema db
      (show ("Article", "related_articles") ∈ droppedColumns by decide))
    fun s hs => (has_lastThree s hs).keeps
  noUserColumns column hcolumn := by
    have hdropped : ("User", column) ∈ droppedColumns :=
      List.mem_append_right _ (List.mem_map_of_mem hcolumn)
    exact chain_afterAlign (fun db => noColumn_alignToTrimmedSchema db hdropped)
      fun s hs => (has_lastThree s hs).keeps
  noTables name hname := by
    have hother : ∀ name ∈ removedTables, name ∉ ["Article", "User", "Bookmark"] := by decide
    exact chain_afterAlign (fun db => noTable_alignToTrimmedSchema db hname)
      fun s hs => (noTable_lastThree (hother name hname) s hs).keeps
  noEmailMode := chain_afterAlign (fun db => noType_alignToTrimmedSchema db (by decide))
    fun s hs => (labels_lastThree s hs).keeps
  noEmailLogStatus := chain_afterAlign (fun db => noType_alignToTrimmedSchema db (by decide))
    fun s hs => (labels_lastThree s hs).keeps
  covers := by
    -- 0006 is the last script that touches the articles
    have hrows : (stage (7 + 2) db).rows "Article" = (stage 7 db).rows "Article" := by
      rw [stage_add]
      exact block_frame rows_lastTwo (stage 7 db)
    show ∀ r ∈ (stage (7 + 2) db).rows "Article", _
    rw [hrows]
    exact stage_covers
  google := stage_google h
  noSecrets := noSecrets_clearLegacySecretsAndOrphans
  noOrphans := noOrphans_clearLegacySecretsAndOrphans

/-! ## A Node-era database, from its rows -/

/-- A row with these cells. -/
def rowOf (cells : List (Name × Cell)) : Row Cell := fun c => cells.lookup c

/-- A table of the Node schema. -/
def nodeTable (name : Name) (columns : List Name) (rows : List (Row Cell)) :
    Name → Option (Table Cell) := fun n =>
  if n = name then some ⟨fun c => if c ∈ columns then some ⟨"", none⟩ else none, rows⟩ else none

/-- A database of the Node service, with these rows. -/
def nodeDatabase (articles users bookmarks : List (Row Cell)) : Database Cell where
  labels n :=
    if n = "ArticleStatus" then some nodeStatuses
    else if n = "ArticleCategory" then some nodeCategories
    else if n = "UserRole" then some (["user", "admin"].map String.toList)
    else none
  tables n :=
    nodeTable "Article" ["id", "title", "category", "article_status", "created_at", "author_id",
        "instagram_post_url", "cover_instagram_url", "views"] articles n <|>
      nodeTable "User" ["id", "role", "auth_provider", "google_id", "last_login_at",
        "api_key"] users n <|>
      nodeTable "Bookmark" ["user_id", "article_id"] bookmarks n
  indexes _ := none

/-- It is one the chain can be run on, if its rows keep to their types and constraints. -/
theorem nodeEra_nodeDatabase {articles users bookmarks : List (Row Cell)}
    (hstatuses : ∀ r ∈ articles, ∀ label ∈ textOf (r "article_status"), label ∈ nodeStatuses)
    (hcategories : ∀ r ∈ articles, ∀ label ∈ textOf (r "category"), label ∈ nodeCategories)
    (hprefixes : ∀ r ∈ users, r "api_key_prefix" = none)
    (hids : ∀ r ∈ users, (intOf (r "id")).isSome = true)
    (hmarks : ∀ r ∈ bookmarks, (intOf (r "user_id")).isSome = true) :
    NodeEra (nodeDatabase articles users bookmarks) where
  columns := by
    have hall : nodeColumns.all (fun m => (nodeDatabase articles users bookmarks).has m.1 m.2) =
      true :=
      rfl
    exact List.all_eq_true.mp hall
  cover := rfl
  views := rfl
  userRole := rfl
  status := rfl
  statusFree := rfl
  category := rfl
  categoryFree := rfl
  statuses := hstatuses
  categories := hcategories
  noPrefix := hprefixes
  noPrefixIndex := rfl
  userIds := hids
  bookmarkUsers := hmarks

end SarkariWorld.Migrations
