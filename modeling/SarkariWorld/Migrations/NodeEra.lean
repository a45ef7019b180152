import SarkariWorld.Migrations.Frames
import SarkariWorld.Migrations.Migrated

/-!
# A database of the Node service

What the chain finds on its first run (`NodeEra`): the columns it reads, the labels it
swaps, and none of what it adds. Each file runs to its end there, and what it leaves is
a migrated database (`chain_nodeEra`). A fact about the result is established by one
file, from something the files before it keep, and kept by the files after it.

The module goes through the files twice. First, what each of them needs is traced to facts
about the database it is run on; then these facts are shown to hold of the database after
the files before it (`stage`). The conditions of `NodeEra` are what is left over, and no
more is asked of the database than the files depend on: it may have other tables and
columns.
-/

namespace SarkariWorld.Migrations

open SarkariWorld.Lib SarkariWorld.Lib.Sql Statement Database

/-- The labels 0004 finds. -/
def nodeStatuses : List Text := "saved".toList :: statusLabels

/-- The five labels 0005 replaces. -/
def nodeCategories : List Text := ["job", "scholarship", "tender", "blog", "exam"].map String.toList

/-- The columns the chain reads and does not drop or rename. -/
def nodeColumns : List (Name × Name) :=
  accountColumns ++
    [("Article", "title"), ("Article", "category"), ("Article", "article_status"),
      ("Article", "created_at"), ("Article", "instagram_post_url")]

/-- A database the chain has not been run on. Everything here is the schema of the Node service, or
follows from a constraint of it. -/
structure NodeEra (db : Database Cell) : Prop where
  columns : ∀ m ∈ nodeColumns, db.has m.1 m.2 = true
  cover : db.has "Article" "cover_instagram_url" = true
  views : db.has "Article" "views" = true
  userRole : (db.labels "UserRole").isSome = true
  status : (db.labels "ArticleStatus").isSome = true
  statusFree : db.labels "ArticleStatus_old" = none
  category : (db.labels "ArticleCategory").isSome = true
  categoryFree : db.labels "ArticleCategory_old" = none
  /-- The rows have labels of the two types. -/
  statuses : ∀ r ∈ db.rows "Article", ∀ label ∈ textOf (r "article_status"), label ∈ nodeStatuses
  categories : ∀ r ∈ db.rows "Article", ∀ label ∈ textOf (r "category"), label ∈ nodeCategories
  /-- The columns of 0002 are not there yet. -/
  noPrefix : ∀ r ∈ db.rows "User", r "api_key_prefix" = none
  noPrefixIndex : db.indexes "User_api_key_prefix_key" = none
  /-- `NOT NULL`. -/
  userIds : ∀ r ∈ db.rows "User", (intOf (r "id")).isSome = true
  bookmarkUsers : ∀ r ∈ db.rows "Bookmark", (intOf (r "user_id")).isSome = true

/-! ## The columns -/

/-- The columns no migration drops. -/
structure Survives (n c : Name) : Prop where
  cover : ¬ (n = "Article" ∧ (c = "cover_image_url" ∨ c = "cover_instagram_url"))
  aligned : Aligned n c

section Columns

variable {n c : Name} {db : Database Cell}

theorem keeps_has (h : Survives n c) :
    ∀ s ∈ migrations, Keeps s fun db => db.has n c = true := by
  simp only [migrations, List.forall_mem_cons]
  exact ⟨(has_preserveInstagramTags fun hn => h.cover ⟨hn.1, Or.inl hn.2⟩).keeps, fun _ hdb => hdb,
    has_addHashedApiKeyColumns, (has_renameCoverImageUrl h.cover).keeps,
    has_removeSavedArticleStatus.keeps, (has_alignToTrimmedSchema h.aligned).keeps,
    has_update.keeps, has_removeSubscriptionAccounts.keeps, has_clearLegacySecretsAndOrphans.keeps,
    fun _ hs => absurd hs List.not_mem_nil⟩

theorem survives_node : ∀ m ∈ nodeColumns, Survives m.1 m.2 := by
  have hall : ∀ m ∈ nodeColumns,
      ¬ (m.1 = "Article" ∧ (m.2 = "cover_image_url" ∨ m.2 = "cover_instagram_url")) ∧
        (m.1, m.2) ∉ droppedColumns ∧ m.1 ∉ removedTables := by decide
  intro m hm
  obtain ⟨hcover, hcolumn, htable⟩ := hall m hm
  exact ⟨hcover, hcolumn, htable⟩

theorem survives_apiKey : ∀ column ∈ apiKeyColumns, Survives "User" column.1 := by
  have hall : ∀ column ∈ apiKeyColumns, ("User", column.1) ∉ droppedColumns := by decide
  intro column hcolumn
  exact ⟨fun hn => absurd hn.1 (by decide), hall column hcolumn, by decide⟩

/-- The database after the first files. -/
def stage (k : Nat) (db : Database Cell) : Database Cell := (block (migrations.take k)).effect db

theorem stage_succ (k : Nat) (hk : k < migrations.length) :
    stage (k + 1) db = migrations[k].effect (stage k db) := block_take_succ hk db

/-- A column of the Node schema that survives is there at every stage. -/
theorem stage_has (h : NodeEra db) (k : Nat) {m : Name × Name} (hm : m ∈ nodeColumns) :
    (stage k db).has m.1 m.2 = true := by
  have hkeeps : Keeps (block (migrations.take k)) fun db => db.has m.1 m.2 = true :=
    block_keeps fun s hs => keeps_has (survives_node m hm) s (List.mem_of_mem_take hs)
  exact hkeeps db (h.columns m hm)

/-- 0002 leaves its columns there, whether or not it has added them. -/
theorem addHashedApiKeyColumns_has {column : Name × Name} (hcolumn : column ∈ apiKeyColumns)
    (h : db.has "User" "id" = true) :
    (addHashedApiKeyColumns.effect db).has "User" column.1 = true := by
  obtain ⟨before, after, hsplit⟩ := List.append_of_mem hcolumn
  have hadd : ∀ (columns : List (Name × Name)) (c : Name),
      ∀ s ∈ columns.map fun column => addColumn (V := Cell) "User" column.1 column.2,
        Keeps s fun db => db.has "User" c = true := by
    intro columns c s hs
    obtain ⟨other, -, rfl⟩ := List.mem_map.mp hs
    exact keeps_addColumn
  unfold addHashedApiKeyColumns apiKeyStatements
  rw [hsplit, List.map_append, List.map_cons, List.append_assoc, List.cons_append]
  refine block_establishes (P := fun db => db.has "User" column.1 = true) (hadd before "id")
    (fun db hdb => ?_) (fun s hs => ?_) h
  · rw [has_addColumn, hasTable hdb, decide_eq_true ⟨rfl, rfl⟩]
    exact Bool.or_true _
  · obtain hs | hs := List.mem_append.mp hs
    · exact hadd after column.1 s hs
    · obtain rfl := List.mem_singleton.mp hs
      exact fun _ hdb => hdb

end Columns

/-! ## Each file runs -/

section Needs

variable {n : Name} {db : Database Cell}

/-- A swap runs if the name for the old type is free, and every row's cast is a label of the new
type. -/
theorem swapType_needs {name column type old : Name} {labels : List Text}
    {mentions : List (Name × Name)} {cast : Row Cell → Option Text} {default : String}
    (hcolumn : db.has name column = true) (hmentions : ∀ m ∈ mentions, db.has m.1 m.2 = true)
    (htype : (db.labels type).isSome = true) (hold : db.labels old = none) (hne : type ≠ old)
    (hcast : ∀ r ∈ db.rows name, ∀ label ∈ cast r, label ∈ labels) :
    (block (swapType name column type old labels mentions cast default)).needs db = true := by
  -- Dropping the default, renaming the old type and creating the new one.
  have hrenamed : ∀ n c, ((renameType type old).effect ((setDefault name column none).effect
      db)).has n c = db.has n c := fun n c => (has_renameType _).trans (has_setDefault db)
  have hcreated : (createType type labels).needs ((renameType type old).effect
      ((setDefault name column none).effect db)) = true := by
    show (if type = old then db.labels type else if type = type then none
      else db.labels type).isNone = true
    rw [if_neg hne, if_pos rfl]
    rfl
  have haltered : (alterType name column type mentions cast Cell.text).needs
      ((createType type labels).effect ((renameType type old).effect
        ((setDefault name column none).effect db))) = true := by
    have hdefault : ((renameType type old).effect ((setDefault name column none).effect
        db)).default name column = none :=
      (default_renameType _).trans (default_setDefault hcolumn)
    have hrows : ((renameType type old).effect ((setDefault name column none).effect db)).rows name
        = db.rows name := (rows_renameType _).trans (rows_setDefault db)
    refine Bool.and_eq_true_iff.mpr ⟨Bool.and_eq_true_iff.mpr ⟨Bool.and_eq_true_iff.mpr ⟨?_, ?_⟩,
      ?_⟩, ?_⟩
    · exact (hrenamed name column).trans hcolumn
    · exact List.all_eq_true.mpr fun m hm => (hrenamed m.1 m.2).trans (hmentions m hm)
    · exact Option.isNone_iff_eq_none.mpr hdefault
    · show ((if type = type then some labels else _).any _) = true
      rw [if_pos rfl, Option.any_some]
      refine List.all_eq_true.mpr fun r hr => ?_
      have hlabels := hcast r (hrows ▸ hr)
      cases hlabel : cast r with
      | none => rfl
      | some label => exact List.contains_iff_mem.mpr (hlabels label hlabel)
  simp only [swapType, block_cons_needs, Bool.and_eq_true]
  refine ⟨hcolumn, ?_, hcreated, haltered, ?_, ?_, rfl⟩
  · exact Bool.and_eq_true_iff.mpr ⟨htype, Option.isNone_iff_eq_none.mpr hold⟩
  · exact (has_alterType _).trans ((hrenamed name column).trans hcolumn)
  · show (if old = type then some labels else if old = old then db.labels type
      else if old = type then none else db.labels old).isSome = true
    rw [if_neg hne.symm, if_pos rfl, htype]

/-- An index can be made if its name is free and its columns are there. -/
theorem createIndex_needs {name : Name} {index : Index} (hfree : db.indexes name = none)
    (hcolumns : ∀ c ∈ index.columns, db.has index.table c = true) :
    (createIndex name index).needs db = true :=
  Bool.and_eq_true_iff.mpr ⟨Option.isNone_iff_eq_none.mpr hfree, List.all_eq_true.mpr hcolumns⟩

theorem preserveInstagramTags_needs (htags : db.has "Article" "instagram_post_url" = true)
    (hcover : db.has "Article" "cover_instagram_url" = true) :
    preserveInstagramTags.needs db = true := by
  refine Bool.or_eq_true_iff.mpr (Or.inr ?_)
  simp only [block_cons_needs, Bool.and_eq_true]
  refine ⟨?_, ?_, rfl⟩
  · show (db.has "Article" "instagram_post_url" &&
      (db.has "Article" "cover_instagram_url" && true)) = true
    rw [htags, hcover]
    rfl
  · exact hasTable ((has_update db).trans hcover)

/-- 0002 runs: rows without a prefix do not collide in the index. -/
theorem addHashedApiKeyColumns_needs (huser : db.has "User" "id" = true)
    (hprefixes : ∀ r ∈ db.rows "User", r "api_key_prefix" = none) :
    addHashedApiKeyColumns.needs db = true := by
  have hcolumns : ∀ s ∈ apiKeyColumns.map fun column =>
      addColumn (V := Cell) "User" column.1 column.2, ∀ d : Database Cell,
      d.has "User" "id" = true ∧ d.rows "User" = db.rows "User" → s.needs d = true ∧
        (s.effect d).has "User" "id" = true ∧ (s.effect d).rows "User" = db.rows "User" := by
    rintro s hs d ⟨hd, hrows⟩
    obtain ⟨column, -, rfl⟩ := List.mem_map.mp hs
    refine ⟨hasTable hd, ?_, (rows_addColumn d).trans hrows⟩
    rw [has_addColumn, hd, Bool.true_or]
  obtain ⟨hneeds, -, hrows⟩ := block_needs (P := fun d => d.has "User" "id" = true ∧
    d.rows "User" = db.rows "User") ⟨huser, rfl⟩ hcolumns
  have hhas : (addHashedApiKeyColumns.effect db).has "User" "api_key_prefix" = true :=
    addHashedApiKeyColumns_has (show ("api_key_prefix", "TEXT") ∈ apiKeyColumns by decide) huser
  -- all the prefixes are null, and a unique index does not compare nulls
  have hunique : UniqueCol (fun r : Row Cell => (r "api_key_prefix").map fun cell =>
      (textOf (some cell)).getD []) (db.rows "User") := by
    have hnull : (db.rows "User").filterMap (fun r : Row Cell => (r "api_key_prefix").map
        fun cell => (textOf (some cell)).getD []) = [] := by
      refine List.filterMap_eq_nil_iff.mpr fun r hr => ?_
      rw [hprefixes r hr]
      rfl
    unfold UniqueCol
    rw [hnull]
    exact List.nodup_nil
  unfold addHashedApiKeyColumns apiKeyStatements at hhas ⊢
  rw [block_append] at hhas
  rw [block_append_needs, hneeds, Bool.true_and, block_cons_needs]
  refine Bool.and_eq_true_iff.mpr ⟨Bool.or_eq_true_iff.mpr (Or.inr ?_), rfl⟩
  refine Bool.and_eq_true_iff.mpr ⟨hhas, decide_eq_true ?_⟩
  rw [hrows]
  exact hunique

/-- 0004 runs: once saved articles are drafts, every status is one of the three. -/
theorem removeSavedArticleStatus_needs
    (hcolumns : ∀ c ∈ ["article_status", "created_at", "category", "views"],
      db.has "Article" c = true)
    (htype : (db.labels "ArticleStatus").isSome = true)
    (hfree : db.labels "ArticleStatus_old" = none)
    (hrows : ∀ r ∈ db.rows "Article", ∀ label ∈ textOf (r "article_status"), label ∈ nodeStatuses) :
    removeSavedArticleStatus.needs db = true := by
  -- The swap and the rebuilding find the columns as they were.
  have hdropped : ∀ s ∈ [ draftSaved, dropIndex "Article_published_created_at_idx",
      dropIndex "Article_published_views_idx", dropIndex "Article_status_category_created_at_idx" ],
      ∀ c, Leaves s fun db => db.has "Article" c := by
    simp only [List.forall_mem_cons]
    exact ⟨fun _ => has_update, fun _ _ => rfl, fun _ _ => rfl, fun _ _ => rfl,
      fun _ hs => absurd hs List.not_mem_nil⟩
  have hkept : ∀ c, _ := fun c => block_frame (fun s hs => hdropped s hs c) db
  refine Bool.or_eq_true_iff.mpr (Or.inr ?_)
  rw [statusStatements, block_append_needs, block_append_needs, block_append]
  refine Bool.and_eq_true_iff.mpr ⟨Bool.and_eq_true_iff.mpr ⟨?_, ?_⟩, ?_⟩
  · show (db.has "Article" "article_status" && true && (true && (true && (true && true)))) = true
    rw [hcolumns "article_status" (by decide)]
    rfl
  · refine swapType_needs ((hkept _).trans (hcolumns "article_status" (by decide)))
      (fun m hm => absurd hm List.not_mem_nil) htype hfree (by decide) ?_
    intro r hr label hlabel
    replace hr : r ∈ (draftSaved.effect db).rows "Article" := hr
    rw [draftSaved, rows_update, if_pos rfl] at hr
    obtain ⟨r, hstored, rfl⟩ := List.mem_map.mp hr
    by_cases hsaved : isSaved r = true
    · rw [if_pos hsaved, Row.set_self] at hlabel
      obtain rfl := Option.some.inj hlabel
      decide
    · rw [if_neg hsaved] at hlabel
      obtain rfl | hmem := List.mem_cons.mp (hrows r hstored label hlabel)
      · exact absurd (beq_iff_eq.mpr hlabel) hsaved
      · exact hmem
  · have hindexed : ∀ c ∈ ["article_status", "created_at", "category", "views"],
        ((block swapStatus).effect ((block _).effect db)).has "Article" c = true :=
      fun c hc => (block_frame has_swapType _).trans ((hkept c).trans (hcolumns c hc))
    simp only [block_cons_needs, Bool.and_eq_true]
    refine ⟨createIndex_needs rfl ?_, createIndex_needs rfl ?_, createIndex_needs rfl ?_, rfl⟩
    all_goals
      intro c hc
      refine hindexed c ?_
      revert c
      decide

theorem classify_mem (title : Text) : classify title ∈ categoryLabels := by
  unfold classify
  split
  · decide
  split
  · decide
  split
  · decide
  split
  · decide
  split <;> decide

/-- Every legacy category has a new one. -/
theorem rehome_mem {r : Row Cell} (h : ∀ label ∈ textOf (r "category"), label ∈ nodeCategories) :
    ∀ label ∈ rehome r, label ∈ categoryLabels := by
  intro label hlabel
  obtain ⟨category, hcategory, rfl⟩ := Option.map_eq_some_iff.mp hlabel
  split
  next => decide
  next hjob =>
    split
    next => exact classify_mem _
    next hexam =>
      have hother : ∀ category ∈ nodeCategories, category ≠ "job".toList →
          category ≠ "exam".toList → category ∈ categoryLabels := by decide
      exact hother category (h category hcategory) hjob hexam

/-- The swap of the categories runs: every legacy category is cast to a new label. -/
theorem replaceCategories_needs (hcategory : db.has "Article" "category" = true)
    (htitle : db.has "Article" "title" = true)
    (htype : (db.labels "ArticleCategory").isSome = true)
    (hfree : db.labels "ArticleCategory_old" = none)
    (hrows : ∀ r ∈ db.rows "Article", ∀ label ∈ textOf (r "category"), label ∈ nodeCategories) :
    replaceCategories.needs db = true := by
  refine Bool.or_eq_true_iff.mpr (Or.inr (swapType_needs hcategory ?_ htype hfree (by decide) ?_))
  · exact List.forall_mem_singleton.mpr htitle
  · exact fun r hr => rehome_mem (hrows r hr)

/-- A type that need not be there can always be dropped. -/
theorem dropTypeIfExists_needs {type : Name} : (dropTypeIfExists type).needs db = true := by
  show (!(db.labels type).isSome || ((db.labels type).isSome && true)) = true
  cases (db.labels type).isSome <;> rfl

theorem alignToTrimmedSchema_needs (harticle : db.has "Article" "id" = true)
    (huser : db.has "User" "id" = true) (h : replaceCategories.needs db = true) :
    alignToTrimmedSchema.needs db = true := by
  have harticleId : Aligned "Article" "id" := (survives_node ("Article", "id") (by decide)).aligned
  have huserId : Aligned "User" "id" := (survives_node ("User", "id") (by decide)).aligned
  have hids := (has_replaceCategories db).trans harticle
  have hids' := (has_replaceCategories db).trans huser
  refine Bool.and_eq_true_iff.mpr ⟨h, ?_⟩
  refine (block_needs (P := fun d => d.has "Article" "id" = true ∧ d.has "User" "id" = true)
    ⟨hids, hids'⟩ ?_).1
  -- dropping a column needs the table, and everything else says IF EXISTS
  have hneeds : ∀ s ∈ trimSchema, ∀ d : Database Cell,
      d.has "Article" "id" = true ∧ d.has "User" "id" = true → s.needs d = true := by
    have htables : ∀ m ∈ droppedColumns, m.1 = "Article" ∨ m.1 = "User" := by decide
    refine forall_trimSchema (fun _ _ => rfl) (fun m hm d hd => ?_) (fun _ _ _ _ => rfl)
      fun _ _ _ _ => dropTypeIfExists_needs
    obtain hname | hname := htables m hm
    · exact hname ▸ hasTable hd.1
    · exact hname ▸ hasTable hd.2
  rintro s hs d ⟨hd, hd'⟩
  exact ⟨hneeds s hs d ⟨hd, hd'⟩, (has_trimSchema harticleId s hs d).trans hd,
    (has_trimSchema huserId s hs d).trans hd'⟩

end Needs

/-! ## What a file finds -/

section Stages

variable {n : Name} {db : Database Cell}

/-- Up to the renaming, the labels other than the roles are those of the Node service. -/
theorem stage_labels (h : n ≠ "UserRole") :
    ∀ s ∈ migrations.take 4, Leaves s fun db => db.labels n := by
  simp only [migrations, List.take_succ_cons, List.take_zero, List.forall_mem_cons]
  exact ⟨labels_preserveInstagramTags, fun _ => if_neg h, labels_addHashedApiKeyColumns,
    labels_renameCoverImageUrl, fun _ hs => absurd hs List.not_mem_nil⟩

/-- The first four files write the tags and the covers, and are not seen otherwise. -/
theorem stage_view {columns : List Name}
    (h : ∀ c ∈ ["instagram_post_url", "cover_image_url", "cover_instagram_url"], c ∉ columns) :
    ∀ s ∈ migrations.take 4, Leaves s fun db => db.view "Article" columns := by
  have htags := h "instagram_post_url" (by decide)
  have hcover := h "cover_image_url" (by decide)
  have hold := h "cover_instagram_url" (by decide)
  simp only [migrations, List.take_succ_cons, List.take_zero, List.forall_mem_cons]
  exact ⟨view_preserveInstagramTags fun _ => ⟨htags, hcover⟩, fun _ => rfl,
    view_addHashedApiKeyColumns, view_renameCoverImageUrl fun _ => ⟨hold, hcover⟩,
    fun _ hs => absurd hs List.not_mem_nil⟩

theorem stage_statuses (h : NodeEra db) : ∀ r ∈ (stage 4 db).rows "Article",
    ∀ label ∈ textOf (r "article_status"), label ∈ nodeStatuses := by
  have hview : (stage 4 db).view "Article" ["article_status"] =
    db.view "Article" ["article_status"] :=
    block_frame (stage_view (by decide)) db
  exact forall_rows hview (fun _ => Iff.rfl) h.statuses

/-- The categories 0005 finds are those of the Node era. -/
theorem stage_categories (h : NodeEra db) : ∀ r ∈ (stage 5 db).rows "Article",
    ∀ label ∈ textOf (r "category"), label ∈ nodeCategories := by
  have hview : (stage 5 db).view "Article" ["category"] =
    (stage 4 db).view "Article" ["category"] :=
    view_removeSavedArticleStatus (fun _ => by decide) (stage 4 db)
  have hstage : (stage 4 db).view "Article" ["category"] = db.view "Article" ["category"] :=
    block_frame (stage_view (by decide)) db
  exact forall_rows (hview.trans hstage) (fun _ => Iff.rfl) h.categories

theorem stage_cover (h : NodeEra db) : (stage 3 db).has "Article" "cover_instagram_url" = true := by
  have hkeeps : ∀ s ∈ migrations.take 3, Keeps s fun db => db.has "Article" "cover_instagram_url" =
      true := by
    simp only [migrations, List.take_succ_cons, List.take_zero, List.forall_mem_cons]
    exact ⟨(has_preserveInstagramTags (by decide)).keeps, fun _ hdb => hdb,
      has_addHashedApiKeyColumns, fun _ hs => absurd hs List.not_mem_nil⟩
  exact block_keeps hkeeps db h.cover

/-- The name for the cover is free when it is to be renamed. -/
theorem stage_coverFree (h : NodeEra db) :
    (stage 3 db).has "Article" "cover_image_url" = false := by
  have hdropped : (preserveInstagramTags.effect db).has "Article" "cover_image_url" = false := by
    rw [preserveInstagramTags, whenever_true h.cover, block_cons, block_cons]
    refine (has_dropColumn _).trans ?_
    rw [decide_eq_true ⟨rfl, rfl⟩, Bool.not_true, Bool.and_false]
  exact (has_addHashedApiKeyColumns_ne (by decide) _).trans hdropped

theorem stage_views (h : NodeEra db) : (stage 4 db).has "Article" "views" = true := by
  have hkeeps : ∀ s ∈ migrations.take 4, Keeps s fun db => db.has "Article" "views" = true := by
    simp only [migrations, List.take_succ_cons, List.take_zero, List.forall_mem_cons]
    exact ⟨(has_preserveInstagramTags (by decide)).keeps, fun _ hdb => hdb,
      has_addHashedApiKeyColumns, (has_renameCoverImageUrl (by decide)).keeps,
      fun _ hs => absurd hs List.not_mem_nil⟩
  exact block_keeps hkeeps db h.views

/-- The cover is renamed, and has its new name from then on. -/
theorem stage_renamed (h : NodeEra db) : (stage 4 db).has "Article" "cover_image_url" = true ∧
    (stage 4 db).has "Article" "cover_instagram_url" = false := by
  have hcover := stage_cover h
  have hrename : stage 4 db = renameCoverImageUrl.effect (stage 3 db) := stage_succ 3 (by decide)
  rw [hrename, renameCoverImageUrl, whenever_true hcover, block_cons]
  constructor
  · exact (has_renameColumn _).trans hcover
  · exact has_renameColumn _

/-- From the sixth file on, the covers have their new name. -/
theorem stage_coverKept (h : NodeEra db) : (stage 6 db).has "Article" "cover_image_url" = true := by
  have hstatus : (stage 5 db).has "Article" "cover_image_url" = true :=
    (has_removeSavedArticleStatus (stage 4 db)).trans (stage_renamed h).1
  have hstage : stage 6 db = alignToTrimmedSchema.effect (stage 5 db) := stage_succ 5 (by decide)
  have hcover : Aligned "Article" "cover_image_url" := ⟨by decide, by decide⟩
  rw [hstage]
  exact (has_alignToTrimmedSchema hcover (stage 5 db)).trans hstatus

theorem stage_apiKey (h : NodeEra db) {column : Name × Name} (hcolumn : column ∈ apiKeyColumns) :
    (stage 3 db).has "User" column.1 = true := by
  have hid : (stage 2 db).has "User" "id" = true :=
    stage_has h 2 (show ("User", "id") ∈ nodeColumns by decide)
  have hstage : stage 3 db = addHashedApiKeyColumns.effect (stage 2 db) := stage_succ 2 (by decide)
  rw [hstage]
  exact addHashedApiKeyColumns_has hcolumn hid

/-- What a stage leaves, after some more files. -/
theorem stage_add (j k : Nat) :
    stage (j + k) db = (block ((migrations.drop j).take k)).effect (stage j db) := by
  unfold stage
  rw [List.take_add, block_append]

/-- A fact of one stage that the files keep is one of the later stages. -/
theorem stage_keeps {P : Database Cell → Prop} {j : Nat} (hj : P (stage j db))
    (hkeeps : ∀ s ∈ migrations.drop j, Keeps s P) (k : Nat) : P (stage (j + k) db) := by
  rw [stage_add]
  exact block_keeps (fun s hs => hkeeps s (List.mem_of_mem_take hs)) _ hj

theorem apiKey_kept (h : NodeEra db) {column : Name × Name} (hcolumn : column ∈ apiKeyColumns)
    (k : Nat) : (stage (3 + k) db).has "User" column.1 = true :=
  stage_keeps (P := fun db => db.has "User" column.1 = true) (stage_apiKey h hcolumn)
    (fun s hs => keeps_has (survives_apiKey column hcolumn) s (List.mem_of_mem_drop hs)) k

theorem mentioned_node {d : Database Cell} {mentions : List (Name × Name)}
    (hnode : ∀ m ∈ nodeColumns, d.has m.1 m.2 = true)
    (hkeys : ∀ column ∈ apiKeyColumns, d.has "User" column.1 = true)
    (hmentions : ∀ m ∈ mentions,
      m ∈ nodeColumns ++ apiKeyColumns.map fun column => ("User", column.1)) :
    mentioned mentions d = true := by
  refine List.all_eq_true.mpr fun m hm => ?_
  obtain hm | hm := List.mem_append.mp (hmentions m hm)
  · exact hnode m hm
  · obtain ⟨column, hcolumn, rfl⟩ := List.mem_map.mp hm
    exact hkeys column hcolumn

theorem renameCoverImageUrl_needs (h : NodeEra db) :
    renameCoverImageUrl.needs (stage 3 db) = true := by
  refine Bool.or_eq_true_iff.mpr (Or.inr ?_)
  show (((stage 3 db).has "Article" "cover_instagram_url" &&
    !(stage 3 db).has "Article" "cover_image_url") && true) = true
  rw [stage_cover h, stage_coverFree h]
  rfl

theorem removeSubscriptionAccounts_needs (h : NodeEra db) :
    removeSubscriptionAccounts.needs (stage 7 db) = true := by
  have hdefault := stage_has h 7 (show ("User", "auth_provider") ∈ nodeColumns by decide)
  have hmentioned : mentioned [("User", "auth_provider"), ("User", "google_id"),
      ("User", "last_login_at"), ("User", "api_key_hash"), ("User", "role"), ("User", "id"),
      ("Bookmark", "user_id"), ("Article", "author_id")] (stage 7 db) = true :=
    mentioned_node (fun m hm => stage_has h 7 hm) (fun column hcolumn => apiKey_kept h hcolumn 4)
      (by decide)
  simp only [removeSubscriptionAccounts, block_cons_needs, Bool.and_eq_true]
  exact ⟨hmentioned, (has_delete _).trans hdefault, rfl⟩

theorem clearLegacySecretsAndOrphans_needs (h : NodeEra db) :
    clearLegacySecretsAndOrphans.needs (stage 8 db) = true := by
  have hnode : ∀ m ∈ nodeColumns, (stage 8 db).has m.1 m.2 = true := fun m hm => stage_has h 8 hm
  have hkeys : ∀ column ∈ apiKeyColumns, (stage 8 db).has "User" column.1 = true :=
    fun column hcolumn => apiKey_kept h hcolumn 5
  unfold clearLegacySecretsAndOrphans
  rw [block_cons_needs, block_cons_needs]
  have hsecrets : mentioned [("User", "api_key")] (stage 8 db) = true :=
    mentioned_node hnode hkeys (by decide)
  rw [update_needs, delete_needs, hsecrets, Bool.true_and]
  refine Bool.and_eq_true_iff.mpr ⟨?_, rfl⟩
  have hcleared : ∀ n c, ((update "User" [("User", "api_key")] (fun r : Row Cell =>
      (r "api_key").isSome) (fun r => r.set "api_key" none)).effect (stage 8 db)).has n c =
        (stage 8 db).has n c := fun _ _ => has_update (stage 8 db)
  refine mentioned_node (fun m hm => ?_) (fun column hcolumn => ?_) (by decide)
  · rw [hcleared]
    exact hnode m hm
  · rw [hcleared]
    exact hkeys column hcolumn

theorem addHashedApiKeyColumns_runs (h : NodeEra db) :
    addHashedApiKeyColumns.needs (stage 2 db) = true := by
  have hview : (stage 2 db).view "User" ["api_key_prefix"] = db.view "User" ["api_key_prefix"] :=
    view_preserveInstagramTags (fun hn => absurd hn (by decide)) db
  have hprefixes : ∀ r ∈ (stage 2 db).rows "User", r "api_key_prefix" = none :=
    forall_rows hview (fun _ => Iff.rfl) h.noPrefix
  exact addHashedApiKeyColumns_needs
    (stage_has h 2 (show ("User", "id") ∈ nodeColumns by decide)) hprefixes

theorem removeSavedArticleStatus_runs (h : NodeEra db) :
    removeSavedArticleStatus.needs (stage 4 db) = true := by
  have hlabels : ∀ n, n ≠ "UserRole" → (stage 4 db).labels n = db.labels n :=
    fun n hn => block_frame (stage_labels hn) db
  refine removeSavedArticleStatus_needs ?_ ?_ ?_ (stage_statuses h)
  · simp only [List.forall_mem_cons]
    exact ⟨stage_has h 4 (show ("Article", "article_status") ∈ nodeColumns by decide),
      stage_has h 4 (show ("Article", "created_at") ∈ nodeColumns by decide),
      stage_has h 4 (show ("Article", "category") ∈ nodeColumns by decide), stage_views h,
      fun _ hc => absurd hc List.not_mem_nil⟩
  · rw [hlabels _ (by decide)]
    exact h.status
  · rw [hlabels _ (by decide)]
    exact h.statusFree

theorem alignToTrimmedSchema_runs (h : NodeEra db) :
    alignToTrimmedSchema.needs (stage 5 db) = true := by
  have hlabels : ∀ n, n ≠ "UserRole" → n ≠ "ArticleStatus" → n ≠ "ArticleStatus_old" →
      (stage 5 db).labels n = db.labels n := fun n hn hstatus hold =>
    (labels_removeSavedArticleStatus hstatus hold (stage 4 db)).trans
      (block_frame (stage_labels hn) db)
  have hreplace : replaceCategories.needs (stage 5 db) = true := by
    refine replaceCategories_needs
      (stage_has h 5 (show ("Article", "category") ∈ nodeColumns by decide))
      (stage_has h 5 (show ("Article", "title") ∈ nodeColumns by decide)) ?_ ?_ (stage_categories h)
    · rw [hlabels _ (by decide) (by decide) (by decide)]
      exact h.category
    · rw [hlabels _ (by decide) (by decide) (by decide)]
      exact h.categoryFree
  exact alignToTrimmedSchema_needs (stage_has h 5 (show ("Article", "id") ∈ nodeColumns by decide))
    (stage_has h 5 (show ("User", "id") ∈ nodeColumns by decide)) hreplace

/-- Every file runs to its end. -/
theorem chain_needs (h : NodeEra db) : chain.needs db = true := by
  refine block_runs fun k hk => ?_
  -- each script in the database that those before it have left
  show migrations[k].needs (stage k db) = true
  match k, hk with
  | 0, _ =>
    exact preserveInstagramTags_needs
      (h.columns ("Article", "instagram_post_url") (by decide)) h.cover
  | 1, _ =>
    -- 0000 does not touch the types
    have hrole : (stage 1 db).labels "UserRole" = db.labels "UserRole" :=
      labels_preserveInstagramTags db
    show ((stage 1 db).labels "UserRole").isSome = true
    rw [hrole]
    exact h.userRole
  | 2, _ => exact addHashedApiKeyColumns_runs h
  | 3, _ => exact renameCoverImageUrl_needs h
  | 4, _ => exact removeSavedArticleStatus_runs h
  | 5, _ => exact alignToTrimmedSchema_runs h
  | 6, _ =>
    have hneeds : migrations[6].needs (stage 6 db) =
      ((stage 6 db).has "Article" "cover_image_url" && true) := rfl
    rw [hneeds, stage_coverKept h]
    rfl
  | 7, _ => exact removeSubscriptionAccounts_needs h
  | 8, _ => exact clearLegacySecretsAndOrphans_needs h

end Stages

end SarkariWorld.Migrations
