import SarkariWorld.Migrations.Scripts

/-!
# What each migration leaves alone

The columns, the values and the labels a file does not name are after it what they
were. Each of these is the frame rule, applied to the statements of the file; what the
longer files consist of is taken apart once (`forall_swapType`,
`forall_statusStatements`, `forall_trimSchema`).

The lemmas are sorted by what is observed: the columns of a table, the rows as far as some
columns go, the labels of a type, the indexes. Within each part they follow the order of
the files. A file that does write what is observed has a condition for it (`h : n =
"Article" → ...`), so that it can be used wherever something else is observed.
-/

namespace SarkariWorld.Migrations

open SarkariWorld.Lib SarkariWorld.Lib.Sql Statement Database

variable {n c i : Name} {columns : List Name}

/-! ## The statements of a file -/

section Statements

variable {P : Statement Cell → Prop}

/-- What holds of two statements holds of a block of them. -/
theorem forall_pair {α : Type} {P : α → Prop} {a b : α} (ha : P a) (hb : P b) : ∀ s ∈ [a, b], P s :=
  List.forall_mem_cons.mpr ⟨ha, List.forall_mem_singleton.mpr hb⟩

/-- The statements of 0002 are the added columns and the index. -/
theorem forall_apiKeyStatements
    (hadd : ∀ column ∈ apiKeyColumns, P (addColumn "User" column.1 column.2))
    (hindex : P createApiKeyIndex) : ∀ s ∈ apiKeyStatements, P s := by
  intro s hs
  obtain hs | hs := List.mem_append.mp hs
  · obtain ⟨column, hcolumn, rfl⟩ := List.mem_map.mp hs
    exact hadd column hcolumn
  · obtain rfl := List.mem_singleton.mp hs
    exact hindex

theorem forall_swapType {name column type old : Name} {labels : List Text}
    {mentions : List (Name × Name)} {cast : Row Cell → Option Text} {default : String}
    (hdefault : ∀ value, P (setDefault name column value)) (hrename : P (renameType type old))
    (hcreate : P (createType type labels))
    (halter : P (alterType name column type mentions cast .text))
    (hdrop : P (dropType old)) :
    ∀ s ∈ swapType name column type old labels mentions cast default, P s := by
  simp only [swapType, List.forall_mem_cons]
  exact ⟨hdefault none, hrename, hcreate, halter, hdefault _, hdrop,
    fun _ hs => absurd hs List.not_mem_nil⟩

/-- The indexes that name the status, which 0004 drops and makes again. -/
def statusIndexes : List Name :=
  ["Article_published_created_at_idx", "Article_published_views_idx",
    "Article_status_category_created_at_idx"]

theorem forall_statusStatements (hdraft : P draftSaved)
    (hdrop : ∀ name ∈ statusIndexes, P (dropIndex name)) (hswap : ∀ s ∈ swapStatus, P s)
    (hcreate : ∀ name ∈ statusIndexes, ∀ index, P (createIndex name index)) :
    ∀ s ∈ statusStatements, P s := by
  intro s hs
  obtain hs | hs := List.mem_append.mp hs
  · obtain hs | hs := List.mem_append.mp hs
    · simp only [List.mem_cons, List.not_mem_nil, or_false] at hs
      obtain rfl | rfl | rfl | rfl := hs
      · exact hdraft
      all_goals exact hdrop _ (by decide)
    · exact hswap s hs
  · simp only [List.mem_cons, List.not_mem_nil, or_false] at hs
    obtain rfl | rfl | rfl := hs
    all_goals exact hcreate _ (by decide) _

/-- The columns that 0005 drops. -/
def droppedColumns : List (Name × Name) :=
  [("Article", "views"), ("Article", "related_articles")] ++
    removedUserColumns.map fun column => ("User", column)

/-- The types that 0005 drops. -/
def droppedTypes : List Name := ["EmailMode", "EmailLogStatus"]

theorem forall_trimSchema (hindex : P (dropIndex "Article_published_views_idx"))
    (hcolumn : ∀ m ∈ droppedColumns, P (dropColumn m.1 m.2))
    (htable : ∀ name ∈ removedTables, P (dropTable name))
    (htype : ∀ type ∈ droppedTypes, P (dropTypeIfExists type)) : ∀ s ∈ trimSchema, P s := by
  intro s hs
  obtain hs | hs := List.mem_append.mp hs
  · obtain hs | hs := List.mem_append.mp hs
    · obtain hs | hs := List.mem_append.mp hs
      · simp only [List.mem_cons, List.not_mem_nil, or_false] at hs
        obtain rfl | rfl | rfl := hs
        · exact hindex
        · exact hcolumn ("Article", "views") (by decide)
        · exact hcolumn ("Article", "related_articles") (by decide)
      · obtain ⟨column, hmem, rfl⟩ := List.mem_map.mp hs
        exact hcolumn ("User", column) (List.mem_append_right _ (List.mem_map_of_mem hmem))
    · obtain ⟨name, hname, rfl⟩ := List.mem_map.mp hs
      exact htable name hname
  · simp only [List.mem_cons, List.not_mem_nil, or_false] at hs
    obtain rfl | rfl := hs
    · exact htype _ (by decide)
    · exact htype _ (by decide)

end Statements

/-! ## Columns -/

theorem has_dropColumn_ne {name column : Name} (h : ¬ (n = name ∧ c = column)) :
    Leaves (dropColumn (V := Cell) name column) fun db => db.has n c := by
  refine fun db => (has_dropColumn db).trans ?_
  rw [decide_eq_false h, Bool.not_false, Bool.and_true]

theorem has_preserveInstagramTags (h : ¬ (n = "Article" ∧ c = "cover_image_url")) :
    Leaves preserveInstagramTags fun db => db.has n c :=
  whenever_frame (forall_pair has_update (has_dropColumn_ne h))

theorem has_addHashedApiKeyColumns :
    Keeps addHashedApiKeyColumns fun db => db.has n c = true :=
  block_keeps (forall_apiKeyStatements (fun _ _ => keeps_addColumn) fun _ hdb => hdb)

theorem has_addHashedApiKeyColumns_ne (h : n ≠ "User") :
    Leaves addHashedApiKeyColumns fun db => db.has n c := by
  refine block_frame (forall_apiKeyStatements (fun column _ db => ?_) fun _ => rfl)
  refine (has_addColumn db).trans ?_
  rw [decide_eq_false (fun hsame => h hsame.1), Bool.false_and, Bool.or_false]

theorem has_renameCoverImageUrl
    (h : ¬ (n = "Article" ∧ (c = "cover_image_url" ∨ c = "cover_instagram_url"))) :
    Leaves renameCoverImageUrl fun db => db.has n c := by
  refine whenever_frame (List.forall_mem_singleton.mpr fun db => (has_renameColumn db).trans ?_)
  split
  next hn =>
    rw [if_neg fun hc => h ⟨hn, Or.inl hc⟩, if_neg fun hc => h ⟨hn, Or.inr hc⟩]
  next => rfl

theorem has_swapType {name column type old : Name} {labels : List Text}
    {mentions : List (Name × Name)} {cast : Row Cell → Option Text} {default : String} :
    ∀ s ∈ swapType name column type old labels mentions cast default,
      Leaves s fun db => db.has n c :=
  forall_swapType (fun _ => has_setDefault) has_renameType (fun _ => rfl) has_alterType fun _ => rfl

theorem has_removeSavedArticleStatus : Leaves removeSavedArticleStatus fun db => db.has n c :=
  whenever_frame (forall_statusStatements has_update (fun _ _ _ => rfl) has_swapType
    fun _ _ _ _ => rfl)

/-- The columns that 0005 does not drop. -/
structure Aligned (n c : Name) : Prop where
  column : (n, c) ∉ droppedColumns
  table : n ∉ removedTables

theorem dropTypeIfExists_frame {α : Type} {observe : Database Cell → α} {type : Name}
    (h : Leaves (dropType type) observe) : Leaves (dropTypeIfExists type) observe :=
  whenever_frame (List.forall_mem_singleton.mpr h)

/-- The second half of 0005 leaves the columns it does not drop. -/
theorem has_trimSchema (h : Aligned n c) : ∀ s ∈ trimSchema, Leaves s fun db => db.has n c := by
  refine forall_trimSchema (fun _ => rfl) (fun m hm => ?_) (fun name hname => ?_)
    fun _ _ => dropTypeIfExists_frame fun _ => rfl
  · refine has_dropColumn_ne fun hsame => h.column ?_
    rwa [hsame.1, hsame.2]
  · refine has_dropTable fun hsame => h.table ?_
    rwa [hsame]

theorem has_replaceCategories : Leaves replaceCategories fun db => db.has n c :=
  whenever_frame has_swapType

theorem has_alignToTrimmedSchema (h : Aligned n c) :
    Leaves alignToTrimmedSchema fun db => db.has n c :=
  block_frame (List.forall_mem_cons.mpr ⟨has_replaceCategories, has_trimSchema h⟩)

theorem has_removeSubscriptionAccounts :
    Leaves removeSubscriptionAccounts fun db => db.has n c :=
  block_frame (forall_pair has_delete has_setDefault)

theorem has_clearLegacySecretsAndOrphans :
    Leaves clearLegacySecretsAndOrphans fun db => db.has n c :=
  block_frame (forall_pair has_update has_delete)

/-! ## Values -/

/-- 0000 writes the tags, and drops the column whose name is to be used again. -/
theorem view_preserveInstagramTags
    (h : n = "Article" → "instagram_post_url" ∉ columns ∧ "cover_image_url" ∉ columns) :
    Leaves preserveInstagramTags fun db => db.view n columns :=
  whenever_frame (forall_pair (view_update fun hn _ => restrict_set (h hn).1)
    (view_dropColumn fun hn => (h hn).2))

theorem view_addHashedApiKeyColumns :
    Leaves addHashedApiKeyColumns fun db => db.view n columns :=
  block_frame (forall_apiKeyStatements (fun _ _ => view_addColumn) fun _ => rfl)

theorem view_renameCoverImageUrl
    (h : n = "Article" → "cover_instagram_url" ∉ columns ∧ "cover_image_url" ∉ columns) :
    Leaves renameCoverImageUrl fun db => db.view n columns :=
  whenever_frame (List.forall_mem_singleton.mpr (view_renameColumn h))

theorem view_swapType {name column type old : Name} {labels : List Text}
    {mentions : List (Name × Name)} {cast : Row Cell → Option Text} {default : String}
    (h : n = name → column ∉ columns) :
    ∀ s ∈ swapType name column type old labels mentions cast default,
      Leaves s fun db => db.view n columns :=
  forall_swapType (fun _ => view_setDefault) view_renameType (fun _ => rfl) (view_alterType h)
    fun _ => rfl

theorem view_removeSavedArticleStatus (h : n = "Article" → "article_status" ∉ columns) :
    Leaves removeSavedArticleStatus fun db => db.view n columns :=
  whenever_frame (forall_statusStatements (view_update fun hn _ => restrict_set (h hn))
    (fun _ _ _ => rfl) (view_swapType h) fun _ _ _ _ => rfl)

theorem view_alignToTrimmedSchema (hcategory : n = "Article" → "category" ∉ columns)
    (h : ∀ c ∈ columns, (n, c) ∉ droppedColumns) (htable : n ∉ removedTables) :
    Leaves alignToTrimmedSchema fun db => db.view n columns := by
  refine block_frame (List.forall_mem_cons.mpr ⟨whenever_frame (view_swapType hcategory), ?_⟩)
  refine forall_trimSchema (fun _ => rfl) (fun m hm => ?_) (fun name hname => ?_)
    fun _ _ => dropTypeIfExists_frame fun _ => rfl
  · refine view_dropColumn fun hn hc => h m.2 hc ?_
    rwa [hn]
  · refine view_dropTable fun hsame => htable ?_
    rwa [hsame]

theorem view_clearNonImageCoverUrls (h : n = "Article" → "cover_image_url" ∉ columns) :
    Leaves clearNonImageCoverUrls fun db => db.view n columns :=
  view_update fun hn _ => restrict_set (h hn)

theorem rows_removeSubscriptionAccounts (h : n ≠ "User") :
    Leaves removeSubscriptionAccounts fun db => db.rows n :=
  block_frame (forall_pair (fun db => (rows_delete db).trans (if_neg h)) rows_setDefault)

/-! ## Labels -/

theorem labels_dropColumn {name column : Name} :
    Leaves (dropColumn (V := Cell) name column) fun db => db.labels n := by
  intro db
  unfold dropColumn
  dsimp only
  split <;> rfl

theorem labels_dropTable {name : Name} :
    Leaves (dropTable (V := Cell) name) fun db => db.labels n := by
  intro db
  unfold dropTable
  dsimp only
  split <;> rfl

theorem labels_preserveInstagramTags : Leaves preserveInstagramTags fun db => db.labels n :=
  whenever_frame (forall_pair (fun _ => rfl) labels_dropColumn)

theorem labels_addHashedApiKeyColumns : Leaves addHashedApiKeyColumns fun db => db.labels n :=
  block_frame (forall_apiKeyStatements (fun _ _ _ => rfl) fun _ => rfl)

theorem labels_renameCoverImageUrl : Leaves renameCoverImageUrl fun db => db.labels n :=
  whenever_frame (List.forall_mem_singleton.mpr fun _ => rfl)

section Swap

variable {name column type old : Name} {labels : List Text} {mentions : List (Name × Name)}
  {cast : Row Cell → Option Text} {default : String}

/-- A type that is swapped has the new labels, and the old one is gone. -/
theorem labels_swapType (db : Database Cell) :
    ((block (swapType name column type old labels mentions cast default)).effect db).labels n =
      if n = old then none else if n = type then some labels else db.labels n := by
  show (if n = old then none else if n = type then some labels else if n = old then
    db.labels type else if n = type then none else db.labels n) = _
  by_cases hold : n = old
  · rw [if_pos hold, if_pos hold]
  by_cases htype : n = type
  · simp only [if_neg hold, if_pos htype]
  · simp only [if_neg hold, if_neg htype]

/-- A swap concerns two types, the one that is swapped and the name the old one has meanwhile. -/
theorem labels_swapType_ne (htype : n ≠ type) (hold : n ≠ old) :
    ∀ s ∈ swapType name column type old labels mentions cast default,
      Leaves s fun db => db.labels n :=
  forall_swapType (fun _ _ => rfl) (fun _ => (if_neg hold).trans (if_neg htype))
    (fun _ => if_neg htype) (fun _ => rfl) fun _ => if_neg hold

theorem hasLabel_swapType (hold : type ≠ old) (label : Text) (db : Database Cell) :
    ((block (swapType name column type old labels mentions cast default)).effect db).hasLabel type
      label = labels.contains label := by
  unfold Database.hasLabel
  rw [labels_swapType, if_neg hold, if_pos rfl]
  rfl

end Swap

theorem labels_removeSavedArticleStatus (h : n ≠ "ArticleStatus") (hold : n ≠ "ArticleStatus_old") :
    Leaves removeSavedArticleStatus fun db => db.labels n :=
  whenever_frame (forall_statusStatements (fun _ => rfl) (fun _ _ _ => rfl)
    (labels_swapType_ne h hold) fun _ _ _ _ => rfl)

/-- The second half of 0005 concerns the types it drops. -/
theorem labels_trimSchema (h : n ∉ droppedTypes) :
    ∀ s ∈ trimSchema, Leaves s fun db => db.labels n := by
  refine forall_trimSchema (fun _ => rfl) (fun _ _ => labels_dropColumn)
    (fun _ _ => labels_dropTable)
    fun type htype => dropTypeIfExists_frame fun _ => if_neg fun hsame => h ?_
  rwa [hsame]

theorem labels_alignToTrimmedSchema (htype : n ≠ "ArticleCategory")
    (hold : n ≠ "ArticleCategory_old") (h : n ∉ droppedTypes) :
    Leaves alignToTrimmedSchema fun db => db.labels n :=
  block_frame (List.forall_mem_cons.mpr
    ⟨whenever_frame (labels_swapType_ne htype hold), labels_trimSchema h⟩)

theorem hasLabel_createIndex {name type : Name} {index : Index} {label : Text} :
    Leaves (createIndex (V := Cell) name index) fun db => db.hasLabel type label := fun _ => rfl

/-- The label is gone, whether or not it had been there. -/
theorem noSaved_removeSavedArticleStatus (db : Database Cell) :
    (removeSavedArticleStatus.effect db).hasLabel "ArticleStatus" "saved".toList = false := by
  cases hguard : db.hasLabel "ArticleStatus" "saved".toList with
  | false => rw [removeSavedArticleStatus, whenever_false hguard, hguard]
  | true =>
    rw [removeSavedArticleStatus, whenever_true hguard, statusStatements, block_append,
      block_append]
    have hindexes : ∀ s ∈ [createIndex "Article_published_created_at_idx" publishedCreatedAtIndex,
        createIndex "Article_published_views_idx" publishedViewsIndex,
        createIndex "Article_status_category_created_at_idx" statusCategoryIndex],
        Leaves s fun db : Database Cell => db.hasLabel "ArticleStatus" "saved".toList :=
      List.forall_mem_cons.mpr
        ⟨hasLabel_createIndex, forall_pair hasLabel_createIndex hasLabel_createIndex⟩
    exact (block_frame hindexes _).trans (hasLabel_swapType (by decide) _ _)

/-- After 0005 there is no `job`, whether it was there before or not. -/
theorem noJob_alignToTrimmedSchema (db : Database Cell) :
    (alignToTrimmedSchema.effect db).hasLabel "ArticleCategory" "job".toList = false := by
  have hreplaced : (replaceCategories.effect db).hasLabel "ArticleCategory" "job".toList =
      false := by
    cases hguard : db.hasLabel "ArticleCategory" "job".toList with
    | false => rw [replaceCategories, whenever_false hguard, hguard]
    | true =>
      rw [replaceCategories, whenever_true hguard]
      exact hasLabel_swapType (by decide) _ _
  have hlabels : (alignToTrimmedSchema.effect db).labels "ArticleCategory" =
      (replaceCategories.effect db).labels "ArticleCategory" :=
    block_frame (labels_trimSchema (by decide)) _
  unfold Database.hasLabel at hreplaced ⊢
  rw [hlabels, hreplaced]

/-! ## What 0005 removes -/

section Removed

variable (db : Database Cell)

theorem noViewsIndex_alignToTrimmedSchema :
    (alignToTrimmedSchema.effect db).indexes "Article_published_views_idx" = none := by
  have hmem : dropIndex "Article_published_views_idx" ∈ trimSchema := by
    refine List.mem_append_left _ (List.mem_append_left _ (List.mem_append_left _ ?_))
    exact List.mem_cons_self
  refine block_reaches (P := fun d => d.indexes "Article_published_views_idx" = none) hmem
    indexes_dropIndex ?_ (replaceCategories.effect db)
  exact forall_trimSchema (fun d _ => indexes_dropIndex d) (fun _ _ => noIndex_dropColumn)
    (fun _ _ => noIndex_dropTable) fun _ _ =>
      whenever_keeps (List.forall_mem_singleton.mpr fun _ h => h)

theorem noColumn_alignToTrimmedSchema {m : Name × Name} (hm : m ∈ droppedColumns) :
    (alignToTrimmedSchema.effect db).has m.1 m.2 = false := by
  have htables : ∀ m ∈ droppedColumns, m.1 ∉ removedTables := by decide
  have hgone : ∀ d : Database Cell, ((dropColumn m.1 m.2).effect d).has m.1 m.2 = false := by
    intro d
    rw [has_dropColumn, decide_eq_true ⟨rfl, rfl⟩, Bool.not_true, Bool.and_false]
  have hmem : dropColumn m.1 m.2 ∈ trimSchema := by
    refine List.mem_append_left _ (List.mem_append_left _ ?_)
    obtain hm | hm := List.mem_append.mp hm
    · simp only [List.mem_cons, List.not_mem_nil, or_false] at hm
      obtain rfl | rfl := hm
      · exact List.mem_append_left _ (List.mem_cons_of_mem _ List.mem_cons_self)
      · exact List.mem_append_left _
          (List.mem_cons_of_mem _ (List.mem_cons_of_mem _ List.mem_cons_self))
    · obtain ⟨column, hcolumn, rfl⟩ := List.mem_map.mp hm
      exact List.mem_append_right _ (List.mem_map_of_mem hcolumn)
  refine block_reaches (P := fun d => d.has m.1 m.2 = false) hmem hgone ?_
    (replaceCategories.effect db)
  refine forall_trimSchema (fun _ h => h) (fun _ _ => noColumn_dropColumn) (fun name hname => ?_)
    fun _ _ => whenever_keeps (List.forall_mem_singleton.mpr fun _ h => h)
  refine (has_dropTable fun hsame => htables m hm ?_).keeps
  rwa [hsame]

theorem noTable_alignToTrimmedSchema {name : Name} (hname : name ∈ removedTables) :
    (alignToTrimmedSchema.effect db).tables name = none := by
  have hmem : dropTable name ∈ trimSchema :=
    List.mem_append_left _ (List.mem_append_right _ (List.mem_map_of_mem hname))
  refine block_reaches (P := fun d => d.tables name = none) hmem tables_dropTable ?_
    (replaceCategories.effect db)
  exact forall_trimSchema (fun _ h => h) (fun _ _ => noTable_dropColumn)
    (fun _ _ => noTable_dropTable) fun _ _ =>
      whenever_keeps (List.forall_mem_singleton.mpr fun _ h => h)

theorem noType_alignToTrimmedSchema {type : Name} (htype : type ∈ droppedTypes) :
    (alignToTrimmedSchema.effect db).labels type = none := by
  have hgone : ∀ d : Database Cell, ((dropTypeIfExists type).effect d).labels type = none := by
    intro d
    cases hlabels : d.labels type with
    | none =>
      rw [dropTypeIfExists, whenever_false (by rw [hlabels]; rfl), hlabels]
    | some labels =>
      rw [dropTypeIfExists, whenever_true (by rw [hlabels]; rfl)]
      exact if_pos rfl
  have hmem : dropTypeIfExists type ∈ trimSchema := by
    refine List.mem_append_right _ ?_
    simp only [droppedTypes, List.mem_cons, List.not_mem_nil, or_false] at htype
    obtain rfl | rfl := htype
    · exact List.mem_cons_self
    · exact List.mem_cons_of_mem _ List.mem_cons_self
  refine block_reaches (P := fun d => d.labels type = none) hmem hgone ?_
    (replaceCategories.effect db)
  refine forall_trimSchema (fun _ h => h) (fun _ _ => labels_dropColumn.keeps)
    (fun _ _ => labels_dropTable.keeps) fun other _ => ?_
  refine whenever_keeps (List.forall_mem_singleton.mpr fun d h => ?_)
  show (if type = other then none else d.labels type) = none
  rw [h]
  exact ite_self _

end Removed

/-! ## The index on the key prefixes -/

/-- The index of 0002, as the catalogue has it. -/
def apiKeyIndex : Index := ⟨"User", ["api_key_prefix"], "UNIQUE (api_key_prefix)"⟩

theorem index_swapType {name column type old : Name} {labels : List Text}
    {mentions : List (Name × Name)} {cast : Row Cell → Option Text}
    {default : String} {index : Index} :
    ∀ s ∈ swapType name column type old labels mentions cast default,
      Keeps s fun db => db.indexes i = some index :=
  forall_swapType (fun _ _ h => h) (fun _ h => h) (fun _ h => h) (fun _ h => h) fun _ h => h

/-- 0004 makes other indexes again, and leaves this one. -/
theorem apiKeyIndex_removeSavedArticleStatus : Keeps removeSavedArticleStatus
    fun db => db.indexes "User_api_key_prefix_key" = some apiKeyIndex := by
  have hother : ∀ name ∈ statusIndexes, "User_api_key_prefix_key" ≠ name := by decide
  exact whenever_keeps (forall_statusStatements (fun _ h => h)
    (fun name hname => index_dropIndex (hother name hname)) index_swapType
    fun name hname _ => index_createIndex (hother name hname))

theorem apiKeyIndex_alignToTrimmedSchema : Keeps alignToTrimmedSchema
    fun db => db.indexes "User_api_key_prefix_key" = some apiKeyIndex := by
  have hcolumns : ∀ m ∈ droppedColumns, m.2 ∉ apiKeyIndex.columns := by decide
  have htables : apiKeyIndex.table ∉ removedTables := by decide
  refine block_keeps (List.forall_mem_cons.mpr ⟨whenever_keeps index_swapType, ?_⟩)
  refine forall_trimSchema (index_dropIndex (by decide))
    (fun m hm => index_dropColumn fun _ => hcolumns m hm) (fun name hname => ?_)
    fun _ _ => whenever_keeps (List.forall_mem_singleton.mpr fun _ h => h)
  refine index_dropTable fun hsame => htables ?_
  rwa [hsame]

end SarkariWorld.Migrations
