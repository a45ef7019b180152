import SarkariWorld.Migrations.Scripts

/-!
# A migrated database

What the chain looks for, it finds done (`Migrated`): each file that asks whether it
has been applied is told so, and the others have no row to change. What is left for a
run of the chain on such a database is the one statement that asks nothing of the
schema and looks at another table, the deletion in 0007 (`chain_migrated`).

The chain keeps no ledger, so `Migrated` is spelled out in terms of what the files look
at. It is one fact for each question of a `DO` block, for each `IF EXISTS` and `IF NOT
EXISTS`, and for each `WHERE`. A database has it or not whatever its history, and for one
that has it a run is easy to follow: eight files do nothing (`Idle`).
-/

namespace SarkariWorld.Migrations

open SarkariWorld.Lib SarkariWorld.Lib.Sql Statement

/-- The columns the last two files read. -/
def accountColumns : List (Name × Name) :=
  [("User", "id"), ("User", "role"), ("User", "auth_provider"), ("User", "google_id"),
    ("User", "last_login_at"), ("User", "api_key"), ("Bookmark", "user_id"),
    ("Bookmark", "article_id"), ("Article", "id"), ("Article", "author_id")]

/-- Nothing is left to be done, but for accounts that could be removed. -/
structure Migrated (db : Database Cell) : Prop where
  accounts : ∀ m ∈ accountColumns, db.has m.1 m.2 = true
  renamed : db.has "Article" "cover_instagram_url" = false
  cover : db.has "Article" "cover_image_url" = true
  editor : db.hasLabel "UserRole" "editor".toList = true
  apiKeys : ∀ column ∈ apiKeyColumns, db.has "User" column.1 = true
  apiKeyIndex : (db.indexes "User_api_key_prefix_key").isSome = true
  noSaved : db.hasLabel "ArticleStatus" "saved".toList = false
  noJob : db.hasLabel "ArticleCategory" "job".toList = false
  noViewsIndex : db.indexes "Article_published_views_idx" = none
  noViews : db.has "Article" "views" = false
  noRelated : db.has "Article" "related_articles" = false
  noUserColumns : ∀ column ∈ removedUserColumns, db.has "User" column = false
  noTables : ∀ name ∈ removedTables, db.tables name = none
  noEmailMode : db.labels "EmailMode" = none
  noEmailLogStatus : db.labels "EmailLogStatus" = none
  covers : ∀ r ∈ db.rows "Article", (textOf (r "cover_image_url")).any isInstagramUrl = false
  google : db.default "User" "auth_provider" = textCell "google"
  noSecrets : ∀ r ∈ db.rows "User", r "api_key" = none
  noOrphans : ∀ r ∈ db.rows "Bookmark", isOrphan db r = false

/-- The deletion of 0007. -/
def removeAccounts (db : Database Cell) : Database Cell :=
  db.onTable "User" fun t => { t with rows := t.rows.filter fun r => !isSubscription db r }

section Chain

variable {db : Database Cell}

/-- A file that changes nothing. -/
def Idle (s : Statement Cell) (db : Database Cell) : Prop := s.needs db = true ∧ s.effect db = db

/-- A block of statements that change nothing changes nothing. -/
theorem block_idle {l : List (Statement Cell)} (h : ∀ s ∈ l, Idle s db) : Idle (block l) db := by
  refine block_needs (P := fun d => d = db) rfl fun s hs d hd => ?_
  rw [hd]
  exact h s hs

theorem whenever_idle {test : Database Cell → Bool} {l : List (Statement Cell)}
    (h : test db = false) : Idle (whenever test l) db := ⟨whenever_needs h, whenever_false h⟩

theorem addHashedApiKeyColumns_idle (h : Migrated db) : Idle addHashedApiKeyColumns db := by
  refine block_idle fun s hs => ?_
  obtain hs | hs := List.mem_append.mp hs
  · obtain ⟨column, hcolumn, rfl⟩ := List.mem_map.mp hs
    have hhas := h.apiKeys column hcolumn
    exact ⟨hasTable hhas, addColumn_unchanged hhas⟩
  · obtain rfl := List.mem_singleton.mp hs
    refine ⟨?_, createUniqueIndex_unchanged h.apiKeyIndex⟩
    exact Bool.or_eq_true_iff.mpr (Or.inl h.apiKeyIndex)

/-- 0005 finds the label gone, and everything that it drops. -/
theorem alignToTrimmedSchema_idle (h : Migrated db) : Idle alignToTrimmedSchema db := by
  have harticle := hasTable h.cover
  have huser : (db.tables "User").isSome = true := hasTable (h.accounts ("User", "id") (by decide))
  refine block_idle (List.forall_mem_cons.mpr ⟨whenever_idle h.noJob, fun s hs => ?_⟩)
  obtain hs | hs := List.mem_append.mp hs
  · obtain hs | hs := List.mem_append.mp hs
    · obtain hs | hs := List.mem_append.mp hs
      · simp only [List.mem_cons, List.not_mem_nil, or_false] at hs
        obtain rfl | rfl | rfl := hs
        · exact ⟨rfl, dropIndex_unchanged h.noViewsIndex⟩
        · exact ⟨harticle, dropColumn_unchanged h.noViews⟩
        · exact ⟨harticle, dropColumn_unchanged h.noRelated⟩
      · obtain ⟨column, hcolumn, rfl⟩ := List.mem_map.mp hs
        exact ⟨huser, dropColumn_unchanged (h.noUserColumns column hcolumn)⟩
    · obtain ⟨name, hname, rfl⟩ := List.mem_map.mp hs
      exact ⟨rfl, dropTable_unchanged (h.noTables name hname)⟩
  · simp only [List.mem_cons, List.not_mem_nil, or_false] at hs
    obtain rfl | rfl := hs
    · exact whenever_idle (by rw [h.noEmailMode]; rfl)
    · exact whenever_idle (by rw [h.noEmailLogStatus]; rfl)

theorem clearNonImageCoverUrls_idle (h : Migrated db) : Idle clearNonImageCoverUrls db := by
  refine ⟨?_, update_unchanged h.covers⟩
  show (db.has "Article" "cover_image_url" && true) = true
  rw [h.cover]
  rfl

/-! ## The deletion -/

theorem has_removeAccounts (name column : Name) :
    (removeAccounts db).has name column = db.has name column := has_onTable fun _ => rfl

theorem default_removeAccounts :
    (removeAccounts db).default "User" "auth_provider" = db.default "User" "auth_provider" :=
  default_onTable fun _ => rfl

theorem rows_removeAccounts (name : Name) : (removeAccounts db).rows name =
    if name = "User" then (db.rows name).filter fun r => !isSubscription db r else db.rows name :=
  rows_onTable (fun _ => rfl) rfl

/-- An account with a bookmark is kept. -/
theorem hasId_removeAccounts {b : Row Cell} (hb : b ∈ db.rows "Bookmark")
    (h : hasId db "User" (intOf (b "user_id")) = true) :
    hasId (removeAccounts db) "User" (intOf (b "user_id")) = true := by
  obtain ⟨u, hu, hid⟩ := List.any_eq_true.mp h
  refine List.any_eq_true.mpr ⟨u, ?_, hid⟩
  rw [rows_removeAccounts, if_pos rfl]
  refine List.mem_filter.mpr ⟨hu, ?_⟩
  rw [Bool.not_eq_true', Bool.eq_false_iff]
  intro hgone
  have hnot := List.all_eq_true.mp (Bool.and_eq_true_iff.mp hgone).2 _ (List.mem_map_of_mem hb)
  obtain ⟨-, hsame⟩ := Bool.and_eq_true_iff.mp hid
  rw [eq_of_beq hsame] at hnot
  simp at hnot

/-- The result is migrated again. No bookmark becomes an orphan by it, because the accounts that go
have none. -/
theorem removeAccounts_migrated (h : Migrated db) : Migrated (removeAccounts db) where
  accounts m hm := (has_removeAccounts m.1 m.2).trans (h.accounts m hm)
  renamed := (has_removeAccounts _ _).trans h.renamed
  cover := (has_removeAccounts _ _).trans h.cover
  editor := h.editor
  apiKeys column hcolumn := (has_removeAccounts _ _).trans (h.apiKeys column hcolumn)
  apiKeyIndex := h.apiKeyIndex
  noSaved := h.noSaved
  noJob := h.noJob
  noViewsIndex := h.noViewsIndex
  noViews := (has_removeAccounts _ _).trans h.noViews
  noRelated := (has_removeAccounts _ _).trans h.noRelated
  noUserColumns column hcolumn := (has_removeAccounts _ _).trans (h.noUserColumns column hcolumn)
  -- 0007 works on the rows of one table, and makes none
  noTables name hname := by
    show (if name = "User" then (db.tables name).map _ else db.tables name) = none
    rw [h.noTables name hname]
    exact ite_self _
  noEmailMode := h.noEmailMode
  noEmailLogStatus := h.noEmailLogStatus
  covers := by
    rw [rows_removeAccounts, if_neg (by decide)]
    exact h.covers
  google := default_removeAccounts.trans h.google
  noSecrets := by
    rw [rows_removeAccounts, if_pos rfl]
    exact fun r hr => h.noSecrets r (List.mem_of_mem_filter hr)
  -- an account that a bookmark names is not deleted
  noOrphans := by
    rw [rows_removeAccounts, if_neg (by decide)]
    intro b hb
    have hkept := h.noOrphans b hb
    rw [isOrphan, Bool.or_eq_false_iff, Bool.not_eq_false', Bool.not_eq_false'] at hkept ⊢
    refine ⟨hasId_removeAccounts hb hkept.1, ?_⟩
    rw [hasId, rows_removeAccounts, if_neg (by decide)]
    exact hkept.2

theorem mentioned_accounts (h : Migrated db) {mentions : List (Name × Name)}
    (hmentions : ∀ m ∈ mentions, m ∈ accountColumns ∨
      ∃ column ∈ apiKeyColumns, m = ("User", column.1)) :
    mentioned mentions db = true := by
  refine List.all_eq_true.mpr fun m hm => ?_
  obtain hm | ⟨column, hcolumn, rfl⟩ := hmentions m hm
  · exact h.accounts m hm
  · exact h.apiKeys column hcolumn

theorem removeSubscriptionAccounts_migrated (h : Migrated db) :
    removeSubscriptionAccounts.needs db = true ∧
      removeSubscriptionAccounts.effect db = removeAccounts db := by
  have hmentioned : mentioned [("User", "auth_provider"), ("User", "google_id"),
      ("User", "last_login_at"), ("User", "api_key_hash"), ("User", "role"), ("User", "id"),
      ("Bookmark", "user_id"), ("Article", "author_id")] db = true := by
    refine mentioned_accounts h ?_
    decide
  have hdefault := (removeAccounts_migrated h).accounts ("User", "auth_provider") (by decide)
  refine ⟨?_, setDefault_unchanged (removeAccounts_migrated h).google⟩
  exact Bool.and_eq_true_iff.mpr ⟨hmentioned, Bool.and_eq_true_iff.mpr ⟨hdefault, rfl⟩⟩

theorem clearLegacySecretsAndOrphans_idle (h : Migrated db) :
    Idle clearLegacySecretsAndOrphans db := by
  refine block_idle fun s hs => ?_
  simp only [List.mem_cons, List.not_mem_nil, or_false] at hs
  obtain rfl | rfl := hs
  · refine ⟨mentioned_accounts h (by decide), update_unchanged fun r hr => ?_⟩
    rw [h.noSecrets r hr]
    rfl
  · exact ⟨mentioned_accounts h (by decide), delete_unchanged h.noOrphans⟩

/-- **A run on a migrated database** deletes the accounts that are not in use, and does
nothing else. -/
theorem chain_migrated (h : Migrated db) :
    chain.needs db = true ∧ chain.effect db = removeAccounts db := by
  -- the first seven scripts find nothing to do
  have hidle : Idle (block [preserveInstagramTags, addEditorRole, addHashedApiKeyColumns,
      renameCoverImageUrl, removeSavedArticleStatus, alignToTrimmedSchema,
      clearNonImageCoverUrls]) db := by
    refine block_idle fun s hs => ?_
    simp only [List.mem_cons, List.not_mem_nil, or_false] at hs
    obtain rfl | rfl | rfl | rfl | rfl | rfl | rfl := hs
    · exact whenever_idle h.renamed
    · exact ⟨hasType h.editor, addValue_unchanged h.editor⟩
    · exact addHashedApiKeyColumns_idle h
    · exact whenever_idle h.renamed
    · exact whenever_idle h.noSaved
    · exact alignToTrimmedSchema_idle h
    · exact clearNonImageCoverUrls_idle h
  obtain ⟨hneeds, heffect⟩ := hidle
  obtain ⟨hneeds7, heffect7⟩ := removeSubscriptionAccounts_migrated h
  obtain ⟨hneeds8, heffect8⟩ := clearLegacySecretsAndOrphans_idle (removeAccounts_migrated h)
  -- 0007 removes accounts, and after that 0008 finds nothing to do either
  have hsplit := block_append [preserveInstagramTags, addEditorRole, addHashedApiKeyColumns,
    renameCoverImageUrl, removeSavedArticleStatus, alignToTrimmedSchema, clearNonImageCoverUrls]
    [removeSubscriptionAccounts, clearLegacySecretsAndOrphans] db
  have hsplit' := block_append_needs [preserveInstagramTags, addEditorRole, addHashedApiKeyColumns,
    renameCoverImageUrl, removeSavedArticleStatus, alignToTrimmedSchema, clearNonImageCoverUrls]
    [removeSubscriptionAccounts, clearLegacySecretsAndOrphans] db
  rw [heffect, block_cons, block_cons, heffect7, heffect8] at hsplit
  rw [hneeds, heffect, block_cons_needs, block_cons_needs, heffect7, hneeds7, hneeds8] at hsplit'
  exact ⟨hsplit', hsplit⟩

end Chain

end SarkariWorld.Migrations
