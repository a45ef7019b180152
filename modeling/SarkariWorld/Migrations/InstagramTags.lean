import SarkariWorld.Migrations.Rerun

/-!
# No Instagram tag is lost

0000 copies a cover that is not among the tags to their end, 0003 renames the column
of the cover, and 0006 clears what is not an image. What that does to an article is a
function of its row (`migratedArticle`), and further runs leave the articles alone.

The tags are JSON, and 0000 compares by containment: a cover is left where some tag
already is an object with its URL, whatever its title. So `Carried` asks for a tag with
the cover's URL, for the old tags in their order, and for the cover itself where it is an
image.
-/

namespace SarkariWorld.Migrations

open SarkariWorld.Lib SarkariWorld.Lib.Sql SarkariWorld.Content Statement Database

variable {db : Database Cell}

/-! ## What happens to an article -/

/-- Before the renaming. -/
def tagColumns : List Name := ["id", "instagram_post_url", "cover_instagram_url"]

/-- After it. -/
def mediaColumns : List Name := ["id", "instagram_post_url", "cover_image_url"]

/-- 0000, on a row. -/
def preserved (r : Row Cell) : Row Cell := if (unlistedCover r).isSome then preserveTag r else r

/-- 0003, on a row. -/
def renamed (r : Row Cell) : Row Cell :=
  (r.set "cover_instagram_url" none).set "cover_image_url" (r "cover_instagram_url")

/-- 0006, on a row. -/
def cleared (r : Row Cell) : Row Cell :=
  if (textOf (r "cover_image_url")).any isInstagramUrl then r.set "cover_image_url" none else r

/-- An article after a run, as far as its tags and its cover go. -/
def migratedArticle (r : Row Cell) : Row Cell :=
  restrict mediaColumns
    (cleared (restrict mediaColumns (renamed (restrict tagColumns (preserved r)))))

theorem view_preserved (h : NodeEra db) : (stage 1 db).view "Article" tagColumns =
    (db.rows "Article").map fun r => restrict tagColumns (preserved r) := by
  have hview : (stage 1 db).view "Article" tagColumns =
      ((update "Article" [("Article", "instagram_post_url"), ("Article", "cover_instagram_url")]
        (fun r => (unlistedCover r).isSome) preserveTag).effect db).view "Article" tagColumns := by
    show (preserveInstagramTags.effect db).view "Article" tagColumns = _
    rw [preserveInstagramTags, whenever_true h.cover, block_cons]
    exact view_dropColumn (fun _ => by decide) _
  rw [hview, Database.view, rows_update, if_pos rfl, List.map_map]
  rfl

/-- 0003, row by row; the files between the two leave the columns alone. -/
theorem view_renamed (h : NodeEra db) : (stage 4 db).view "Article" mediaColumns =
    ((stage 1 db).view "Article" tagColumns).map fun r => restrict mediaColumns (renamed r) := by
  have hbefore : (stage 3 db).view "Article" tagColumns =
      (stage 1 db).view "Article" tagColumns := by
    rw [stage_succ 2 (by decide)]
    exact view_addHashedApiKeyColumns (stage 2 db)
  have hrows : (stage 4 db).rows "Article" = ((stage 3 db).rows "Article").map renamed := by
    rw [stage_succ 3 (by decide)]
    show (renameCoverImageUrl.effect (stage 3 db)).rows "Article" = _
    rw [renameCoverImageUrl, whenever_true (stage_cover h), block_cons]
    exact (rows_renameColumn (stage 3 db)).trans (if_pos rfl)
  have hread : ∀ r : Row Cell, restrict mediaColumns (renamed (restrict tagColumns r)) =
      restrict mediaColumns (renamed r) := by
    intro r
    refine restrict_ext fun c hc => ?_
    simp only [mediaColumns, List.mem_cons, List.not_mem_nil, or_false] at hc
    obtain rfl | rfl | rfl := hc <;> rfl
  rw [← hbefore, Database.view, Database.view, hrows, List.map_map, List.map_map]
  exact List.map_congr_left fun r _ => (hread r).symm

theorem view_cleared : (chain.effect db).view "Article" mediaColumns =
    ((stage 4 db).view "Article" mediaColumns).map fun r => restrict mediaColumns (cleared r) := by
  -- 0006 is the last script that touches the articles
  have hlast : (chain.effect db).rows "Article" = (stage 7 db).rows "Article" := by
    show (stage (7 + 2) db).rows "Article" = _
    rw [stage_add]
    exact block_frame rows_lastTwo (stage 7 db)
  have hrows : (stage 7 db).rows "Article" = ((stage 6 db).rows "Article").map cleared := by
    rw [stage_succ 6 (by decide)]
    exact (rows_update (stage 6 db)).trans (if_pos rfl)
  -- 0004 and 0005 leave the columns of the media alone
  have hbefore : (stage 6 db).view "Article" mediaColumns =
      (stage 4 db).view "Article" mediaColumns := by
    have hstatus : (stage 5 db).view "Article" mediaColumns =
        (stage 4 db).view "Article" mediaColumns := by
      rw [stage_succ 4 (by decide)]
      exact view_removeSavedArticleStatus (fun _ => by decide) (stage 4 db)
    rw [stage_succ 5 (by decide)]
    exact (view_alignToTrimmedSchema (fun _ => by decide) (by decide) (by decide)
      (stage 5 db)).trans
      hstatus
  -- and what 0006 does to a row it reads off these columns
  have hread : ∀ r : Row Cell, restrict mediaColumns (cleared (restrict mediaColumns r)) =
      restrict mediaColumns (cleared r) := by
    intro r
    refine restrict_ext fun c hc => ?_
    by_cases hinstagram : (textOf (r "cover_image_url")).any isInstagramUrl = true
    · have hclear : cleared r = r.set "cover_image_url" none := if_pos hinstagram
      have hclear' : cleared (restrict mediaColumns r) =
          (restrict mediaColumns r).set "cover_image_url" none := if_pos hinstagram
      simp only [mediaColumns, List.mem_cons, List.not_mem_nil, or_false] at hc
      rw [hclear, hclear']
      obtain rfl | rfl | rfl := hc <;> rfl
    · have hkeep : cleared r = r := if_neg hinstagram
      have hkeep' : cleared (restrict mediaColumns r) = restrict mediaColumns r := if_neg hinstagram
      rw [hkeep, hkeep']
      exact if_pos hc
  rw [← hbefore, Database.view, Database.view, hlast, hrows, List.map_map, List.map_map]
  exact List.map_congr_left fun r _ => (hread r).symm

theorem view_migrated (h : NodeEra db) :
    (chain.effect db).view "Article" mediaColumns = (db.rows "Article").map migratedArticle := by
  rw [view_cleared, view_renamed h, view_preserved h, List.map_map, List.map_map]
  rfl

/-! ## The tags -/

/-- `instagram_post_url` is null, or a list with these elements. -/
def Tagged (r : Row Cell) (tags : List Json) : Prop :=
  r "instagram_post_url" = none ∧ tags = [] ∨ r "instagram_post_url" = some (.json (.list tags))

/-- The cover is null or a text. -/
def Covered (r : Row Cell) : Prop :=
  r "cover_instagram_url" = none ∨ ∃ url, r "cover_instagram_url" = some (.text url)

/-- What becomes of the cover. -/
def imageOf (cover : Option Text) : Option Text := cover.filter fun url => !isInstagramUrl url

/-- An article before the migrations, and after. -/
structure Carried (before after : Row Cell) : Prop where
  id : after "id" = before "id"
  /-- The tags are there, in their order, and one may have come to the end. -/
  tags : ∃ tags appended, Tagged before tags ∧ Tagged after (tags ++ appended) ∧
    appended.length ≤ 1 ∧ ∀ url ∈ textOf (before "cover_instagram_url"), url ≠ [] →
      ∃ tag ∈ tags ++ appended, Json.hasUrl url tag = true
  image : after "cover_image_url" = (imageOf (textOf (before "cover_instagram_url"))).map Cell.text

theorem instagramTags_eq {r : Row Cell} {tags : List Json} (h : Tagged r tags) :
    instagramTags r = .list tags := by
  obtain ⟨hnull, rfl⟩ | hlist := h
  · rw [instagramTags, hnull]
    rfl
  · rw [instagramTags, hlist]
    rfl

theorem hasUrl_instagramTag (url : Text) : Json.hasUrl url (instagramTag url) = true := by
  show ((_ && (url == url)) || _) = true
  rw [beq_self_eq_true, beq_self_eq_true]
  rfl

theorem cleared_of_ne {r : Row Cell} {c : Name} (h : c ≠ "cover_image_url") :
    cleared r c = r c := by
  unfold cleared
  split
  · exact Row.set_of_ne h
  · rfl

/-- A cover that is an Instagram link is cleared, any other stays. -/
theorem cleared_image (r : Row Cell) : cleared r "cover_image_url" =
    if (textOf (r "cover_image_url")).any isInstagramUrl then none else r "cover_image_url" := by
  unfold cleared
  split
  · exact Row.set_self
  · rfl

theorem preserved_of_ne {r : Row Cell} {c : Name} (h : c ≠ "instagram_post_url") :
    preserved r c = r c := by
  unfold preserved
  split
  · exact Row.set_of_ne h
  · rfl

theorem migratedArticle_id (r : Row Cell) : migratedArticle r "id" = r "id" :=
  (cleared_of_ne (by decide)).trans (preserved_of_ne (by decide))

theorem migratedArticle_tags (r : Row Cell) :
    migratedArticle r "instagram_post_url" = preserved r "instagram_post_url" :=
  cleared_of_ne (by decide)

theorem migratedArticle_image {r : Row Cell} (h : Covered r) : migratedArticle r "cover_image_url" =
    (imageOf (textOf (r "cover_instagram_url"))).map Cell.text := by
  have hcover : preserved r "cover_instagram_url" = r "cover_instagram_url" :=
    preserved_of_ne (by decide)
  refine (cleared_image _).trans ?_
  show (if (textOf (preserved r "cover_instagram_url")).any isInstagramUrl then none
    else preserved r "cover_instagram_url") = _
  rw [hcover]
  obtain hnull | ⟨url, hurl⟩ := h
  · rw [hnull]
    rfl
  · rw [hurl]
    show (if isInstagramUrl url = true then none else some (Cell.text url)) =
      ((some url).filter fun url => !isInstagramUrl url).map Cell.text
    cases hinstagram : isInstagramUrl url
    · rw [Option.filter_some_pos (by rw [hinstagram]; rfl)]
      rfl
    · rw [Option.filter_some_neg (by rw [hinstagram]; decide)]
      rfl

/-- A cover is listed, or 0000 lists it. -/
theorem preserved_tags {r : Row Cell} {tags : List Json} (htags : Tagged r tags) :
    ∃ appended, Tagged (preserved r) (tags ++ appended) ∧ appended.length ≤ 1 ∧
      ∀ url ∈ textOf (r "cover_instagram_url"), url ≠ [] →
        ∃ tag ∈ tags ++ appended, Json.hasUrl url tag = true := by
  have hlist := instagramTags_eq htags
  cases hunlisted : unlistedCover r with
  | none =>
    refine ⟨[], ?_, Nat.zero_le 1, fun url hurl hne => ?_⟩
    · have hkeep : preserved r = r := if_neg (by rw [hunlisted]; exact Bool.noConfusion)
      rw [hkeep, List.append_nil]
      exact htags
    · rw [List.append_nil]
      -- nothing is appended: there is no cover post, or the list has it already
      have hlisted := Option.filter_eq_none_iff.mp hunlisted url hurl
      rw [hlist, Bool.and_eq_true, not_and, bne_iff_ne, Bool.not_eq_true',
        Bool.not_eq_false] at hlisted
      exact List.any_eq_true.mp (hlisted hne)
  | some url =>
    -- the cover post is not in the list yet, and is put at its end
    have hcover : textOf (r "cover_instagram_url") = some url :=
      (Option.filter_eq_some_iff.mp hunlisted).1
    refine ⟨[instagramTag url], Or.inr ?_, Nat.le_refl 1, fun other hother _ => ?_⟩
    · have hpreserve : preserved r = preserveTag r := if_pos (by rw [hunlisted]; rfl)
      rw [hpreserve, preserveTag, Row.set_self, hcover, hlist]
      rfl
    · obtain rfl := Option.some.inj (hcover.symm.trans hother)
      exact ⟨instagramTag url, List.mem_append_right _ List.mem_cons_self, hasUrl_instagramTag url⟩

theorem carried_migratedArticle {r : Row Cell} {tags : List Json} (htags : Tagged r tags)
    (hcover : Covered r) : Carried r (migratedArticle r) where
  id := migratedArticle_id r
  tags := by
    obtain ⟨appended, hpreserved, hone, hlisted⟩ := preserved_tags htags
    have htagged : Tagged (migratedArticle r) (tags ++ appended) := by
      rw [Tagged, migratedArticle_tags]
      exact hpreserved
    exact ⟨tags, appended, htags, htagged, hone, hlisted⟩
  image := migratedArticle_image hcover

/-- What a row says about an article, its view says. -/
theorem Carried.of_restrict {before after : Row Cell}
    (h : Carried before (restrict mediaColumns after)) :
    Carried before after := ⟨h.id, h.tags, h.image⟩

/-! ## Any number of runs -/

/-- `migrate-prod.sh`, so many times. -/
def runs : Nat → Database Cell → Option (Database Cell)
  | 0, db => some db
  | n + 1, db => (chain.run db).bind (runs n)

/-- On a migrated database any number of runs leave the articles alone. -/
theorem runs_migrated (n : Nat) (h : Migrated db) :
    ∃ migrated, runs n db = some migrated ∧ migrated.rows "Article" = db.rows "Article" := by
  induction n generalizing db with
  | zero => exact ⟨db, rfl, rfl⟩
  | succ n ih =>
    obtain ⟨hneeds, heffect⟩ := chain_migrated h
    obtain ⟨migrated, hruns, hrows⟩ := ih (removeAccounts_migrated h)
    have hrun : chain.run db = some (removeAccounts db) := by
      rw [← heffect]
      exact if_pos hneeds
    refine ⟨migrated, ?_, hrows.trans ?_⟩
    · rw [runs, hrun]
      exact hruns
    · exact (rows_removeAccounts "Article").trans (if_neg (by decide))

/-- **No tag is lost**, by any number of runs of the chain: an article has the tags it
had, in their order, and at most one more; its cover, if it had one, is the URL of one
of them, and is still its image unless it is an Instagram link. -/
theorem tags_kept (h : NodeEra db) (htags : ∀ r ∈ db.rows "Article", ∃ tags, Tagged r tags)
    (hcovers : ∀ r ∈ db.rows "Article", Covered r) (n : Nat) :
    ∃ migrated, runs (n + 1) db = some migrated ∧
      List.Forall₂ Carried (db.rows "Article") (migrated.rows "Article") := by
  have hrun : chain.run db = some (chain.effect db) := if_pos (chain_needs h)
  obtain ⟨migrated, hruns, hrows⟩ := runs_migrated n (chain_nodeEra h)
  refine ⟨migrated, ?_, ?_⟩
  · rw [runs, hrun]
    exact hruns
  · have hview := view_migrated h
    rw [Database.view, ← hrows] at hview
    have hcarried : ∀ r ∈ db.rows "Article", Carried r (migratedArticle r) := fun r hr =>
      (htags r hr).elim fun _ htagged => carried_migratedArticle htagged (hcovers r hr)
    have hviewed : List.Forall₂ Carried (db.rows "Article")
        ((migrated.rows "Article").map (restrict mediaColumns)) := by
      rw [hview, List.forall₂_map_right_iff, List.forall₂_same]
      exact hcarried
    rw [List.forall₂_map_right_iff] at hviewed
    exact hviewed.imp fun _ _ hc => hc.of_restrict

/-- An article with one tag, and a cover that is not among them. -/
def coveredArticle : Row Cell :=
  rowOf [("id", .int 1), ("instagram_post_url", .json (.list [instagramTag "a".toList])),
    ("cover_instagram_url", .text "https://instagram.com/p/b/".toList)]

/-- An article whose cover is not among its tags, after two runs. -/
theorem tags_kept_twice : ∃ migrated, runs 2 (nodeDatabase [coveredArticle] [] []) = some migrated ∧
    List.Forall₂ Carried [coveredArticle] (migrated.rows "Article") :=
  tags_kept
    (nodeEra_nodeDatabase
      (List.forall_mem_singleton.mpr fun _ h => absurd h (Option.not_mem_none _))
      (List.forall_mem_singleton.mpr fun _ h => absurd h (Option.not_mem_none _))
      (fun _ h => absurd h List.not_mem_nil) (fun _ h => absurd h List.not_mem_nil)
      fun _ h => absurd h List.not_mem_nil)
    (List.forall_mem_singleton.mpr ⟨[instagramTag "a".toList], Or.inr rfl⟩)
    (List.forall_mem_singleton.mpr (Or.inr ⟨_, rfl⟩)) 1

end SarkariWorld.Migrations
