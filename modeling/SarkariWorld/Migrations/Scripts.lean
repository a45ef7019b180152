import SarkariWorld.Content.Payload
import SarkariWorld.Lib.Replace
import SarkariWorld.Lib.Sql

/-!
# The migrations

The nine files `migrate-prod.sh` applies, in lexical order, to a database on the
Node-era schema. There is no ledger: each file looks at the database to see whether it
has been applied.

Each file is one statement of `Lib.Sql`, which is a block of the statements it consists
of; where the file asks first, in a `DO` block, the block is guarded by the same question
(`whenever`). The lists of columns, labels and tables are those of the files. Comments and
what only concerns printing are left out.

A row gives a cell to every name. The columns the chain does not read are among them, so
that the results can say of such a column that it is as it was.
-/

namespace SarkariWorld.Migrations

open SarkariWorld.Lib SarkariWorld.Lib.Sql SarkariWorld.Content Statement

/-- A value; labels of enumerations are texts, and what no migration reads is kept as
it is printed. -/
inductive Cell where
  | int (value : Int)
  | text (value : Text)
  | json (value : Json)
  | other (printed : Text)

/-- The number in a cell. -/
def intOf : Option Cell → Option Int
  | some (.int value) => some value
  | _ => none

/-- The text or label in a cell. -/
def textOf : Option Cell → Option Text
  | some (.text value) => some value
  | _ => none

/-- The JSON value in a cell. -/
def jsonOf : Option Cell → Option Json
  | some (.json value) => some value
  | _ => none

/-- A value of a text column or an enumeration. -/
def textCell (value : String) : Option Cell := some (.text value.toList)

/-! ## `0000_preserve_instagram_tags` -/

/-- `COALESCE("instagram_post_url", '[]')`. -/
def instagramTags (r : Row Cell) : Json := (jsonOf (r "instagram_post_url")).getD (.list [])

/-- A tag with this URL. -/
def Json.hasUrl (url : Text) : Json → Bool
  | .dict entries => entries.any fun entry =>
      entry.1 == "url".toList && (match entry.2 with
        | .str value => value == url
        | _ => false)
  | _ => false

/-- `tags @> '[{"url": …}]'`: an element that is an object with this URL. -/
def containsUrl (url : Text) : Json → Bool
  | .list items => items.any (Json.hasUrl url)
  | _ => false

/-- `tags || '[…]'`; what is not a list becomes the only element of one. -/
def appendTag (tag : Json) : Json → Json
  | .list items => .list (items ++ [tag])
  | value => .list [value, tag]

/-- `jsonb_build_object('url', …, 'title', 'Instagram')`. -/
def instagramTag (url : Text) : Json :=
  .dict [("url".toList, .str url), ("title".toList, .str "Instagram".toList)]

/-- The cover that is to be preserved. -/
def unlistedCover (r : Row Cell) : Option Text :=
  (textOf (r "cover_instagram_url")).filter fun url =>
    url != [] && !containsUrl url (instagramTags r)

/-- The row with its cover among the tags. -/
def preserveTag (r : Row Cell) : Row Cell :=
  r.set "instagram_post_url"
    ((textOf (r "cover_instagram_url")).map fun url =>
      .json (appendTag (instagramTag url) (instagramTags r)))

/-- The file 0000. The cover's column is dropped here because 0003 is to take its name. -/
def preserveInstagramTags : Statement Cell :=
  whenever (fun db => db.has "Article" "cover_instagram_url")
    [ update "Article" [("Article", "instagram_post_url"), ("Article", "cover_instagram_url")]
        (fun r => (unlistedCover r).isSome) preserveTag,
      dropColumn "Article" "cover_image_url" ]

/-! ## `0001_add_editor_role` and `0002_add_hashed_api_key_columns` -/

/-- The file 0001. -/
def addEditorRole : Statement Cell := addValue "UserRole" "editor".toList

/-- The columns 0002 adds to the accounts. -/
def apiKeyColumns : List (Name × Name) :=
  [("api_key_prefix", "TEXT"), ("api_key_hash", "TEXT"), ("api_key_name", "TEXT"),
    ("api_key_created_at", "TIMESTAMP(3)"), ("api_key_last_used_at", "TIMESTAMP(3)"),
    ("api_key_revoked_at", "TIMESTAMP(3)")]

/-- The unique index on the prefixes. It cannot be made if two rows have the same prefix. -/
def createApiKeyIndex : Statement Cell :=
  createUniqueIndex "User_api_key_prefix_key" "User" "api_key_prefix"
    (fun cell => (textOf (some cell)).getD []) "UNIQUE (api_key_prefix)"

/-- The statements of 0002: a column each, and the index. -/
def apiKeyStatements : List (Statement Cell) :=
  (apiKeyColumns.map fun column => addColumn "User" column.1 column.2) ++ [createApiKeyIndex]

/-- The file 0002, which asks nothing of its own: each statement has its `IF NOT EXISTS`. -/
def addHashedApiKeyColumns : Statement Cell := block apiKeyStatements

/-! ## `0003_rename_cover_image_url` -/

/-- The file 0003. -/
def renameCoverImageUrl : Statement Cell :=
  whenever (fun db => db.has "Article" "cover_instagram_url")
    [renameColumn "Article" "cover_instagram_url" "cover_image_url"]

/-! ## `0004_remove_saved_article_status` -/

/-- The only way to remove a label: a new type under the old name. -/
def swapType (name column type old : Name) (labels : List Text) (mentions : List (Name × Name))
    (cast : Row Cell → Option Text) (default : String) : List (Statement Cell) :=
  [ setDefault name column none,
    renameType type old,
    createType type labels,
    alterType name column type mentions cast .text,
    setDefault name column (textCell default),
    dropType old ]

/-- The labels of the new `ArticleStatus`. -/
def statusLabels : List Text := ["draft", "published", "archived"].map String.toList

/-- The index on the dates of published articles. -/
def publishedCreatedAtIndex : Index :=
  ⟨"Article", ["created_at", "article_status"],
    "(created_at DESC) WHERE (article_status = 'published')"⟩

/-- The index on their views, which 0005 drops together with the column. -/
def publishedViewsIndex : Index :=
  ⟨"Article", ["views", "created_at", "article_status"],
    "(views DESC, created_at DESC) WHERE ((article_status = 'published') AND (views > 0))"⟩

/-- The index on their categories and dates. -/
def statusCategoryIndex : Index :=
  ⟨"Article", ["category", "created_at", "article_status"],
    "(category, created_at DESC) WHERE (article_status = 'published')"⟩

/-- The article has the status that is to go. -/
def isSaved (r : Row Cell) : Bool := textOf (r "article_status") == some "saved".toList

/-- Saved articles become drafts. -/
def draftSaved : Statement Cell :=
  update "Article" [("Article", "article_status")] isSaved
    fun r => r.set "article_status" (textCell "draft")

/-- The new type takes the place of the old, with every status cast as it is. -/
def swapStatus : List (Statement Cell) :=
  swapType "Article" "article_status" "ArticleStatus" "ArticleStatus_old" statusLabels []
    (fun r => textOf (r "article_status")) "draft"

/-- The rows, the indexes that name the type, the type, and the indexes again. -/
def statusStatements : List (Statement Cell) :=
  [ draftSaved,
    dropIndex "Article_published_created_at_idx",
    dropIndex "Article_published_views_idx",
    dropIndex "Article_status_category_created_at_idx" ] ++
  swapStatus ++
  [ createIndex "Article_published_created_at_idx" publishedCreatedAtIndex,
    createIndex "Article_published_views_idx" publishedViewsIndex,
    createIndex "Article_status_category_created_at_idx" statusCategoryIndex ]

/-- The file 0004, if the label is still there. -/
def removeSavedArticleStatus : Statement Cell :=
  whenever (fun db => db.hasLabel "ArticleStatus" "saved".toList) statusStatements

/-! ## `0005_align_to_trimmed_schema` -/

/-- A pattern of `~*`; it has letters, digits, blanks and dots that stand for
themselves. -/
def caseless (t : String) : Pattern := t.toList.map fun c d => d == c || d == c.toUpper

/-- A pattern with one optional character, with and without it. -/
def optionally (before : String) (c : Char → Bool) (after : String) : List Pattern :=
  [caseless before ++ caseless after, caseless before ++ c :: caseless after]

/-- One of the patterns occurs in the text. -/
def matchesAny (patterns : List Pattern) (t : Text) : Bool := patterns.any fun p => occurs p t

/-- A blank, for `answer ?key` and the like. -/
def blank (c : Char) : Bool := c == ' '

/-- The class `[ -]`. -/
def blankOrHyphen (c : Char) : Bool := c == ' ' || c == '-'

/-- The category of an article from the legacy bucket, from its title. -/
def classify (title : Text) : Text :=
  if matchesAny (optionally "answer" blankOrHyphen "key") title then "answer_key".toList
  else if matchesAny (optionally "admit" blankOrHyphen "card" ++
      [caseless "hall ticket", caseless "call letter"]) title then "admit_card".toList
  else if matchesAny ([caseless "result", caseless "merit list", caseless "selection list"] ++
      optionally "score" blank "card" ++ [caseless "pick up list"] ++
      optionally "cut" blank "off") title then "result".toList
  else if matchesAny [caseless "syllabus", caseless "exam pattern", caseless "time table",
      caseless "schedule", caseless "calendar"] title then "syllabus".toList
  else if matchesAny ([caseless "admission"] ++
      optionally "counsel" (fun c => c == 'l' || c == 'L') "ing" ++
        [caseless "entrance"]) title then
    "admission".toList
  else "latest_job".toList

/-- The `CASE` of the cast. -/
def rehome (r : Row Cell) : Option Text :=
  (textOf (r "category")).map fun category =>
    if category = "job".toList then "latest_job".toList
    else if category = "exam".toList then classify ((textOf (r "title")).getD [])
    else category

/-- The labels of the new `ArticleCategory`. -/
def categoryLabels : List Text :=
  ["latest_job", "admit_card", "result", "answer_key", "admission", "syllabus", "scholarship",
    "tender", "sarkari_website", "sarkari_mobile_app", "blog"].map String.toList

/-- The first half of 0005, if the legacy label `job` is still there. -/
def replaceCategories : Statement Cell :=
  whenever (fun db => db.hasLabel "ArticleCategory" "job".toList)
    (swapType "Article" "category" "ArticleCategory" "ArticleCategory_old" categoryLabels
      [("Article", "title")] rehome "blog")

/-- The columns of an account that the service no longer has. -/
def removedUserColumns : List Name :=
  ["about", "occupation", "instagram", "facebook", "linkedin", "twitter", "is_verified",
    "verification_token", "verification_token_expires_at", "verification_sends",
    "welcome_email_sent_at", "subscribed_at", "is_active", "unsubscribed_at", "unsubscribe_token"]

/-- The tables it no longer has. -/
def removedTables : List Name :=
  ["DailyViewSnapshot", "ViewSnapshot", "Notification", "Announcement", "EmailLog"]

/-- `DROP TYPE IF EXISTS`. -/
def dropTypeIfExists (type : Name) : Statement Cell :=
  whenever (fun db => (db.labels type).isSome) [dropType type]

/-- The rest of the file: what the service no longer uses. -/
def trimSchema : List (Statement Cell) :=
  [ dropIndex "Article_published_views_idx",
    dropColumn "Article" "views",
    dropColumn "Article" "related_articles" ] ++
  removedUserColumns.map (dropColumn "User") ++
  removedTables.map dropTable ++
  [ dropTypeIfExists "EmailMode", dropTypeIfExists "EmailLogStatus" ]

/-- The file 0005: first the categories, then what is dropped. -/
def alignToTrimmedSchema : Statement Cell := block (replaceCategories :: trimSchema)

/-! ## `0006_clear_non_image_cover_urls` -/

/-- `~* 'instagram\.com'`. -/
def isInstagramUrl (url : Text) : Bool := occurs (caseless "instagram.com") url

/-- The file 0006. A cover that is an Instagram link is no image. -/
def clearNonImageCoverUrls : Statement Cell :=
  update "Article" [("Article", "cover_image_url")]
    (fun r => (textOf (r "cover_image_url")).any isInstagramUrl)
    (fun r => r.set "cover_image_url" none)

/-! ## `0007_remove_subscription_accounts` -/

/-- `v NOT IN (…)`, where it is true: a null among the values makes it unknown. -/
def notIn {α : Type} [DecidableEq α] (v : Option α) (values : List (Option α)) : Bool :=
  values.all fun w => v.isSome && w.isSome && v != w

/-- An account of the newsletter that was never used: the predicates on the row. -/
def isUnused (r : Row Cell) : Bool :=
  textOf (r "auth_provider") == some "subscription".toList && (r "google_id").isNone &&
    (r "last_login_at").isNone && (r "api_key_hash").isNone &&
    textOf (r "role") == some "user".toList

/-- `SELECT DISTINCT "author_id" FROM "Article" WHERE "author_id" IS NOT NULL`. -/
def authorIds (db : Database Cell) : List (Option Text) :=
  ((db.rows "Article").map fun r => textOf (r "author_id")).filter Option.isSome

/-- `SELECT "user_id" FROM "Bookmark"`. -/
def bookmarkUserIds (db : Database Cell) : List (Option Int) :=
  (db.rows "Bookmark").map fun r => intOf (r "user_id")

/-- An account that is deleted, but for its bookmarks. -/
def isInert (db : Database Cell) (r : Row Cell) : Bool :=
  isUnused r && notIn ((intOf (r "id")).map fun id => (toString id).toList) (authorIds db)

/-- An account that 0007 deletes. -/
def isSubscription (db : Database Cell) (r : Row Cell) : Bool :=
  isInert db r && notIn (intOf (r "id")) (bookmarkUserIds db)

/-- The file 0007. An account with a bookmark stays, whatever the bookmark is of. -/
def removeSubscriptionAccounts : Statement Cell :=
  block
    [ delete "User" [("User", "auth_provider"), ("User", "google_id"), ("User", "last_login_at"),
        ("User", "api_key_hash"), ("User", "role"), ("User", "id"), ("Bookmark", "user_id"),
        ("Article", "author_id")] isSubscription,
      setDefault "User" "auth_provider" (textCell "google") ]

/-! ## `0008_clear_legacy_secrets_and_orphans` -/

/-- `EXISTS (SELECT 1 FROM … WHERE "id" = …)`. -/
def hasId (db : Database Cell) (name : Name) (id : Option Int) : Bool :=
  (db.rows name).any fun r => (intOf (r "id")).isSome && intOf (r "id") == id

/-- A bookmark whose reader or article is not there. -/
def isOrphan (db : Database Cell) (r : Row Cell) : Bool :=
  !hasId db "User" (intOf (r "user_id")) || !hasId db "Article" (intOf (r "article_id"))

/-- The file 0008. Its second statement looks at the tables as the chain has left them. -/
def clearLegacySecretsAndOrphans : Statement Cell :=
  block
    [ update "User" [("User", "api_key")] (fun r => (r "api_key").isSome)
        (fun r => r.set "api_key" none),
      delete "Bookmark" [("Bookmark", "user_id"), ("Bookmark", "article_id"), ("User", "id"),
        ("Article", "id")] isOrphan ]

/-! ## The chain -/

/-- The nine files, in the order of their names. -/
def migrations : List (Statement Cell) :=
  [ preserveInstagramTags, addEditorRole, addHashedApiKeyColumns, renameCoverImageUrl,
    removeSavedArticleStatus, alignToTrimmedSchema, clearNonImageCoverUrls,
    removeSubscriptionAccounts, clearLegacySecretsAndOrphans ]

/-- One run of `migrate-prod.sh`. -/
def chain : Statement Cell := block migrations

end SarkariWorld.Migrations
