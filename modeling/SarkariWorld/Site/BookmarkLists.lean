import SarkariWorld.Site.Service

/-!
# What a bookmark list reveals

A bookmark is made on a published article and keeps its number; the list joins the two
again, on the number alone. The status of the article has no part in the join, so whether
a list shows exactly what is public is a matter of what has happened to the articles
since: `reveals_of_published` says what of the two tables is enough.

The bookmark itself stores no slug and no title, so what is shown is the article as it is
now. An article that was deleted leaves nothing to join, and its bookmark is shown without
one: the docstring's `null`.
-/

namespace SarkariWorld.Site

open SarkariWorld.Lib SarkariWorld.Auth SarkariWorld.Content

/-- The article is there and published. -/
def isPublic (d : Database) (id : Int) : Prop :=
  ∃ a ∈ d.articles.rows, a.id = id ∧ a.articleStatus = .published

instance decidableIsPublic (d : Database) (id : Int) : Decidable (isPublic d id) :=
  inferInstanceAs (Decidable (∃ a ∈ d.articles.rows, a.id = id ∧ a.articleStatus = .published))

/-- Whatever page of whoever's list is asked for, an item shows its article exactly
if that is public. -/
def RevealsPublished (d : Database) : Prop :=
  ∀ userId page perPage, ∀ item ∈ (listBookmarks d.bookmarks d.articles userId page perPage).items,
    item.article ≠ none ↔ isPublic d item.articleId

/-! ## One list -/

/-- An item comes from a bookmark, joined to the article it points at. -/
theorem mem_listBookmarks {d : Database} {userId : Int} {page perPage : Option Int}
    {item : BookmarkItem}
    (h : item ∈ (listBookmarks d.bookmarks d.articles userId page perPage).items) :
    ∃ b ∈ d.bookmarks.rows, item = bookmarkItem b (d.articles.find b.articleId) := by
  obtain ⟨row, hrow, rfl⟩ := List.mem_map.mp h
  have hall := List.mem_of_mem_drop (List.mem_of_mem_take hrow)
  obtain ⟨b, hb, rfl⟩ := List.mem_map.mp hall
  exact ⟨b, (List.mem_filter.mp (mem_orderBy.mp hb)).1, rfl⟩

/-- If every stored article that a bookmark names is published, each list shows exactly what is
public. -/
theorem reveals_of_published {d : Database}
    (h : ∀ b ∈ d.bookmarks.rows, ∀ a ∈ d.articles.rows, a.id = b.articleId →
      a.articleStatus = .published) : RevealsPublished d := by
  intro userId page perPage item hitem
  obtain ⟨b, hb, rfl⟩ := mem_listBookmarks hitem
  show (d.articles.find b.articleId).map _ ≠ none ↔ isPublic d b.articleId
  rw [Ne, Option.map_eq_none_iff]
  constructor
  · intro hfound
    obtain ⟨a, ha⟩ := Option.ne_none_iff_exists'.mp hfound
    obtain ⟨hmem, hid⟩ := ArticleTable.find_eq_some.mp ha
    exact ⟨a, hmem, hid, h b hb a hmem hid⟩
  · rintro ⟨a, hmem, hid, -⟩ hnone
    rw [ArticleTable.find_eq_none] at hnone
    exact hnone a hmem hid

/-- "Only published articles can be bookmarked." -/
theorem toggleBookmark_ok {bookmarks : BookmarkTable} {articles : ArticleTable} {userId : Int}
    {slug : Text} {write : BookmarkWrite}
    (h : Content.toggleBookmark bookmarks articles userId slug = .ok write) :
    ∃ a ∈ articles.rows, a.articleStatus = .published ∧ write = toggle bookmarks userId a.id := by
  unfold Content.toggleBookmark at h
  split at h
  next => cases h
  next => cases h
  next a hfound =>
    obtain rfl := Except.ok.inj h
    obtain ⟨hmem, hpub⟩ := findPublishedBySlug_ok hfound
    exact ⟨a, hmem, hpub, rfl⟩

/-! ## An article that was bookmarked -/

/-- An admin's installation, before its first article. -/
def adminInstallation : Service := ⟨sampleDatabase .admin (by decide) (by decide), 0, 1, []⟩

/-- `POST /admin/posts`, published, and a bookmark on it. -/
def publishAndBookmark : List Event :=
  [keyCall (.post (.createPost (samplePayload .omitted (.value .published)))) 1,
    keyCall (.toggleBookmark "result".toList) 1]

end SarkariWorld.Site
