import SarkariWorld.Auth.User
import SarkariWorld.Content.Bookmark
import SarkariWorld.Content.WebUrl

/-!
# The database

The four tables the API reads and writes.

Each table is a structure of its own, with the uniqueness of its columns as a field, in
the module of its model. Between the tables there is nothing to keep: the columns
`user_id` and `article_id` of a bookmark are plain numbers, and no key of the schema
refers to another table.
-/

namespace SarkariWorld.Site

open SarkariWorld.Auth SarkariWorld.Content

/-- What is stored, between two transactions. -/
structure Database where
  users : UserTable
  articles : ArticleTable
  bookmarks : BookmarkTable
  webUrls : WebUrlTable

end SarkariWorld.Site
