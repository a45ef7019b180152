import SarkariWorld.Auth.User
import SarkariWorld.Auth.Env
import SarkariWorld.Auth.Tokens
import SarkariWorld.Auth.ApiKeys
import SarkariWorld.Auth.CurrentUser
import SarkariWorld.Auth.Requests
import SarkariWorld.Auth.System
import SarkariWorld.Auth.Roles
import SarkariWorld.Auth.SignOut
import SarkariWorld.Auth.Service
import SarkariWorld.Auth.KeyLedger
import SarkariWorld.Auth.KeyDeath
import SarkariWorld.Auth.Sessions
import SarkariWorld.Content.Sanitize
import SarkariWorld.Content.AnchorTarget
import SarkariWorld.Content.Article
import SarkariWorld.Content.Payload
import SarkariWorld.Content.ArticleWrites
import SarkariWorld.Content.Posts
import SarkariWorld.Content.PublishedDates
import SarkariWorld.Lib.Sort
import SarkariWorld.Lib.TopRows
import SarkariWorld.Lib.Pages
import SarkariWorld.Content.Listing
import SarkariWorld.Content.SearchRanking
import SarkariWorld.Content.TitleSearch
import SarkariWorld.Content.Pagination
import SarkariWorld.Content.Bookmark
import SarkariWorld.Content.WebUrl
import SarkariWorld.Site.Paging
import SarkariWorld.Content.Toggles
import SarkariWorld.Lib.UnitOfWork
import SarkariWorld.Site.Writes
import SarkariWorld.Content.StatusChanges
import SarkariWorld.Site.Handlers
import SarkariWorld.Site.Service
import SarkariWorld.Site.Review
import SarkariWorld.Site.BookmarkLists
import SarkariWorld.Content.Uniqueness
import SarkariWorld.Site.Conflicts
import SarkariWorld.Content.WireDates
import SarkariWorld.Auth.SignIns
import SarkariWorld.Auth.KeyTurns
import SarkariWorld.Auth.KeyRotation
import SarkariWorld.Content.Normalisers
import SarkariWorld.Site.Sitemap
import SarkariWorld.Lib.Url
import SarkariWorld.Content.StoredUrls
import SarkariWorld.Content.NormalForms
import SarkariWorld.Content.StorageSafe
import SarkariWorld.Content.Resave
import SarkariWorld.Web.Asgi
import SarkariWorld.Web.Csrf
import SarkariWorld.Web.Errors
import SarkariWorld.Web.Tracing
import SarkariWorld.Lib.Sql
import SarkariWorld.Migrations.Scripts
import SarkariWorld.Migrations.Migrated
import SarkariWorld.Migrations.Frames
import SarkariWorld.Migrations.NodeEra
import SarkariWorld.Migrations.FirstRun
import SarkariWorld.Migrations.Rerun
import SarkariWorld.Migrations.InstagramTags
import SarkariWorld.Content.PartialUpdates
import SarkariWorld.Content.PublicationStamp
import SarkariWorld.Content.NetChanges
import SarkariWorld.Lib.Calendar
import SarkariWorld.Lib.Like
import SarkariWorld.Admin.Days
import SarkariWorld.Admin.Listings
import SarkariWorld.Admin.DayFilters
import SarkariWorld.Admin.PostFilters
import SarkariWorld.Admin.TextFilters
import SarkariWorld.Admin.PagedListings
import SarkariWorld.Admin.Triage
import SarkariWorld.Lib.Words
import SarkariWorld.Lib.Groups
import SarkariWorld.Lib.Routing
import SarkariWorld.Lib.UrlMarks
import SarkariWorld.Lib.Digits
import SarkariWorld.Content.Slugs
import SarkariWorld.Content.CategoryBreakdown
import SarkariWorld.Admin.Timelines
import SarkariWorld.Content.Identity
import SarkariWorld.Site.Unbookmarking
import SarkariWorld.Site.Routes
import SarkariWorld.Content.CanonicalUrls
import SarkariWorld.Site.WebUrlList
import SarkariWorld.Content.BareHosts
import SarkariWorld.Timestamps
import SarkariWorld.Lib.Identity
import SarkariWorld.Lib.Interleaving
import SarkariWorld.Lib.Rankings
import SarkariWorld.Auth.OAuth
import SarkariWorld.Site.Threads
import SarkariWorld.Site.Licences
import SarkariWorld.Site.Interleavings
import SarkariWorld.Site.Permanence
import SarkariWorld.Site.RevealedLists
import SarkariWorld.Site.Mediation
import SarkariWorld.Site.Origins
import SarkariWorld.Site.Http
import SarkariWorld.Admin.Engagement
import SarkariWorld.Site.Serial
import SarkariWorld.Migrations.Rows
import SarkariWorld.Auth.KeyViews
import SarkariWorld.Site.Stamps
import SarkariWorld.Site.KeyViews
import SarkariWorld.Lib.TwoRuns
import SarkariWorld.Site.Reads
import SarkariWorld.Site.Replies
import SarkariWorld.Site.Readers
import SarkariWorld.Site.FormLimits
import SarkariWorld.Lib.CommitLog
import SarkariWorld.Content.Columns
import SarkariWorld.Site.StoredForms
import SarkariWorld.Site.LastEdits
