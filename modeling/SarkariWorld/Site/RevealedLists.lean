import SarkariWorld.Site.BookmarkLists
import SarkariWorld.Site.Permanence

/-!
# Whose bookmarks reveal what

The reader's list joins a bookmark to its article on the number alone (`list_by_user`),
so it shows an article that is no longer published as readily as one that is. That
nothing unpublished is shown is therefore up to the writes, of which two can go wrong:

* an update stores another status over the `published` of an article that somebody has
  bookmarked;
* a toggle, which has looked its article up as published, stores the bookmark after the
  article has been taken out of `published`. The update in between had nothing to spare:
  nobody had bookmarked the article yet.

`KeepsPublished` is that a commit does neither. In every run, however its requests
overlap, whose commits all keep to it, the lists reveal exactly what is public
(`lists_reveal_published`). `archived_article_shown` and `late_bookmark_shown` are the
two ways it fails.

The invariant is `OnPublished`: every bookmark is of a number that the articles have
already reached, and the article of that number, if it is still there, is published. The
bound on the number is what keeps a deleted article's bookmark from meeting a later
article; that a toggle's article has such a number is known from the moment at which it
was looked up, as the sequences do not go back (`Follows`).
-/

namespace SarkariWorld.Site.Threads

open SarkariWorld.Lib SarkariWorld.Auth SarkariWorld.Content
open SarkariWorld.Lib.Thread

/-- The commit leaves no bookmark on an article that is not published: an update of the
status of an article somebody has bookmarked sets it to `published`, and a new bookmark
is of an article that is published when it is stored. -/
def KeepsPublished (d : Database) : Change → Prop
  | .article (.update loaded assigned) =>
    assigned.articleStatus = loaded.articleStatus ∨ assigned.articleStatus = .published ∨
      ∀ b ∈ d.bookmarks.rows, b.articleId ≠ loaded.id
  | .bookmark (.insert _ articleId) =>
    ∀ a ∈ d.articles.rows, a.id = articleId → a.articleStatus = .published
  | _ => True

instance decidableKeepsPublished (d : Database) : (change : Change) →
    Decidable (KeepsPublished d change)
  | .article (.update loaded assigned) =>
    inferInstanceAs (Decidable (assigned.articleStatus = loaded.articleStatus ∨
      assigned.articleStatus = .published ∨ ∀ b ∈ d.bookmarks.rows, b.articleId ≠ loaded.id))
  | .bookmark (.insert _ articleId) =>
    inferInstanceAs (Decidable
      (∀ a ∈ d.articles.rows, a.id = articleId → a.articleStatus = .published))
  | .article (.insert _) | .article (.delete _) | .bookmark (.delete _) | .user _ | .webUrl _ =>
    .isTrue trivial

/-- The move commits nothing else. -/
def SparesBookmarked (s : Traffic) (action : SiteMove) : Prop :=
  ∀ change ∈ s.committing action, KeepsPublished s.stored change

instance decidableSparesBookmarked (s : Traffic) (action : SiteMove) :
    Decidable (SparesBookmarked s action) :=
  inferInstanceAs (Decidable (∀ change ∈ s.committing action, KeepsPublished s.stored change))

/-- Bookmarks are of numbers the articles have reached, and of no article that is there
without being published. -/
structure OnPublished (s : Traffic) : Prop where
  numbers : ∀ b ∈ s.stored.bookmarks.rows, b.articleId < s.next .article
  published : ∀ b ∈ s.stored.bookmarks.rows, ∀ a ∈ s.stored.articles.rows, a.id = b.articleId →
    a.articleStatus = .published

section Commits

variable {clock : Nat} {number : Int} {d d' : Database}

/-- The articles after a commit that keeps to the condition: those of a bookmark's number
are still published. -/
theorem article_kept {write : ArticleWrite} {b : Bookmark}
    (heffect : Content.Effect d.articles d'.articles clock number write)
    (hkeeps : KeepsPublished d (.article write)) (hb : b ∈ d.bookmarks.rows)
    (hnew : store.sequence (.article write) = some .article → b.articleId < number)
    (hpublished : ∀ a ∈ d.articles.rows, a.id = b.articleId → a.articleStatus = .published) :
    ∀ a ∈ d'.articles.rows, a.id = b.articleId → a.articleStatus = .published := by
  intro a ha hid
  cases heffect with
  | insert data row hrow hrows =>
    rw [hrows] at ha
    rcases List.mem_append.mp ha with hold | hlast
    · exact hpublished a hold hid
    · -- The sequence was past the bookmark's article when it gave this number.
      obtain rfl := List.mem_singleton.mp hlast
      have hlow := hnew rfl
      have hrowid := newRow_id hrow
      omega
  | same loaded hrows =>
    rw [hrows] at ha
    exact hpublished a ha hid
  | update loaded assigned encoded hencoded hrows =>
    rw [hrows] at ha
    obtain ⟨x, hx, rfl⟩ := List.mem_map.mp ha
    split at hid
    next hloaded =>
      rw [if_pos hloaded]
      have hxid : x.id = b.articleId := hid
      have hloadedid : x.id = loaded.id := ArticleOf.idCol_eq_some.mp hloaded
      show flushCol loaded.articleStatus assigned.articleStatus x.articleStatus = .published
      rcases hkeeps with hsame | hset | hspared
      · rw [hsame, flushCol_clean]
        exact hpublished x hx hxid
      · rw [hset]
        by_cases hclean : (ArticleStatus.published) = loaded.articleStatus
        · rw [← hclean, flushCol_clean]
          exact hpublished x hx hxid
        · rw [flushCol_dirty hclean]
      · exact absurd (hxid.symm.trans hloadedid) (hspared b hb)
    next hother =>
      rw [if_neg hother]
      exact hpublished x hx hid
  | delete loaded hrows =>
    rw [hrows] at ha
    exact hpublished a (List.mem_filter.mp ha).1 hid

end Commits

section Runs

variable {auth : Auth.Env} {content : Content.Env} {s₀ s s' : Traffic} {moves : List SiteMove}
  {action : SiteMove}

/-- The number a toggle has read is below the articles' sequence. -/
theorem articleId_below {a : Article} {seen : Moments} (h₀ : s₀.Fresh)
    (hbelow : Below s₀.stored s₀.next) (h : exec (siteMove auth content) s₀ moves = some s)
    (hseen : SeenIn store (program auth content) s₀ moves seen) (ha : PublishedArticle seen a) :
    a.id < s.next .article := by
  obtain ⟨d, clock, hmoment, hmem⟩ := ha
  obtain ⟨m, hm, heq⟩ := hseen.passed _ hmoment
  obtain ⟨rfl, -⟩ := Prod.mk.inj heq
  obtain ⟨hmbelow, hfollows⟩ := exec_follows h₀ hbelow h m hm
  have hread := hmbelow.articles a (mem_published.mp hmem).1
  have hforward := hfollows.next .article
  omega

/-- A commit to another table. -/
theorem OnPublished.of_same (hs : OnPublished s)
    (harticles : s'.stored.articles = s.stored.articles)
    (hbookmarks : s'.stored.bookmarks = s.stored.bookmarks)
    (hforward : s.next .article ≤ s'.next .article) : OnPublished s' where
  numbers b hb := Int.lt_of_lt_of_le (hs.numbers b (hbookmarks ▸ hb)) hforward
  published b hb := by
    rw [harticles]
    exact hs.published b (hbookmarks ▸ hb)

/-- The number a bookmark is stored with is one the toggle has read. -/
theorem bookmarked_below {o : Origin} {seen : Moments} {request : WriteRequest}
    {userId articleId : Int} (h₀ : s₀.Fresh) (hbelow : Below s₀.stored s₀.next)
    (h : exec (siteMove auth content) s₀ moves = some s)
    (hseen : SeenIn store (program auth content) s₀ moves seen)
    (hlicence : Licence o seen request (.bookmark (.insert userId articleId))) :
    articleId < s.next .article := by
  cases hlicence with
  | addBookmark slug actor a hactor ha hslug => exact articleId_below h₀ hbelow h hseen ha

/-- **One move**: a commit that keeps to the condition leaves the bookmarks on published
articles. -/
theorem onPublished_moved (h₀ : s₀.Fresh) (hbelow : Below s₀.stored s₀.next)
    (h : exec (siteMove auth content) s₀ moves = some s) (hspares : SparesBookmarked s action)
    (hmove : siteMove auth content s action = some s') (hs : OnPublished s) : OnPublished s' := by
  rcases site_committing h₀ h hmove with ⟨hstored, hnext⟩ | ⟨r, number, asked, change, seen, -,
    hcommitting, -, hseen, hlicence, hnumbers, hflush, hnext⟩
  · exact hs.of_same (by rw [hstored]) (by rw [hstored]) (by rw [hnext])
  · have hkeeps := hspares change hcommitting
    -- sequences only move forward, so what was below one stays below it
    have hforward : s.next .article ≤ s'.next .article := by
      rw [hnext]
      exact (advance_spec hnumbers .article).1
    cases change with
    | user write =>
      obtain ⟨-, -, hrest⟩ := flush_user hflush
      exact hs.of_same (by rw [hrest]) (by rw [hrest]) hforward
    | webUrl write =>
      obtain ⟨-, hrest⟩ := flush_webUrl hflush
      exact hs.of_same (by rw [hrest]) (by rw [hrest]) hforward
    | article write =>
      obtain ⟨heffect, hrest⟩ := flush_article hflush
      have hsame : s'.stored.bookmarks = s.stored.bookmarks := by rw [hrest]
      refine ⟨fun b hb => ?_, fun b hb => ?_⟩
      · rw [hsame] at hb
        exact Int.lt_of_lt_of_le (hs.numbers b hb) hforward
      · rw [hsame] at hb
        refine article_kept heffect hkeeps hb (fun hsequence => ?_) (hs.published b hb)
        exact Int.lt_of_lt_of_le (hs.numbers b hb) ((advance_spec hnumbers .article).2 hsequence).1
    | bookmark write =>
      obtain ⟨hcommit, hrest⟩ := flush_bookmark hflush
      have hsame : s'.stored.articles = s.stored.articles := by rw [hrest]
      cases write with
      | delete existing =>
        have hold : ∀ b ∈ s'.stored.bookmarks.rows, b ∈ s.stored.bookmarks.rows := fun b hb => by
          rw [← Except.ok.inj hcommit] at hb
          exact (List.mem_filter.mp hb).1
        refine ⟨fun b hb => ?_, fun b hb => ?_⟩
        · exact Int.lt_of_lt_of_le (hs.numbers b (hold b hb)) hforward
        · rw [hsame]
          exact hs.published b (hold b hb)
      | insert userId articleId =>
        have hcases : ∀ b ∈ s'.stored.bookmarks.rows,
            b ∈ s.stored.bookmarks.rows ∨ b.articleId = articleId := fun b hb => by
          rw [(commit_insert hcommit).1] at hb
          rcases List.mem_append.mp hb with hold | hlast
          · exact .inl hold
          · obtain rfl := List.mem_singleton.mp hlast
            exact .inr rfl
        refine ⟨fun b hb => ?_, fun b hb => ?_⟩
        · refine Int.lt_of_lt_of_le ?_ hforward
          rcases hcases b hb with hold | hnew
          · exact hs.numbers b hold
          · rw [hnew]
            exact bookmarked_below h₀ hbelow h hseen hlicence
        · rw [hsame]
          rcases hcases b hb with hold | hnew
          · exact hs.published b hold
          · rw [hnew]
            exact hkeeps

/-- **Bookmark lists reveal what is published**, at the end of every run, however its
requests overlap, in which no commit takes a bookmarked article out of `published` or
bookmarks one that has been. -/
theorem lists_reveal_published (h₀ : s₀.Fresh) (hbelow : Below s₀.stored s₀.next)
    (hstart : OnPublished s₀)
    (hspares : AllSteps (siteMove auth content) SparesBookmarked s₀ moves)
    (h : exec (siteMove auth content) s₀ moves = some s) : RevealsPublished s.stored := by
  let I : List SiteMove → Traffic → Prop := fun moves s =>
    exec (siteMove auth content) s₀ moves = some s ∧
      (AllSteps (siteMove auth content) SparesBookmarked s₀ moves → OnPublished s)
  have hI : I moves s := by
    refine exec_hist (fun as s a s' hI hmove => ?_) ⟨rfl, fun _ => hstart⟩ h
    obtain ⟨hrun, hinv⟩ := hI
    refine ⟨exec_snoc_some.mpr ⟨s, hrun, hmove⟩, fun hall => ?_⟩
    exact onPublished_moved h₀ hbelow hrun (allSteps_right hall hrun).1 hmove
      (hinv (allSteps_left hall))
  exact reveals_of_published (hI.2 hspares).published

end Runs

/-! ## An article that was bookmarked -/

/-- `POST /admin/posts`, published, and a bookmark on it. -/
def publishThenBookmark : List SiteMove :=
  keyStart 0 (.post (.createPost (samplePayload .omitted (.value .published)))) ::
    List.replicate 6 (.go 0 2) ++
    keyStart 1 (.toggleBookmark "result".toList) :: List.replicate 5 (.go 1 2)

/-- The articles a reader's first page shows. -/
def shownTo (d : Database) (userId : Int) : List (Option BookmarkedArticle) :=
  (listBookmarks d.bookmarks d.articles userId none none).items.map BookmarkItem.article

theorem quietSite_onPublished : OnPublished quietSite where
  numbers _ hb := absurd hb List.not_mem_nil
  published _ hb := absurd hb List.not_mem_nil

/-- The bookmark of a deleted article shows none. -/
theorem deleted_article_hidden :
    ∃ s, exec (siteMove Auth.sampleEnv Content.sampleEnv) quietSite (publishThenBookmark ++
        keyStart 2 (.post (.deletePost "result".toList)) :: List.replicate 4 (.go 2 3)) = some s ∧
      shownTo s.stored 1 = [none] ∧ RevealsPublished s.stored := by
  have hrun : (exec (siteMove Auth.sampleEnv Content.sampleEnv) quietSite (publishThenBookmark ++
      keyStart 2 (.post (.deletePost "result".toList)) :: List.replicate 4 (.go 2 3))).map
      (fun s => decide (shownTo s.stored 1 = [none])) = some true := by
    decide +kernel
  obtain ⟨s, hs, hshown⟩ := exec_of_test hrun
  exact ⟨s, hs, of_decide_eq_true hshown, lists_reveal_published quietSite_fresh quietSite_below
    quietSite_onPublished (by decide +kernel) hs⟩

/-- A list of the reader's shows an article that is not public. -/
def showsHidden (d : Database) (userId : Int) : Bool :=
  decide (∃ item ∈ (listBookmarks d.bookmarks d.articles userId none none).items,
    item.article ≠ none ∧ ¬ isPublic d item.articleId)

/-- A list that shows an article which is not public reveals it. -/
theorem not_reveals_of_shows {d : Database} {userId : Int} (h : showsHidden d userId = true) :
    ¬ RevealsPublished d := by
  obtain ⟨item, hitem, harticle, hhidden⟩ := of_decide_eq_true h
  exact fun hreveals => hhidden ((hreveals userId none none item hitem).mp harticle)

/-- The bookmark of an archived article still shows it. -/
theorem archived_article_shown :
    ∃ s, exec (siteMove Auth.sampleEnv Content.sampleEnv) quietSite (publishThenBookmark ++
        keyStart 2 (.post (.updatePostStatus "result".toList .archived)) ::
          List.replicate 6 (.go 2 3)) = some s ∧ ¬ RevealsPublished s.stored := by
  have hrun : (exec (siteMove Auth.sampleEnv Content.sampleEnv) quietSite (publishThenBookmark ++
      keyStart 2 (.post (.updatePostStatus "result".toList .archived)) ::
        List.replicate 6 (.go 2 3))).map (fun s => showsHidden s.stored 1) = some true := by
    decide +kernel
  obtain ⟨s, hs, hshown⟩ := exec_of_test hrun
  exact ⟨s, hs, not_reveals_of_shows hshown⟩

/-- So does one that is stored after its article was archived: the toggle has looked the
article up, and the archiving request, which no bookmark forbids, comes in between. -/
theorem late_bookmark_shown :
    ∃ s, exec (siteMove Auth.sampleEnv Content.sampleEnv) quietSite
        (publishThenBookmark.take 10 ++
          keyStart 2 (.post (.updatePostStatus "result".toList .archived)) ::
            (List.replicate 6 (.go 2 3) ++ List.replicate 3 (.go 1 2))) = some s ∧
      ¬ RevealsPublished s.stored := by
  have hrun : (exec (siteMove Auth.sampleEnv Content.sampleEnv) quietSite
      (publishThenBookmark.take 10 ++
        keyStart 2 (.post (.updatePostStatus "result".toList .archived)) ::
          (List.replicate 6 (.go 2 3) ++ List.replicate 3 (.go 1 2)))).map
      (fun s => showsHidden s.stored 1) = some true := by
    decide +kernel
  obtain ⟨s, hs, hshown⟩ := exec_of_test hrun
  exact ⟨s, hs, not_reveals_of_shows hshown⟩

end SarkariWorld.Site.Threads
