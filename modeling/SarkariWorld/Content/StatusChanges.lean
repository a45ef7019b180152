import SarkariWorld.Content.PublishedDates

/-!
# How an article's status changes

Who may read an article is decided by its status, and two requests set it on an
article that is there: an update that sends `article_status`, and the status
endpoint. `newStatus` says which article a request sets it on and to what, and
`status_after` that nothing else ever changes it.

`newStatus` is read off the request alone: for an update it is the status in its body, if
there is one, and for the status endpoint the status it is asked for. A row that is added
(`addsArticle`) begins with a status of its own, and a deletion leaves none.

The status endpoint and the update differ in what they do to the date, which is the
subject of other modules. Here only the status counts, and for it there is one rule.
-/

namespace SarkariWorld.Content

open SarkariWorld.Lib

/-- The status a request gives the article under `slug`, if any. -/
def newStatus (slug : Text) : PostRequest → Option ArticleStatus
  | .updatePost target payload => if target = slug then payload.articleStatus.get else none
  | .updatePostStatus target status => if target = slug then some status else none
  | .createPost _ | .deletePost _ | .publishArticle _ => none

/-- The requests that add an article. -/
def addsArticle : PostRequest → Bool
  | .createPost _ | .publishArticle _ => true
  | .updatePost _ _ | .updatePostStatus _ _ | .deletePost _ => false

/-- What a request that has passed its checks writes, as far as statuses go. -/
def ArticleWrite.Follows (t : ArticleTable) (request : PostRequest) : ArticleWrite → Prop
  | .insert data => addsArticle request = true ∧
      ((∃ payload, request = .publishArticle payload) → data.articleStatus = some .draft)
  | .update loaded assigned => ∃ a ∈ t.rows, loaded = a.load ∧
      assigned.articleStatus = (newStatus a.slug request).getD a.articleStatus
  | .delete _ => True

variable {env : Env} {t t' : ArticleTable} {clock : Nat} {nextId : Int} {actor : Author}
  {request : PostRequest} {write : ArticleWrite}

theorem assignStatus_status (article : ArticleObject) (status : ArticleStatus) (now : Int) :
    (article.assignStatus status now).articleStatus = status := by
  unfold ArticleOf.assignStatus
  dsimp only
  split
  · rfl
  · rfl

/-- Stamping `updated_at` leaves the status as assigned. -/
theorem stampUpdated_follows {a : Article} {assigned : ArticleObject} {now : Int} (ha : a ∈ t.rows)
    (hstatus : assigned.articleStatus = (newStatus a.slug request).getD a.articleStatus) :
    (stampUpdated a.load assigned now).Follows t request := by
  refine ⟨a, ha, rfl, ?_⟩
  split
  · exact hstatus
  · exact hstatus

/-- What a request writes follows `newStatus`: the row it names gets that status, or keeps its own.
-/
theorem prepare_follows (h : prepare env t clock actor request = .ok write) :
    write.Follows t request := by
  cases request with
  | createPost payload =>
    obtain ⟨-, h⟩ := ite_error_eq_ok.mp h
    obtain rfl := Except.ok.inj h
    exact ⟨rfl, fun ⟨_, h⟩ => (nomatch h)⟩
  | updatePost slug payload =>
    obtain ⟨a, hmem, rfl, data, hstatus, -, rfl⟩ := updatePost_ok h
    refine stampUpdated_follows hmem ?_
    rw [newStatus, if_pos rfl, ← hstatus]
    split
    · rfl
    · rfl
  | updatePostStatus slug status =>
    obtain ⟨a, hget, h⟩ := bind_eq_ok.mp h
    obtain rfl := Except.ok.inj h
    obtain ⟨hmem, rfl, -⟩ := getArticle_ok hget
    refine stampUpdated_follows hmem ?_
    rw [newStatus, if_pos rfl, assignStatus_status]
    rfl
  | deletePost slug =>
    obtain ⟨a, hget, h⟩ := bind_eq_ok.mp h
    obtain rfl := Except.ok.inj h
    trivial
  | publishArticle payload =>
    obtain ⟨-, h⟩ := ite_error_eq_ok.mp h
    obtain ⟨-, h⟩ := ite_error_eq_ok.mp h
    obtain rfl := Except.ok.inj h
    exact ⟨rfl, fun _ => rfl⟩

/-- Where a row of the new table comes from: it was there, and has the status it had
or the one the request gives it; or it is the new row. -/
inductive RowAfter (t : ArticleTable) (request : PostRequest) (nextId : Int) (row : Article) :
    Prop where
  | kept (a : Article) (ha : a ∈ t.rows) (hid : row.id = a.id)
      (hstatus : row.articleStatus = a.articleStatus ∨
        newStatus a.slug request = some row.articleStatus)
  | new (hid : row.id = nextId) (hadds : addsArticle request = true)
      (hfresh : ∀ a ∈ t.rows, a.id ≠ nextId)
      (hdraft : (∃ payload, request = .publishArticle payload) → row.articleStatus = .draft)

theorem rowAfter_of_mem {row : Article} (hrow : row ∈ t.rows) : RowAfter t request nextId row :=
  .kept row hrow rfl (.inl rfl)

/-- **What a request does to the statuses.** -/
theorem status_after (hfollows : write.Follows t request)
    (heffect : Effect t t' clock nextId write) :
    ∀ row ∈ t'.rows, RowAfter t request nextId row := by
  intro row hrow
  cases heffect with
  | insert data new hnew hrows =>
    have hunique := t'.uniqueId
    rw [hrows] at hunique
    rw [hrows, List.mem_append, List.mem_singleton] at hrow
    rcases hrow with hold | rfl
    · exact rowAfter_of_mem hold
    · have hid : row.id = nextId := newRow_id hnew
      refine .new hid hfollows.1 (fun a ha he => ?_) fun hpublish => ?_
      · exact col_ne_of_append hunique (ArticleOf.idCol_eq_some.mpr hid) a ha
          (ArticleOf.idCol_eq_some.mpr he)
      · rw [(newRow_date hnew).1, hfollows.2 hpublish]
        rfl
  | same loaded hrows =>
    rw [hrows] at hrow
    exact rowAfter_of_mem hrow
  | update loaded assigned encoded hencoded hrows =>
    obtain ⟨a, ha, rfl, hstatus⟩ := hfollows
    rw [hrows, mem_updateWhere] at hrow
    obtain ⟨x, hx, rfl⟩ := hrow
    split
    next hid =>
      -- the article the request names; every other row is as it was
      obtain rfl := eq_of_uniqueCol t.uniqueId hx ha hid rfl
      refine .kept x ha rfl ?_
      rw [(flush_date hencoded).1, hstatus]
      cases newStatus x.slug request with
      | none => exact .inl rfl
      | some status => exact .inr rfl
    next => exact rowAfter_of_mem hx
  | delete loaded hrows =>
    rw [hrows] at hrow
    exact rowAfter_of_mem (List.mem_filter.mp hrow).1

end SarkariWorld.Content
