import SarkariWorld.Content.Posts

/-!
# What a flush leaves under its own row

A request that is alone flushes its copy into the row it loaded. What is stored then is
the copy, encoded (`ArticleOf.encode`): which columns the flush wrote makes no
difference. `found_after` says where the rows of the table are after that.

This is the sequential view of a flush. With another request in between, the row may hold
columns the copy does not have, and the flush merges the two; that view is in
`Site.Threads` and `Site.LastEdits`.

It is used wherever a sequential result needs the row after a request: the copy is known
from the request, and the row is the copy.
-/

namespace SarkariWorld.Content

open SarkariWorld.Lib

/-- A copy, as the columns hold it. -/
def ArticleOf.encode (x : ArticleObject) : Except PyError Article := do
  let publishedAt ← encodeDate x.publishedAt
  pure { x with
    publishedAt := publishedAt
    createdAt := timestamp3 x.createdAt
    updatedAt := timestamp3 x.updatedAt }

variable {t t' : ArticleTable} {clock : Nat} {nextId : Int} {a b : Article} {x : ArticleObject}

/-- An encoded copy is the copy with its dates rounded, if the driver takes its date. -/
theorem encode_eq_ok :
    x.encode = .ok b ↔ ∃ publishedAt, encodeDate x.publishedAt = .ok publishedAt ∧
    b = { x with
      publishedAt := publishedAt
      createdAt := timestamp3 x.createdAt
      updatedAt := timestamp3 x.updatedAt } := by
  unfold ArticleOf.encode
  rw [bind_eq_ok]
  refine exists_congr fun publishedAt => and_congr_right fun _ => ?_
  exact ⟨fun h => (Except.ok.inj h).symm, fun h => congrArg Except.ok h.symm⟩

theorem encodeDate_load {date : Option Int} (h : ∀ d ∈ date, timestamp3 d = d) :
    encodeDate (date.map naive) = .ok date := by
  cases date with
  | none => rfl
  | some d => exact congrArg (fun d => Except.ok (some d)) (h d rfl)

/-- The dates of a stored row are already rounded. -/
theorem fits_dates (h : a.Fits) : (∀ d ∈ a.publishedAt, timestamp3 d = d) ∧
    timestamp3 a.createdAt = a.createdAt ∧ timestamp3 a.updatedAt = a.updatedAt := by
  have hdates := h.2.2.2.1
  refine ⟨fun d hd => hdates d ?_, hdates _ ?_, hdates _ ?_⟩
  · exact List.mem_append_left _ (Option.mem_toList.mpr hd)
  · exact List.mem_append_right _ List.mem_cons_self
  · exact List.mem_append_right _ (List.mem_cons_of_mem _ List.mem_cons_self)

theorem encode_load (h : a.Fits) : a.load.encode = .ok a := by
  obtain ⟨hpublished, hcreated, hupdated⟩ := fits_dates h
  refine encode_eq_ok.mpr ⟨a.publishedAt, encodeDate_load hpublished, ?_⟩
  show a = { a with createdAt := timestamp3 a.createdAt, updatedAt := timestamp3 a.updatedAt }
  rw [hcreated, hupdated]

/-- A rounded column, flushed over itself. -/
theorem flushColWith_self {loaded assigned : Int} (h : timestamp3 loaded = loaded) :
    flushColWith timestamp3 loaded assigned loaded = timestamp3 assigned := by
  unfold flushColWith
  split
  next hsame => rw [hsame, h]
  next => rfl

/-- **A copy flushed over its own row is stored.** -/
theorem encode_flushArticle {encoded : Option Int} (hfits : a.Fits) (hid : x.id = a.id)
    (h : encodeChanged a.load x = .ok encoded) :
    x.encode = .ok (flushArticle a.load x encoded a) := by
  obtain ⟨hpublished, hcreated, hupdated⟩ := fits_dates hfits
  have hdate : encodeDate x.publishedAt =
      .ok (if x.publishedAt = a.load.publishedAt then a.publishedAt else encoded) := by
    unfold encodeChanged at h
    split
    next hsame =>
      rw [hsame]
      exact encodeDate_load hpublished
    next hne =>
      rw [if_neg hne] at h
      exact h
  refine encode_eq_ok.mpr ⟨_, hdate, ?_⟩
  simp only [flushArticle, ArticleOf.load, flushCol_self, hid, flushColWith_self hcreated,
    flushColWith_self hupdated]

/-! ## The rows after a write -/

/-- The write goes back to the row it was loaded from. -/
def ArticleWrite.OfRow (t : ArticleTable) : ArticleWrite → Prop
  | .insert _ => True
  | .update loaded assigned => ∃ a ∈ t.rows, loaded = a.load ∧ assigned.id = a.id
  | .delete loaded => ∃ a ∈ t.rows, loaded = a.load

/-- The row found under a number after a write. -/
inductive FoundAfter (t : ArticleTable) (clock : Nat) (nextId i : Int) (b : Article) :
    ArticleWrite → Prop where
  /-- It is the new row. -/
  | inserted (data : ArticleData) (hrow : newRow data nextId clock = .ok b) (hid : i = nextId)
      (hfresh : t.find i = none) : FoundAfter t clock nextId i b (.insert data)
  /-- It is the row that was written. -/
  | stored (a : Article) (x : ArticleObject) (hfound : t.find i = some a)
      (hencode : x.encode = .ok b) : FoundAfter t clock nextId i b (.update a.load x)
  /-- It is another row. -/
  | kept (write : ArticleWrite) (hfound : t.find i = some b)
      (hother : ∀ loaded x, write = .update loaded x → loaded.id ≠ i) :
      FoundAfter t clock nextId i b write

/-- **What a write leaves under a number.** -/
theorem found_after {write : ArticleWrite} {i : Int} (hrow : write.OfRow t)
    (h : Effect t t' clock nextId write) (hb : t'.find i = some b) :
    FoundAfter t clock nextId i b write := by
  obtain ⟨hmem, hid⟩ := ArticleTable.find_eq_some.mp hb
  cases h with
  | insert data new hnew hrows =>
    have hunique := t'.uniqueId
    rw [hrows] at hunique hmem
    obtain hold | hlast := List.mem_append.mp hmem
    · exact .kept _ (ArticleTable.find_eq_some.mpr ⟨hold, hid⟩) fun _ _ he => nomatch he
    · obtain rfl := List.mem_singleton.mp hlast
      -- The number was free, or the new row would not have fitted.
      have hnumber : b.id = nextId := newRow_id hnew
      refine .inserted data hnew (hid.symm.trans hnumber) (ArticleTable.find_eq_none.mpr ?_)
      intro a ha he
      exact col_ne_of_append hunique (ArticleOf.idCol_eq_some.mpr hid) a ha
        (ArticleOf.idCol_eq_some.mpr he)
  | same loaded hrows =>
    obtain ⟨a, ha, rfl, -⟩ := hrow
    rw [hrows] at hmem
    by_cases hsame : a.id = i
    · obtain rfl := eq_of_uniqueCol t.uniqueId ha hmem (ArticleOf.idCol_eq_some.mpr hsame)
        (ArticleOf.idCol_eq_some.mpr hid)
      exact .stored a a.load (ArticleTable.find_eq_some.mpr ⟨ha, hid⟩) (encode_load (t.fits a ha))
    · refine .kept _ (ArticleTable.find_eq_some.mpr ⟨hmem, hid⟩) fun loaded x he => ?_
      rw [← (ArticleWrite.update.inj he).1]
      exact hsame
  | update loaded x encoded hencoded hrows =>
    obtain ⟨a, ha, rfl, hassigned⟩ := hrow
    rw [hrows, mem_updateWhere] at hmem
    obtain ⟨stored, hstored, rfl⟩ := hmem
    split at hid
    next hsame =>
      obtain rfl := eq_of_uniqueCol t.uniqueId hstored ha hsame rfl
      rw [if_pos hsame]
      exact .stored stored x (ArticleTable.find_eq_some.mpr ⟨ha, hid⟩)
        (encode_flushArticle (t.fits stored ha) hassigned hencoded)
    next hne =>
      rw [if_neg hne]
      refine .kept _ (ArticleTable.find_eq_some.mpr ⟨hstored, hid⟩) fun loaded x' he => ?_
      rw [← (ArticleWrite.update.inj he).1, ← hid]
      exact fun he => hne (ArticleOf.idCol_eq_some.mpr he.symm)
  | delete loaded hrows =>
    rw [hrows] at hmem
    exact .kept _ (ArticleTable.find_eq_some.mpr ⟨(List.mem_filter.mp hmem).1, hid⟩)
      fun _ _ he => nomatch he

/-! ## Requests -/

variable {env : Env} {actor : Author}

theorem stampUpdated_ofRow {now : Int} (ha : a ∈ t.rows) (hid : x.id = a.id) :
    (stampUpdated a.load x now).OfRow t := by
  refine ⟨a, ha, rfl, ?_⟩
  split
  · exact hid
  · exact hid

theorem assignStatus_id (status : ArticleStatus) (now : Int) :
    (x.assignStatus status now).id = x.id := by
  unfold ArticleOf.assignStatus
  dsimp only
  split
  · rfl
  · rfl

/-- What a request writes was loaded from the table it was prepared on. -/
theorem prepare_ofRow {request : PostRequest} {write : ArticleWrite}
    (h : prepare env t clock actor request = .ok write) : write.OfRow t := by
  cases request with
  | createPost payload =>
    obtain ⟨-, h⟩ := ite_error_eq_ok.mp h
    obtain rfl := Except.ok.inj h
    trivial
  | updatePost slug payload =>
    obtain ⟨a, hget, h⟩ := bind_eq_ok.mp h
    split at h
    next => cases h
    next =>
      obtain rfl := Except.ok.inj h
      exact stampUpdated_ofRow (getArticle_ok hget).1 rfl
  | updatePostStatus slug status =>
    obtain ⟨a, hget, h⟩ := bind_eq_ok.mp h
    obtain rfl := Except.ok.inj h
    exact stampUpdated_ofRow (getArticle_ok hget).1 (assignStatus_id status _)
  | deletePost slug =>
    obtain ⟨a, hget, h⟩ := bind_eq_ok.mp h
    obtain rfl := Except.ok.inj h
    exact ⟨a, (getArticle_ok hget).1, rfl⟩
  | publishArticle payload =>
    obtain ⟨-, h⟩ := ite_error_eq_ok.mp h
    obtain ⟨-, h⟩ := ite_error_eq_ok.mp h
    obtain rfl := Except.ok.inj h
    trivial

end SarkariWorld.Content
