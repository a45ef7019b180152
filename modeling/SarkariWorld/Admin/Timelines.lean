import Mathlib.Data.List.Chain
import SarkariWorld.Admin.Days
import SarkariWorld.Content.Bookmark
import SarkariWorld.Lib.Groups

/-!
# The two timelines

`get_publishing_timeline` counts articles by day: `generate_series` supplies the days,
and two grouped subqueries are left-joined onto them. `publishing_timeline_exact` says that
every day of the window has one entry, with the articles of that day.

The bookmark overview groups its rows by day without an axis, and its window begins one
day earlier: "`CURRENT_DATE - make_interval(days => :days)`" against "`:days - 1`".
`bookmark_window_iff` says when its buckets stay on the other timeline's axis.

Both queries are written over `CURRENT_DATE`, which Postgres evaluates in the time zone of
the session; `db/session.py` pins it to IST, and so does the model. A day is therefore a
`CivilDay`, and the window arithmetic is on `ordinal`s, where a day is a step of one and
months play no part.

The publishing timeline counts publications up to `now()`. Creations have no such bound
and need none, because they are joined onto the days of the axis. The overview's query has
neither an upper bound nor an axis, and what that comes to is the condition of the second
theorem.
-/

namespace SarkariWorld.Admin

open SarkariWorld.Lib SarkariWorld.Content Std

/-! ## The queries -/

/-- `CURRENT_DATE`; connections are pinned to IST. -/
def currentDate (clock : Nat) : CivilDay := calendarDay (nowIst clock)

/-- `CURRENT_DATE - make_interval(days => days)`. -/
def daysAgo (clock : Nat) (days : Int) : Int := startOfDay (currentDate clock) - days * oneDay

/-- `generate_series(start, stop, step)`, for a positive step. -/
def generateSeries (start stop step : Int) : List Int :=
  (List.range ((stop - start) / step + 1).toNat).map fun i : Nat => start + i * step

/-- The common table `days` of `_TIMELINE_SQL`. -/
def dayAxis (clock days : Nat) : List CivilDay :=
  (generateSeries (daysAgo clock (days - 1))
    (startOfDay (currentDate clock)) oneDay).map calendarDay

/-- `to_char(day, 'YYYY-MM-DD')`, which prints 1 BC, year 0, as year 1. -/
def toChar (d : CivilDay) : Text :=
  let year := if d.year ≤ 0 then 1 - d.year else d.year
  zeroPadded 4 year ++ '-' :: (zeroPadded 2 d.month ++ '-' :: zeroPadded 2 d.day)

/-- An entry of the publishing timeline: a day, the articles created on it and those published on
it. -/
structure TimelinePoint where
  day : Text
  created : Nat
  published : Nat
  deriving DecidableEq, Repr

/-- The subquery `c`. -/
def createdCounts (t : ArticleTable) (clock days : Nat) : List (CivilDay × Nat) :=
  groupCounts (fun a => calendarDay a.createdAt)
    (t.rows.filter fun a => daysAgo clock (days - 1) ≤ a.createdAt)

/-- The `WHERE` of the subquery `p`. A null date passes no comparison. -/
def publishedWithin (start now : Int) (a : Article) : Bool :=
  a.articleStatus = .published && a.publishedAt.any fun p => start ≤ p && p ≤ now

/-- The subquery `p`. -/
def publishedCounts (t : ArticleTable) (clock days : Nat) : List (Option CivilDay × Nat) :=
  groupCounts (fun a => a.publishedAt.map calendarDay)
    (t.rows.filter (publishedWithin (daysAgo clock (days - 1)) (nowIst clock)))

/-- `get_publishing_timeline`. -/
def getPublishingTimeline (t : ArticleTable) (days clock : Nat) : List TimelinePoint :=
  let created := leftJoin id (dayAxis clock days) (createdCounts t clock days)
  let joined := leftJoin (fun r => some r.1) created (publishedCounts t clock days)
  (orderBy (compareOn fun r => r.1.1.ordinal) joined).map fun r =>
    ⟨toChar r.1.1, r.1.2.getD 0, r.2.getD 0⟩

/-! ## The axis -/

/-- `n` consecutive days, of which the last is `today`. -/
structure DaysEnding (today : CivilDay) (n : Nat) (axis : List CivilDay) : Prop where
  length : axis.length = n
  last : axis.getLast? = some today
  consecutive : axis.IsChain fun a b => b.ordinal = a.ordinal + 1

variable {clock days : Nat} {d : CivilDay} {wall k : Int}

/-- So many days after the beginning of a day begins the day that many ordinals later. -/
theorem calendarDay_midnight :
    (calendarDay (startOfDay d + k * oneDay)).ordinal = d.ordinal + k := by
  rw [calendarDay_ordinal]
  unfold startOfDay oneDay second
  omega

/-- The bound `CURRENT_DATE - k` is reached by a column exactly if its day is not more than `k` days
ago. -/
theorem daysAgo_le_iff : daysAgo clock k ≤ wall ↔
    (currentDate clock).ordinal - k ≤ (calendarDay wall).ordinal := by
  rw [calendarDay_ordinal]
  unfold daysAgo startOfDay oneDay second
  omega

/-- `generate_series` gives the days of the window, the oldest first. -/
theorem dayAxis_eq : dayAxis clock days = (List.range days).map fun i : Nat =>
    calendarDay (startOfDay (currentDate clock) + ((i : Int) + 1 - days) * oneDay) := by
  have hlength : ((startOfDay (currentDate clock) - daysAgo clock ((days : Int) - 1)) /
      oneDay + 1).toNat = days := by
    unfold daysAgo oneDay second
    omega
  rw [dayAxis, generateSeries, hlength, List.map_map]
  refine List.map_congr_left fun i _ => congrArg calendarDay ?_
  dsimp only
  unfold daysAgo oneDay second
  omega

/-- Counted in days, the axis is an interval that ends with today. -/
theorem dayAxis_ordinals : (dayAxis clock days).map CivilDay.ordinal =
    (List.range days).map fun i : Nat => (currentDate clock).ordinal + ((i : Int) + 1 - days) := by
  rw [dayAxis_eq, List.map_map]
  refine List.map_congr_left fun i _ => ?_
  rw [Function.comp_apply, calendarDay_midnight]

/-- A day is on the axis if it is one of the last `days` days. -/
theorem mem_dayAxis : d ∈ dayAxis clock days ↔
    (currentDate clock).ordinal - days < d.ordinal ∧ d.ordinal ≤ (currentDate clock).ordinal := by
  have hmem : d ∈ dayAxis clock days ↔ d.ordinal ∈ (dayAxis clock days).map CivilDay.ordinal := by
    rw [List.mem_map_of_injective fun a b => ordinal_inj.mp]
  rw [hmem, dayAxis_ordinals, List.mem_map]
  constructor
  · rintro ⟨i, hi, hday⟩
    have := List.mem_range.mp hi
    omega
  · intro h
    refine ⟨(d.ordinal - (currentDate clock).ordinal + days - 1).toNat, ?_, ?_⟩
    · rw [List.mem_range]
      omega
    · omega

theorem dayAxis_sorted : (dayAxis clock days).Pairwise fun a b => a.ordinal < b.ordinal := by
  rw [← List.pairwise_map (f := CivilDay.ordinal), dayAxis_ordinals, List.pairwise_map]
  refine List.pairwise_lt_range.imp fun hlt => ?_
  omega

theorem dayAxis_nodup : (dayAxis clock days).Nodup := by
  refine dayAxis_sorted.imp fun {a b} hlt he => ?_
  rw [he] at hlt
  exact Int.lt_irrefl _ hlt

/-- The axis ends today and leaves no day out. -/
theorem dayAxis_daysEnding (h : 1 ≤ days) :
    DaysEnding (currentDate clock) days (dayAxis clock days) where
  length := by rw [dayAxis_eq, List.length_map, List.length_range]
  last := by
    rw [dayAxis_eq, List.getLast?_map, List.getLast?_range, if_neg (by omega), Option.map_some]
    refine congrArg some (ordinal_inj.mp ?_)
    rw [calendarDay_midnight]
    omega
  consecutive := by
    rw [← List.isChain_map CivilDay.ordinal (R := fun a b => b = a + 1), dayAxis_ordinals,
      List.isChain_map, List.isChain_iff_getElem]
    intro i hi
    rw [List.getElem_range, List.getElem_range]
    omega

/-! ## The publishing timeline -/

/-- The article was created on this day. -/
def CreatedOn (d : CivilDay) (a : Article) : Prop := calendarDay a.createdAt = d

/-- The article has the status, and its date is on this day and not after now. -/
def PublishedOn (now : Int) (d : CivilDay) (a : Article) : Prop :=
  a.articleStatus = .published ∧ ∃ p ∈ a.publishedAt, calendarDay p = d ∧ p ≤ now

instance (d : CivilDay) (a : Article) : Decidable (CreatedOn d a) :=
  inferInstanceAs (Decidable (_ = _))

instance (now : Int) (d : CivilDay) (a : Article) : Decidable (PublishedOn now d a) :=
  inferInstanceAs (Decidable (_ ∧ _))

variable {t : ArticleTable}

/-- The window's lower bound cuts off no day of the axis. -/
theorem count_created (hd : d ∈ dayAxis clock days) :
    (t.rows.filter fun a => daysAgo clock (days - 1) ≤ a.createdAt).countP
        (fun a => calendarDay a.createdAt = d) = t.rows.countP fun a => CreatedOn d a := by
  rw [List.countP_filter]
  refine List.countP_congr fun a _ => ?_
  rw [Bool.and_eq_true, decide_eq_true_eq, decide_eq_true_eq, decide_eq_true_eq, CreatedOn]
  refine and_iff_left_of_imp fun hday => ?_
  rw [daysAgo_le_iff, hday]
  have := (mem_dayAxis.mp hd).1
  omega

/-- For a day of the axis, the window of the subquery changes nothing: an article published on that
day is inside it. What the subquery leaves out besides is what is dated after the present moment. -/
theorem count_published (hd : d ∈ dayAxis clock days) :
    (t.rows.filter (publishedWithin (daysAgo clock (days - 1)) (nowIst clock))).countP
        (fun a => a.publishedAt.map calendarDay = some d) =
      t.rows.countP fun a => PublishedOn (nowIst clock) d a := by
  rw [List.countP_filter]
  refine List.countP_congr fun a _ => ?_
  rw [Bool.and_eq_true, decide_eq_true_eq, decide_eq_true_eq, publishedWithin, Bool.and_eq_true,
    decide_eq_true_eq, Option.map_eq_some_iff, Option.any_eq_true, PublishedOn]
  constructor
  · rintro ⟨⟨p, hp, hday⟩, hpublished, p', hp', hbounds⟩
    obtain rfl := Option.some.inj (hp.symm.trans hp')
    rw [Bool.and_eq_true, decide_eq_true_eq, decide_eq_true_eq] at hbounds
    exact ⟨hpublished, p, hp, hday, hbounds.2⟩
  · rintro ⟨hpublished, p, hp, hday, hle⟩
    have hstart : daysAgo clock (days - 1) ≤ p := by
      rw [daysAgo_le_iff, hday]
      have := (mem_dayAxis.mp hd).1
      omega
    refine ⟨⟨p, hp, hday⟩, hpublished, p, hp, ?_⟩
    rw [decide_eq_true hstart, decide_eq_true hle]
    rfl

/-- The entry of one day. -/
def entryOf (t : ArticleTable) (now : Int) (d : CivilDay) : TimelinePoint where
  day := toChar d
  created := t.rows.countP fun a => CreatedOn d a
  published := t.rows.countP fun a => PublishedOn now d a

/-- The joins give every day of the axis its own entry. -/
theorem getPublishingTimeline_eq (t : ArticleTable) (days clock : Nat) :
    getPublishingTimeline t days clock = (dayAxis clock days).map (entryOf t (nowIst clock)) := by
  have hjoined : leftJoin (fun r : CivilDay × Option Nat => some r.1)
      (leftJoin id (dayAxis clock days) (createdCounts t clock days))
        (publishedCounts t clock days) =
      (dayAxis clock days).map fun d =>
        ((d, countOf (fun a : Article => calendarDay a.createdAt)
            (t.rows.filter fun a => daysAgo clock (days - 1) ≤ a.createdAt) d),
          countOf (fun a : Article => a.publishedAt.map calendarDay)
            (t.rows.filter (publishedWithin (daysAgo clock (days - 1)) (nowIst clock)))
              (some d)) := by
    rw [createdCounts, leftJoin_groupCounts, publishedCounts, leftJoin_groupCounts, List.map_map]
    rfl
  -- The axis is in order already.
  have hsorted : ∀ f : CivilDay → Option Nat, ∀ g : CivilDay → Option Nat,
      orderBy (compareOn fun r : (CivilDay × Option Nat) × Option Nat => r.1.1.ordinal)
        ((dayAxis clock days).map fun d => ((d, f d), g d)) =
      (dayAxis clock days).map fun d => ((d, f d), g d) := by
    intro f g
    refine List.Pairwise.insertionSort_eq (List.pairwise_map.mpr ?_)
    refine dayAxis_sorted.imp fun hlt => ?_
    rw [compareOn, Int.compare_eq_lt.mpr hlt]
    rfl
  unfold getPublishingTimeline
  dsimp only
  rw [hjoined, hsorted, List.map_map]
  refine List.map_congr_left fun d hd => ?_
  rw [Function.comp_apply, entryOf, countOf_coalesce, countOf_coalesce, count_created hd,
    count_published hd]

/-- No article is counted on two days. -/
theorem sum_days {test : CivilDay → Article → Prop} [∀ d a, Decidable (test d a)]
    (rows : List Article) (hone : ∀ a d d', test d a → test d' a → d = d') :
    ((dayAxis clock days).map fun d => rows.countP fun a => test d a).sum =
      rows.countP fun a => ∃ d ∈ dayAxis clock days, test d a := by
  rw [sum_countP rows dayAxis_nodup fun a d d' hd hd' =>
    hone a d d' (of_decide_eq_true hd) (of_decide_eq_true hd')]
  refine List.countP_congr fun a _ => ?_
  rw [List.any_eq_true, decide_eq_true_eq]
  simp only [decide_eq_true_eq]

/-- **The publishing timeline is exact**: one entry for each of the last `days` days, with
the articles created and published on it, and no article in two entries. -/
theorem publishing_timeline_exact (t : ArticleTable) {days : Nat} (h : 1 ≤ days) (clock : Nat) :
    ∃ axis, DaysEnding (currentDate clock) days axis ∧
      getPublishingTimeline t days clock = axis.map (entryOf t (nowIst clock)) ∧
      ((getPublishingTimeline t days clock).map TimelinePoint.created).sum =
        t.rows.countP (fun a => ∃ d ∈ axis, CreatedOn d a) ∧
      ((getPublishingTimeline t days clock).map TimelinePoint.published).sum =
        t.rows.countP fun a => ∃ d ∈ axis, PublishedOn (nowIst clock) d a := by
  have hone : ∀ (a : Article) (d d' : CivilDay), PublishedOn (nowIst clock) d a →
      PublishedOn (nowIst clock) d' a → d = d' := by
    rintro a d d' ⟨-, p, hp, hday, -⟩ ⟨-, p', hp', hday', -⟩
    obtain rfl := Option.some.inj (hp.symm.trans hp')
    exact hday.symm.trans hday'
  refine ⟨dayAxis clock days, dayAxis_daysEnding h, getPublishingTimeline_eq t days clock, ?_, ?_⟩
  · rw [getPublishingTimeline_eq, List.map_map]
    exact sum_days t.rows fun a d d' hd hd' => hd.symm.trans hd'
  · rw [getPublishingTimeline_eq, List.map_map]
    exact sum_days t.rows hone

/-- A draft, an article of today, and one dated tomorrow; all written at the epoch. -/
def threeArticles : ArticleTable :=
  ⟨[sampleArticle 1 "notes".toList .draft none, sampleArticle 2 "result".toList .published (some 0),
    sampleArticle 3 "admit-card".toList .published (some (nowIst 0 + day))], by decide, by decide,
    by decide⟩

/-- Three articles created today, one of them published, in a window of two days. -/
theorem two_days_of_three : getPublishingTimeline threeArticles 2 0 =
      [⟨"1969-12-31".toList, 0, 0⟩, ⟨"1970-01-01".toList, 3, 1⟩] ∧
    ∃ axis, DaysEnding (currentDate 0) 2 axis ∧
      getPublishingTimeline threeArticles 2 0 = axis.map (entryOf threeArticles (nowIst 0)) ∧
      ((getPublishingTimeline threeArticles 2 0).map TimelinePoint.created).sum =
        threeArticles.rows.countP (fun a => ∃ d ∈ axis, CreatedOn d a) ∧
      ((getPublishingTimeline threeArticles 2 0).map TimelinePoint.published).sum =
        threeArticles.rows.countP fun a => ∃ d ∈ axis, PublishedOn (nowIst 0) d a :=
  ⟨by decide +kernel, publishing_timeline_exact threeArticles (by decide) 0⟩

/-! ## The bookmark timeline -/

/-- The `WHERE` of `_TIMELINE`. -/
def bookmarkedSince (t : BookmarkTable) (start : Int) : List Bookmark :=
  t.rows.filter fun b => start ≤ b.createdAt

/-- An entry of the overview's timeline: a day with a bookmark on it, and how many. -/
structure BookmarkPoint where
  day : Text
  count : Nat
  deriving DecidableEq, Repr

/-- `_TIMELINE`, as `overview` runs it. -/
def bookmarkTimeline (t : BookmarkTable) (days clock : Nat) : List BookmarkPoint :=
  let groups := groupCounts (fun b => toChar (calendarDay b.createdAt))
    (bookmarkedSince t (daysAgo clock days))
  (orderBy (compareOn Prod.fst) groups).map fun g => ⟨g.1, g.2⟩

/-- The bucket counts this bookmark. -/
def CountedIn (clock days : Nat) (bucket : BookmarkPoint) (b : Bookmark) : Prop :=
  daysAgo clock days ≤ b.createdAt ∧ toChar (calendarDay b.createdAt) = bucket.day

instance (clock days : Nat) (bucket : BookmarkPoint) (b : Bookmark) :
    Decidable (CountedIn clock days bucket b) := inferInstanceAs (Decidable (_ ∧ _))

/-- The buckets lie on the axis of the publishing timeline. -/
structure SameWindow (t : BookmarkTable) (days clock : Nat) : Prop where
  on_axis : ∀ bucket ∈ bookmarkTimeline t days clock,
    (∃ d ∈ dayAxis clock days, bucket.day = toChar d) ∧
      ∀ b ∈ t.rows, CountedIn clock days bucket b → calendarDay b.createdAt ∈ dayAxis clock days
  at_most : (bookmarkTimeline t days clock).length ≤ days
  counts : ∀ bucket ∈ bookmarkTimeline t days clock,
    bucket.count = t.rows.countP fun b => CountedIn clock days bucket b
  counted_once : ∀ b ∈ t.rows, calendarDay b.createdAt ∈ dayAxis clock days →
    ∃! bucket, bucket ∈ bookmarkTimeline t days clock ∧ CountedIn clock days bucket b

variable {bookmarks : BookmarkTable} {bucket : BookmarkPoint}

/-- A bucket is there exactly if a bookmark falls in it, and it counts all that do. -/
theorem mem_bookmarkTimeline : bucket ∈ bookmarkTimeline bookmarks days clock ↔
    (∃ b ∈ bookmarks.rows, CountedIn clock days bucket b) ∧
      bucket.count = bookmarks.rows.countP fun b => CountedIn clock days bucket b := by
  have hcount : (bookmarkedSince bookmarks (daysAgo clock days)).countP
      (fun b => toChar (calendarDay b.createdAt) = bucket.day) =
        bookmarks.rows.countP fun b => CountedIn clock days bucket b := by
    rw [bookmarkedSince, List.countP_filter]
    refine List.countP_congr fun b _ => ?_
    rw [Bool.and_eq_true, decide_eq_true_eq, decide_eq_true_eq, decide_eq_true_eq, and_comm]
    rfl
  have hgroup : bucket ∈ bookmarkTimeline bookmarks days clock ↔ (bucket.day, bucket.count) ∈
      groupCounts (fun b => toChar (calendarDay b.createdAt))
        (bookmarkedSince bookmarks (daysAgo clock days)) := by
    rw [bookmarkTimeline, List.mem_map]
    constructor
    · rintro ⟨g, hg, rfl⟩
      exact mem_orderBy.mp hg
    · intro hg
      exact ⟨_, mem_orderBy.mpr hg, rfl⟩
  rw [hgroup, mem_groupCounts, hcount]
  refine and_congr_left fun _ => ?_
  constructor
  · rintro ⟨b, hb, hday⟩
    obtain ⟨hmem, hsince⟩ := List.mem_filter.mp hb
    exact ⟨b, hmem, of_decide_eq_true hsince, hday⟩
  · rintro ⟨b, hmem, hsince, hday⟩
    exact ⟨b, List.mem_filter.mpr ⟨hmem, decide_eq_true hsince⟩, hday⟩

theorem bookmarkTimeline_days :
    ((bookmarkTimeline bookmarks days clock).map BookmarkPoint.day).Nodup := by
  rw [bookmarkTimeline, List.map_map]
  refine (((orderBy_perm _ _).map Prod.fst).nodup_iff).mpr ?_
  rw [groupCounts, List.map_map]
  show ((groupBy _ _).map Prod.fst).Nodup
  rw [groupBy_keys]
  exact List.nodup_dedup _

/-- Every bookmark the query reads is counted once. -/
theorem counted_once {b : Bookmark} (hb : b ∈ bookmarks.rows)
    (hsince : daysAgo clock days ≤ b.createdAt) :
    ∃! bucket, bucket ∈ bookmarkTimeline bookmarks days clock ∧ CountedIn clock days bucket b := by
  let bucket : BookmarkPoint := ⟨toChar (calendarDay b.createdAt), bookmarks.rows.countP fun b' =>
    daysAgo clock days ≤ b'.createdAt ∧
      toChar (calendarDay b'.createdAt) = toChar (calendarDay b.createdAt)⟩
  have hcounted : CountedIn clock days bucket b := ⟨hsince, rfl⟩
  have hmem : bucket ∈ bookmarkTimeline bookmarks days clock :=
    mem_bookmarkTimeline.mpr ⟨⟨b, hb, hcounted⟩, rfl⟩
  refine ⟨bucket, ⟨hmem, hcounted⟩, fun other hother => ?_⟩
  exact List.inj_on_of_nodup_map bookmarkTimeline_days hother.1 hmem
    (hother.2.2.symm.trans hcounted.2)

/-- Buckets on the days of the axis are no more than these days. -/
theorem bookmarkTimeline_at_most {t : BookmarkTable}
    (hon : ∀ bucket ∈ bookmarkTimeline t days clock, ∃ d ∈ dayAxis clock days,
      bucket.day = toChar d) : (bookmarkTimeline t days clock).length ≤ days := by
  have hsub : (bookmarkTimeline t days clock).map BookmarkPoint.day ⊆
      (dayAxis clock days).map toChar := by
    intro day hday
    obtain ⟨bucket, hbucket, rfl⟩ := List.mem_map.mp hday
    obtain ⟨d, hd, he⟩ := hon bucket hbucket
    exact he ▸ List.mem_map_of_mem hd
  have hle := (List.subperm_of_subset bookmarkTimeline_days hsub).length_le
  rwa [List.length_map, List.length_map, dayAxis_eq, List.length_map, List.length_range] at hle

/-- **The bookmark overview keeps to the window it names exactly if no bookmark was made on
the day before it, or after today.** -/
theorem bookmark_window_iff (t : BookmarkTable) (days clock : Nat) : SameWindow t days clock ↔
    ∀ b ∈ t.rows, (calendarDay b.createdAt).ordinal ≠ (currentDate clock).ordinal - days ∧
      ¬ currentDate clock < calendarDay b.createdAt := by
  constructor
  · intro hsame b hb
    -- a counted bookmark is in a bucket, and every bucket is a day of the axis
    have hwindow : daysAgo clock days ≤ b.createdAt →
        calendarDay b.createdAt ∈ dayAxis clock days := by
      intro hsince
      obtain ⟨bucket, ⟨hmem, hcounted⟩, -⟩ := counted_once hb hsince
      exact (hsame.on_axis bucket hmem).2 b hb hcounted
    rw [daysAgo_le_iff, mem_dayAxis] at hwindow
    rw [← ordinal_lt_iff]
    constructor
    · intro heq
      -- the day before the axis is counted, since the bound is `days` days ago and not one less
      have := hwindow (Int.le_of_eq heq.symm)
      omega
    · intro hlt
      -- and nothing keeps out a bookmark of a day to come
      have := hwindow (by omega)
      omega
  · intro hnone
    have hwindow : ∀ b ∈ t.rows, daysAgo clock days ≤ b.createdAt →
        calendarDay b.createdAt ∈ dayAxis clock days := by
      intro b hb hsince
      obtain ⟨hbefore, hafter⟩ := hnone b hb
      rw [← ordinal_lt_iff] at hafter
      rw [daysAgo_le_iff] at hsince
      rw [mem_dayAxis]
      omega
    -- with neither kind of bookmark, every bucket is on the axis
    have hon : ∀ bucket ∈ bookmarkTimeline t days clock, ∃ d ∈ dayAxis clock days,
        bucket.day = toChar d := by
      intro bucket hbucket
      obtain ⟨⟨b, hb, hsince, hday⟩, -⟩ := mem_bookmarkTimeline.mp hbucket
      exact ⟨_, hwindow b hb hsince, hday.symm⟩
    exact {
      on_axis := fun bucket hbucket =>
        ⟨hon bucket hbucket, fun b hb hcounted => hwindow b hb hcounted.1⟩
      at_most := bookmarkTimeline_at_most hon
      counts := fun bucket hbucket => (mem_bookmarkTimeline.mp hbucket).2
      counted_once := fun b hb hday => counted_once hb (by
        have := (mem_dayAxis.mp hday).1
        rw [daysAgo_le_iff]
        omega) }

/-- A window of one day, on the second of January, has a bucket for the first. -/
theorem overview_of_yesterday : ¬ ∀ (t : BookmarkTable) (days clock : Nat), 1 ≤ days →
    SameWindow t days clock := by
  intro hall
  have hsame := hall sampleBookmarks 1 (24 * 3600 * second) (Nat.le_refl 1)
  have hbucket : ⟨"1970-01-01".toList, 1⟩ ∈ bookmarkTimeline sampleBookmarks 1
      (24 * 3600 * second) := by
    decide +kernel
  have hoff : ∀ d ∈ dayAxis (24 * 3600 * second) 1, "1970-01-01".toList ≠ toChar d := by
    decide +kernel
  obtain ⟨⟨d, hd, hday⟩, -⟩ := hsame.on_axis _ hbucket
  exact hoff d hd hday

end SarkariWorld.Admin
