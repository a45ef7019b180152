import SarkariWorld.Content.Bookmark
import SarkariWorld.Lib.Groups

/-!
# The dashboard and the category breakdown

Two queries of `services/articles.py` count the articles: eight filtered aggregates over
the whole table, and a `GROUP BY` with aggregates of its own. Both filter by the same
status tests, so a column of the breakdown adds up to the dashboard's counter of the same
name (`sum_groupBy`); a date that is missing passes no test, on either side.

The database groups in an order of its own, which is a parameter. What the two answers
have in common does not depend on it: sums over all groups, the statuses of one group, and
the fact that a category has one line at most.

The dashboard's counters overlap, and a few do not add up to anything: "scheduled" and
"published recently" count published articles, "stale drafts" drafts. What the theorem
relates is what the two answers share, the totals and the three statuses.
-/

namespace SarkariWorld.Content

open SarkariWorld.Lib Std

/-- A line of the breakdown, with its five counts. -/
structure CategoryBreakdownRow where
  category : Text
  total : Nat
  published : Nat
  draft : Nat
  archived : Nat
  deriving DecidableEq, Repr

/-- One line of `get_category_breakdown`, of a category and its articles. -/
def categoryBreakdownRow (category : ArticleCategory) (rows : List Article) :
    CategoryBreakdownRow where
  category := categoryEnumToSlug category
  total := rows.length
  published := rows.countP fun a => a.articleStatus = .published
  draft := rows.countP fun a => a.articleStatus = .draft
  archived := rows.countP fun a => a.articleStatus = .archived

/-- `get_category_breakdown`. Categories with equally many articles come in any order. -/
def getCategoryBreakdown (order : GroupOrder (ArticleCategory × List Article))
    (t : ArticleTable) : List CategoryBreakdownRow :=
  let groups := order.arrange (groupBy ArticleOf.category t.rows)
  (orderBy (descOn fun g => g.2.length) groups).map fun g => categoryBreakdownRow g.1 g.2

/-- The `FILTER`s of the `published_recently` counter. -/
def publishedRecently (now : Int) (a : Article) : Bool :=
  a.articleStatus = .published && a.publishedAt.any fun p =>
    now - activityWindowDays * day ≤ p && p ≤ now

/-- The counters are consistent with each other and with the breakdown. -/
structure CountsAgree (t : ArticleTable) (now : Int) (stats : AdminStats)
    (breakdown : List CategoryBreakdownRow) : Prop where
  statuses : stats.total = stats.published + stats.draft + stats.archived
  /-- What the two dated counters count are published articles … -/
  scheduled_published : ((t.rows.filter (scheduled now)).Sublist (published t.rows)) ∧
    stats.scheduled = (t.rows.filter (scheduled now)).length
  recent_published : ((t.rows.filter (publishedRecently now)).Sublist (published t.rows)) ∧
    stats.publishedRecently = (t.rows.filter (publishedRecently now)).length
  /-- … and none is counted in both. -/
  disjoint : (t.rows.filter (scheduled now)).Disjoint (t.rows.filter (publishedRecently now))
  stale : stats.staleDrafts ≤ stats.draft
  total_sum : (breakdown.map CategoryBreakdownRow.total).sum = stats.total
  published_sum : (breakdown.map CategoryBreakdownRow.published).sum = stats.published
  draft_sum : (breakdown.map CategoryBreakdownRow.draft).sum = stats.draft
  archived_sum : (breakdown.map CategoryBreakdownRow.archived).sum = stats.archived
  categories : (breakdown.map CategoryBreakdownRow.category).Nodup

variable {order : GroupOrder (ArticleCategory × List Article)} {t : ArticleTable}

/-- Two categories have two slugs, so a line stands for one category. -/
theorem categoryEnumToSlug_injective : Function.Injective categoryEnumToSlug := by
  have hmem : ∀ c, c ∈ ArticleCategory.all := by
    intro c
    cases c <;> decide
  have hnodup : (ArticleCategory.all.map categoryEnumToSlug).Nodup := by decide
  intro a b h
  exact List.inj_on_of_nodup_map hnodup (hmem a) (hmem b) h

/-- Every article is published, a draft or archived, and only one of these. -/
theorem statuses_sum (rows : List Article) : rows.length =
    rows.countP (fun a => a.articleStatus = .published) +
      rows.countP (fun a => a.articleStatus = .draft) +
        rows.countP fun a => a.articleStatus = .archived := by
  induction rows with
  | nil => rfl
  | cons a as ih =>
    simp only [List.length_cons, List.countP_cons, ih]
    cases a.articleStatus with
    | published => simp; omega
    | draft => simp; omega
    | archived => simp; omega

/-- The groups the breakdown is made of, in the order of its lines. -/
theorem breakdown_groups (order : GroupOrder (ArticleCategory × List Article)) (t : ArticleTable) :
    ∃ groups : List (ArticleCategory × List Article),
      groups.Perm (groupBy ArticleOf.category t.rows) ∧
        getCategoryBreakdown order t = groups.map fun g => categoryBreakdownRow g.1 g.2 :=
  ⟨_, (orderBy_perm _ _).trans (order.perm _), rfl⟩

/-- A column of the breakdown that counts by a test adds up to the count over the table. -/
theorem breakdown_sum {column : CategoryBreakdownRow → Nat} {p : Article → Bool}
    (hcolumn : ∀ c rows, column (categoryBreakdownRow c rows) = rows.countP p) :
    ((getCategoryBreakdown order t).map column).sum = t.rows.countP p := by
  obtain ⟨groups, hperm, hrows⟩ := breakdown_groups order t
  have hcounts : (getCategoryBreakdown order t).map column = groups.map fun g => g.2.countP p := by
    rw [hrows, List.map_map]
    exact List.map_congr_left fun g _ => hcolumn g.1 g.2
  rw [hcounts, ← sum_groupBy p ArticleOf.category]
  exact (hperm.map _).sum_nat

theorem breakdown_categories : ((getCategoryBreakdown order t).map
    CategoryBreakdownRow.category).Nodup := by
  obtain ⟨groups, hperm, hrows⟩ := breakdown_groups order t
  have hkeys : (groups.map Prod.fst).Nodup := by
    refine ((hperm.map Prod.fst).nodup_iff).mpr ?_
    rw [groupBy_keys]
    exact List.nodup_dedup _
  have hslugs : (getCategoryBreakdown order t).map CategoryBreakdownRow.category =
      (groups.map Prod.fst).map categoryEnumToSlug := by
    rw [hrows, List.map_map, List.map_map]
    rfl
  rw [hslugs]
  exact hkeys.map categoryEnumToSlug_injective

/-- **The dashboard and the breakdown count the same articles.** -/
theorem dashboard_counts_agree (order : GroupOrder (ArticleCategory × List Article))
    (t : ArticleTable) (clock : Nat) :
    CountsAgree t (nowIst clock) (getAdminStats t clock) (getCategoryBreakdown order t) where
  statuses := statuses_sum t.rows
  scheduled_published := by
    refine ⟨?_, List.countP_eq_length_filter⟩
    refine List.monotone_filter_right t.rows fun a ha => ?_
    exact decide_eq_true (scheduled_iff.mp ha).1
  recent_published := by
    refine ⟨?_, List.countP_eq_length_filter⟩
    refine List.monotone_filter_right t.rows fun a ha => ?_
    exact (Bool.and_eq_true_iff.mp ha).1
  -- a recent publication is dated up to now, a scheduled one after it
  disjoint := by
    intro a hlater hrecent
    obtain ⟨-, p, hp, hlt⟩ := scheduled_iff.mp (List.mem_filter.mp hlater).2
    have hdated := (Bool.and_eq_true_iff.mp (List.mem_filter.mp hrecent).2).2
    rw [Option.mem_def.mp hp, Option.any_some, Bool.and_eq_true, decide_eq_true_eq,
      decide_eq_true_eq] at hdated
    omega
  stale := by
    refine List.countP_mono_left fun a _ ha => ?_
    exact (Bool.and_eq_true_iff.mp ha).1
  -- summed over the categories, each column of the breakdown counts every article once
  total_sum := by
    have hall : ∀ rows : List Article, rows.countP (fun _ => true) = rows.length :=
      congrFun List.countP_true
    rw [breakdown_sum fun c rows => (hall rows).symm]
    exact hall t.rows
  published_sum := breakdown_sum fun c rows => rfl
  draft_sum := breakdown_sum fun c rows => rfl
  archived_sum := breakdown_sum fun c rows => rfl
  categories := breakdown_categories

end SarkariWorld.Content
