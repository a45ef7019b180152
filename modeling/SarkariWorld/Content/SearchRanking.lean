import SarkariWorld.Content.Listing
import SarkariWorld.Lib.TopRows

/-!
# What the search returns

`_SEARCH_SQL` ranks its rows twice. The prefilter puts exact hits before substring hits
and keeps 200 rows; the outer query puts substring hits before everything else. So it
returns the best of the rows that have fewer than 200 others ahead of them in the
prefilter's order, and these are the best of all under a condition
(`searchBy_first_rows`). The flags and the scores are any functions of the row here;
`searchSql_eq` fills in those of a search.

Ties are the database's: two rows level in every key come out in the order of the scan,
which is a parameter and may differ between the two sorts. Where the statement says "the
best", it means that no row left out is strictly better.

The first sort has two keys and the second five, and only the substring hit is in both.
That the first is cut at 200 rows makes the outcome depend on keys the second does not
look at; where fewer rows match, nothing is lost.
-/

namespace SarkariWorld.Content

open SarkariWorld.Lib Std

/-- What `_SEARCH_SQL` computes of each row, and how it meets equally ranked ones. -/
structure RowScores where
  exactHit : Article → Bool
  substrHit : Article → Bool
  /-- `qnorm <% title_normalized`. -/
  fuzzyHit : Article → Bool
  /-- How many of the tokens the title contains. -/
  tokenHits : Article → Nat
  exactScore : Article → Score
  fuzzyScore : Article → Score
  /-- `exact_score * 0.65 + fuzzy_score * 0.35`. -/
  blend : Score → Score → Score
  scan : List Article → List Article
  rescan : List Article → List Article
  scan_perm : ∀ rows, (scan rows).Perm rows
  rescan_perm : ∀ rows, (rescan rows).Perm rows

namespace RowScores

variable (s : RowScores) (t : ArticleTable)

/-- The `WHERE` of the prefilter. -/
def matching : List Article :=
  t.rows.filter fun a => a.articleStatus = .published &&
    (s.exactHit a || s.fuzzyHit a || s.substrHit a)

/-- `exact_hit DESC, substr_hit DESC`. -/
def prefilterOrder : Article → Article → Ordering :=
  compareLex (descOn s.exactHit) (descOn s.substrHit)

/-- The five keys of the outer `ORDER BY`. -/
def finalOrder : Article → Article → Ordering :=
  compareLex (descOn s.substrHit) <| compareLex (descOn s.tokenHits) <|
    compareLex (descOn fun a => s.blend (s.exactScore a) (s.fuzzyScore a)) <|
      compareLex (descOn s.fuzzyScore) (descOn ArticleOf.publishedAt)

instance : TransCmp s.prefilterOrder := inferInstanceAs (TransCmp (compareLex _ _))

instance : TransCmp s.finalOrder := inferInstanceAs (TransCmp (compareLex _ _))

/-- How many matching rows the prefilter's order puts before this one. -/
def before (a : Article) : Nat :=
  (s.matching t).countP fun b => Ahead s.prefilterOrder (s.scan (s.matching t)) b a

/-- The matching rows with room before the prefilter's `LIMIT`. -/
def withinReach : List Article := (s.matching t).filter fun a => s.before t a < candidatesMax

/-- Each matching row out of reach has `limit` rows within reach that rank no lower. -/
def Outranked (limit : Nat) : Prop :=
  ∀ b ∈ s.matching t, candidatesMax ≤ s.before t b →
    limit ≤ (s.withinReach t).countP fun a => (s.finalOrder a b).isLE

end RowScores

/-- `_SEARCH_SQL`, for any flags and scores. -/
def searchBy (s : RowScores) (t : ArticleTable) (limit : Nat) : List Article :=
  let candidates := (orderBy s.prefilterOrder (s.scan (s.matching t))).take candidatesMax
  (orderBy s.finalOrder (s.rescan candidates)).take limit

/-- The flags and scores of a search. -/
def SearchEngine.scores (engine : SearchEngine) (q qnorm : Text) (tokens : List Text) :
    RowScores where
  exactHit a := engine.exactHit q a.title
  substrHit a := engine.contains qnorm a.title
  fuzzyHit a := engine.fuzzyHit qnorm a.title
  tokenHits a := tokens.countP fun token => engine.contains token a.title
  exactScore a := engine.exactScore q a.title
  fuzzyScore a := engine.fuzzyScore qnorm a.title
  blend := engine.blend
  scan := engine.scan
  rescan := engine.rescan
  scan_perm := engine.scan_perm
  rescan_perm := engine.rescan_perm

/-- The search is the general one with the flags and scores of its text. -/
theorem searchSql_eq (engine : SearchEngine) (t : ArticleTable) (q qnorm : Text)
    (tokens : List Text) (limit : Nat) :
    searchSql engine t q qnorm tokens limit = searchBy (engine.scores q qnorm tokens) t limit :=
  rfl

/-! ## The candidates -/

variable {s : RowScores} {t : ArticleTable} {a : Article} {limit : Nat}

/-- The matching rows in the prefilter's order. -/
def RowScores.ranked (s : RowScores) (t : ArticleTable) : List Article :=
  orderBy s.prefilterOrder (s.scan (s.matching t))

theorem ranked_perm : (s.ranked t).Perm (s.matching t) :=
  (orderBy_perm ..).trans (s.scan_perm _)

theorem matching_nodup : (s.matching t).Nodup := by
  have hid : UniqueCol (fun a : Article => some a.id) t.rows := t.uniqueId
  exact (nodup_of_uniqueCol hid).filter _

/-- A row is cut exactly if two hundred others are ahead of it in the prefilter's order. -/
theorem mem_cut_iff (ha : a ∈ s.matching t) :
    a ∈ (s.ranked t).drop candidatesMax ↔ candidatesMax ≤ s.before t a := by
  have hscan := s.scan_perm (s.matching t)
  have hcut : a ∈ (s.ranked t).drop candidatesMax ↔ _ :=
    mem_drop_orderBy (hscan.nodup_iff.mpr matching_nodup) (hscan.mem_iff.mpr ha)
  rw [hcut, hscan.countP_eq]
  rfl

/-- The prefilter keeps the rows within its reach. -/
theorem take_perm_withinReach : ((s.ranked t).take candidatesMax).Perm (s.withinReach t) := by
  have hnodup : (s.ranked t).Nodup := ranked_perm.nodup_iff.mpr matching_nodup
  refine (List.perm_ext_iff_of_nodup (hnodup.sublist (List.take_sublist ..))
    (matching_nodup.filter _)).mpr fun a => ?_
  rw [List.mem_filter, decide_eq_true_eq, ← Nat.not_le]
  have hsplit := hnodup
  rw [← List.take_append_drop candidatesMax (s.ranked t), List.nodup_append] at hsplit
  constructor
  · intro htaken
    have hmatching := ranked_perm.mem_iff.mp (List.mem_of_mem_take htaken)
    exact ⟨hmatching,
      fun hbefore => hsplit.2.2 a htaken a ((mem_cut_iff hmatching).mpr hbefore) rfl⟩
  · intro ⟨hmatching, hreach⟩
    have hranked := ranked_perm.mem_iff.mpr hmatching
    rw [← List.take_append_drop candidatesMax (s.ranked t), List.mem_append] at hranked
    exact hranked.resolve_right fun hcut => hreach ((mem_cut_iff hmatching).mp hcut)

/-- Of the rows within reach, the search returns the first. -/
theorem searchBy_withinReach :
    FirstRows s.finalOrder limit (s.withinReach t) (searchBy s t limit) :=
  firstRows_orderBy ((s.rescan_perm _).trans take_perm_withinReach)

theorem mem_searchBy (h : a ∈ searchBy s t limit) : a ∈ s.withinReach t := by
  have hcandidate := (s.rescan_perm _).mem_iff.mp (mem_orderBy.mp (List.mem_of_mem_take h))
  exact take_perm_withinReach.mem_iff.mp hcandidate

/-- **The search returns the best of the rows within reach**, and these are the best of
all exactly if at most 200 rows match, or no more are asked for and whatever is out of
reach is outranked. -/
theorem searchBy_first_rows (s : RowScores) (t : ArticleTable) (limit : Nat) :
    FirstRows s.finalOrder limit (s.withinReach t) (searchBy s t limit) ∧
      (FirstRows s.finalOrder limit (s.matching t) (searchBy s t limit) ↔
        (s.matching t).length ≤ candidatesMax ∨
          limit ≤ candidatesMax ∧ s.Outranked t limit) := by
  refine ⟨searchBy_withinReach, ?_⟩
  have hrows : (s.withinReach t ++ (s.ranked t).drop candidatesMax).Perm (s.matching t) := by
    refine (take_perm_withinReach.symm.append_right _).trans ?_
    rw [List.take_append_drop]
    exact ranked_perm
  rw [firstRows_candidates_iff hrows matching_nodup searchBy_withinReach]
  -- nothing is cut off by the limit on candidates
  have hcut : (s.ranked t).drop candidatesMax = [] ↔ (s.matching t).length ≤ candidatesMax := by
    rw [List.drop_eq_nil_iff, ranked_perm.length_eq]
  have houtranked : (∀ b ∈ (s.ranked t).drop candidatesMax,
      limit ≤ (s.withinReach t).countP fun a => (s.finalOrder a b).isLE) ↔
        s.Outranked t limit := by
    constructor
    · intro h b hb hbefore
      exact h b ((mem_cut_iff hb).mpr hbefore)
    · intro h b hb
      have hmatching := ranked_perm.mem_iff.mp (List.mem_of_mem_drop hb)
      exact h b hmatching ((mem_cut_iff hmatching).mp hb)
  rw [hcut, houtranked]
  by_cases hfew : (s.matching t).length ≤ candidatesMax
  · exact iff_of_true (.inl hfew) (.inl hfew)
  · have hfull : (s.withinReach t).length = candidatesMax := by
      rw [← take_perm_withinReach.length_eq, List.length_take, ranked_perm.length_eq]
      omega
    rw [hfull]

/-! ## A title that is not found -/

/-- Article `n` of a crowd. -/
def nthArticle (n : Nat) : Article := sampleArticle n (List.replicate n 'a') .published none

theorem nthArticle_fits {n : Nat} (hn : n < 201) : (nthArticle n).Fits := by
  refine ⟨?_, nofun, nofun, ?_, fun text htext => ?_⟩
  · show Int4 n
    unfold Int4
    omega
  · have hdates : ∀ d ∈ [(0 : Int), 0], timestamp3 d = d := by decide
    exact hdates
  · simp only [ArticleOf.texts, nthArticle, sampleArticle, List.mem_cons,
      List.flatMap_nil, List.append_nil, Option.toList_none, List.not_mem_nil, or_false] at htext
    have hletters : Storable (List.replicate n 'a') := by
      intro hnul
      exact absurd (List.eq_of_mem_replicate hnul) (by decide)
    obtain rfl | rfl | rfl | rfl := htext
    · exact hletters
    · exact List.not_mem_nil
    · exact hletters
    · exact List.not_mem_nil

/-- 201 published articles. -/
def crowd : ArticleTable where
  rows := (List.range 201).map nthArticle
  fits := by
    intro a ha
    obtain ⟨n, hn, rfl⟩ := List.mem_map.mp ha
    exact nthArticle_fits (List.mem_range.mp hn)
  uniqueId := by
    unfold UniqueCol
    rw [List.filterMap_map]
    refine List.nodup_range.filterMap fun m n i hm hn => ?_
    have hm := Option.some.inj hm
    have hn := Option.some.inj hn
    exact Int.ofNat.inj (hm.trans hn.symm)
  uniqueSlug := by
    unfold UniqueCol
    rw [List.filterMap_map]
    refine List.nodup_range.filterMap fun m n slug hm hn => ?_
    have hm := Option.some.inj hm
    have hn := Option.some.inj hn
    have hlength := congrArg List.length (hm.trans hn.symm)
    simpa [nthArticle, sampleArticle] using hlength

/-- The first article contains the query, and the others have its words. -/
def literalFirst : RowScores where
  exactHit a := a.id ≠ 0
  substrHit a := a.id = 0
  fuzzyHit _ := false
  tokenHits _ := 0
  exactScore _ := 0
  fuzzyScore _ := 0
  blend exact fuzzy := exact + fuzzy
  scan := id
  rescan := id
  scan_perm _ := .refl _
  rescan_perm _ := .refl _

theorem mem_matching_crowd {n : Nat} (hn : n < 201) :
    nthArticle n ∈ literalFirst.matching crowd := by
  refine List.mem_filter.mpr ⟨List.mem_map.mpr ⟨n, List.mem_range.mpr hn, rfl⟩, ?_⟩
  show (true && ((decide ((n : Int) ≠ 0) || false) || decide ((n : Int) = 0))) = true
  by_cases hzero : (n : Int) = 0
  · simp [hzero]
  · simp

/-- The other 200 are ahead of it. -/
theorem literal_out_of_reach : candidatesMax ≤ literalFirst.before crowd (nthArticle 0) := by
  have hall : literalFirst.matching crowd = crowd.rows := by
    refine List.filter_eq_self.mpr fun a ha => ?_
    obtain ⟨n, hn, rfl⟩ := List.mem_map.mp ha
    exact (List.mem_filter.mp (mem_matching_crowd (List.mem_range.mp hn))).2
  have hothers : (List.range 201).countP (fun n => decide (n ≠ 0)) = candidatesMax := by
    decide +kernel
  rw [RowScores.before, hall, ← hothers]
  show _ ≤ List.countP _ ((List.range 201).map nthArticle)
  rw [List.countP_map]
  refine List.countP_mono_left fun n _ hn => decide_eq_true (.inl ?_)
  have hne : (n : Int) ≠ 0 := by
    have := of_decide_eq_true hn
    omega
  show ((compare false (decide ((n : Int) ≠ 0))).then _) = .lt
  rw [decide_eq_true hne]
  rfl

/-- The one article that contains the query is not found, though it ranks first. -/
theorem best_match_missing : ¬ ∀ (s : RowScores) (t : ArticleTable) (limit : Nat),
    1 ≤ limit → limit ≤ searchResultMax →
      FirstRows s.finalOrder limit (s.matching t) (searchBy s t limit) := by
  intro hbest
  have hfirst := hbest literalFirst crowd 1 (by decide) (by decide)
  have hmatching := mem_matching_crowd (n := 0) (by decide)
  -- the literal match is the article that is cut off
  have hout : nthArticle 0 ∉ literalFirst.withinReach crowd := by
    intro hmem
    have hbefore := of_decide_eq_true (List.mem_filter.mp hmem).2
    exact Nat.not_le.mpr hbefore literal_out_of_reach
  obtain ⟨a, ha⟩ : ∃ a, a ∈ searchBy literalFirst crowd 1 := by
    refine List.exists_mem_of_length_pos ?_
    rw [hfirst.length]
    have := List.length_pos_of_mem hmatching
    omega
  -- so an answer of one row has another article, which is worse
  have hle := hfirst.le ha hmatching fun hmem => hout (mem_searchBy hmem)
  have hid : a.id ≠ 0 := by
    intro hzero
    obtain ⟨n, hn, rfl⟩ :=
      List.mem_map.mp (List.mem_filter.mp (List.mem_filter.mp (mem_searchBy ha)).1).1
    have hn : n = 0 := Int.ofNat.inj hzero
    exact hout (hn ▸ mem_searchBy ha)
  have hgt : literalFirst.finalOrder a (nthArticle 0) = .gt := by
    show ((compare true (decide (a.id = 0))).then _) = .gt
    rw [decide_eq_false hid]
    rfl
  rw [hgt] at hle
  cases hle

end SarkariWorld.Content
