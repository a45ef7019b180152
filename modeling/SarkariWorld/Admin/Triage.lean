import SarkariWorld.Admin.PagedListings
import SarkariWorld.Content.StoredUrls
import SarkariWorld.Content.Uniqueness

/-!
# Triage

"Never-viewed rows surface first so nothing sits unseen." An editor who opens the first
row of the list and marks it viewed works off a queue: a step takes one unviewed row from
it, unless there is none, and a row that is added joins it (`queue_account`). Without
unviewed rows the list goes round, as long as each stamp, in milliseconds, is later than
all that are stored.

The queue is what the listing would show on a single page; the list the editor sees is its
beginning. So a step of the editor's is described by its effect on the table (`Opened`),
an addition likewise (`Added`), and both are then followed through a run. Whether the
order of the queue changes under the editor's hands is a matter of the stamps alone:
`ORDER BY last_viewed_at ASC NULLS FIRST`, with creation time and number behind it.
-/

namespace SarkariWorld.Admin

open SarkariWorld.Lib SarkariWorld.Content SarkariWorld.Site Std

variable (env : ListingEnv) (perPage : Option Int)

/-- The first row of `list_urls(sort="oldest")`, without filters. -/
def firstListed (t : WebUrlTable) : Option WebUrl :=
  match listUrls env t none .oldest .all none (adminPageParams none perPage) with
  | .ok (rows, _) => rows.head?
  | .error _ => none

/-- The editor opens that row and marks it viewed. -/
def openFirst (t : WebUrlTable) (clock : Nat) : WebUrlTable × Option Int :=
  match firstListed env perPage t with
  | none => (t, none)
  | some w =>
    match markViewed t clock w.id with
    | .error _ => (t, none)
    | .ok write =>
      match commitWebUrl t clock 0 write with
      | .error _ => (t, none)
      | .ok (t', _) => (t', some w.id)

/-- `create_web_url`. A URL that is refused leaves the table as it is. -/
def addUrl (t : WebUrlTable) (payload : WebUrlCreate) (clock : Nat) (nextId : Int) : WebUrlTable :=
  match createWebUrl env.content t payload with
  | .error _ => t
  | .ok write =>
    match commitWebUrl t clock nextId write with
    | .error _ => t
    | .ok (t', _) => t'

/-- What happens to the list: an editor opens the first row and marks it viewed, or somebody adds a
URL. -/
inductive TriageEvent where
  /-- A step of the editor's. -/
  | view (clock : Nat)
  | add (payload : WebUrlCreate) (clock : Nat) (nextId : Int)

/-- What an event makes of the table. A request that fails leaves it as it is. -/
def triage (t : WebUrlTable) : TriageEvent → WebUrlTable
  | .view clock => (openFirst env perPage t clock).1
  | .add payload clock nextId => addUrl env t payload clock nextId

/-- A whole afternoon of such events. -/
def runTriage (t : WebUrlTable) (events : List TriageEvent) : WebUrlTable :=
  events.foldl (triage env perPage) t

/-- The rows never viewed. -/
def unviewed (t : WebUrlTable) : Nat := t.rows.countP fun w => w.lastViewedAt.isNone

/-- The events that work the queue off. -/
def TriageEvent.isView : TriageEvent → Bool
  | .view _ => true
  | .add .. => false

/-- The editor's steps. -/
def stepsIn (events : List TriageEvent) : Nat := events.countP TriageEvent.isView

/-- The rows that a run adds. -/
def addedIn (t : WebUrlTable) (events : List TriageEvent) : Nat :=
  (runTriage env perPage t events).rows.length - t.rows.length

/-- The rows that a series of steps views, one after the other. -/
def viewedBy (t : WebUrlTable) : List Nat → List (Option Int)
  | [] => []
  | clock :: clocks =>
    (openFirst env perPage t clock).2 :: viewedBy (openFirst env perPage t clock).1 clocks

/-- What `last_viewed_at` keeps of a step at this time. -/
def viewStamp (clock : Nat) : Int := timestamp3 (nowIst clock)

/-! ## A step -/

variable {env perPage} {t : WebUrlTable} {w : WebUrl} {clock : Nat}

/-- The list, without filters. -/
def queue (t : WebUrlTable) : List WebUrl := orderBy (urlOrder .oldest) t.rows

theorem urlFilter_none (w : WebUrl) : urlFilter env none .all none w = true := rfl

/-- The first row of the list is the first of the queue, whatever the size of a page. -/
theorem firstListed_eq : firstListed env perPage t = (queue t).head? := by
  have hrows : t.rows.filter (urlFilter env none .all none) = t.rows :=
    List.filter_eq_self.mpr fun w _ => urlFilter_none w
  have hlist : listUrls env t none .oldest .all none (adminPageParams none perPage) =
      .ok ((adminPageParams none perPage).slice (queue t), t.rows.length) := by
    have hanswer : listUrls env t none .oldest .all none (adminPageParams none perPage) =
        .ok ((adminPageParams none perPage).slice
            (orderBy (urlOrder .oldest) (t.rows.filter (urlFilter env none .all none))),
          (t.rows.filter (urlFilter env none .all none)).length) := rfl
    rw [hanswer, hrows]
    rfl
  have hpos := adminPageParams_pos perPage
  unfold firstListed
  rw [hlist]
  show ((queue t).drop (((1 : Int) - 1) * _).toNat |>.take _).head? = _
  rw [Int.sub_self, Int.zero_mul, Int.toNat_zero, List.drop_zero, List.head?_take, if_neg]
  omega

theorem queue_perm : (queue t).Perm t.rows := orderBy_perm ..

/-- A row that is marked viewed still fits the table: the stamp is rounded on its way in. -/
theorem stamp_fits (h : w.Fits) (stamped : Int) : (w.stamp stamped).Fits := by
  obtain ⟨hid, hdates, htexts⟩ := h
  refine ⟨hid, fun d hd => ?_, htexts⟩
  obtain rfl | hd := List.mem_cons.mp hd
  · exact timestamp3_idem stamped
  · exact hdates d (List.mem_append_right _ hd)

/-- Marking a row viewed touches neither its number nor its URL. -/
theorem stamp_unique (t : WebUrlTable) (id stamped : Int) :
    UniqueCol WebUrl.idCol (updateWhere WebUrl.idCol id (fun w => w.stamp stamped) t.rows) ∧
      UniqueCol WebUrl.urlCol (updateWhere WebUrl.idCol id (fun w => w.stamp stamped) t.rows) :=
  ⟨uniqueCol_updateWhere_of_eq t.uniqueId t.uniqueId fun _ _ _ => rfl,
    uniqueCol_updateWhere_of_eq t.uniqueId t.uniqueUrl fun _ _ _ => rfl⟩

/-- What a step does. -/
inductive Opened (t : WebUrlTable) (clock : Nat) : WebUrlTable × Option Int → Prop where
  | nothing (h : queue t = []) : Opened t clock (t, none)
  | viewed (w : WebUrl) (rest : List WebUrl) (t' : WebUrlTable) (h : queue t = w :: rest)
      (hrows : t'.rows =
        updateWhere WebUrl.idCol w.id (fun w => w.stamp (nowIst clock)) t.rows) :
      Opened t clock (t', some w.id)

/-- What the editor's step does: nothing to an empty list, and otherwise a stamp on its first row.
-/
theorem openFirst_opened (env : ListingEnv) (perPage : Option Int) (t : WebUrlTable)
    (clock : Nat) : Opened t clock (openFirst env perPage t clock) := by
  unfold openFirst
  rw [firstListed_eq]
  cases hqueue : queue t with
  | nil => exact .nothing hqueue
  | cons w rest =>
    have hmem : w ∈ t.rows := by
      rw [← queue_perm.mem_iff, hqueue]
      exact List.mem_cons_self
    have hfound : t.find w.id = some w := WebUrlTable.find_eq_some.mpr ⟨hmem, rfl⟩
    have hwrite : markViewed t clock w.id = .ok (.view w (nowIst clock)) := by
      rw [markViewed, getWebUrl, if_pos (t.fits w hmem).1, hfound]
      rfl
    simp only [List.head?_cons, hwrite, commitWebUrl, hfound]
    by_cases hsame : w.lastViewedAt = some (nowIst clock)
    · -- The value is the one that is there, and writing it would change nothing.
      rw [if_pos hsame]
      refine .viewed w rest t hqueue (updateWhere_of_eq_self fun x hx hid => ?_).symm
      obtain rfl := eq_of_uniqueCol t.uniqueId hx hmem hid rfl
      have hrounded : timestamp3 (nowIst clock) = nowIst clock :=
        (t.fits x hx).2.1 _
          (List.mem_append_left _ (by rw [hsame]; exact List.mem_singleton_self _))
      rw [WebUrl.stamp, hrounded, ← hsame]
    · rw [if_neg hsame]
      have hfits : ∀ x ∈ updateWhere WebUrl.idCol w.id (fun w => w.stamp (nowIst clock)) t.rows,
          x.Fits := by
        intro x hx
        obtain ⟨y, hy, rfl⟩ := mem_updateWhere.mp hx
        split
        · exact stamp_fits (t.fits y hy) _
        · exact t.fits y hy
      simp only [WebUrlTable.write, dif_pos hfits, dif_pos (stamp_unique t w.id _)]
      exact .viewed w rest _ hqueue rfl

/-- What an addition does. -/
inductive Added (t : WebUrlTable) : WebUrlTable → Prop where
  | refused : Added t t
  | stored (row : WebUrl) (t' : WebUrlTable) (hnew : row.lastViewedAt = none)
      (hrows : t'.rows = t.rows ++ [row]) : Added t t'

/-- What an addition does: a row that was not viewed, or nothing if the URL is refused or already
there. -/
theorem addUrl_added (env : ListingEnv) (t : WebUrlTable) (payload : WebUrlCreate) (clock : Nat)
    (nextId : Int) : Added t (addUrl env t payload clock nextId) := by
  unfold addUrl
  split
  next => exact .refused
  next write hcreate =>
    obtain ⟨⟨url, domain, title, rfl⟩, -⟩ := createWebUrl_free hcreate
    split
    next => exact .refused
    next t' _ hcommit =>
      obtain ⟨stored, hwrite, hend⟩ := bind_eq_ok.mp hcommit
      obtain ⟨rfl, -⟩ := Prod.mk.inj (Except.ok.inj hend)
      exact .stored _ _ rfl (WebUrlTable.write_ok hwrite)

/-! ## Counting -/

theorem queue_nodup : (queue t).Nodup := by
  have hid : UniqueCol (fun w : WebUrl => some w.id) t.rows := t.uniqueId
  exact queue_perm.nodup_iff.mpr (nodup_of_uniqueCol hid)

/-- The row that is viewed goes to the end. -/
theorem viewed_perm {rest : List WebUrl} {stamped : Int} (h : queue t = w :: rest) :
    (updateWhere WebUrl.idCol w.id (fun w => w.stamp stamped) t.rows).Perm
      (rest ++ [w.stamp stamped]) := by
  have hperm : t.rows.Perm (w :: rest) := h ▸ queue_perm.symm
  have hnodup := queue_nodup (t := t)
  rw [h, List.nodup_cons] at hnodup
  have hrest : updateWhere WebUrl.idCol w.id (fun w => w.stamp stamped) rest = rest := by
    refine updateWhere_of_eq_self fun x hx hid => ?_
    have hxt := hperm.mem_iff.mpr (List.mem_cons_of_mem w hx)
    have hwt := hperm.mem_iff.mpr List.mem_cons_self
    obtain rfl := eq_of_uniqueCol t.uniqueId hxt hwt hid rfl
    exact absurd hx hnodup.1
  refine (hperm.map _).trans ?_
  rw [List.map_cons, if_pos (WebUrl.idCol_eq_some.mpr rfl)]
  show (w.stamp stamped :: updateWhere WebUrl.idCol w.id _ rest).Perm _
  rw [hrest]
  exact (List.perm_append_singleton _ _).symm

/-- Unviewed rows are first. -/
theorem queue_head_unviewed {rest : List WebUrl} (h : queue t = w :: rest)
    (hsome : 0 < unviewed t) : w.lastViewedAt = none := by
  obtain ⟨x, hx, hnone⟩ := List.countP_pos_iff.mp hsome
  have hnone := Option.isNone_iff_eq_none.mp hnone
  have hsorted : (queue t).Pairwise fun a b => (urlOrder .oldest a b).isLE = true := orderBy_sorted
  rw [← queue_perm.mem_iff, h] at hx
  obtain rfl | hx := List.mem_cons.mp hx
  · exact hnone
  · rw [h] at hsorted
    have hle := (List.pairwise_cons.mp hsorted).1 x hx
    -- A stamp would come after `x`.
    cases hstamp : w.lastViewedAt with
    | none => rfl
    | some d =>
      have hgt : urlOrder .oldest w x = .gt := by
        show (compare w.lastViewedAt x.lastViewedAt).then _ = .gt
        rw [hstamp, hnone]
        rfl
      rw [hgt] at hle
      cases hle

/-- A step takes one unviewed row away, if there is one. -/
theorem unviewed_opened {answer : WebUrlTable × Option Int} (h : Opened t clock answer) :
    unviewed answer.1 = unviewed t - 1 ∧ answer.1.rows.length = t.rows.length := by
  cases h with
  | nothing hempty =>
    have hrows : t.rows = [] := List.perm_nil.mp (hempty ▸ queue_perm.symm)
    refine ⟨?_, rfl⟩
    rw [unviewed, hrows]
    rfl
  | viewed w rest t' hqueue hrows =>
    have hperm : t.rows.Perm (w :: rest) := hqueue ▸ queue_perm.symm
    have hcount : unviewed t' = rest.countP fun w => w.lastViewedAt.isNone := by
      rw [unviewed, hrows, (viewed_perm hqueue).countP_eq, List.countP_append]
      rfl
    have hbefore : unviewed t = (w :: rest).countP fun w => w.lastViewedAt.isNone :=
      hperm.countP_eq _
    refine ⟨?_, by rw [hrows, updateWhere, List.length_map]⟩
    show unviewed t' = unviewed t - 1
    by_cases hsome : 0 < unviewed t
    · have hnone := queue_head_unviewed hqueue hsome
      rw [List.countP_cons, hnone, Option.isNone_none, if_pos rfl] at hbefore
      omega
    · rw [List.countP_cons] at hbefore
      omega

theorem unviewed_added {t' : WebUrlTable} (h : Added t t') :
    unviewed t' + t.rows.length = unviewed t + t'.rows.length ∧ t.rows.length ≤ t'.rows.length := by
  cases h with
  | refused => exact ⟨rfl, Nat.le_refl _⟩
  | stored row t' hnew hrows =>
    have hcount : unviewed t' = unviewed t + 1 := by
      rw [unviewed, hrows, List.countP_append, List.countP_singleton, hnew]
      rfl
    rw [hcount, hrows, List.length_append, List.length_singleton]
    omega

/-! ## Working off the queue -/

theorem runTriage_append (events more : List TriageEvent) :
    runTriage env perPage t (events ++ more) =
      runTriage env perPage (runTriage env perPage t events) more := List.foldl_append

/-- What one event does to the count of unviewed rows, and of all rows. -/
theorem triage_count (env : ListingEnv) (perPage : Option Int) (t : WebUrlTable)
    (event : TriageEvent) :
    let t' := triage env perPage t event
    stepsIn [event] = 1 ∧ unviewed t' = unviewed t - 1 ∧ t'.rows.length = t.rows.length ∨
      stepsIn [event] = 0 ∧ unviewed t' + t.rows.length = unviewed t + t'.rows.length ∧
        t.rows.length ≤ t'.rows.length := by
  cases event with
  | view clock => exact .inl ⟨rfl, unviewed_opened (openFirst_opened env perPage t clock)⟩
  | add payload clock nextId =>
    exact .inr ⟨rfl, unviewed_added (addUrl_added env t payload clock nextId)⟩

theorem rows_le_runTriage (env : ListingEnv) (perPage : Option Int) (t : WebUrlTable)
    (events : List TriageEvent) :
    t.rows.length ≤ (runTriage env perPage t events).rows.length := by
  induction events generalizing t with
  | nil => exact Nat.le_refl _
  | cons event events ih =>
    refine Nat.le_trans ?_ (ih (triage env perPage t event))
    obtain ⟨-, -, hsame⟩ | ⟨-, -, hle⟩ := triage_count env perPage t event
    · exact hsame.ge
    · exact hle

/-- A run as a queue: either every step took an unviewed row, or there was a moment
without any, since when more rows came in than were taken, by those that are left. -/
theorem queue_account (env : ListingEnv) (perPage : Option Int) (t : WebUrlTable)
    (events : List TriageEvent) :
    unviewed t + addedIn env perPage t events =
        stepsIn events + unviewed (runTriage env perPage t events) ∨
      ∃ before after, events = before ++ after ∧
        unviewed (runTriage env perPage t before) = 0 ∧
        addedIn env perPage (runTriage env perPage t before) after =
          stepsIn after + unviewed (runTriage env perPage t events) := by
  induction events using List.reverseRecOn with
  | nil =>
    left
    show unviewed t + (t.rows.length - t.rows.length) = 0 + unviewed t
    omega
  | append_singleton events event ih =>
    have hlast : runTriage env perPage t (events ++ [event]) =
        triage env perPage (runTriage env perPage t events) event := runTriage_append events [event]
    have hsteps : ∀ after, stepsIn (after ++ [event]) = stepsIn after + stepsIn [event] :=
      fun after => List.countP_append
    have hevent := triage_count env perPage (runTriage env perPage t events) event
    have hgrown := rows_le_runTriage env perPage t events
    by_cases hwasted : stepsIn [event] = 1 ∧ unviewed (runTriage env perPage t events) = 0
    · -- The step finds nothing unviewed, and its moment is the one.
      right
      have hnone : unviewed (runTriage env perPage t (events ++ [event])) = 0 := by
        rw [hlast]
        omega
      refine ⟨events ++ [event], [], (List.append_nil _).symm, hnone, ?_⟩
      rw [hnone]
      exact Nat.sub_self _
    · unfold addedIn at ih ⊢
      rw [hlast, hsteps]
      obtain hall | ⟨before, after, hsplit, hnone, hcame⟩ := ih
      · left
        omega
      · right
        -- The moment stays the one it was; the account after it goes one event further.
        have hrun : runTriage env perPage (runTriage env perPage t before) after =
            runTriage env perPage t events := by rw [hsplit, runTriage_append]
        have hgrown := rows_le_runTriage env perPage (runTriage env perPage t before) after
        refine ⟨before, after ++ [event], by rw [hsplit, List.append_assoc], hnone, ?_⟩
        have hrun' : runTriage env perPage (runTriage env perPage t before) (after ++ [event]) =
            triage env perPage (runTriage env perPage t events) event := by
          rw [runTriage_append, hrun]
          rfl
        rw [hrun] at hcame hgrown
        rw [hrun', hsteps]
        omega

/-- Steps take no more than one unviewed row each. -/
theorem account_le (env : ListingEnv) (perPage : Option Int) (t : WebUrlTable)
    (events : List TriageEvent) :
    unviewed t + addedIn env perPage t events ≤
      stepsIn events + unviewed (runTriage env perPage t events) := by
  induction events generalizing t with
  | nil =>
    show unviewed t + (t.rows.length - t.rows.length) ≤ 0 + unviewed t
    omega
  | cons event events ih =>
    have hrest := ih (triage env perPage t event)
    have hevent := triage_count env perPage t event
    have hgrown : (triage env perPage t event).rows.length ≤
        (runTriage env perPage (triage env perPage t event) events).rows.length :=
      rows_le_runTriage env perPage _ events
    have hsteps : stepsIn ([event] ++ events) = stepsIn [event] + stepsIn events :=
      List.countP_append
    rw [List.singleton_append] at hsteps
    have hrun : runTriage env perPage t (event :: events) =
        runTriage env perPage (triage env perPage t event) events := rfl
    unfold addedIn at hrest ⊢
    rw [hrun, hsteps]
    omega

/-- **No unviewed row is left** at the end exactly if there were steps for all of them,
and no final stretch of the run brought more rows than it had steps. -/
theorem unviewed_zero_iff (events : List TriageEvent) :
    unviewed (runTriage env perPage t events) = 0 ↔
      unviewed t + addedIn env perPage t events ≤ stepsIn events ∧
        ∀ before after, events = before ++ after →
          addedIn env perPage (runTriage env perPage t before) after ≤ stepsIn after := by
  constructor
  · intro hnone
    have hall := account_le env perPage t events
    refine ⟨by omega, ?_⟩
    rintro before after rfl
    have hlate := account_le env perPage (runTriage env perPage t before) after
    rw [runTriage_append] at hnone
    omega
  · intro ⟨henough, hstretches⟩
    obtain hall | ⟨before, after, hsplit, -, hcame⟩ := queue_account env perPage t events
    · omega
    · have hfew := hstretches before after hsplit
      omega

/-- **There is a moment without unviewed rows**, if there are steps for all of them. -/
theorem exists_moment (events : List TriageEvent)
    (h : unviewed t + addedIn env perPage t events ≤ stepsIn events) :
    ∃ before after, events = before ++ after ∧ unviewed (runTriage env perPage t before) = 0 := by
  obtain hall | ⟨before, after, hsplit, hnone, -⟩ := queue_account env perPage t events
  · exact ⟨events, [], (List.append_nil _).symm, by omega⟩
  · exact ⟨before, after, hsplit, hnone⟩

/-! ## Going round -/

/-- Each stamp of the steps is later than the one before, and than all that are stored. -/
structure Later (t : WebUrlTable) (clocks : List Nat) : Prop where
  increasing : (clocks.map viewStamp).Pairwise (· < ·)
  stored : ∀ w ∈ t.rows, ∀ d ∈ w.lastViewedAt, ∀ clock ∈ clocks, d < viewStamp clock

instance (t : WebUrlTable) (clocks : List Nat) : Decidable (Later t clocks) :=
  decidable_of_iff ((clocks.map viewStamp).Pairwise (· < ·) ∧
      ∀ w ∈ t.rows, ∀ d ∈ w.lastViewedAt, ∀ clock ∈ clocks, d < viewStamp clock)
    ⟨fun h => ⟨h.1, h.2⟩, fun h => ⟨h.increasing, h.stored⟩⟩

/-- The row that is viewed goes to the end of the queue. -/
theorem queue_viewed {rest : List WebUrl} {t' : WebUrlTable} (hnone : unviewed t = 0)
    (hlater : ∀ w ∈ t.rows, ∀ d ∈ w.lastViewedAt, d < viewStamp clock)
    (hqueue : queue t = w :: rest)
    (hrows : t'.rows = updateWhere WebUrl.idCol w.id (fun w => w.stamp (nowIst clock)) t.rows) :
    queue t' = rest ++ [w.stamp (nowIst clock)] := by
  have hsep : Separates (urlOrder .oldest) t'.rows := by
    intro a ha b hb heq
    exact eq_of_uniqueCol t'.uniqueId ha hb rfl (congrArg some (urlOrder_keyed heq).symm)
  have hsorted : (queue t).Pairwise fun a b => (urlOrder .oldest a b).isLE = true := orderBy_sorted
  rw [hqueue, List.pairwise_cons] at hsorted
  refine arranged_unique hsep arranged_orderBy ⟨?_, ?_⟩
  · rw [hrows]
    exact (viewed_perm hqueue).symm
  · refine List.pairwise_append.mpr ⟨hsorted.2, List.pairwise_singleton .., fun x hx y hy => ?_⟩
    obtain rfl := List.mem_singleton.mp hy
    have hxt : x ∈ t.rows := by
      rw [← queue_perm.mem_iff, hqueue]
      exact List.mem_cons_of_mem w hx
    -- Every other row has an earlier stamp.
    have hstamped := List.countP_eq_zero.mp hnone x hxt
    rw [Bool.not_eq_true, Option.isNone_eq_false_iff, Option.isSome_iff_exists] at hstamped
    obtain ⟨d, hd⟩ := hstamped
    have hlt := hlater x hxt d hd
    have hcompare : compare d (viewStamp clock) = .lt := compare_lt_iff_lt.mpr hlt
    show ((compare x.lastViewedAt (some (viewStamp clock))).then _).isLE = true
    rw [hd]
    show ((compare d (viewStamp clock)).then _).isLE = true
    rw [hcompare]
    rfl

/-- The primary keys, as a series of steps reports them. -/
def urlIds (t : WebUrlTable) : List (Option Int) := t.rows.map fun w => some w.id

/-- Marking a row viewed leaves the numbers of the table as they are. -/
theorem urlIds_viewed {t' : WebUrlTable} {id stamped : Int}
    (hrows : t'.rows = updateWhere WebUrl.idCol id (fun w => w.stamp stamped) t.rows) :
    urlIds t' = urlIds t := by
  rw [urlIds, hrows, updateWhere, List.map_map]
  refine List.map_congr_left fun x _ => ?_
  show some (if _ then _ else x : WebUrl).id = some x.id
  split
  · rfl
  · rfl

/-- A step leaves the rest of them in the same position. -/
theorem later_viewed {clocks : List Nat} {t' : WebUrlTable} {id : Int}
    (h : Later t (clock :: clocks))
    (hrows : t'.rows = updateWhere WebUrl.idCol id (fun w => w.stamp (nowIst clock)) t.rows) :
    Later t' clocks := by
  obtain ⟨hincreasing, hstored⟩ := h
  rw [List.map_cons, List.pairwise_cons] at hincreasing
  refine ⟨hincreasing.2, fun x hx d hd later hlater => ?_⟩
  rw [hrows] at hx
  obtain ⟨y, hy, rfl⟩ := mem_updateWhere.mp hx
  split at hd
  next =>
    obtain rfl := Option.some.inj hd
    exact hincreasing.1 _ (List.mem_map_of_mem hlater)
  next => exact hstored y hy d hd later (List.mem_cons_of_mem _ hlater)

/-- As many steps as there are rows at the front view just these. -/
theorem viewedBy_front {front back : List WebUrl} {clocks : List Nat} (hnone : unviewed t = 0)
    (hlater : Later t clocks) (hqueue : queue t = front ++ back)
    (hlength : clocks.length = front.length) :
    viewedBy env perPage t clocks = front.map fun w => some w.id := by
  induction clocks generalizing t front back with
  | nil =>
    rw [List.length_eq_zero_iff.mp hlength.symm]
    rfl
  | cons clock clocks ih =>
    cases front with
    | nil => cases hlength
    | cons w front =>
      have hopened := openFirst_opened env perPage t clock
      have hnone' := (unviewed_opened hopened).1
      unfold viewedBy
      generalize openFirst env perPage t clock = answer at hopened hnone' ⊢
      cases hopened with
      | nothing hempty =>
        rw [hempty] at hqueue
        cases hqueue
      | viewed x rest t' hfirst hrows =>
        -- the first of the queue was opened, and goes to its end with the latest stamp
        obtain ⟨rfl, rfl⟩ := List.cons.inj (hfirst.symm.trans hqueue)
        have hnext : queue t' = front ++ (back ++ [x.stamp (nowIst clock)]) := by
          rw [queue_viewed hnone (fun y hy d hd => hlater.stored y hy d hd _ List.mem_cons_self)
            hfirst hrows]
          exact List.append_assoc ..
        have hcleared : unviewed t' = 0 := by
          rw [hnone] at hnone'
          exact hnone'
        have hrest := ih hcleared (later_viewed hlater hrows) hnext (Nat.succ.inj hlength)
        rw [List.map_cons, hrest]

/-- The rows viewed by the first steps of a run are those of the shorter run. -/
theorem viewedBy_take (n : Nat) (clocks : List Nat) :
    (viewedBy env perPage t clocks).take n = viewedBy env perPage t (clocks.take n) := by
  induction clocks generalizing t n with
  | nil => rw [List.take_nil]; exact List.take_nil
  | cons clock clocks ih =>
    cases n with
    | zero => rfl
    | succ n => exact congrArg (_ :: ·) (ih n)

/-- If every stamp of a run is later than what is stored, so are those of its beginning. -/
theorem Later.take {clocks : List Nat} (h : Later t clocks) (n : Nat) :
    Later t (clocks.take n) where
  increasing := h.increasing.sublist ((List.take_sublist n clocks).map _)
  stored w hw d hd clock hclock := h.stored w hw d hd clock (List.mem_of_mem_take hclock)

/-- **As many steps as there are rows view each of them once**, wherever one starts to
count. -/
theorem viewedBy_window {clocks : List Nat} (hnone : unviewed t = 0) (hlater : Later t clocks)
    (n : Nat) (hlength : n + t.rows.length ≤ clocks.length) :
    (((viewedBy env perPage t clocks).drop n).take t.rows.length).Perm (urlIds t) := by
  induction n generalizing t clocks with
  | zero =>
    have hfront : (clocks.take t.rows.length).length = (queue t).length := by
      rw [List.length_take, queue_perm.length_eq]
      omega
    rw [List.drop_zero, viewedBy_take,
      viewedBy_front hnone (hlater.take _) (List.append_nil _).symm hfront]
    exact queue_perm.map _
  -- the first answer falls out of the window, and the table it leaves has the same URLs
  | succ n ih =>
    cases clocks with
    | nil => exact absurd hlength (by simp)
    | cons clock clocks =>
      have hopened := openFirst_opened env perPage t clock
      obtain ⟨hcount, hrows_length⟩ := unviewed_opened hopened
      unfold viewedBy
      rw [List.drop_succ_cons]
      generalize openFirst env perPage t clock = answer at hopened hcount hrows_length ⊢
      cases hopened with
      | nothing hempty =>
        have hrows : t.rows = [] := List.perm_nil.mp (hempty ▸ queue_perm.symm)
        rw [urlIds, hrows]
        exact .refl _
      | viewed w rest t' hqueue hrows =>
        have hcleared : unviewed t' = 0 := by
          rw [hnone] at hcount
          exact hcount
        have hsame : t'.rows.length = t.rows.length := hrows_length
        have hrest := ih hcleared (later_viewed hlater hrows)
          (by rw [hsame]; rw [List.length_cons] at hlength; omega)
        rw [hsame, urlIds_viewed hrows] at hrest
        exact hrest

/-! ## The law -/

/-- **Triage leaves nothing unseen.** With steps for all rows that were unviewed or are
added there is a moment without unviewed rows; there are none at the end unless a final
stretch of the run brings more than it has steps. Without unviewed rows, every so many
consecutive steps as there are rows view each row once, if the stamps are later and later. -/
theorem triage_leaves_nothing_unseen (env : ListingEnv) (perPage : Option Int) (t : WebUrlTable) :
    (∀ events, unviewed t + addedIn env perPage t events ≤ stepsIn events →
      ∃ before after, events = before ++ after ∧ unviewed (runTriage env perPage t before) = 0) ∧
    (∀ events, unviewed (runTriage env perPage t events) = 0 ↔
      unviewed t + addedIn env perPage t events ≤ stepsIn events ∧
        ∀ before after, events = before ++ after →
          addedIn env perPage (runTriage env perPage t before) after ≤ stepsIn after) ∧
    (unviewed t = 0 → ∀ clocks, Later t clocks → ∀ n, n + t.rows.length ≤ clocks.length →
      (((viewedBy env perPage t clocks).drop n).take t.rows.length).Perm (urlIds t)) :=
  ⟨exists_moment, unviewed_zero_iff, fun hnone _ hlater n => viewedBy_window hnone hlater n⟩

/-- A row of the list, last viewed at this time. -/
def viewedRow (id : Int) (url : Text) (viewedAt : Int) : WebUrl :=
  ⟨id, url, [], [], some viewedAt, 0, 0⟩

/-- Two rows go round, a second apart. -/
def twoViewed : WebUrlTable :=
  ⟨[viewedRow 1 "https://one.example".toList 0, viewedRow 2 "https://two.example".toList 0],
    by decide, by decide, by decide⟩

/-- Of two viewed rows each has its turn in any two steps in a row. -/
theorem two_rows_go_round :
    (((viewedBy sampleListing none twoViewed [0, 1000000, 2000000]).drop 1).take 2).Perm
      [some 1, some 2] :=
  (triage_leaves_nothing_unseen sampleListing none twoViewed).2.2 (by decide) _ (by decide) 1
    (by decide)

/-- With the libraries' own parsing of URLs. -/
def parsingListing : ListingEnv :=
  { sampleListing with content := Content.sampleEnv.cpython fun _ => true }

/-- A body of `create_web_url`. -/
def sampleUrl (url : Text) (h : 1 ≤ url.length ∧ url.length ≤ webUrlMax) : WebUrlCreate :=
  ⟨url, none, h, nofun⟩

/-- A step that finds nothing unviewed is lost: two steps, two additions between them. -/
def lostStep : List TriageEvent :=
  [.view 0, .add (sampleUrl "https://three.example".toList (by decide)) 0 3,
    .add (sampleUrl "https://four.example".toList (by decide)) 0 4, .view 1000000]

/-- One of the two was last viewed in the future. -/
def viewedAhead : WebUrlTable :=
  ⟨[viewedRow 1 "https://one.example".toList 0,
      viewedRow 2 "https://two.example".toList (nowIst 1000000)],
    by decide, by decide, by decide⟩

/-- The steps of a run may be too early, within one millisecond, or before a stamp that
is stored. -/
theorem triage_misses_rows :
    (¬ ∀ (env : ListingEnv) (perPage : Option Int) (t : WebUrlTable) (events : List TriageEvent),
      unviewed t + addedIn env perPage t events ≤ stepsIn events →
        unviewed (runTriage env perPage t events) = 0) ∧
    (¬ ∀ (env : ListingEnv) (perPage : Option Int) (t : WebUrlTable) (clocks : List Nat) (n : Nat),
      unviewed t = 0 → clocks.Pairwise (· < ·) → n + t.rows.length ≤ clocks.length →
        (((viewedBy env perPage t clocks).drop n).take t.rows.length).Perm (urlIds t)) ∧
    ¬ ∀ (env : ListingEnv) (perPage : Option Int) (t : WebUrlTable) (clocks : List Nat) (n : Nat),
      unviewed t = 0 → (clocks.map viewStamp).Pairwise (· < ·) →
        n + t.rows.length ≤ clocks.length →
          (((viewedBy env perPage t clocks).drop n).take t.rows.length).Perm (urlIds t) := by
  refine ⟨fun h => ?_, fun h => ?_, fun h => ?_⟩
  · have hleft := h parsingListing none twoViewed lostStep (by decide +kernel)
    exact absurd hleft (by decide +kernel)
  · have hround := h sampleListing none twoViewed [0, 1, 2, 3] 2 (by decide) (by decide) (by decide)
    exact absurd hround (by decide +kernel)
  · have hround := h sampleListing none viewedAhead [0, 1000] 0 (by decide) (by decide) (by decide)
    exact absurd hround (by decide +kernel)

end SarkariWorld.Admin
