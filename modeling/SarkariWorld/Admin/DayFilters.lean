import SarkariWorld.Admin.Listings

/-!
# Date filters mean days

A date filter reaches the query through `ist_day_bounds`, and a request whose string
`strptime` refuses, or names the last day there is, ends in an exception nobody
catches: the validator in front of it only counts digits. For every other string the
two bounds say what they should (`listPosts_wanted`, `listWebUrls_wanted`), and
`day_filters_iff` puts the two together.

The two listings have the parameters in common and nothing else: articles are filtered by
a column the request chooses, URLs by the day they were last looked at. So the part about
strings and days is said once, for any number of bounds (`DayFiltered`, `NamesDay`), and
each listing adds what it makes of the bounds.

What is shown to be right here is the conversion. That a day is the day of the Indian
calendar, and not of the server's clock, comes from `Days`.
-/

namespace SarkariWorld.Admin

open SarkariWorld.Lib SarkariWorld.Content SarkariWorld.Site Std

/-- The parameter, if it is there, names a day with a day after it. -/
def NamesDay (decimals : Decimals) (parameter : Option Text) : Prop :=
  ∀ s ∈ supplied parameter, ∃ d ∈ strptime decimals s, d < lastDay

/-- The day of the value is the day the parameter names, or a later one. -/
def FromDay (decimals : Decimals) (parameter : Option Text) (wall : Int) : Prop :=
  ∀ s ∈ supplied parameter, ∃ d ∈ strptime decimals s, d ≤ calendarDay wall

/-- It is that day, or an earlier one. -/
def UpToDay (decimals : Decimals) (parameter : Option Text) (wall : Int) : Prop :=
  ∀ s ∈ supplied parameter, ∃ d ∈ strptime decimals s, calendarDay wall ≤ d

/-- It is an earlier one. -/
def BeforeDay (decimals : Decimals) (parameter : Option Text) (wall : Int) : Prop :=
  ∀ s ∈ supplied parameter, ∃ d ∈ strptime decimals s, calendarDay wall < d

variable {decimals : Decimals} {parameter : Option Text} {wall : Int}

instance : Decidable (FromDay decimals parameter wall) :=
  inferInstanceAs (Decidable (∀ s ∈ supplied parameter, ∃ d ∈ strptime decimals s, _))

instance : Decidable (UpToDay decimals parameter wall) :=
  inferInstanceAs (Decidable (∀ s ∈ supplied parameter, ∃ d ∈ strptime decimals s, _))

instance : Decidable (BeforeDay decimals parameter wall) :=
  inferInstanceAs (Decidable (∀ s ∈ supplied parameter, ∃ d ∈ strptime decimals s, _))

instance : Decidable (NamesDay decimals parameter) :=
  inferInstanceAs (Decidable (∀ s ∈ supplied parameter, ∃ d ∈ strptime decimals s, _))

variable {env : ListingEnv}

/-- What becomes of a date parameter. -/
inductive DayFiltered (env : ListingEnv) (parameter : Option Text) : Option (Int × Int) → Prop where
  | absent (h : supplied parameter = none) : DayFiltered env parameter none
  | named (s : Text) (d : CivilDay) (hs : supplied parameter = some s)
      (hd : strptime env.decimals s = some d) (hlast : d < lastDay) :
      DayFiltered env parameter (some (startOfDay d, startOfDay d + oneDay))

/-- A day has an end exactly if it is not the last day a `datetime` can hold: `ist_day_bounds` adds
one day to it. -/
theorem lt_lastDay_iff {d : CivilDay} : d.ordinal + 1 ≤ lastDay.ordinal ↔ d < lastDay :=
  ordinal_lt_iff

/-- If the filter does not fail, the bounds it gives are those of the day the parameter names. -/
theorem dayFilter_ok {bounds : Option (Int × Int)} (h : dayFilter env parameter = .ok bounds) :
    DayFiltered env parameter bounds := by
  unfold dayFilter at h
  split at h
  next habsent =>
    obtain rfl := Except.ok.inj h
    exact .absent habsent
  next s hs =>
    unfold istDayBounds at h
    split at h
    next => cases h
    next d hd =>
      split at h
      next hlast =>
        obtain rfl := Except.ok.inj h
        exact .named s d hs hd (lt_lastDay_iff.mp hlast)
      next => cases h

/-- **A date parameter is turned into bounds exactly if it names a day with one
after it.** -/
theorem dayFilter_ok_iff :
    (∃ bounds, dayFilter env parameter = .ok bounds) ↔ NamesDay env.decimals parameter := by
  constructor
  · rintro ⟨bounds, h⟩ s hs
    cases dayFilter_ok h with
    | absent habsent =>
      rw [habsent] at hs
      cases hs
    | named s' d hs' hd hlast =>
      rw [hs'] at hs
      obtain rfl := Option.some.inj hs
      exact ⟨d, hd, hlast⟩
  · intro hnames
    unfold dayFilter
    split
    next => exact ⟨none, rfl⟩
    next s hs =>
      obtain ⟨d, hd, hlast⟩ := hnames s hs
      refine ⟨some (startOfDay d, startOfDay d + oneDay), ?_⟩
      unfold istDayBounds
      rw [hd]
      dsimp only
      -- the day after must exist too, for the upper bound
      rw [if_pos (lt_lastDay_iff.mpr hlast)]
      rfl

variable {bounds : Option (Int × Int)}

/-- For a parameter that is there and can be read, what is asked of the day it names is asked of
that day. -/
theorem forall_supplied {P : CivilDay → Prop} {s : Text} {d : CivilDay}
    (hs : supplied parameter = some s) (hd : strptime decimals s = some d) :
    (∀ s ∈ supplied parameter, ∃ d ∈ strptime decimals s, P d) ↔ P d := by
  constructor
  · intro h
    obtain ⟨d', hd', hP⟩ := h s hs
    rw [hd] at hd'
    exact Option.some.inj hd' ▸ hP
  · intro hP s' hs'
    rw [hs] at hs'
    obtain rfl := Option.some.inj hs'
    exact ⟨d, hd, hP⟩

/-- A parameter that is not there, or is empty, asks nothing. -/
theorem forall_absent {P : Text → Prop} (h : supplied parameter = none) :
    ∀ s ∈ supplied parameter, P s := by
  rw [h]
  exact fun _ hs => nomatch hs

/-- The lower bound. -/
theorem first_iff (h : DayFiltered env parameter bounds) :
    bounds.all (fun b => decide (b.1 ≤ wall)) = true ↔ FromDay env.decimals parameter wall := by
  cases h with
  | absent habsent => exact ⟨fun _ => forall_absent habsent, fun _ => rfl⟩
  | named s d hs hd hlast =>
    refine Iff.trans ?_ (forall_supplied hs hd).symm
    exact decide_eq_true_iff.trans startOfDay_le_iff

/-- The upper bound. -/
theorem last_iff (h : DayFiltered env parameter bounds) :
    bounds.all (fun b => decide (wall < b.2)) = true ↔ UpToDay env.decimals parameter wall := by
  cases h with
  | absent habsent => exact ⟨fun _ => forall_absent habsent, fun _ => rfl⟩
  | named s d hs hd hlast =>
    refine Iff.trans ?_ (forall_supplied hs hd).symm
    exact decide_eq_true_iff.trans lt_endOfDay_iff

/-- The cutoff. -/
theorem before_iff (h : DayFiltered env parameter bounds) :
    bounds.all (fun b => decide (wall < b.1)) = true ↔ BeforeDay env.decimals parameter wall := by
  cases h with
  | absent habsent => exact ⟨fun _ => forall_absent habsent, fun _ => rfl⟩
  | named s d hs hd hlast =>
    refine Iff.trans ?_ (forall_supplied hs hd).symm
    exact decide_eq_true_iff.trans lt_startOfDay_iff

/-! ## Articles -/

variable {t : ArticleTable} {urls : WebUrlTable}

/-- The article meets the conditions of a listing, its days read as days. -/
def Wanted (env : ListingEnv) (request : ListPosts env.decimals) (a : Article) : Prop :=
  textFilter env request.q (fun a : Article => [a.title, a.slug]) a = true ∧
    (∀ c ∈ categoryParameter env request.category, a.category = c) ∧
    (∀ s ∈ request.articleStatus, a.articleStatus = s) ∧
    FromDay env.decimals request.dateFrom (request.dateField.column a) ∧
    UpToDay env.decimals request.dateTo (request.dateField.column a)

instance (request : ListPosts env.decimals) (a : Article) : Decidable (Wanted env request a) :=
  inferInstanceAs (Decidable (_ ∧ _ ∧ _ ∧ _ ∧ _))

/-- The page of exactly the articles that do. -/
def wantedPage (env : ListingEnv) (t : ArticleTable) (request : ListPosts env.decimals) :
    AdminPage AdminArticleCard :=
  let params := adminPageParams request.page request.perPage
  let rows := t.rows.filter fun a => Wanted env request a
  .build ((params.slice (orderBy (adminOrder request.dateField) rows)).map adminArticleCard)
    rows.length params

/-- The filter of the article listing, with its bounds, is the condition the request states in days.
-/
theorem adminFilter_iff {request : ListPosts env.decimals} {first last : Option (Int × Int)}
    (hfirst : DayFiltered env request.dateFrom first) (hlast : DayFiltered env request.dateTo last)
    (a : Article) :
    adminFilter env request.q (categoryParameter env request.category) request.articleStatus
      request.dateField first last a = true ↔ Wanted env request a := by
  unfold adminFilter Wanted
  rw [Bool.and_eq_true, Bool.and_eq_true, Bool.and_eq_true, Bool.and_eq_true, first_iff hfirst,
    last_iff hlast, Option.all_eq_true, Option.all_eq_true]
  simp only [decide_eq_true_eq, and_assoc, Option.mem_def]

/-- **What a listing answers, when it answers.** -/
theorem listPosts_wanted {request : ListPosts env.decimals} {page : AdminPage AdminArticleCard}
    (h : listPosts env t request = .ok page) : page = wantedPage env t request := by
  obtain ⟨⟨rows, total⟩, hfind, h⟩ := bind_eq_ok.mp h
  obtain ⟨first, hfirst, hfind⟩ := bind_eq_ok.mp hfind
  obtain ⟨last, hlast, hfind⟩ := bind_eq_ok.mp hfind
  split at hfind
  next =>
    obtain ⟨rfl, rfl⟩ := Prod.mk.inj (Except.ok.inj hfind)
    obtain rfl := Except.ok.inj h
    have hfilter : t.rows.filter (adminFilter env request.q
        (categoryParameter env request.category) request.articleStatus request.dateField first
        last) = t.rows.filter fun a => Wanted env request a := by
      refine List.filter_congr fun a _ => Bool.eq_iff_iff.mpr ?_
      rw [decide_eq_true_iff]
      exact adminFilter_iff (dayFilter_ok hfirst) (dayFilter_ok hlast) a
    rw [hfilter]
    rfl
  next => cases hfind

/-- The listing answers exactly if its texts can be bound and both its strings name a day. Every
other request is a 500. -/
theorem listPosts_ok_iff (t : ArticleTable) {request : ListPosts env.decimals} :
    (∃ page, listPosts env t request = .ok page) ↔ Bindable request.q ∧
      NamesDay env.decimals request.dateFrom ∧ NamesDay env.decimals request.dateTo := by
  rw [← dayFilter_ok_iff, ← dayFilter_ok_iff]
  constructor
  · rintro ⟨page, h⟩
    obtain ⟨found, hfind, -⟩ := bind_eq_ok.mp h
    obtain ⟨first, hfirst, hfind⟩ := bind_eq_ok.mp hfind
    obtain ⟨last, hlast, hfind⟩ := bind_eq_ok.mp hfind
    split at hfind
    next hbindable => exact ⟨hbindable, ⟨first, hfirst⟩, last, hlast⟩
    next => cases hfind
  · rintro ⟨hbindable, ⟨first, hfirst⟩, last, hlast⟩
    unfold listPosts findForAdminPage
    rw [hfirst, hlast]
    exact ⟨_, bind_eq_ok.mpr ⟨_, if_pos hbindable, rfl⟩⟩

/-! ## Web URLs -/

/-- The same, of a web URL: it was never viewed, or on an earlier day. -/
def WantedUrl (env : ListingEnv) (request : ListWebUrls env.decimals) (w : WebUrl) : Prop :=
  urlFilter env request.q request.viewed none w = true ∧
    ∀ viewedAt ∈ w.lastViewedAt, BeforeDay env.decimals request.notViewedSince viewedAt

instance (request : ListWebUrls env.decimals) (w : WebUrl) : Decidable (WantedUrl env request w) :=
  inferInstanceAs (Decidable (_ ∧ ∀ viewedAt ∈ w.lastViewedAt, _))

/-- The page of the URLs a request wants, cut from the rows as `listUrls` cuts it, and with their
number. -/
def wantedUrlPage (env : ListingEnv) (urls : WebUrlTable) (request : ListWebUrls env.decimals) :
    AdminPage WebUrlRead :=
  let params := adminPageParams request.page request.perPage
  let rows := urls.rows.filter fun w => WantedUrl env request w
  .build ((params.slice (orderBy (urlOrder request.sort) rows)).map webUrlRead) rows.length params

/-- The filter of the URL listing is the condition the request states in days: a URL that was never
looked at counts as not looked at since. -/
theorem urlFilter_iff {request : ListWebUrls env.decimals} {since : Option (Int × Int)}
    (hsince : DayFiltered env request.notViewedSince since) (w : WebUrl) :
    urlFilter env request.q request.viewed since w = true ↔ WantedUrl env request w := by
  unfold WantedUrl urlFilter
  rw [Bool.and_eq_true, Bool.and_eq_true _ (Option.all _ none)]
  refine and_congr (by simp) ?_
  cases w.lastViewedAt with
  | none => cases since <;> simp
  | some viewedAt =>
    refine (before_iff hsince).trans ?_
    simp

/-- If the URL listing answers, it answers with the page of what the request wants. -/
theorem listWebUrls_wanted {request : ListWebUrls env.decimals} {page : AdminPage WebUrlRead}
    (h : listWebUrls env urls request = .ok page) : page = wantedUrlPage env urls request := by
  obtain ⟨⟨rows, total⟩, hfind, h⟩ := bind_eq_ok.mp h
  obtain ⟨since, hsince, hfind⟩ := bind_eq_ok.mp hfind
  split at hfind
  next =>
    obtain ⟨rfl, rfl⟩ := Prod.mk.inj (Except.ok.inj hfind)
    obtain rfl := Except.ok.inj h
    have hfilter : urls.rows.filter (urlFilter env request.q request.viewed since) =
        urls.rows.filter fun w => WantedUrl env request w := by
      refine List.filter_congr fun w _ => Bool.eq_iff_iff.mpr ?_
      rw [decide_eq_true_iff]
      exact urlFilter_iff (dayFilter_ok hsince) w
    rw [hfilter]
    rfl
  next => cases hfind

/-- The URL listing answers exactly if its text can be bound and its string names a day. -/
theorem listWebUrls_ok_iff (urls : WebUrlTable) {request : ListWebUrls env.decimals} :
    (∃ page, listWebUrls env urls request = .ok page) ↔ Bindable request.q ∧
      NamesDay env.decimals request.notViewedSince := by
  rw [← dayFilter_ok_iff]
  constructor
  · rintro ⟨page, h⟩
    obtain ⟨found, hfind, -⟩ := bind_eq_ok.mp h
    obtain ⟨since, hsince, hfind⟩ := bind_eq_ok.mp hfind
    split at hfind
    next hbindable => exact ⟨hbindable, since, hsince⟩
    next => cases hfind
  · rintro ⟨hbindable, since, hsince⟩
    unfold listWebUrls listUrls
    rw [hsince]
    exact ⟨_, bind_eq_ok.mpr ⟨_, if_pos hbindable, rfl⟩⟩

/-- **Which date filters mean days**: the listings answer with exactly the rows of these
days if the strings name days with a day after them, and otherwise not at all. -/
theorem day_filters_iff (env : ListingEnv) (t : ArticleTable) (urls : WebUrlTable)
    (request : ListPosts env.decimals) (request' : ListWebUrls env.decimals) :
    (listPosts env t request = .ok (wantedPage env t request) ↔ Bindable request.q ∧
      NamesDay env.decimals request.dateFrom ∧ NamesDay env.decimals request.dateTo) ∧
    (listWebUrls env urls request' = .ok (wantedUrlPage env urls request') ↔
      Bindable request'.q ∧ NamesDay env.decimals request'.notViewedSince) := by
  constructor
  · rw [← listPosts_ok_iff t]
    exact ⟨fun h => ⟨_, h⟩, fun ⟨page, h⟩ => listPosts_wanted h ▸ h⟩
  · rw [← listWebUrls_ok_iff urls]
    exact ⟨fun h => ⟨_, h⟩, fun ⟨page, h⟩ => listWebUrls_wanted h ▸ h⟩

/-- The validator accepts the thirtieth of February. -/
theorem no_such_day : ¬ ∀ (env : ListingEnv) (t : ArticleTable) (urls : WebUrlTable)
    (request : ListPosts env.decimals) (request' : ListWebUrls env.decimals),
    listPosts env t request = .ok (wantedPage env t request) ∧
      listWebUrls env urls request' = .ok (wantedUrlPage env urls request') := by
  intro hanswers
  have hposts := (hanswers sampleListing .empty .empty
    (sampleListPosts none (some "2024-02-30".toList) (by decide)) sampleListWebUrls).1
  have hraised : listPosts sampleListing .empty
      (sampleListPosts none (some "2024-02-30".toList) (by decide)) =
        .error (.day .valueError) := rfl
  rw [hraised] at hposts
  cases hposts

end SarkariWorld.Admin
