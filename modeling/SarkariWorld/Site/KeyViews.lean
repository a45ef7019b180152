import SarkariWorld.Auth.KeyViews
import SarkariWorld.Site.Stamps

/-!
# Keys on the console

An admin reads off the console which keys work. `key_views_exact` says that this is right
at every moment, however requests overlap: the commit of one request may write some columns
of a key and leave others to another's, yet the three that make a key stay together.

The console shows a key by its prefix and its creation time, and calls it active by that
time and the owner's role. A row is whole if it has the three columns of a key or none of
them (`KeyWhole`). The one commit that could break this is that of an issue, which writes
those columns of the new key that differ from the loaded ones: it needs the others to be
there already, and no commit of the service removes them.
-/

namespace SarkariWorld.Site.Threads

open SarkariWorld.Lib SarkariWorld.Auth SarkariWorld.Content

/-! ## One commit -/

/-- The three columns of a key. -/
def keyParts (u : User) : Option Text × Option Text × Option Int :=
  (u.apiKeyPrefix, u.apiKeyHash, u.apiKeyCreatedAt)

section Rows

variable {u u' loaded row : User}

/-- Whether a row holds a key is up to the three columns. -/
theorem holdsKey_congr (h : keyParts u' = keyParts u) (hheld : u.HoldsKey) : u'.HoldsKey := by
  simp only [keyParts, Prod.mk.injEq] at h
  obtain ⟨hlookup, hhash, hcreated⟩ := h
  exact ⟨hlookup ▸ hheld.lookup, hhash ▸ hheld.hash, hcreated ▸ hheld.created⟩

theorem keyWhole_congr (h : keyParts u' = keyParts u) (hwhole : u.KeyWhole) : u'.KeyWhole := by
  refine hwhole.imp (holdsKey_congr h) fun hnone => ?_
  simp only [keyParts, Prod.mk.injEq] at h
  obtain ⟨hlookup, hhash, hcreated⟩ := h
  rwa [hlookup, hhash, hcreated]

/-- An update that does not touch the three columns does not write them. -/
theorem keyParts_clean (h : keyParts row = keyParts loaded) (u : User) :
    keyParts (User.flush loaded row u) = keyParts u := by
  simp only [keyParts, Prod.mk.injEq] at h
  obtain ⟨hlookup, hhash, hcreated⟩ := h
  simp only [keyParts, User.flush, hlookup, hhash, hcreated, flushCol_clean, flushColWith_clean]

/-- The creation time of a key, in its column. -/
theorem created_stored {created : Option Int} (h : ∃ t, created = some t ∧ 0 ≤ t) :
    ∃ t, created.map timestamp3 = some t ∧ 0 ≤ t := by
  obtain ⟨t, rfl, hlow⟩ := h
  refine ⟨timestamp3 t, rfl, ?_⟩
  unfold timestamp3
  omega

/-- A whole key is written over a row that, if a key was loaded from it, still has one. -/
theorem holdsKey_flush (hrow : row.HoldsKey) (hloaded : loaded.KeyWhole)
    (hkept : loaded.HoldsKey → u.HoldsKey) : (User.flush loaded row u).HoldsKey := by
  have hcreated := created_stored hrow.created
  rcases hloaded with hheld | ⟨hlookup, hhash, hnone⟩
  · -- A column that happens to be assigned what it was loaded with is another request's.
    have hu := hkept hheld
    exact ⟨flushCol_keeps (P := fun col => ∃ p, col = some p ∧ p ≠ []) hu.lookup
        fun _ => hrow.lookup,
      flushCol_keeps (P := fun col => col ≠ none) hu.hash fun _ => hrow.hash,
      flushColWith_keeps (P := fun col => ∃ t, col = some t ∧ 0 ≤ t) hu.created fun _ => hcreated⟩
  · obtain ⟨p, hp, hne⟩ := hrow.lookup
    obtain ⟨t, ht, -⟩ := hrow.created
    have hlookup' : row.apiKeyPrefix ≠ loaded.apiKeyPrefix := by
      rw [hp, hlookup]
      nofun
    have hhash' : row.apiKeyHash ≠ loaded.apiKeyHash := by
      rw [hhash]
      exact hrow.hash
    have hcreated' : row.apiKeyCreatedAt ≠ loaded.apiKeyCreatedAt := by
      rw [ht, hnone]
      nofun
    refine ⟨⟨p, (flushCol_dirty hlookup').trans hp, hne⟩, ?_, ?_⟩
    · show flushCol loaded.apiKeyHash row.apiKeyHash u.apiKeyHash ≠ none
      rw [flushCol_dirty hhash']
      exact hrow.hash
    · show ∃ t, flushColWith (Option.map timestamp3) loaded.apiKeyCreatedAt row.apiKeyCreatedAt
        u.apiKeyCreatedAt = some t ∧ 0 ≤ t
      rw [flushColWith_dirty hcreated']
      exact hcreated

end Rows

/-- A request that saves an account leaves the key alone, or has issued one for a row it
has read. -/
theorem Licence.key_written {o : Origin} {seen : Moments} {request : WriteRequest}
    {loaded row : User} (h : Licence o seen request (.user (.update loaded row))) :
    keyParts row = keyParts loaded ∨ StoredUser seen loaded ∧ row.HoldsKey := by
  cases h with
  | issueApiKey userId name actor user row secret clock hactor huser hid hissue hclock =>
    obtain ⟨-, rfl, rfl⟩ := issue_ok hissue
    refine .inr ⟨huser, ⟨_, rfl, ?_⟩, nofun, _, rfl, ?_⟩
    · intro hnil
      have hlength := congrArg List.length hnil
      rw [List.length_take, UrlsafeToken.secret_length] at hlength
      cases hlength
    · show (0 : Int) ≤ clock + istOffset
      have hpositive : 0 ≤ istOffset := by decide
      omega
  | updateRole userId role actor user hactor huser hid hother => exact .inl rfl
  | revokeApiKey userId actor user clock hactor huser hid hclock => exact .inl rfl
  | knownAccount profile clock user huser hemail hclock => exact .inl rfl
  | logout actor clock hactor hstored hclock => exact .inl rfl

/-! ## Runs -/

/-- The keys of the moment `m` were whole, and whoever had one has one in `s`. -/
structure KeysKept (m s : Traffic) : Prop where
  timely : Timely m.clock m.stored
  whole : ∀ u ∈ m.stored.users.rows, u.KeyWhole
  kept : ∀ u ∈ m.stored.users.rows, u.HoldsKey →
    ∃ u' ∈ s.stored.users.rows, u'.id = u.id ∧ u'.HoldsKey

/-- What one commit does to the keys: they stay whole, and nobody loses one. -/
structure KeysSurvive (t t' : UserTable) : Prop where
  whole : ∀ u ∈ t'.rows, u.KeyWhole
  kept : ∀ u ∈ t.rows, u.HoldsKey → ∃ u' ∈ t'.rows, u'.id = u.id ∧ u'.HoldsKey

section Runs

variable {auth : Auth.Env} {content : Content.Env} {s₀ s s' : Traffic} {moves : List SiteMove}
  {action : SiteMove}

theorem keysSurvive_refl {t : UserTable} (h : ∀ u ∈ t.rows, u.KeyWhole) : KeysSurvive t t :=
  ⟨h, fun u hu hheld => ⟨u, hu, rfl, hheld⟩⟩

/-- One updated account, whose key is untouched or written whole. The others keep theirs. -/
theorem keysSurvive_update {t t' : UserTable} {loaded row : User} {written : Option Int}
    {number : Int} (hcommit : commitWrite t (.update loaded row) number = .ok (t', written))
    (hwhole : ∀ u ∈ t.rows, u.KeyWhole)
    (h : ∀ u ∈ t.rows, loaded.id = u.id →
      keyParts row = keyParts loaded ∨ (User.flush loaded row u).HoldsKey) :
    KeysSurvive t t' := by
  have hrow : ∀ u ∈ t.rows, loaded.id = u.id → (User.flush loaded row u).KeyWhole ∧
      (u.HoldsKey → (User.flush loaded row u).HoldsKey) := by
    intro u hu hid
    rcases h u hu hid with hclean | hheld
    · have hsame := keyParts_clean hclean u
      exact ⟨keyWhole_congr hsame (hwhole u hu), holdsKey_congr hsame⟩
    · exact ⟨.inl hheld, fun _ => hheld⟩
  have hrows := commitRow_update (commitWrite_update.mp hcommit).1
  refine ⟨?_, fun u hu hheld => ?_⟩
  · rw [hrows]
    exact forall_updateWhere hwhole fun u hu hid => (hrow u hu (User.idCol_eq_some.mp hid).symm).1
  · rw [hrows]
    by_cases hid : User.idCol u = some loaded.id
    · exact ⟨_, mem_updateWhere_of_eq hu hid, rfl,
        (hrow u hu (User.idCol_eq_some.mp hid).symm).2 hheld⟩
    · exact ⟨u, mem_updateWhere_of_ne hu hid, rfl, hheld⟩

/-- The commit of a request. Only an issue writes the three columns, and it was made from a row that
was whole when it was loaded and has lost no key since. -/
theorem keys_commit {o : Origin} {seen : Moments} {request : WriteRequest} {change : Change}
    {number : Int} {d' : Database} (hlicence : Licence o seen request change)
    (hseen : SeenIn store (program auth content) s₀ moves seen)
    (hpast : ∀ m, PassedThrough store (program auth content) s₀ moves m → KeysKept m s)
    (hwhole : ∀ u ∈ s.stored.users.rows, u.KeyWhole)
    (hflush : flush s.clock number s.stored change = .ok d') :
    KeysSurvive s.stored.users d'.users := by
  cases change with
  | user write =>
    obtain ⟨written, hcommit, -⟩ := flush_user hflush
    cases write with
    | nothing => cases hlicence
    | insert row =>
      have hrows := (commitRow_insert (commitWrite_insert.mp hcommit).1).1
      refine ⟨?_, fun u hu hheld => ⟨u, ?_, rfl, hheld⟩⟩
      · rw [hrows, List.forall_mem_append]
        refine ⟨hwhole, fun u hu => ?_⟩
        obtain rfl := List.mem_singleton.mp hu
        cases hlicence
        exact .inr ⟨rfl, rfl, rfl⟩
      · rw [hrows]
        exact List.mem_append_left _ hu
    | update loaded row =>
      refine keysSurvive_update hcommit hwhole fun u hu hid => ?_
      rcases hlicence.key_written with hclean | ⟨⟨d, clock, hmoment, hmem⟩, hheld⟩
      · exact .inl hclean
      · obtain ⟨m, hm, heq⟩ := hseen.passed _ hmoment
        obtain ⟨rfl, rfl⟩ := Prod.mk.inj heq
        -- a key was written: what the request loaded may be old, but a whole key stays whole
        refine .inr (holdsKey_flush hheld ((hpast m hm).whole loaded hmem) fun hloaded => ?_)
        obtain ⟨u', hu', hid', hheld'⟩ := (hpast m hm).kept loaded hmem hloaded
        have hsame : u' = u := eq_of_uniqueCol s.stored.users.keyed.id hu' hu
          (User.idCol_eq_some.mpr (hid'.trans hid)) rfl
        exact hsame ▸ hheld'
  | article write =>
    obtain ⟨-, hrest⟩ := flush_article hflush
    rw [hrest]
    exact keysSurvive_refl hwhole
  | bookmark write =>
    obtain ⟨-, hrest⟩ := flush_bookmark hflush
    rw [hrest]
    exact keysSurvive_refl hwhole
  | webUrl write =>
    obtain ⟨-, hrest⟩ := flush_webUrl hflush
    rw [hrest]
    exact keysSurvive_refl hwhole

/-- One move of the service; whatever is not a commit leaves the accounts alone. -/
theorem keys_moved (h₀ : s₀.Fresh) (h : exec (siteMove auth content) s₀ moves = some s)
    (hpast : ∀ m, PassedThrough store (program auth content) s₀ moves m → KeysKept m s)
    (hmove : siteMove auth content s action = some s') :
    KeysSurvive s.stored.users s'.stored.users := by
  have hwhole := (hpast s (passedThrough_end h)).whole
  rcases site_moved h₀ h hmove with ⟨hstored, -⟩ | ⟨r, number, asked, change, seen, -, -, hseen,
    hlicence, -, hflush, -⟩
  · rw [hstored]
    exact keysSurvive_refl hwhole
  · exact keys_commit hlicence hseen hpast hwhole hflush

/-- The induction over the run: at every moment the keys were whole, and none has been lost since.
-/
theorem exec_keys (h₀ : s₀.Fresh) (hbelow : Below s₀.stored s₀.next)
    (htimely : Timely s₀.clock s₀.stored) (hwhole : ∀ u ∈ s₀.stored.users.rows, u.KeyWhole)
    (h : exec (siteMove auth content) s₀ moves = some s) :
    ∀ m, PassedThrough store (program auth content) s₀ moves m → KeysKept m s := by
  refine exec_since ?_ ⟨htimely, hwhole, fun u hu hheld => ⟨u, hu, rfl, hheld⟩⟩ h
  intro moves s action s' hrun hpast hmove
  have hsurvive := keys_moved h₀ hrun hpast hmove
  refine ⟨⟨timely_moved h₀ hbelow hrun (fun m hm => (hpast m hm).timely) hmove, hsurvive.whole,
    fun u hu hheld => ⟨u, hu, rfl, hheld⟩⟩, fun m hm => ?_⟩
  obtain ⟨htimely, hwhole, hkept⟩ := hpast m hm
  refine ⟨htimely, hwhole, fun u hu hheld => ?_⟩
  obtain ⟨v, hv, hid, hheld'⟩ := hkept u hu hheld
  obtain ⟨w, hw, hid', hheld''⟩ := hsurvive.kept v hv hheld'
  exact ⟨w, hw, hid'.trans hid, hheld''⟩

/-- **The console shows the keys that work**, and no others, at every moment of a run of
overlapping requests up to a month before the year 10000. -/
theorem key_views_exact (h₀ : s₀.Fresh) (hbelow : Below s₀.stored s₀.next)
    (htimely : Timely s₀.clock s₀.stored) (hwhole : ∀ u ∈ s₀.stored.users.rows, u.KeyWhole)
    (h : exec (siteMove auth content) s₀ moves = some s)
    (hyear : timestamp3 (nowIst s.clock) + apiKeyTtl < yearTenThousand) :
    ∀ actor ∈ s.stored.users.rows, ∀ userId view,
      readUser s.stored.users actor userId = .ok view →
        ∃ u, s.stored.users.find userId = some u ∧
          (view.ShowsKey s.clock ↔ isActive u s.clock = true) ∧
          ∀ creds, currentUser auth s.stored.users s.clock creds = .ok (some (u, .apiKey)) →
            view.ShowsKey s.clock := by
  intro actor hactor userId view hview
  obtain ⟨u, hfind, rfl⟩ := readUser_ok hactor hview
  have hu := (UserTable.find_eq_some.mp hfind).1
  have hkeys := exec_keys h₀ hbelow htimely hwhole h s (passedThrough_end h)
  have hiff : (adminUser u).ShowsKey s.clock ↔ isActive u s.clock = true := by
    refine showsKey_iff (hkeys.whole u hu) (s.stored.users.fits u hu) fun t ht => ?_
    have helapsed : t ≤ timestamp3 (nowIst s.clock) := (hkeys.timely.accounts u hu).keyCreated t ht
    omega
  exact ⟨u, hfind, hiff, fun creds hcreds => hiff.mpr (active_of_apiKey hcreds)⟩

end Runs

/-- The key of `revokedMeanwhile` is not shown, once it has been revoked. -/
theorem revoked_key_hidden :
    ∃ s u view, exec (siteMove Auth.sampleEnv Content.sampleEnv) quietSite revokedMeanwhile =
        some s ∧ readUser s.stored.users u 1 = .ok view ∧ ¬ view.ShowsKey s.clock := by
  -- the key is revoked while a request that it let in is still under way
  have hrun : (exec (siteMove Auth.sampleEnv Content.sampleEnv) quietSite revokedMeanwhile).map
      (fun s => decide (s.clock = 1500 ∧ s.stored.users.rows.map User.id = [1] ∧
        s.stored.users.rows.map (fun u => isActive u s.clock) = [false])) = some true := by
    decide +kernel
  obtain ⟨s, hs, hstate⟩ := exec_of_test hrun
  obtain ⟨hclock, hids, hactive⟩ := of_decide_eq_true hstate
  obtain ⟨u, hrows, hid⟩ := List.map_eq_singleton_iff.mp hids
  have hu : u ∈ s.stored.users.rows := hrows ▸ List.mem_singleton_self u
  have hview : readUser s.stored.users u 1 = .ok (adminUser u) := by
    simp only [readUser, getUser, Option.filter_some, hid, decide_true, if_true, Except.map]
  have hwhole : ∀ u ∈ quietSite.stored.users.rows, u.KeyWhole := by
    intro v hv
    obtain rfl := List.mem_singleton.mp hv
    exact .inl ⟨⟨_, rfl, by decide⟩, nofun, 0, rfl, Int.le_refl 0⟩
  obtain ⟨v, hv, hiff, -⟩ := key_views_exact quietSite_fresh quietSite_below quietSite_timely hwhole
    hs (hclock ▸ by decide) u hu 1 _ hview
  refine ⟨s, u, _, hs, hview, fun hshown => ?_⟩
  rw [hrows, List.map_singleton, List.singleton_inj] at hactive
  have hsame : v = u := List.mem_singleton.mp (hrows ▸ (UserTable.find_eq_some.mp hv).1)
  cases hactive.symm.trans (hsame ▸ hiff.mp hshown)

end SarkariWorld.Site.Threads
