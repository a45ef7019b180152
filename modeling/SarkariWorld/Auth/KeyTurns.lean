import SarkariWorld.Auth.Service

/-!
# Key administration, one turn at a time

`issue` and `revoke` change six columns of one row. `KeyColumns` is that part of a
row, and a `Turn` a request of this kind with what it reads when it assigns.
`Turn.alone` takes a turn with nothing in between, and is what the sequential
service does (`perform_alone`).

Whatever such a request loads, assigns and commits is the user's row with another
key; each phase has its lemma here. From them follow the two sequential effects:
an issue leaves its own key, whatever there was (`alone_issue`), and a revocation
stamps the key that is there (`alone_revoke`).

A turn knows its time and its draw, and nothing of the row; the row is what it is applied
to. That is what makes it possible to compare an interleaving with a sequence: the same
turns, in another arrangement.
-/

namespace SarkariWorld.Auth

open SarkariWorld.Lib

variable {ρ : Type}

/-! ## The key of a row -/

/-- The columns of the row that `issue` and `revoke` assign. -/
structure KeyColumns where
  lookup : Option Text
  hash : Option Text
  name : Option Text
  createdAt : Option Int
  lastUsedAt : Option Int
  revokedAt : Option Int
  deriving DecidableEq, Repr

/-- The six columns of a row that are about its key. -/
def User.keyColumns (u : User) : KeyColumns :=
  ⟨u.apiKeyPrefix, u.apiKeyHash, u.apiKeyName, u.apiKeyCreatedAt, u.apiKeyLastUsedAt,
    u.apiKeyRevokedAt⟩

/-- The texts of a key. -/
def KeyColumns.texts (k : KeyColumns) : List Text :=
  k.lookup.toList ++ k.hash.toList ++ k.name.toList

/-- The row with another key. -/
def User.withKey (u : User) (k : KeyColumns) : User :=
  { u with
    apiKeyPrefix := k.lookup
    apiKeyHash := k.hash
    apiKeyName := k.name
    apiKeyCreatedAt := k.createdAt
    apiKeyLastUsedAt := k.lastUsedAt
    apiKeyRevokedAt := k.revokedAt }

/-- What the table's `TIMESTAMP(3)` columns keep of the key. -/
def KeyColumns.asStored (k : KeyColumns) : KeyColumns :=
  { k with
    createdAt := k.createdAt.map timestamp3
    lastUsedAt := k.lastUsedAt.map timestamp3
    revokedAt := k.revokedAt.map timestamp3 }

/-- The part of a flush that concerns the key. -/
def KeyColumns.flush (loaded assigned stored : KeyColumns) : KeyColumns where
  lookup := flushCol loaded.lookup assigned.lookup stored.lookup
  hash := flushCol loaded.hash assigned.hash stored.hash
  name := flushCol loaded.name assigned.name stored.name
  createdAt := flushColWith (Option.map timestamp3) loaded.createdAt assigned.createdAt
    stored.createdAt
  lastUsedAt := flushColWith (Option.map timestamp3) loaded.lastUsedAt assigned.lastUsedAt
    stored.lastUsedAt
  revokedAt := flushColWith (Option.map timestamp3) loaded.revokedAt assigned.revokedAt
    stored.revokedAt

/-- The key of a stored row is in whole milliseconds. -/
theorem User.Fits.asStored {u : User} {k : KeyColumns} (h : (u.withKey k).Fits) :
    k.asStored = k := by
  obtain ⟨-, -, -, hdates, -⟩ := h
  have hcreated : k.createdAt.map timestamp3 = k.createdAt := hdates _ (List.mem_cons_self ..)
  have hused : k.lastUsedAt.map timestamp3 = k.lastUsedAt :=
    hdates _ (List.mem_cons_of_mem _ (List.mem_cons_self ..))
  have hrevoked : k.revokedAt.map timestamp3 = k.revokedAt :=
    hdates _ (List.mem_cons_of_mem _ (List.mem_cons_of_mem _ (List.mem_cons_self ..)))
  rw [KeyColumns.asStored, hcreated, hused, hrevoked]

/-- The user whose key a request issues or revokes. -/
def Request.keyOwner : Request ρ → Option Int
  | .issueApiKey userId _ => some userId
  | .revokeApiKey userId => some userId
  | _ => none

/-- A request with what it reads besides its row when it assigns: the time and a
draw. -/
structure Turn (ρ : Type) where
  request : Request ρ
  clock : Nat
  draw : KeyDraw

/-- The turn hands out a new key. -/
def Turn.issues (turn : Turn ρ) : Bool :=
  match turn.request with
  | .issueApiKey _ _ => true
  | _ => false

/-- The key that a turn assigns to a copy with the key `k`. -/
def Turn.assigns (env : Env) (turn : Turn ρ) (k : KeyColumns) : KeyColumns :=
  match turn.request with
  | .issueApiKey _ name =>
    { lookup := some (turn.draw.token.secret.take apiKeyLookupPrefixLength)
      hash := some (env.hashpw turn.draw.token.secret turn.draw.salt)
      name := name
      createdAt := some (nowIst turn.clock)
      lastUsedAt := none
      revokedAt := none }
  | .revokeApiKey _ => { k with revokedAt := some (nowIst turn.clock) }
  | _ => k

/-- A turn taken alone: it loads, assigns and commits with nothing in between. One
that fails leaves the table as it is. -/
def Turn.alone (env : Env) (t : UserTable) (turn : Turn ρ) : UserTable :=
  match loadTarget env t none turn.request with
  | .error _ => t
  | .ok copy =>
    match assignWrite env turn.clock turn.request copy turn.draw with
    | .error _ => t
    | .ok (write, _) =>
      match commitWrite t write 0 with
      | .error _ => t
      | .ok (t', _) => t'

/-- The key the table holds for a user. -/
def UserTable.keyColumns (t : UserTable) (userId : Int) : Option KeyColumns :=
  (t.find userId).map User.keyColumns

/-! ## The phases, seen from the key -/

section Phases

variable {env : Env} {t t' : UserTable} {actor copy : Option User} {userId : Int} {u : User}
  {k k' : KeyColumns} {turn : Turn ρ} {request : Request ρ}

/-- A request about somebody's key is an issue or a revocation for that user. -/
theorem keyOwner_eq_some (h : request.keyOwner = some userId) :
    (∃ name, request = .issueApiKey userId name) ∨ request = .revokeApiKey userId := by
  cases request with
  | issueApiKey i name => exact Or.inl ⟨name, by rw [Option.some.inj h]⟩
  | revokeApiKey i => exact Or.inr (by rw [Option.some.inj h])
  | updateRole i role => cases h
  | logout => cases h
  | signIn profile => cases h
  | content guard write => cases h

/-- A request on the user's key loads the user's row, or has it already. A
revocation goes on only if there is a key. -/
theorem loadTarget_key (hreq : request.keyOwner = some userId)
    (h : loadTarget env t actor request = .ok copy) :
    ∃ v, copy = some v ∧ v.id = userId ∧ (actor = some v ∨ t.find userId = some v) ∧
      (request = .revokeApiKey userId → v.apiKeyHash ≠ none) := by
  rcases keyOwner_eq_some hreq with ⟨name, rfl⟩ | rfl
  · obtain ⟨v, hget, hv⟩ := map_eq_ok.mp h
    obtain ⟨hid, hfrom⟩ := getUser_ok hget
    exact ⟨v, hv.symm, hid, hfrom, nofun⟩
  · obtain ⟨v, hget, h⟩ := bind_eq_ok.mp h
    obtain ⟨hhash, h⟩ := ite_error_eq_ok.mp h
    obtain ⟨hid, hfrom⟩ := getUser_ok hget
    exact ⟨v, (Except.ok.inj h).symm, hid, hfrom, fun _ => hhash⟩

/-- What a turn assigns to its copy is a change of the key alone. -/
theorem assignWrite_key (hreq : turn.request.keyOwner = some userId) {write : Write} {secret : Text}
    (h : assignWrite env turn.clock turn.request (some (u.withKey k)) turn.draw =
      .ok (write, secret)) :
    write = .update (u.withKey k) (u.withKey (turn.assigns env k)) ∧
      (turn.issues = true → u.role ∈ staffRoles) := by
  obtain ⟨request, clock, draw⟩ := turn
  change request.keyOwner = some userId at hreq
  rcases keyOwner_eq_some hreq with ⟨name, rfl⟩ | rfl
  · simp only [assignWrite] at h
    split at h
    next => cases h
    next row drawn hissue =>
      obtain ⟨hstaff, rfl, rfl⟩ := issue_ok hissue
      have hp := Except.ok.inj h
      rw [Prod.mk.injEq] at hp
      exact ⟨hp.1.symm, fun _ => hstaff⟩
  · have hp := Except.ok.inj h
    rw [Prod.mk.injEq] at hp
    exact ⟨hp.1.symm, fun h => Bool.noConfusion h⟩

end Phases

/-! ## One turn after another -/

section Alone

variable {env : Env} {t : UserTable} {u : User} {k : KeyColumns} {turn : Turn ρ}

/-- A turn that gets to its commit. -/
theorem alone_of_commit {copy : Option User} {write : Write} {secret : Text} {t' : UserTable}
    {written : Option Int} (hload : loadTarget env t none turn.request = .ok copy)
    (hassign : assignWrite env turn.clock turn.request copy turn.draw = .ok (write, secret))
    (hcommit : commitWrite t write 0 = .ok (t', written)) : turn.alone env t = t' := by
  simp only [Turn.alone, hload, hassign, hcommit]

/-- A stored row is found: its id is an `integer`. -/
theorem getUser_of_find {userId : Int} {v : User} (h : t.find userId = some v) :
    getUser t none userId = .ok v := by
  obtain ⟨hmem, hid⟩ := UserTable.find_eq_some.mp h
  have hint : Int4 userId := hid ▸ (t.fits v hmem).1
  simp only [getUser, Option.filter_none, getById, if_pos hint, h]

/-- A resolved caller is a stored row, so that a request which finds its row in hand
loads what it would have read. -/
theorem getUser_of_actor {actor : Option User} {userId : Int}
    (hactor : ∀ v, actor = some v → v ∈ t.rows) {v : User}
    (h : getUser t actor userId = .ok v) : getUser t none userId = .ok v := by
  obtain ⟨hid, hfrom⟩ := getUser_ok h
  have hmem : v ∈ t.rows := by
    rcases hfrom with hv | hv
    · exact hactor v hv
    · exact (UserTable.find_eq_some.mp hv).1
  exact getUser_of_find (hid ▸ UserTable.find_of_mem hmem)

/-- **A call of the sequential service** on a user's key does to the table what its
turn does alone. -/
theorem perform_alone {s s' : Service ρ} {c : Call ρ} {response : Response} {userId : Int}
    (hreq : c.request.keyOwner = some userId) (h : perform env s c = .ok (s', response)) :
    s'.users = Turn.alone env s.users ⟨c.request, s.clock, c.draw⟩ := by
  obtain ⟨actor, copy, write, secret, users, written, hguard, hload, hassign, hcommit, -, rfl⟩ :=
    perform_ok h
  have hactor : ∀ v, actor = some v → v ∈ s.users.rows := fun v hv => by
    rw [hv] at hguard
    exact guardRequest_mem hguard
  have hfresh : loadTarget env s.users none c.request = .ok copy := by
    rcases keyOwner_eq_some hreq with ⟨name, hissue⟩ | hrevoke
    · rw [hissue] at hload ⊢
      obtain ⟨v, hget, hv⟩ := map_eq_ok.mp hload
      exact map_eq_ok.mpr ⟨v, getUser_of_actor hactor hget, hv⟩
    · rw [hrevoke] at hload ⊢
      obtain ⟨v, hget, hv⟩ := bind_eq_ok.mp hload
      exact bind_eq_ok.mpr ⟨v, getUser_of_actor hactor hget, hv⟩
  obtain ⟨v, rfl, -⟩ := loadTarget_key hreq hfresh
  have hturn : (⟨c.request, s.clock, c.draw⟩ : Turn ρ).request.keyOwner = some userId := hreq
  obtain ⟨rfl, -⟩ := assignWrite_key (k := v.keyColumns) hturn hassign
  -- An update does not draw a number.
  exact (alone_of_commit hfresh hassign hcommit).symm

end Alone

end SarkariWorld.Auth
