import SarkariWorld.Database
import SarkariWorld.Dates
import SarkariWorld.Lib.Text

/-!
# The `User` table

Rows carry the columns the authentication code reads or writes; address and
contact columns, the legacy plaintext `api_key` and the two audit timestamps
are left out. A `UserTable` cannot be built in breach of the schema: its unique
indexes and column widths are fields, so every state of every system below
respects them and a commit that would not is refused by `UserTable.write`. Two things
a column does to a value on the way are part of the write: a `varchar` cuts blanks that
are too many, and a `TIMESTAMP(3)` rounds.

A request writes through its own copy of a row: `User.flush` merges the copy's
changes into whatever the row holds at commit time, column by column.

The widths are those of `models/user.py`. A value that is too wide for its column, or
cannot be stored at all, makes the whole commit fail: that is `Fits`, checked after the
columns have had their way with the values.
-/

namespace SarkariWorld.Auth

open SarkariWorld.Lib

/-- The three roles, from the least to the most. -/
inductive UserRole where
  | user
  | editor
  | admin
  deriving DecidableEq, Repr

/-- `STAFF_ROLES`. -/
def staffRoles : List UserRole := [.editor, .admin]

/-- A row of the table, with the columns that authentication reads or writes, in their order. -/
structure User where
  id : Int
  name : Text
  email : Text
  googleId : Option Text
  pictureUrl : Option Text
  authProvider : Text
  role : UserRole
  apiKeyPrefix : Option Text
  apiKeyHash : Option Text
  apiKeyName : Option Text
  apiKeyCreatedAt : Option Int
  apiKeyLastUsedAt : Option Int
  apiKeyRevokedAt : Option Int
  lastLoginAt : Option Int
  sessionInvalidatedAt : Option Datetime
  deriving DecidableEq, Repr

/-- The primary key, as a column. -/
def User.idCol (u : User) : Option Int := some u.id

/-- `email`, as a column. -/
def User.emailCol (u : User) : Option Text := some u.email

@[simp] theorem User.idCol_eq_some {u : User} {i : Int} : u.idCol = some i ↔ u.id = i := by
  simp [User.idCol]

@[simp] theorem User.emailCol_eq_some {u : User} {e : Text} :
    u.emailCol = some e ↔ u.email = e := by
  simp [User.emailCol]

/-- The texts of a row. -/
def User.texts (u : User) : List Text :=
  [u.name, u.email, u.authProvider] ++ u.googleId.toList ++ u.pictureUrl.toList ++
    u.apiKeyPrefix.toList ++ u.apiKeyHash.toList ++ u.apiKeyName.toList

/-- The width of `name`. -/
def nameMax : Nat := 100

/-- The width of `email`. -/
def emailMax : Nat := 255

/-- The row fits its columns: `Integer`, `String(100)`, `String(255)`, four
`TIMESTAMP(3)`, which hold whole milliseconds, and no text with U+0000 in it. -/
def User.Fits (u : User) : Prop :=
  Int4 u.id ∧ u.name.length ≤ nameMax ∧ u.email.length ≤ emailMax ∧
    (∀ c ∈ [u.apiKeyCreatedAt, u.apiKeyLastUsedAt, u.apiKeyRevokedAt, u.lastLoginAt],
      c.map timestamp3 = c) ∧
    ∀ t ∈ u.texts, Storable t

instance (u : User) : Decidable u.Fits := inferInstanceAs (Decidable (_ ∧ _ ∧ _ ∧ _ ∧ _))

/-- The unique indexes of the table. -/
structure Keyed (rows : List User) : Prop where
  id : UniqueCol User.idCol rows
  email : UniqueCol User.emailCol rows
  googleId : UniqueCol User.googleId rows
  apiKeyPrefix : UniqueCol User.apiKeyPrefix rows

instance (rows : List User) : Decidable (Keyed rows) :=
  decidable_of_iff (UniqueCol User.idCol rows ∧ UniqueCol User.emailCol rows ∧
      UniqueCol User.googleId rows ∧ UniqueCol User.apiKeyPrefix rows)
    ⟨fun h => ⟨h.1, h.2.1, h.2.2.1, h.2.2.2⟩, fun h => ⟨h.id, h.email, h.googleId, h.apiKeyPrefix⟩⟩

/-- The table: rows that fit their columns and are unique where the schema says so. -/
structure UserTable where
  rows : List User
  fits : ∀ u ∈ rows, u.Fits
  keyed : Keyed rows

/-- A table without users. -/
def UserTable.empty : UserTable := ⟨[], by simp, by decide⟩

/-- Store a new version of the table, unless the schema refuses it. -/
def UserTable.write (rows : List User) : Except PyError UserTable :=
  if hfits : ∀ u ∈ rows, u.Fits then
    if hkeyed : Keyed rows then .ok ⟨rows, hfits, hkeyed⟩ else .error .integrityError
  else .error .dataError

/-- A write either stores exactly the rows it was given or fails. -/
theorem UserTable.write_ok {rows : List User} {t : UserTable}
    (h : UserTable.write rows = .ok t) : t.rows = rows := by
  unfold UserTable.write at h
  split at h
  next =>
    split at h
    next => rw [Except.ok.injEq] at h; rw [← h]
    next => cases h
  next => cases h

/-- A list of rows that obeys the schema is stored. -/
theorem UserTable.write_of {rows : List User} (hfits : ∀ u ∈ rows, u.Fits) (hkeyed : Keyed rows) :
    ∃ t', UserTable.write rows = .ok t' := by
  refine ⟨⟨rows, hfits, hkeyed⟩, ?_⟩
  unfold UserTable.write
  rw [dif_pos hfits, dif_pos hkeyed]

/-- The stored row with primary key `id`. -/
def UserTable.find (t : UserTable) (id : Int) : Option User := lookup User.idCol id t.rows

/-- What is found under a number is the row with that number. -/
theorem UserTable.find_eq_some {t : UserTable} {id : Int} {u : User} :
    t.find id = some u ↔ u ∈ t.rows ∧ u.id = id := by
  rw [UserTable.find, lookup_eq_some_iff t.keyed.id, User.idCol_eq_some]

theorem UserTable.find_eq_none {t : UserTable} {id : Int} :
    t.find id = none ↔ ∀ u ∈ t.rows, u.id ≠ id := by
  rw [UserTable.find, lookup_eq_none_iff]
  simp

theorem UserTable.find_of_mem {t : UserTable} {u : User} (h : u ∈ t.rows) :
    t.find u.id = some u := UserTable.find_eq_some.mpr ⟨h, rfl⟩

/-- `get_by_id`: `session.get` on a row the session has not loaded yet. An id
outside `integer` is refused by the driver. -/
def getById (t : UserTable) (userId : Int) : Except PyError (Option User) :=
  if Int4 userId then .ok (t.find userId) else .error .dataError

/-! ## Flushing a copy -/

/-- What `INSERT` stores of a new row. Only a name can end in blanks that its column
would cut: an address has been stripped. -/
def User.asStored (row : User) : User :=
  { row with
    name := varchar nameMax row.name
    apiKeyCreatedAt := row.apiKeyCreatedAt.map timestamp3
    apiKeyLastUsedAt := row.apiKeyLastUsedAt.map timestamp3
    apiKeyRevokedAt := row.apiKeyRevokedAt.map timestamp3
    lastLoginAt := row.lastLoginAt.map timestamp3 }

/-- What the `UPDATE` of a flush leaves in the stored row: the columns whose
assigned value differs from the loaded one are written, the others keep what is
stored. -/
def User.flush (loaded assigned stored : User) : User where
  id := stored.id
  name := flushColWith (varchar nameMax) loaded.name assigned.name stored.name
  email := flushCol loaded.email assigned.email stored.email
  googleId := flushCol loaded.googleId assigned.googleId stored.googleId
  pictureUrl := flushCol loaded.pictureUrl assigned.pictureUrl stored.pictureUrl
  authProvider := flushCol loaded.authProvider assigned.authProvider stored.authProvider
  role := flushCol loaded.role assigned.role stored.role
  apiKeyPrefix := flushCol loaded.apiKeyPrefix assigned.apiKeyPrefix stored.apiKeyPrefix
  apiKeyHash := flushCol loaded.apiKeyHash assigned.apiKeyHash stored.apiKeyHash
  apiKeyName := flushCol loaded.apiKeyName assigned.apiKeyName stored.apiKeyName
  apiKeyCreatedAt := flushColWith (Option.map timestamp3) loaded.apiKeyCreatedAt
    assigned.apiKeyCreatedAt stored.apiKeyCreatedAt
  apiKeyLastUsedAt := flushColWith (Option.map timestamp3) loaded.apiKeyLastUsedAt
    assigned.apiKeyLastUsedAt stored.apiKeyLastUsedAt
  apiKeyRevokedAt := flushColWith (Option.map timestamp3) loaded.apiKeyRevokedAt
    assigned.apiKeyRevokedAt stored.apiKeyRevokedAt
  lastLoginAt := flushColWith (Option.map timestamp3) loaded.lastLoginAt assigned.lastLoginAt
    stored.lastLoginAt
  sessionInvalidatedAt := flushCol loaded.sessionInvalidatedAt assigned.sessionInvalidatedAt
    stored.sessionInvalidatedAt

/-- A request that changed nothing writes nothing. -/
theorem User.flush_clean (row stored : User) : User.flush row row stored = stored := by
  cases stored
  simp [User.flush]

/-- `session.commit()` with one object in the session: `none` for a new object,
whose row the sequence numbers `nextId`; otherwise the row it was loaded as. -/
def commitRow (t : UserTable) (copy : Option User) (row : User) (nextId : Int) :
    Except PyError UserTable :=
  match copy with
  | none => UserTable.write (t.rows ++ [{ row.asStored with id := nextId }])
  | some loaded =>
    if row = loaded then .ok t
    else
      match t.find loaded.id with
      | none => .error .staleDataError
      | some _ => UserTable.write (updateWhere User.idCol loaded.id (User.flush loaded row) t.rows)

/-- An insert that commits adds one row, under an id no row had. -/
theorem commitRow_insert {t t' : UserTable} {row : User} {nextId : Int}
    (h : commitRow t none row nextId = .ok t') :
    t'.rows = t.rows ++ [{ row.asStored with id := nextId }] ∧ ∀ u ∈ t.rows, u.id ≠ nextId := by
  have hrows : t'.rows = t.rows ++ [{ row.asStored with id := nextId }] := UserTable.write_ok h
  refine ⟨hrows, fun u hu he => ?_⟩
  have hid := t'.keyed.id
  rw [hrows] at hid
  exact col_ne_of_append hid rfl u hu (User.idCol_eq_some.mpr he)

/-- An update that commits flushes the copy into the row it was loaded from, and
touches no other row. -/
theorem commitRow_update {t t' : UserTable} {loaded row : User} {nextId : Int}
    (h : commitRow t (some loaded) row nextId = .ok t') :
    t'.rows = updateWhere User.idCol loaded.id (User.flush loaded row) t.rows := by
  simp only [commitRow] at h
  split at h
  next hclean =>
    rw [Except.ok.injEq] at h
    rw [← h, hclean]
    exact (updateWhere_of_eq_self fun x _ _ => User.flush_clean loaded x).symm
  next =>
    split at h
    next => cases h
    next => exact UserTable.write_ok h

/-- Where an updated row went. -/
theorem commitRow_update_find {t t' : UserTable} {loaded row : User} {nextId : Int}
    (h : commitRow t (some loaded) row nextId = .ok t') :
    t'.find loaded.id = (t.find loaded.id).map (User.flush loaded row) := by
  cases hs : t.find loaded.id with
  | none =>
    rw [UserTable.find_eq_none] at hs
    rw [Option.map_none, UserTable.find_eq_none]
    intro u hu
    rw [commitRow_update h, mem_updateWhere] at hu
    obtain ⟨x, hx, rfl⟩ := hu
    split
    · exact hs x hx
    · exact hs x hx
  | some stored =>
    obtain ⟨hmem, hid⟩ := UserTable.find_eq_some.mp hs
    refine UserTable.find_eq_some.mpr ⟨?_, hid⟩
    rw [commitRow_update h]
    exact mem_updateWhere_of_eq hmem (User.idCol_eq_some.mpr hid)

/-- Every other row is found as it was. -/
theorem commitRow_update_find_ne {t t' : UserTable} {loaded row : User} {nextId i : Int}
    (h : commitRow t (some loaded) row nextId = .ok t') (hi : i ≠ loaded.id) :
    t'.find i = t.find i := by
  cases hf : t.find i with
  | none =>
    rw [UserTable.find_eq_none] at hf ⊢
    intro u hu
    rw [commitRow_update h, mem_updateWhere] at hu
    obtain ⟨x, hx, rfl⟩ := hu
    split
    · exact hf x hx
    · exact hf x hx
  | some u =>
    obtain ⟨hmem, hid⟩ := UserTable.find_eq_some.mp hf
    refine UserTable.find_eq_some.mpr ⟨?_, hid⟩
    rw [commitRow_update h]
    exact mem_updateWhere_of_ne hmem (by rw [Ne, User.idCol_eq_some, hid]; exact hi)

/-- Another row has another value in a unique column. -/
theorem UserTable.other_ne {t : UserTable} {κ : Type} [DecidableEq κ] {col : User → Option κ}
    (hcol : UniqueCol col t.rows) {u v : User} (hu : u ∈ t.rows) (hv : v ∈ t.rows)
    (hid : v.id ≠ u.id) {x : κ} (hx : col u = some x) : col v ≠ some x := by
  intro he
  rw [eq_of_uniqueCol hcol hu hv hx he] at hid
  exact hid rfl

/-- **A change of a row commits on the row it was loaded from** if the new values fit
and no other row has the unique ones among them. -/
theorem commitRow_current {t : UserTable} {u : User} (row : User) (nextId : Int) (hu : u ∈ t.rows)
    (hfits : (User.flush u row u).Fits) (hemail : row.email = u.email)
    (hgoogle : ∀ v ∈ t.rows, v.id ≠ u.id → ∀ g, row.googleId = some g → v.googleId ≠ some g)
    (hkey : ∀ v ∈ t.rows, v.id ≠ u.id → ∀ p, row.apiKeyPrefix = some p →
      v.apiKeyPrefix ≠ some p) :
    ∃ t', commitRow t (some u) row nextId = .ok t' := by
  by_cases hclean : row = u
  · exact ⟨t, if_pos hclean⟩
  · have hself : ∀ x ∈ t.rows, User.idCol x = some u.id → x = u := fun x hx hid =>
      eq_of_uniqueCol t.keyed.id hx hu hid rfl
    have hrows : ∀ x ∈ updateWhere User.idCol u.id (User.flush u row) t.rows, x.Fits := by
      intro x hx
      obtain ⟨y, hy, rfl⟩ := mem_updateWhere.mp hx
      split
      next hid =>
        rw [hself y hy hid]
        exact hfits
      next => exact t.fits y hy
    have hkeyed : Keyed (updateWhere User.idCol u.id (User.flush u row) t.rows) := by
      refine ⟨uniqueCol_updateWhere_of_eq t.keyed.id t.keyed.id fun _ _ _ => rfl,
        uniqueCol_updateWhere_of_eq t.keyed.id t.keyed.email fun x hx hid => ?_,
        uniqueCol_updateWhere t.keyed.id t.keyed.googleId fun x hx hid g hg v hv hne => ?_,
        uniqueCol_updateWhere t.keyed.id t.keyed.apiKeyPrefix fun x hx hid p hp v hv hne => ?_⟩
      · rw [hself x hx hid]
        exact congrArg some (flushCol_self.trans hemail)
      · rw [hself x hx hid] at hg
        exact hgoogle v hv (fun he => hne (User.idCol_eq_some.mpr he)) g
          (flushCol_self.symm.trans hg)
      · rw [hself x hx hid] at hp
        exact hkey v hv (fun he => hne (User.idCol_eq_some.mpr he)) p (flushCol_self.symm.trans hp)
    obtain ⟨t', hwrite⟩ := UserTable.write_of hrows hkeyed
    refine ⟨t', ?_⟩
    simp only [commitRow, if_neg hclean, UserTable.find_of_mem hu]
    exact hwrite

/-- A new row is found under the number it was given, which was free before. -/
theorem commitRow_insert_find {t t' : UserTable} {row : User} {nextId : Int}
    (h : commitRow t none row nextId = .ok t') :
    t.find nextId = none ∧ t'.find nextId = some { row.asStored with id := nextId } := by
  obtain ⟨hrows, hfresh⟩ := commitRow_insert h
  refine ⟨UserTable.find_eq_none.mpr hfresh, UserTable.find_eq_some.mpr ⟨?_, rfl⟩⟩
  rw [hrows]
  exact List.mem_append_right _ (List.mem_singleton.mpr rfl)

theorem commitRow_insert_find_ne {t t' : UserTable} {row : User} {nextId i : Int}
    (h : commitRow t none row nextId = .ok t') (hi : i ≠ nextId) : t'.find i = t.find i := by
  obtain ⟨hrows, -⟩ := commitRow_insert h
  cases hf : t.find i with
  | none =>
    rw [UserTable.find_eq_none] at hf ⊢
    intro u hu
    rw [hrows, List.mem_append, List.mem_singleton] at hu
    rcases hu with hu | rfl
    · exact hf u hu
    · exact fun he => hi he.symm
  | some u =>
    obtain ⟨hmem, hid⟩ := UserTable.find_eq_some.mp hf
    refine UserTable.find_eq_some.mpr ⟨?_, hid⟩
    rw [hrows]
    exact List.mem_append_left _ hmem

end SarkariWorld.Auth
