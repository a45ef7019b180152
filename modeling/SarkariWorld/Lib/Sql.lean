import SarkariWorld.Lib.Table
import SarkariWorld.Lib.Text

/-!
# SQL scripts

The statements a migration is written in, over a database whose tables have named
columns. A statement is what it needs, to run at all, and its effect; a script is a
list of them, and stops at the first one that cannot run.

Most of what is proved about a script is that it leaves something alone. `block_frame`
is the rule: what none of the statements changes, the script does not change. What is
observed is one of a few functions of a database: the columns of a table (`has`), its
rows as far as some columns go (`view`), a default, the labels of a type, an index.

The statements come in families: those that change rows, those that change columns, those
that change types and defaults, and those that only concern the schema around the tables.
For each statement there is one lemma for each of the observations, in this order, and one
that says when it changes nothing at all (`..._unchanged`). That is what makes a script
safe to run again.

A property of a database that a script keeps (`Keeps`) is weaker than an observation it
leaves alone (`Leaves`): an index that is there stays there, but another may be created
beside it.
-/

namespace SarkariWorld.Lib.Sql

/-- The name of a table, a column, a type or an index. -/
abbrev Name := String

/-- A row is null outside of the columns of its table. -/
abbrev Row (V : Type) := Name → Option V

/-- A row with another value in one column. -/
def Row.set {V : Type} (r : Row V) (column : Name) (value : Option V) : Row V :=
  fun c => if c = column then value else r c

/-- A column, with its type and what an insert puts there that does not mention it. -/
structure Column (V : Type) where
  type : Name
  default : Option V

/-- A table. A row gives a value to every name; those that are no columns are not looked at. -/
structure Table (V : Type) where
  columns : Name → Option (Column V)
  rows : List (Row V)

/-- An index, the columns its definition mentions, and the definition. -/
structure Index where
  table : Name
  columns : List Name
  definition : String

/-- What a migration can see and change. -/
structure Database (V : Type) where
  /-- The labels of each enumeration. -/
  labels : Name → Option (List Text)
  tables : Name → Option (Table V)
  indexes : Name → Option Index

variable {V : Type}

/-! ## Observing -/

namespace Database

/-- The table has the column. -/
def has (db : Database V) (name column : Name) : Bool :=
  ((db.tables name).bind fun t => t.columns column).isSome

/-- The default of the column, if there is such a column and it has one. -/
def default (db : Database V) (name column : Name) : Option V :=
  ((db.tables name).bind fun t => t.columns column).bind Column.default

/-- The rows of a table; none if there is no table. -/
def rows (db : Database V) (name : Name) : List (Row V) := ((db.tables name).map Table.rows).getD []

/-- `EXISTS (SELECT … FROM pg_enum …)`. -/
def hasLabel (db : Database V) (type : Name) (label : Text) : Bool :=
  (db.labels type).any fun labels => labels.contains label

/-- A row, as far as some columns go. -/
def restrict (columns : List Name) (r : Row V) : Row V := fun c => if c ∈ columns then r c else none

/-- The rows of a table, as far as the columns go. -/
def view (db : Database V) (name : Name) (columns : List Name) : List (Row V) :=
  (db.rows name).map (restrict columns)

/-- One table, changed. -/
def onTable (db : Database V) (name : Name) (f : Table V → Table V) : Database V :=
  { db with tables := fun n => if n = name then (db.tables n).map f else db.tables n }

/-- The indexes of some columns, gone. -/
def dropIndexesOn (db : Database V) (gone : Index → Bool) : Database V :=
  { db with indexes := fun i => (db.indexes i).filter fun index => !gone index }

end Database

/-! ## Statements -/

/-- A statement. It is refused if what it names is not there. -/
structure Statement (V : Type) where
  needs : Database V → Bool
  effect : Database V → Database V

namespace Statement

/-- Runs the statement, unless it is refused. -/
def run (s : Statement V) (db : Database V) : Option (Database V) :=
  if s.needs db then some (s.effect db) else none

/-- A script. -/
def block : List (Statement V) → Statement V
  | [] => ⟨fun _ => true, id⟩
  | s :: l => ⟨fun db => s.needs db && (block l).needs (s.effect db),
      fun db => (block l).effect (s.effect db)⟩

/-- `IF test THEN … END IF`. -/
def whenever (test : Database V → Bool) (l : List (Statement V)) : Statement V :=
  ⟨fun db => !test db || (block l).needs db, fun db => if test db then (block l).effect db else db⟩

/-- The tables and columns a statement names have to be there. -/
def mentioned (mentions : List (Name × Name)) (db : Database V) : Bool :=
  mentions.all fun m => db.has m.1 m.2

/-- `UPDATE … SET … WHERE …`. -/
def update (name : Name) (mentions : List (Name × Name)) (p : Row V → Bool) (set : Row V → Row V) :
    Statement V where
  needs := mentioned mentions
  effect db := db.onTable name fun t =>
    { t with rows := t.rows.map fun r => if p r then set r else r }

/-- `DELETE FROM … WHERE …`; the condition may look at the other tables. -/
def delete (name : Name) (mentions : List (Name × Name)) (p : Database V → Row V → Bool) :
    Statement V where
  needs := mentioned mentions
  effect db := db.onTable name fun t => { t with rows := t.rows.filter fun r => !p db r }

/-- `ALTER TABLE … ADD COLUMN IF NOT EXISTS …`. -/
def addColumn (name column type : Name) : Statement V where
  needs db := (db.tables name).isSome
  effect db := db.onTable name fun t =>
    { t with columns := fun c =>
        if c = column then some ((t.columns c).getD ⟨type, none⟩) else t.columns c }

/-- `ALTER TABLE … DROP COLUMN IF EXISTS …`: its indexes go with it. -/
def dropColumn (name column : Name) : Statement V where
  needs db := (db.tables name).isSome
  effect db :=
    if db.has name column then
      (db.onTable name fun t =>
        { columns := fun c => if c = column then none else t.columns c
          rows := t.rows.map fun r => r.set column none }).dropIndexesOn
        fun index => index.table == name && index.columns.contains column
    else db

/-- `ALTER TABLE … RENAME COLUMN … TO …`. -/
def renameColumn (name old new : Name) : Statement V where
  needs db := db.has name old && !db.has name new
  effect db :=
    { db.onTable name fun t =>
        { columns := fun c =>
            if c = new then t.columns old else if c = old then none else t.columns c
          rows := t.rows.map fun r => (r.set old none).set new (r old) } with
      indexes := fun i => (db.indexes i).map fun index =>
        if index.table = name then
          { index with columns := index.columns.map fun c => if c = old then new else c }
        else index }

/-- `ALTER TABLE … ALTER COLUMN … SET DEFAULT …`, or `DROP DEFAULT`. -/
def setDefault (name column : Name) (value : Option V) : Statement V where
  needs db := db.has name column
  effect db := db.onTable name fun t =>
    { t with columns := fun c =>
        if c = column then (t.columns c).map fun col => { col with default := value }
        else t.columns c }

/-- `ALTER TABLE … ALTER COLUMN … TYPE … USING …`, to an enumeration: what the
expression gives has to be one of its labels, and a default would not follow. -/
def alterType (name column type : Name) (mentions : List (Name × Name))
    (cast : Row V → Option Text) (ofLabel : Text → V) : Statement V where
  needs db := db.has name column && mentioned mentions db && (db.default name column).isNone &&
    (db.labels type).any fun labels => (db.rows name).all fun r => (cast r).all labels.contains
  effect db := db.onTable name fun t =>
    { columns := fun c =>
        if c = column then (t.columns c).map fun col => { col with type := type } else t.columns c
      rows := t.rows.map fun r => r.set column ((cast r).map ofLabel) }

/-- `ALTER TYPE … ADD VALUE IF NOT EXISTS …`. -/
def addValue (type : Name) (label : Text) : Statement V where
  needs db := (db.labels type).isSome
  effect db :=
    { db with labels := fun n =>
        if n = type then (db.labels n).map fun labels =>
          if labels.contains label then labels else labels ++ [label]
        else db.labels n }

/-- `ALTER TYPE … RENAME TO …`; the columns of the type follow. -/
def renameType (old new : Name) : Statement V where
  needs db := (db.labels old).isSome && (db.labels new).isNone
  effect db :=
    { db with
      labels := fun n =>
        if n = new then db.labels old else if n = old then none else db.labels n
      tables := fun n => (db.tables n).map fun t =>
        { t with columns := fun c => (t.columns c).map fun col =>
            if col.type = old then { col with type := new } else col } }

/-- `CREATE TYPE … AS ENUM (…)`. -/
def createType (type : Name) (labels : List Text) : Statement V where
  needs db := (db.labels type).isNone
  effect db := { db with labels := fun n => if n = type then some labels else db.labels n }

/-- `DROP TYPE …`. That a column may still have the type is not asked. -/
def dropType (type : Name) : Statement V where
  needs db := (db.labels type).isSome
  effect db := { db with labels := fun n => if n = type then none else db.labels n }

/-- `DROP TABLE IF EXISTS … CASCADE`. -/
def dropTable (name : Name) : Statement V where
  needs _ := true
  effect db :=
    if (db.tables name).isSome then
      { db with tables := fun n => if n = name then none else db.tables n }.dropIndexesOn
        fun index => index.table == name
    else db

/-- `DROP INDEX IF EXISTS …`. -/
def dropIndex (name : Name) : Statement V where
  needs _ := true
  effect db := { db with indexes := fun i => if i = name then none else db.indexes i }

/-- `CREATE INDEX …`. -/
def createIndex (name : Name) (index : Index) : Statement V where
  needs db := (db.indexes name).isNone && index.columns.all (db.has index.table)
  effect db := { db with indexes := fun i => if i = name then some index else db.indexes i }

/-- `CREATE UNIQUE INDEX IF NOT EXISTS …`, on one column. -/
def createUniqueIndex (name table column : Name) (key : V → Text) (definition : String) :
    Statement V where
  needs db := (db.indexes name).isSome ||
    db.has table column && decide (UniqueCol (fun r => (r column).map key) (db.rows table))
  effect db :=
    { db with indexes := fun i =>
        if i = name then some ((db.indexes i).getD ⟨table, [column], definition⟩)
        else db.indexes i }

end Statement

open Statement Database

/-! ## What a statement leaves alone -/

/-- An observation the statement does not change. -/
def Leaves {α : Type} (s : Statement V) (observe : Database V → α) : Prop :=
  ∀ db, observe (s.effect db) = observe db

/-- A fact the statement does not make false. -/
def Keeps (s : Statement V) (P : Database V → Prop) : Prop := ∀ db, P db → P (s.effect db)

section Rules

variable {α : Type} {observe : Database V → α} {l : List (Statement V)} {s : Statement V}

/-- **The frame rule**: what no statement of a script changes, the script does not. -/
theorem block_frame (h : ∀ s ∈ l, Leaves s observe) : Leaves (block l) observe := by
  induction l with
  | nil => exact fun db => rfl
  | cons s l ih =>
    intro db
    have hrest := ih fun s hs => h s (List.mem_cons_of_mem _ hs)
    exact (hrest (s.effect db)).trans (h s List.mem_cons_self db)

/-- The frame rule for a guarded block: whether or not it is entered. -/
theorem whenever_frame {test : Database V → Bool} (h : ∀ s ∈ l, Leaves s observe) :
    Leaves (whenever test l) observe := by
  intro db
  unfold whenever
  dsimp only
  split
  · exact block_frame h db
  · rfl

/-- What every statement of a block keeps, the block keeps. -/
theorem block_keeps {P : Database V → Prop} (h : ∀ s ∈ l, Keeps s P) : Keeps (block l) P := by
  induction l with
  | nil => exact fun db hdb => hdb
  | cons s l ih =>
    intro db hdb
    have hrest := ih fun s hs => h s (List.mem_cons_of_mem _ hs)
    exact hrest (s.effect db) (h s List.mem_cons_self db hdb)

theorem whenever_keeps {P : Database V → Prop} {test : Database V → Bool}
    (h : ∀ s ∈ l, Keeps s P) : Keeps (whenever test l) P := by
  intro db hdb
  unfold whenever
  dsimp only
  split
  · exact block_keeps h db hdb
  · exact hdb

theorem block_append (l l' : List (Statement V)) (db : Database V) :
    (block (l ++ l')).effect db = (block l').effect ((block l).effect db) := by
  induction l generalizing db with
  | nil => rfl
  | cons s l ih => exact ih (s.effect db)

/-- Two blocks run if the first does, and the second on what it leaves. -/
theorem block_append_needs (l l' : List (Statement V)) (db : Database V) :
    (block (l ++ l')).needs db =
      ((block l).needs db && (block l').needs ((block l).effect db)) := by
  induction l generalizing db with
  | nil => exact (Bool.true_and _).symm
  | cons s l ih =>
    show (s.needs db && (block (l ++ l')).needs (s.effect db)) = ((s.needs db && _) && _)
    rw [ih (s.effect db), Bool.and_assoc]
    rfl

/-- What a statement makes true, after what makes it do so and before what keeps it. -/
theorem block_establishes {l' : List (Statement V)} {P Q : Database V → Prop} {db : Database V}
    (hbefore : ∀ s ∈ l, Keeps s Q) (hstep : ∀ db, Q db → P (s.effect db))
    (hafter : ∀ s ∈ l', Keeps s P) (h : Q db) : P ((block (l ++ s :: l')).effect db) := by
  rw [block_append]
  exact block_keeps hafter _ (hstep _ (block_keeps hbefore db h))

/-- What one statement of a script makes true and none makes false. -/
theorem block_reaches {P : Database V → Prop} (hs : s ∈ l) (hstep : ∀ db, P (s.effect db))
    (hkeeps : ∀ s ∈ l, Keeps s P) (db : Database V) : P ((block l).effect db) := by
  obtain ⟨before, after, rfl⟩ := List.append_of_mem hs
  have hafter : ∀ s ∈ after, Keeps s P := fun s hs =>
    hkeeps s (List.mem_append_right _ (List.mem_cons_of_mem _ hs))
  exact block_establishes (Q := fun _ => True) (fun _ _ _ _ => trivial) (fun db _ => hstep db)
    hafter trivial

/-- A statement that leaves an observation alone keeps every value of it. -/
theorem Leaves.keeps {a : α} (h : Leaves s observe) : Keeps s fun db => observe db = a :=
  fun db hdb => (h db).trans hdb

/-- A script runs if each statement does, given something they all keep. -/
theorem block_needs {P : Database V → Prop} {db : Database V} (hdb : P db)
    (h : ∀ s ∈ l, ∀ db, P db → s.needs db = true ∧ P (s.effect db)) :
    (block l).needs db = true ∧ P ((block l).effect db) := by
  induction l generalizing db with
  | nil => exact ⟨rfl, hdb⟩
  | cons s l ih =>
    obtain ⟨hneeds, hstep⟩ := h s List.mem_cons_self db hdb
    obtain ⟨hrest, hend⟩ := ih hstep fun s hs => h s (List.mem_cons_of_mem _ hs)
    exact ⟨Bool.and_eq_true_iff.mpr ⟨hneeds, hrest⟩, hend⟩

theorem block_cons (db : Database V) :
    (block (s :: l)).effect db = (block l).effect (s.effect db) := rfl

/-- A block runs if its first statement does, and the rest on what that leaves. -/
theorem block_cons_needs (db : Database V) :
    (block (s :: l)).needs db = (s.needs db && (block l).needs (s.effect db)) := rfl

/-- What the first statements leave, one statement at a time. -/
theorem block_take_succ {k : Nat} (hk : k < l.length) (db : Database V) :
    (block (l.take (k + 1))).effect db = l[k].effect ((block (l.take k)).effect db) := by
  rw [List.take_succ_eq_append_getElem hk, block_append]
  rfl

/-- A script runs if each statement does on what the ones before it leave. -/
theorem block_runs {db : Database V}
    (h : ∀ (k : Nat) (hk : k < l.length), l[k].needs ((block (l.take k)).effect db) = true) :
    (block l).needs db = true := by
  induction l generalizing db with
  | nil => rfl
  | cons s l ih =>
    have hrest : (block l).needs (s.effect db) = true :=
      ih fun k hk => h (k + 1) (Nat.succ_lt_succ hk)
    exact Bool.and_eq_true_iff.mpr ⟨h 0 (Nat.succ_pos _), hrest⟩

theorem whenever_needs {test : Database V → Bool} {db : Database V} (h : test db = false) :
    (whenever test l).needs db = true := by
  show (!test db || _) = true
  rw [h]
  rfl

/-- A guarded block that is entered has the effect of the block. -/
theorem whenever_true {test : Database V → Bool} {db : Database V} (h : test db = true) :
    (whenever test l).effect db = (block l).effect db := if_pos h

theorem whenever_false {test : Database V → Bool} {db : Database V} (h : test db = false) :
    (whenever test l).effect db = db := if_neg (Bool.eq_false_iff.mp h)

end Rules

theorem hasTable {db : Database V} {name column : Name} (h : db.has name column = true) :
    (db.tables name).isSome = true := by
  obtain ⟨col, hcol⟩ := Option.isSome_iff_exists.mp h
  obtain ⟨t, ht, -⟩ := Option.bind_eq_some_iff.mp hcol
  rw [ht]
  rfl

theorem hasType {db : Database V} {type : Name} {label : Text} (h : db.hasLabel type label = true) :
    (db.labels type).isSome = true := by
  obtain ⟨labels, hlabels, -⟩ := (Option.any_eq_true _ _).mp h
  rw [hlabels]
  rfl

section Tables

variable {db : Database V} {name n c : Name} {f : Table V → Table V} {columns : List Name}

theorem onTable_unchanged (h : ∀ t, db.tables name = some t → f t = t) :
    db.onTable name f = db := by
  have htables : (db.onTable name f).tables = db.tables := by
    funext n
    show (if n = name then (db.tables n).map f else db.tables n) = db.tables n
    split
    next hn =>
      rw [hn]
      cases ht : db.tables name with
      | none => rfl
      | some t => exact congrArg some (h t ht)
    next => rfl
  unfold onTable at htables ⊢
  exact congrArg (fun tables => { db with tables := tables }) htables

/-- A table that is not there does not come into being by being changed. -/
theorem noTable_onTable (h : db.tables n = none) : (db.onTable name f).tables n = none := by
  show (if n = name then (db.tables n).map f else db.tables n) = none
  rw [h]
  exact ite_self _

/-- A change that keeps the columns of a table leaves them to be seen. -/
theorem has_onTable (h : ∀ t, ((f t).columns c).isSome = (t.columns c).isSome) :
    (db.onTable name f).has n c = db.has n c := by
  show (((if n = name then (db.tables n).map f else db.tables n)).bind fun t =>
    t.columns c).isSome = _
  split
  · cases ht : db.tables n with
    | none => rw [Database.has, ht]; rfl
    | some t => rw [Database.has, ht]; exact h t
  · rfl

theorem default_onTable (h : ∀ t, ((f t).columns c).bind Column.default =
    (t.columns c).bind Column.default) : (db.onTable name f).default n c = db.default n c := by
  show (((if n = name then (db.tables n).map f else db.tables n)).bind fun t =>
    t.columns c).bind Column.default = _
  split
  · cases ht : db.tables n with
    | none => rw [Database.default, ht]; rfl
    | some t => rw [Database.default, ht]; exact h t
  · rfl

/-- The rows of the changed table are changed, and those of the others are not. -/
theorem rows_onTable {g : List (Row V) → List (Row V)} (hf : ∀ t, (f t).rows = g t.rows)
    (hg : g [] = []) :
    (db.onTable name f).rows n = if n = name then g (db.rows n) else db.rows n := by
  show ((if n = name then (db.tables n).map f else db.tables n).map Table.rows).getD [] = _
  split
  · cases ht : db.tables n with
    | none => rw [Database.rows, ht]; exact hg.symm
    | some t => rw [Database.rows, ht]; exact hf t
  · rfl

/-- A change of a table is not seen through columns it leaves alone. -/
theorem view_onTable (h : n = name → ∀ t, (f t).rows.map (restrict columns) =
    t.rows.map (restrict columns)) : (db.onTable name f).view n columns = db.view n columns := by
  show ((((if n = name then (db.tables n).map f else db.tables n).map Table.rows).getD []).map
    (restrict columns)) = _
  split
  next hn =>
    cases ht : db.tables n with
    | none => rw [Database.view, Database.rows, ht]; rfl
    | some t => rw [Database.view, Database.rows, ht]; exact h hn t
  next => rfl

end Tables

/-! ## Rows -/

section Rows

variable {name n c : Name} {mentions : List (Name × Name)} {columns : List Name}

@[simp] theorem Row.set_self {r : Row V} {value : Option V} : r.set c value c = value := if_pos rfl

theorem Row.set_of_ne {r : Row V} {value : Option V} {d : Name} (h : d ≠ c) :
    r.set c value d = r d := if_neg h

/-- Rows that agree on the columns are the same as far as these go. -/
theorem restrict_ext {r r' : Row V} (h : ∀ c ∈ columns, r c = r' c) :
    restrict columns r = restrict columns r' := by
  funext c
  unfold restrict
  split
  next hc => exact h c hc
  next => rfl

theorem restrict_set {r : Row V} {value : Option V} (h : c ∉ columns) :
    restrict columns (r.set c value) = restrict columns r := by
  funext d
  unfold restrict
  split
  next hd => exact Row.set_of_ne fun he => h (he ▸ hd)
  next => rfl

/-- A property that only looks at the columns may be checked on the view. -/
theorem forall_view {db : Database V} {P : Row V → Prop} (hP : ∀ r, P (restrict columns r) ↔ P r) :
    (∀ r ∈ db.view n columns, P r) ↔ ∀ r ∈ db.rows n, P r := by
  rw [Database.view, List.forall_mem_map]
  exact forall₂_congr fun r _ => hP r

/-- What holds of the rows holds after anything that leaves alone the columns it is
about. -/
theorem forall_rows {db db' : Database V} {P : Row V → Prop}
    (hview : db'.view n columns = db.view n columns) (hP : ∀ r, P (restrict columns r) ↔ P r)
    (h : ∀ r ∈ db.rows n, P r) : ∀ r ∈ db'.rows n, P r := by
  rw [← forall_view hP] at h ⊢
  rwa [hview]

/-- What can be read from some columns is the same if they are. -/
theorem map_of_view {β : Type} {db db' : Database V} {f : Row V → β}
    (hf : ∀ r, f (restrict columns r) = f r) (hview : db'.view n columns = db.view n columns) :
    (db'.rows n).map f = (db.rows n).map f := by
  have hrows : ∀ d : Database V, (d.view n columns).map f = (d.rows n).map f := by
    intro d
    rw [Database.view, List.map_map]
    exact List.map_congr_left fun r _ => hf r
  rw [← hrows, ← hrows, hview]

/-- Rows that agree column by column. -/
theorem forall₂_of_cells {l l' : List (Row V)} (P : Name → Prop) (f : Row V → Name → Option V)
    (c₀ : Name) (h₀ : P c₀) (h : ∀ c, P c → (l'.map fun r => r c) = l.map fun r => f r c) :
    List.Forall₂ (fun r r' => ∀ c, P c → r' c = f r c) l l' := by
  induction l generalizing l' with
  | nil => rw [List.map_eq_nil_iff.mp (h c₀ h₀)]; exact .nil
  | cons r l ih =>
    obtain ⟨r', rest, rfl, -, -⟩ := List.map_eq_cons_iff.mp (h c₀ h₀)
    have hcells : ∀ c, P c → r' c = f r c ∧ (rest.map fun r => r c) = l.map fun r => f r c :=
      fun c hc => List.cons.inj (h c hc)
    exact .cons (fun c hc => (hcells c hc).1) (ih fun c hc => (hcells c hc).2)

/-- Rows that agree column by column are the same rows, in the same order. -/
theorem rows_of_cells {l l' : List (Row V)}
    (h : ∀ c, (l'.map fun r => r c) = l.map fun r => r c) : l' = l := by
  have hcells := forall₂_of_cells (fun _ => True) (fun r c => r c) "" trivial fun c _ => h c
  have hsame : List.Forall₂ Eq l l' := hcells.imp fun r r' hr => (funext fun c => hr c trivial).symm
  exact (List.forall₂_eq_eq_eq ▸ hsame : l = l').symm

theorem has_update {p : Row V → Bool} {set : Row V → Row V} :
    Leaves (update name mentions p set) fun db => db.has n c :=
  fun _ => has_onTable fun _ => rfl

theorem default_update {p : Row V → Bool} {set : Row V → Row V} :
    Leaves (update name mentions p set) fun db => db.default n c :=
  fun _ => default_onTable fun _ => rfl

theorem rows_update {p : Row V → Bool} {set : Row V → Row V} (db : Database V) :
    ((update name mentions p set).effect db).rows n =
      if n = name then (db.rows n).map fun r => if p r then set r else r else db.rows n :=
  rows_onTable (fun _ => rfl) rfl

/-- An update of other columns. -/
theorem view_update {p : Row V → Bool} {set : Row V → Row V}
    (h : n = name → ∀ r, restrict columns (set r) = restrict columns r) :
    Leaves (update name mentions p set) fun db => db.view n columns := by
  refine fun db => view_onTable fun hn t => ?_
  rw [List.map_map]
  refine List.map_congr_left fun r _ => ?_
  show restrict columns (if p r then set r else r) = restrict columns r
  split
  · exact h hn r
  · rfl

theorem update_unchanged {p : Row V → Bool} {set : Row V → Row V} {db : Database V}
    (h : ∀ r ∈ db.rows name, p r = false) : (update name mentions p set).effect db = db := by
  refine onTable_unchanged fun t ht => ?_
  have hrows : t.rows = db.rows name := by rw [Database.rows, ht]; rfl
  have hsame : (t.rows.map fun r => if p r then set r else r) = t.rows := by
    rw [hrows]
    refine (List.map_congr_left fun r hr => ?_).trans (List.map_id _)
    rw [h r hr]
    rfl
  rw [hsame]

theorem update_needs {p : Row V → Bool} {set : Row V → Row V} (db : Database V) :
    (update name mentions p set).needs db = mentioned mentions db := rfl

theorem delete_needs {p : Database V → Row V → Bool} (db : Database V) :
    (delete name mentions p).needs db = mentioned mentions db := rfl

theorem has_delete {p : Database V → Row V → Bool} :
    Leaves (delete name mentions p) fun db => db.has n c :=
  fun _ => has_onTable fun _ => rfl

theorem default_delete {p : Database V → Row V → Bool} :
    Leaves (delete name mentions p) fun db => db.default n c :=
  fun _ => default_onTable fun _ => rfl

theorem rows_delete {p : Database V → Row V → Bool} (db : Database V) :
    ((delete name mentions p).effect db).rows n =
      if n = name then (db.rows n).filter fun r => !p db r else db.rows n :=
  rows_onTable (fun _ => rfl) rfl

theorem delete_unchanged {p : Database V → Row V → Bool} {db : Database V}
    (h : ∀ r ∈ db.rows name, p db r = false) : (delete name mentions p).effect db = db := by
  refine onTable_unchanged fun t ht => ?_
  have hrows : t.rows = db.rows name := by rw [Database.rows, ht]; rfl
  have hsame : (t.rows.filter fun r => !p db r) = t.rows := by
    rw [hrows]
    exact List.filter_eq_self.mpr fun r hr => by rw [h r hr]; rfl
  rw [hsame]

end Rows

/-! ## Columns -/

section Columns

variable {name column type n c : Name} {columns : List Name} {mentions : List (Name × Name)}

/-- `ADD COLUMN` adds the one column, if there is a table. -/
theorem has_addColumn (db : Database V) : ((addColumn name column type).effect db).has n c =
    (db.has n c || (decide (n = name ∧ c = column) && (db.tables n).isSome)) := by
  show (((if n = name then (db.tables n).map _ else db.tables n)).bind fun t =>
    t.columns c).isSome = _
  by_cases hn : n = name
  · rw [if_pos hn, Database.has]
    cases ht : db.tables n with
    | none => simp
    | some t =>
      by_cases hc : c = column
      · simp [hn, hc]
      · simp [hc]
  · simp [hn, Database.has]

theorem keeps_addColumn :
    Keeps (addColumn (V := V) name column type) fun db => db.has n c = true := by
  intro db h
  refine (has_addColumn db).trans ?_
  rw [h, Bool.true_or]

theorem view_addColumn : Leaves (addColumn (V := V) name column type) fun db => db.view n columns :=
  fun _ => view_onTable fun _ _ => rfl

theorem rows_addColumn : Leaves (addColumn (V := V) name column type) fun db => db.rows n := by
  intro db
  have hrows : ((addColumn name column type).effect db).rows n =
      if n = name then id (db.rows n) else db.rows n := rows_onTable (fun _ => rfl) rfl
  exact hrows.trans (ite_self _)

/-- `IF NOT EXISTS`: a column that is there is not added. -/
theorem addColumn_unchanged {db : Database V} (h : db.has name column = true) :
    (addColumn name column type).effect db = db := by
  refine onTable_unchanged fun t ht => ?_
  have hcolumns : (fun c => if c = column then some ((t.columns c).getD ⟨type, none⟩)
      else t.columns c) = t.columns := by
    funext c
    split
    next hc =>
      rw [Database.has, ht] at h
      obtain ⟨col, hcol⟩ := Option.isSome_iff_exists.mp h
      rw [hc, show t.columns column = some col from hcol]
      rfl
    next => rfl
  rw [hcolumns]

theorem has_dropColumn (db : Database V) : ((dropColumn name column).effect db).has n c =
    (db.has n c && !decide (n = name ∧ c = column)) := by
  unfold dropColumn
  dsimp only
  by_cases hcolumn : db.has name column = true
  · rw [if_pos hcolumn]
    show (((if n = name then (db.tables n).map _ else db.tables n)).bind fun t =>
      t.columns c).isSome = _
    by_cases hn : n = name
    · rw [if_pos hn, Database.has]
      cases ht : db.tables n with
      | none => simp
      | some t =>
        by_cases hc : c = column
        · simp [hn, hc]
        · simp [hc]
    · simp [hn, Database.has]
  · rw [if_neg hcolumn]
    by_cases hsame : n = name ∧ c = column
    · rw [hsame.1, hsame.2, Bool.eq_false_iff.mpr hcolumn, Bool.false_and]
    · rw [decide_eq_false hsame, Bool.not_false, Bool.and_true]

theorem noColumn_dropColumn :
    Keeps (dropColumn (V := V) name column) fun db => db.has n c = false := by
  intro db h
  refine (has_dropColumn db).trans ?_
  rw [h, Bool.false_and]

theorem view_dropColumn (h : n = name → column ∉ columns) :
    Leaves (dropColumn (V := V) name column) fun db => db.view n columns := by
  intro db
  unfold dropColumn
  dsimp only
  split
  · refine view_onTable fun hn t => ?_
    rw [List.map_map]
    exact List.map_congr_left fun r _ => restrict_set (h hn)
  · rfl

/-- `IF EXISTS`: a column that is not there is not dropped. -/
theorem dropColumn_unchanged {db : Database V} (h : db.has name column = false) :
    (dropColumn name column).effect db = db := if_neg (Bool.eq_false_iff.mp h)

/-- Renaming a column moves it to the new name, in its table. -/
theorem has_renameColumn {old new : Name} (db : Database V) :
    ((renameColumn name old new).effect db).has n c =
      if n = name then if c = new then db.has n old else if c = old then false else db.has n c
      else db.has n c := by
  show (((if n = name then (db.tables n).map _ else db.tables n)).bind fun t =>
    t.columns c).isSome = _
  by_cases hn : n = name
  · rw [if_pos hn, if_pos hn, Database.has, Database.has]
    cases ht : db.tables n with
    | none => simp
    | some t =>
      simp only [Option.map_some, Option.bind_some]
      split
      · rfl
      · split <;> rfl
  · rw [if_neg hn, if_neg hn]
    rfl

theorem rows_renameColumn {old new : Name} (db : Database V) :
    ((renameColumn name old new).effect db).rows n =
      if n = name then (db.rows n).map fun r => (r.set old none).set new (r old) else db.rows n :=
  rows_onTable (fun _ => rfl) rfl

theorem view_renameColumn {old new : Name} (h : n = name → old ∉ columns ∧ new ∉ columns) :
    Leaves (renameColumn (V := V) name old new) fun db => db.view n columns := by
  refine fun db => view_onTable fun hn t => ?_
  obtain ⟨hold, hnew⟩ := h hn
  rw [List.map_map]
  exact List.map_congr_left fun r _ => (restrict_set hnew).trans (restrict_set hold)

theorem has_setDefault {value : Option V} :
    Leaves (setDefault name column value) fun db => db.has n c := by
  refine fun db => has_onTable fun t => ?_
  dsimp only
  split
  · exact Option.isSome_map
  · rfl

theorem view_setDefault {value : Option V} :
    Leaves (setDefault name column value) fun db => db.view n columns :=
  fun _ => view_onTable fun _ _ => rfl

theorem rows_setDefault {value : Option V} :
    Leaves (setDefault name column value) fun db => db.rows n := by
  intro db
  have hrows : ((setDefault name column value).effect db).rows n =
      if n = name then id (db.rows n) else db.rows n := rows_onTable (fun _ => rfl) rfl
  exact hrows.trans (ite_self _)

theorem default_setDefault {value : Option V} {db : Database V} (h : db.has name column = true) :
    ((setDefault name column value).effect db).default name column = value := by
  obtain ⟨col, hcol⟩ := Option.isSome_iff_exists.mp h
  obtain ⟨t, ht, hcolumn⟩ := Option.bind_eq_some_iff.mp hcol
  simp [setDefault, Database.default, onTable, ht, hcolumn]

theorem setDefault_unchanged {value : Option V} {db : Database V}
    (h : db.default name column = value) : (setDefault name column value).effect db = db := by
  refine onTable_unchanged fun t ht => ?_
  have hcolumns : (fun c => if c = column then (t.columns c).map fun col =>
      { col with default := value } else t.columns c) = t.columns := by
    funext c
    split
    next hc =>
      rw [Database.default, ht, ← hc] at h
      cases hcol : t.columns c with
      | none => rfl
      | some col =>
        rw [Option.bind_some, hcol, Option.bind_some] at h
        rw [Option.map_some, ← h]
    next => rfl
  rw [hcolumns]

/-- `ALTER COLUMN ... TYPE` changes no columns but the type of one. -/
theorem has_alterType {cast : Row V → Option Text} {ofLabel : Text → V} :
    Leaves (alterType name column type mentions cast ofLabel) fun db => db.has n c := by
  refine fun db => has_onTable fun t => ?_
  dsimp only
  split
  · exact Option.isSome_map
  · rfl

theorem rows_alterType {cast : Row V → Option Text} {ofLabel : Text → V} (db : Database V) :
    ((alterType name column type mentions cast ofLabel).effect db).rows n =
      if n = name then (db.rows n).map fun r => r.set column ((cast r).map ofLabel)
      else db.rows n :=
  rows_onTable (fun _ => rfl) rfl

theorem view_alterType {cast : Row V → Option Text} {ofLabel : Text → V}
    (h : n = name → column ∉ columns) :
    Leaves (alterType name column type mentions cast ofLabel) fun db => db.view n columns := by
  refine fun db => view_onTable fun hn t => ?_
  rw [List.map_map]
  exact List.map_congr_left fun r _ => restrict_set (h hn)

end Columns

/-! ## Types, tables and indexes -/

section Schema

variable {name column type n c i : Name} {columns : List Name}

/-- `ADD VALUE` adds the label, if there is such a type. -/
theorem hasLabel_addValue {label : Text} {db : Database V} (h : (db.labels type).isSome = true) :
    ((addValue type label).effect db).hasLabel type label = true := by
  obtain ⟨labels, hlabels⟩ := Option.isSome_iff_exists.mp h
  show ((if type = type then (db.labels type).map _ else _).any _) = true
  rw [if_pos rfl, hlabels, Option.map_some, Option.any_some]
  split
  next hmem => exact hmem
  next => exact List.contains_iff_mem.mpr (List.mem_append_right _ List.mem_cons_self)

/-- `IF NOT EXISTS`: a label that is there is not added. -/
theorem addValue_unchanged {label : Text} {db : Database V} (h : db.hasLabel type label = true) :
    (addValue type label).effect db = db := by
  have hlabels : ((addValue type label).effect db).labels = db.labels := by
    funext n
    show (if n = type then (db.labels n).map _ else db.labels n) = db.labels n
    split
    next hn =>
      rw [hn]
      cases ht : db.labels type with
      | none => rfl
      | some labels =>
        have hmem : labels.contains label = true := by rwa [Database.hasLabel, ht] at h
        exact congrArg some (if_pos hmem)
    next => rfl
  exact congrArg (fun labels => { db with labels := labels }) hlabels

/-- Renaming a type changes no columns, only what their type is called. -/
theorem has_renameType {old new : Name} :
    Leaves (renameType (V := V) old new) fun db => db.has n c := by
  intro db
  show (((db.tables n).map _).bind fun t : Table V => t.columns c).isSome = db.has n c
  cases ht : db.tables n with
  | none => rw [Database.has, ht]; rfl
  | some t =>
    rw [Database.has, ht]
    exact Option.isSome_map

theorem default_renameType {old new : Name} :
    Leaves (renameType (V := V) old new) fun db => db.default n c := by
  intro db
  show (((db.tables n).map _).bind fun t : Table V => t.columns c).bind Column.default =
    db.default n c
  cases ht : db.tables n with
  | none => rw [Database.default, ht]; rfl
  | some t =>
    rw [Database.default, ht]
    show ((t.columns c).map _).bind Column.default = (t.columns c).bind Column.default
    cases t.columns c with
    | none => rfl
    | some col =>
      simp only [Option.map_some, Option.bind_some]
      split <;> rfl

theorem rows_renameType {old new : Name} (db : Database V) :
    ((renameType old new).effect db).rows n = db.rows n := by
  show (((db.tables n).map _).map Table.rows).getD [] = _
  cases ht : db.tables n with
  | none => rw [Database.rows, ht]; rfl
  | some t => rw [Database.rows, ht]; rfl

theorem view_renameType {old new : Name} :
    Leaves (renameType (V := V) old new) fun db => db.view n columns :=
  fun db => congrArg (List.map (restrict columns)) (rows_renameType db)

/-- `DROP TABLE` leaves the columns of other tables alone. -/
theorem has_dropTable (h : n ≠ name) : Leaves (dropTable (V := V) name) fun db => db.has n c := by
  intro db
  unfold dropTable
  dsimp only
  split
  · show ((if n = name then none else db.tables n).bind _).isSome = _
    rw [if_neg h]
    rfl
  · rfl

theorem view_dropTable (h : n ≠ name) :
    Leaves (dropTable (V := V) name) fun db => db.view n columns := by
  intro db
  unfold dropTable
  dsimp only
  split
  · show (((if n = name then none else db.tables n).map Table.rows).getD []).map _ = _
    rw [if_neg h]
    rfl
  · rfl

theorem tables_dropTable (db : Database V) : ((dropTable name).effect db).tables name = none := by
  unfold dropTable
  dsimp only
  split
  next => exact if_pos rfl
  next h => exact Option.not_isSome_iff_eq_none.mp h

theorem noTable_dropTable : Keeps (dropTable (V := V) name) fun db => db.tables n = none := by
  intro db h
  unfold dropTable
  dsimp only
  split
  · show (if n = name then none else db.tables n) = none
    rw [h]
    exact ite_self _
  · exact h

theorem noTable_dropColumn :
    Keeps (dropColumn (V := V) name column) fun db => db.tables n = none := by
  intro db h
  unfold dropColumn
  dsimp only
  split
  · exact noTable_onTable h
  · exact h

/-- `IF EXISTS`: a table that is not there is not dropped. -/
theorem dropTable_unchanged {db : Database V} (h : db.tables name = none) :
    (dropTable name).effect db = db := by
  refine if_neg ?_
  rw [h]
  exact Bool.noConfusion

theorem indexes_dropIndex (db : Database V) : ((dropIndex name).effect db).indexes name = none :=
  if_pos rfl

/-- `IF EXISTS`: an index that is not there is not dropped. -/
theorem dropIndex_unchanged {db : Database V} (h : db.indexes name = none) :
    (dropIndex name).effect db = db := by
  have hindexes : ((dropIndex name).effect db).indexes = db.indexes := by
    funext i
    show (if i = name then none else db.indexes i) = db.indexes i
    split
    next hi => rw [hi, h]
    next => rfl
  exact congrArg (fun indexes => { db with indexes := indexes }) hindexes

/-- `IF NOT EXISTS`: an index of the name is enough, whatever it is on. -/
theorem createUniqueIndex_unchanged {table : Name} {key : V → Text} {definition : String}
    {db : Database V} (h : (db.indexes name).isSome = true) :
    (createUniqueIndex name table column key definition).effect db = db := by
  obtain ⟨index, hindex⟩ := Option.isSome_iff_exists.mp h
  have hindexes : ((createUniqueIndex name table column key definition).effect db).indexes =
      db.indexes := by
    funext i
    show (if i = name then some ((db.indexes i).getD _) else db.indexes i) = db.indexes i
    split
    next hi => rw [hi, hindex]; rfl
    next => rfl
  exact congrArg (fun indexes => { db with indexes := indexes }) hindexes

end Schema

/-! ## An index -/

section Indexes

variable {name column i : Name} {index : Index}

/-- Dropping the indexes of some kind spares one that is not of the kind. -/
theorem filter_index {db : Database V} {gone : Index → Bool} (hgone : gone index = false)
    (h : db.indexes i = some index) : (db.dropIndexesOn gone).indexes i = some index := by
  show (db.indexes i).filter _ = some index
  rw [h]
  refine Option.filter_some_pos ?_
  rw [hgone]
  rfl

/-- An index goes with the columns it is on, and with no others. -/
theorem index_dropColumn (h : index.table = name → column ∉ index.columns) :
    Keeps (dropColumn (V := V) name column) fun db => db.indexes i = some index := by
  intro db hindex
  unfold dropColumn
  dsimp only
  split
  · refine filter_index ?_ hindex
    by_cases hname : index.table = name
    · rw [Bool.and_eq_false_iff]
      exact Or.inr (List.contains_eq_mem column index.columns ▸ decide_eq_false (h hname))
    · rw [Bool.and_eq_false_iff]
      exact Or.inl (beq_false_of_ne hname)
  · exact hindex

theorem index_dropTable (h : index.table ≠ name) :
    Keeps (dropTable (V := V) name) fun db => db.indexes i = some index := by
  intro db hindex
  unfold dropTable
  dsimp only
  split
  · exact filter_index (beq_false_of_ne h) hindex
  · exact hindex

/-- Renaming a column of another table does not concern it. -/
theorem index_renameColumn {old new : Name} (h : index.table ≠ name) :
    Keeps (renameColumn (V := V) name old new) fun db => db.indexes i = some index := by
  intro db hindex
  show (db.indexes i).map _ = some index
  rw [hindex, Option.map_some, if_neg h]

theorem index_dropIndex (h : i ≠ name) :
    Keeps (dropIndex (V := V) name) fun db => db.indexes i = some index :=
  fun _ hindex => (if_neg h).trans hindex

theorem index_createIndex {other : Index} (h : i ≠ name) :
    Keeps (createIndex (V := V) name other) fun db => db.indexes i = some index :=
  fun _ hindex => (if_neg h).trans hindex

theorem noIndex_dropColumn :
    Keeps (dropColumn (V := V) name column) fun db => db.indexes i = none := by
  intro db hindex
  unfold dropColumn
  dsimp only
  split
  · show (db.indexes i).filter _ = none
    rw [hindex]
    rfl
  · exact hindex

theorem noIndex_dropTable : Keeps (dropTable (V := V) name) fun db => db.indexes i = none := by
  intro db hindex
  unfold dropTable
  dsimp only
  split
  · show (db.indexes i).filter _ = none
    rw [hindex]
    rfl
  · exact hindex

end Indexes

end SarkariWorld.Lib.Sql
