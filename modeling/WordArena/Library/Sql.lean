import WordArena.Library.Fallible
import Mathlib.Logic.Function.Basic

/-! A small SQL database: strict tables with their constraints, indexes, and the
statements that change a schema. A statement is atomic, and a script outside a
transaction keeps what its first statements did when it stops. -/
namespace Sql

open Fallible

inductive Value where
  | null
  | integer (number : Int)
  | text (string : String)
  | blob (bytes : List UInt8)
deriving DecidableEq, Repr

inductive ColumnType where
  | integer
  | text
  | blob
deriving DecidableEq, Repr

/-- A strict column stores values of its own type. -/
def ColumnType.stores : ColumnType → Value → Bool
  | _, .null => true
  | .integer, .integer _ => true
  | .text, .text _ => true
  | .blob, .blob _ => true
  | _, _ => false

/-- A column. Its check is not asked about NULL, on which every comparison passes. -/
structure Column where
  name : String
  type : ColumnType
  notNull : Bool
  check : Value → Bool

def Column.admits (column : Column) (value : Value) : Bool :=
  column.type.stores value && if value = .null then !column.notNull else column.check value

abbrev Row := List Value

structure ForeignKey where
  columns : List String
  parent : String
  parentColumns : List String
deriving DecidableEq, Repr

/-- A table definition. Its keys are the primary key and the UNIQUE constraints. -/
structure Schema where
  name : String
  columns : List Column
  checks : List ((String → Value) → Bool)
  keys : List (List String)
  foreignKeys : List ForeignKey

def Schema.field (schema : Schema) (row : Row) (name : String) : Value :=
  (((schema.columns.map (·.name)).zip row).lookup name).getD .null

def Schema.project (schema : Schema) (names : List String) (row : Row) : List Value :=
  names.map (schema.field row)

/-- A row of the right width that passes every column and row check. -/
def Schema.admits (schema : Schema) (row : Row) : Bool :=
  decide (row.length = schema.columns.length) &&
    (schema.columns.zip row).all (fun entry => entry.1.admits entry.2) &&
    schema.checks.all fun check => check (schema.field row)

/-- Two rows with the same key. A NULL is equal to nothing. -/
def Schema.clash (schema : Schema) (key : List String) (a b : Row) : Bool :=
  decide (schema.project key a = schema.project key b ∧ .null ∉ schema.project key a)

structure Table where
  schema : Schema
  rows : List Row

structure Index where
  name : String
  table : String
  columns : List String
  unique : Bool
deriving DecidableEq, Repr

structure Database where
  enforced : Bool
  tables : String → Option Table
  indexes : List Index
  version : String

inductive Error where
  | noSuchTable (name : String)
  | alreadyExists (name : String)
  | columnCount (name : String)
  | check (name : String)
  | unique (name : String)
  | foreignKey (name : String)
deriving DecidableEq, Repr

/-- Tables and indexes share their names. -/
def Database.taken (db : Database) (name : String) : Bool :=
  (db.tables name).isSome || db.indexes.any fun index => index.name = name

def Database.put (db : Database) (name : String) (table : Option Table) : Database :=
  { db with tables := Function.update db.tables name table }

@[simp] theorem put_self (db : Database) (name : String) (table : Option Table) :
    (db.put name table).tables name = table :=
  Function.update_self ..

theorem put_of_ne (db : Database) {name other : String} (table : Option Table) (h : other ≠ name) :
    (db.put name table).tables other = db.tables other :=
  Function.update_of_ne h ..

/-- The keys and unique indexes of a table. -/
def Database.uniques (db : Database) (schema : Schema) : List (List String) :=
  schema.keys ++ (db.indexes.filter fun index => index.unique && index.table = schema.name).map
    (·.columns)

/-- The parent of a row exists, or the row has a NULL in the foreign key. -/
def ForeignKey.satisfied (key : ForeignKey) (db : Database) (schema : Schema) (row : Row) : Bool :=
  decide (.null ∈ schema.project key.columns row) ||
    match db.tables key.parent with
    | none => false
    | some parent => parent.rows.any fun other =>
        parent.schema.project key.parentColumns other = schema.project key.columns row

def Database.insert (name : String) (db : Database) (row : Row) : Except Error Database := do
  let table ← okOr (db.tables name) (.noSuchTable name)
  reject (table.schema.admits row = false) (.check name)
  reject ((db.uniques table.schema).any (fun key => table.rows.any (table.schema.clash key row)) = true)
    (.unique name)
  reject (db.enforced = true ∧
    table.schema.foreignKeys.any (fun key => !key.satisfied db table.schema row) = true)
    (.foreignKey name)
  return db.put name (some { table with rows := table.rows ++ [row] })

inductive Statement where
  | foreignKeys (enforced : Bool)
  | rename (table name : String)
  | create (schema : Schema)
  | copy (table source : String)
  | drop (table : String)
  | createIndex (index : Index)
  | setVersion (version : String)

/-- References follow a renamed table. -/
def Table.retarget (table name : String) (t : Table) : Table :=
  { t with schema := { t.schema with foreignKeys := t.schema.foreignKeys.map fun key =>
      if key.parent = table then { key with parent := name } else key } }

def Table.renamed (table name : String) (t : Table) : Table :=
  let t := t.retarget table name
  { t with schema := { t.schema with name := name } }

/-- Run one statement. A drop while foreign keys are enforced would first delete the rows;
it is refused here. -/
def Database.exec (db : Database) : Statement → Except Error Database
  | .foreignKeys enforced => .ok { db with enforced := enforced }
  | .rename table name => do
      let moved ← okOr (db.tables table) (.noSuchTable table)
      reject (db.taken name = true) (.alreadyExists name)
      return { db with
        tables := fun other =>
          if other = name then some (moved.renamed table name)
          else if other = table then none else (db.tables other).map (Table.retarget table name)
        indexes := db.indexes.map fun index =>
          if index.table = table then { index with table := name } else index }
  | .create schema => do
      reject (db.taken schema.name = true) (.alreadyExists schema.name)
      return db.put schema.name (some ⟨schema, []⟩)
  | .copy table source => do
      let donor ← okOr (db.tables source) (.noSuchTable source)
      let heir ← okOr (db.tables table) (.noSuchTable table)
      reject (donor.schema.columns.length ≠ heir.schema.columns.length) (.columnCount table)
      donor.rows.foldlM (Database.insert table) db
  | .drop table => do
      let _ ← okOr (db.tables table) (.noSuchTable table)
      reject (db.enforced = true) (.foreignKey table)
      return { db.put table none with
        indexes := db.indexes.filter fun index => decide (index.table ≠ table) }
  | .createIndex index => do
      let table ← okOr (db.tables index.table) (.noSuchTable index.table)
      reject (db.taken index.name = true) (.alreadyExists index.name)
      reject (index.unique = true ∧
        ¬ table.rows.Pairwise fun a b => table.schema.clash index.columns b a = false) (.unique index.table)
      return { db with indexes := db.indexes ++ [index] }
  | .setVersion version => .ok { db with version := version }

/-- A new connection enforces foreign keys. -/
def Database.connect (db : Database) : Database := { db with enforced := true }

/-- Run a script to its end, or to its first failure. -/
def Database.run (db : Database) (script : List Statement) : Except Error Database :=
  script.foldlM Database.exec db

/-- What is left of a script that is cut off after so many statements, or that fails. -/
def Database.attempt : List Statement → Nat → Database → Database
  | [], _, db => db
  | _ :: _, 0, db => db
  | statement :: script, n + 1, db =>
      match db.exec statement with
      | .ok next => attempt script n next
      | .error _ => db

section

variable {db next : Database} {script rest : List Statement} {n : Nat}

/-- As far as a script succeeds, an attempt at it does the same. -/
theorem attempt_append (h : db.run script = .ok next) :
    db.attempt (script ++ rest) (script.length + n) = next.attempt rest n := by
  induction script generalizing db with
  | nil =>
      cases pure_eq_ok.mp h
      rw [List.nil_append, List.length_nil, Nat.zero_add]
  | cons statement script ih =>
      rw [Database.run, List.foldlM_cons, bind_eq_ok] at h
      obtain ⟨middle, hFirst, hRest⟩ := h
      rw [List.cons_append, List.length_cons, Nat.add_right_comm, Database.attempt, hFirst]
      exact ih hRest

/-- An attempt does not get past a failure. -/
theorem attempt_of_error {e : Error} (h : db.run script = .error e) :
    db.attempt (script ++ rest) n = db.attempt script n := by
  induction script generalizing db n with
  | nil => cases h
  | cons statement script ih =>
      cases n with
      | zero => rfl
      | succ n =>
          rw [List.cons_append, Database.attempt, Database.attempt]
          cases hFirst : db.exec statement with
          | error _ => rfl
          | ok middle =>
              rw [Database.run, List.foldlM_cons, hFirst] at h
              exact ih h

/-- What the first statements of a script keep, an attempt at them keeps. -/
theorem attempt_invariant {P : Database → Prop}
    (step : ∀ statement ∈ script.take n, ∀ db next, P db → db.exec statement = .ok next → P next)
    (h : P db) : P (db.attempt script n) := by
  induction script generalizing db n with
  | nil => exact h
  | cons statement script ih =>
      cases n with
      | zero => exact h
      | succ n =>
          rw [Database.attempt]
          cases hFirst : db.exec statement with
          | error _ => exact h
          | ok middle =>
              refine ih (fun other hOther => step other ?_) (step statement ?_ db middle h hFirst)
              · rw [List.take_succ_cons]
                exact List.mem_cons_of_mem _ hOther
              · rw [List.take_succ_cons]
                exact List.mem_cons_self

theorem run_append : db.run (script ++ rest) = db.run script >>= fun middle => middle.run rest := by
  rw [Database.run, List.foldlM_append]
  rfl

/-- One statement for each entry of a list, under an invariant that says how far it got. -/
theorem run_map {α : Type} {f : α → Statement} {P : List α → Database → Prop} {entries : List α}
    (step : ∀ done a todo db, entries = done ++ a :: todo → P done db →
      ∃ next, db.exec (f a) = .ok next ∧ P (done ++ [a]) next) (h : P [] db) :
    ∃ next, db.run (entries.map f) = .ok next ∧ P entries next := by
  suffices hRest : ∀ todo done db, entries = done ++ todo → P done db →
      ∃ next, db.run (todo.map f) = .ok next ∧ P entries next from hRest entries [] db rfl h
  intro todo
  induction todo with
  | nil =>
      intro done db hEntries hDone
      rw [List.append_nil] at hEntries
      exact ⟨db, rfl, hEntries ▸ hDone⟩
  | cons a todo ih =>
      intro done db hEntries hDone
      obtain ⟨middle, hFirst, hMiddle⟩ := step done a todo db hEntries hDone
      obtain ⟨next, hRest, hNext⟩ := ih (done ++ [a]) middle (by rw [hEntries, List.append_assoc]; rfl)
        hMiddle
      refine ⟨next, ?_, hNext⟩
      rw [List.map_cons, Database.run, List.foldlM_cons, hFirst]
      exact hRest

/-! What single statements do. -/

theorem exec_rename_eq_ok {table name : String} : db.exec (.rename table name) = .ok next ↔
    ∃ moved, db.tables table = some moved ∧ db.taken name = false ∧ next = { db with
      tables := fun other => if other = name then some (moved.renamed table name)
        else if other = table then none else (db.tables other).map (Table.retarget table name)
      indexes := db.indexes.map fun index =>
        if index.table = table then { index with table := name } else index } := by
  rw [Database.exec, bind_eq_ok]
  refine exists_congr fun moved => ?_
  rw [okOr_eq_ok, bind_eq_ok]
  refine and_congr_right fun _ => ⟨?_, ?_⟩
  · rintro ⟨_, hFree, hNext⟩
    rw [reject_eq_ok, Bool.not_eq_true] at hFree
    exact ⟨hFree, (pure_eq_ok.mp hNext).symm⟩
  · rintro ⟨hFree, rfl⟩
    exact ⟨(), reject_eq_ok.mpr (by rw [hFree]; exact Bool.false_ne_true), rfl⟩

theorem exec_create_eq_ok {schema : Schema} : db.exec (.create schema) = .ok next ↔
    db.taken schema.name = false ∧ next = db.put schema.name (some ⟨schema, []⟩) := by
  rw [Database.exec, bind_eq_ok]
  constructor
  · rintro ⟨_, hFree, hNext⟩
    rw [reject_eq_ok, Bool.not_eq_true] at hFree
    exact ⟨hFree, (pure_eq_ok.mp hNext).symm⟩
  · rintro ⟨hFree, rfl⟩
    exact ⟨(), reject_eq_ok.mpr (by rw [hFree]; exact Bool.false_ne_true), rfl⟩

theorem exec_drop_eq_ok {table : String} : db.exec (.drop table) = .ok next ↔
    (db.tables table).isSome = true ∧ db.enforced = false ∧ next = { db.put table none with
      indexes := db.indexes.filter fun index => decide (index.table ≠ table) } := by
  rw [Database.exec, bind_eq_ok, Option.isSome_iff_exists]
  constructor
  · rintro ⟨dropped, hFound, hRest⟩
    obtain ⟨_, hOff, hNext⟩ := bind_eq_ok.mp hRest
    rw [reject_eq_ok, Bool.not_eq_true] at hOff
    exact ⟨⟨dropped, okOr_eq_ok.mp hFound⟩, hOff, (pure_eq_ok.mp hNext).symm⟩
  · rintro ⟨⟨dropped, hFound⟩, hOff, rfl⟩
    exact ⟨dropped, okOr_eq_ok.mpr hFound, bind_eq_ok.mpr
      ⟨(), reject_eq_ok.mpr (by rw [hOff]; exact Bool.false_ne_true), rfl⟩⟩

/-- Rows that a table admits and that share no key are inserted in their order. -/
theorem insert_all {name : String} {table : Table} {rows : List Row} (hTable : db.tables name = some table)
    (hOff : db.enforced = false) (hAdmits : ∀ row ∈ rows, table.schema.admits row = true)
    (hUnique : ∀ key ∈ db.uniques table.schema,
      (table.rows ++ rows).Pairwise fun a b => table.schema.clash key b a = false) :
    rows.foldlM (Database.insert name) db =
      .ok (db.put name (some { table with rows := table.rows ++ rows })) := by
  induction rows generalizing db table with
  | nil =>
      rw [List.foldlM_nil, List.append_nil, Database.put, ← hTable, Function.update_eq_self]
      rfl
  | cons row rows ih =>
      have hInsert : db.insert name row =
          .ok (db.put name (some { table with rows := table.rows ++ [row] })) := by
        refine bind_eq_ok.mpr ⟨table, okOr_eq_ok.mpr hTable, ?_⟩
        refine bind_eq_ok.mpr ⟨(), reject_eq_ok.mpr ?_, bind_eq_ok.mpr ⟨(), reject_eq_ok.mpr ?_,
          bind_eq_ok.mpr ⟨(), reject_eq_ok.mpr ?_, rfl⟩⟩⟩
        · rw [hAdmits row List.mem_cons_self]
          exact Bool.true_eq_false.mp
        · rw [List.any_eq_true]
          rintro ⟨key, hKey, hClash⟩
          obtain ⟨other, hOther, hSame⟩ := List.any_eq_true.mp hClash
          have hApart := (List.pairwise_append.mp (hUnique key hKey)).2.2 other hOther row
            List.mem_cons_self
          rw [hApart] at hSame
          exact Bool.false_ne_true hSame
        · rw [hOff]
          exact fun h => Bool.false_ne_true h.1
      have hRest := @ih (db.put name (some { table with rows := table.rows ++ [row] }))
        { table with rows := table.rows ++ [row] } (put_self ..) hOff
        (fun other hOther => hAdmits other (List.mem_cons_of_mem _ hOther)) fun key hKey => by
          rw [List.append_assoc]
          exact hUnique key hKey
      rw [List.foldlM_cons, hInsert, ok_bind, hRest, List.append_assoc, Database.put, Database.put,
        Function.update_idem]
      rfl

end

/-- The same table with column checks that pass at least as much. -/
structure Schema.Relaxes (old new : Schema) : Prop where
  columns : List.Forall₂ (fun a b => a.name = b.name ∧ a.type = b.type ∧ a.notNull = b.notNull ∧
    ∀ value, a.check value = true → b.check value = true) old.columns new.columns
  checks : old.checks = new.checks
  keys : old.keys = new.keys
  foreignKeys : old.foreignKeys = new.foreignKeys

namespace Schema.Relaxes

variable {old new : Schema}

theorem names (h : old.Relaxes new) : old.columns.map (·.name) = new.columns.map (·.name) := by
  have hColumns := h.columns
  generalize old.columns = before at hColumns ⊢
  generalize new.columns = after at hColumns ⊢
  induction hColumns with
  | nil => rfl
  | cons hFirst _ ih => rw [List.map_cons, List.map_cons, hFirst.1, ih]

theorem field (h : old.Relaxes new) (row : Row) : old.field row = new.field row := by
  funext name
  rw [Schema.field, Schema.field, h.names]

theorem project (h : old.Relaxes new) (key : List String) (row : Row) :
    old.project key row = new.project key row := by
  rw [Schema.project, Schema.project, h.field]

theorem clash (h : old.Relaxes new) (key : List String) (a b : Row) :
    old.clash key a b = new.clash key a b := by
  rw [Schema.clash, Schema.clash, h.project, h.project]

/-- Rows that the old definition admits are admitted by the new one. -/
theorem admits (h : old.Relaxes new) {row : Row} (hRow : old.admits row = true) :
    new.admits row = true := by
  rw [Schema.admits, Bool.and_eq_true, Bool.and_eq_true, decide_eq_true_iff] at hRow ⊢
  obtain ⟨⟨hWidth, hColumns⟩, hChecks⟩ := hRow
  refine ⟨⟨hWidth.trans h.columns.length_eq, ?_⟩, by rwa [← h.checks, ← h.field]⟩
  have hRelaxed := h.columns
  generalize old.columns = before at hColumns hRelaxed
  generalize new.columns = after at hRelaxed ⊢
  clear hWidth hChecks
  induction hRelaxed generalizing row with
  | nil => rfl
  | @cons a b _ _ hFirst _ ih =>
      cases row with
      | nil => rfl
      | cons value row =>
          rw [List.zip_cons_cons, List.all_cons, Bool.and_eq_true] at hColumns ⊢
          refine ⟨?_, ih hColumns.2⟩
          obtain ⟨-, hType, hNull, hCheck⟩ := hFirst
          have hValue := hColumns.1
          rw [Column.admits, Bool.and_eq_true] at hValue ⊢
          rw [← hType, ← hNull]
          refine ⟨hValue.1, ?_⟩
          split
          · rename_i hNullValue
            exact (if_pos hNullValue).symm.trans hValue.2
          · rename_i hNonNull
            exact hCheck value ((if_neg hNonNull).symm.trans hValue.2)

end Schema.Relaxes

/-- A foreign key looks at its parent's rows and column names. -/
theorem ForeignKey.satisfied_congr {key : ForeignKey} {a b : Database} {old new : Schema}
    (h : old.Relaxes new) (hParent : a.tables key.parent = b.tables key.parent ∨
      ∃ before after rows, Schema.Relaxes before after ∧ a.tables key.parent = some ⟨before, rows⟩ ∧
        b.tables key.parent = some ⟨after, rows⟩) (row : Row) :
    key.satisfied a old row = key.satisfied b new row := by
  rw [ForeignKey.satisfied, ForeignKey.satisfied, h.project]
  rcases hParent with hSame | ⟨before, after, rows, hRelaxed, ha, hb⟩
  · rw [hSame]
  · rw [ha, hb]
    simp only [hRelaxed.project]

end Sql
