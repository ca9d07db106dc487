import WordArena.Library.Sql
import Mathlib.Data.List.Nodup
import Mathlib.Data.List.Perm.Basic

/-! Rebuilding tables under new definitions: every table is moved aside, created
anew, filled from the old one, and the old one is dropped. Such a script runs
outside a transaction, may be cut off after any statement, and is then run again
from its start. -/
namespace Sql

open Fallible

structure Rebuild where
  renamed : List String
  old : String → String
  created : List Schema
  indexes : List Index
  version : String

namespace Rebuild

def moves (r : Rebuild) : List Statement := r.renamed.map fun table => .rename table (r.old table)

def creations (r : Rebuild) : List Statement := r.created.map .create

def copies (r : Rebuild) : List Statement :=
  r.created.map fun schema => .copy schema.name (r.old schema.name)

def drops (r : Rebuild) : List Statement := r.renamed.map fun table => .drop (r.old table)

def finish (r : Rebuild) : List Statement :=
  r.indexes.map .createIndex ++ [.setVersion r.version, .foreignKeys true]

def script (r : Rebuild) : List Statement :=
  .foreignKeys false :: (r.moves ++ (r.creations ++ (r.copies ++ (r.drops ++ r.finish))))

def olds (r : Rebuild) : List String := r.renamed.map r.old

def indexNames (r : Rebuild) : List String := r.indexes.map (·.name)

/-- What a rebuild may ask of its own names. -/
structure Proper (r : Rebuild) : Prop where
  nodup : r.renamed.Nodup
  perm : (r.created.map (·.name)).Perm r.renamed
  injective : ∀ a ∈ r.renamed, ∀ b ∈ r.renamed, r.old a = r.old b → a = b
  apart : ∀ a ∈ r.renamed, r.old a ∉ r.renamed
  indexNodup : r.indexNames.Nodup
  indexTables : ∀ index ∈ r.indexes, index.table ∈ r.renamed
  indexApart : ∀ index ∈ r.indexes, index.name ∉ r.renamed ∧ index.name ∉ r.olds

/-- Rows that satisfy the new definitions and their unique indexes. -/
structure Fits (r : Rebuild) (rows : String → List Row) : Prop where
  admitted : ∀ schema ∈ r.created, ∀ row ∈ rows schema.name, schema.admits row = true
  keyed : ∀ schema ∈ r.created, ∀ key ∈ schema.keys,
    (rows schema.name).Pairwise fun a b => schema.clash key b a = false
  indexed : ∀ index ∈ r.indexes, index.unique = true → ∀ schema ∈ r.created,
    schema.name = index.table → (rows schema.name).Pairwise fun a b =>
      schema.clash index.columns b a = false

/-- Tables that are not rebuilt refer to none that is, and take no name of the script. -/
structure Apart (r : Rebuild) (base : Database) : Prop where
  foreign : ∀ name table, name ∉ r.renamed → base.tables name = some table →
    ∀ key ∈ table.schema.foreignKeys, key.parent ∉ r.renamed
  indexNames : ∀ name ∈ r.indexNames, base.tables name = none

/-- A table with the rows to keep and as many columns as its new definition. -/
def Carries (r : Rebuild) (rows : String → List Row) (name : String) (found : Option Table) : Prop :=
  ∃ table, found = some table ∧ table.rows = rows name ∧
    ∀ schema ∈ r.created, schema.name = name → table.schema.columns.length = schema.columns.length

/-- A database the script can be run on from its start. -/
structure Ready (r : Rebuild) (rows : String → List Row) (base db : Database) : Prop where
  live : ∀ table ∈ r.renamed, r.Carries rows table (db.tables table)
  old : ∀ table ∈ r.renamed, db.tables (r.old table) = none
  others : ∀ name, name ∉ r.renamed → name ∉ r.olds → db.tables name = base.tables name
  named : ∀ index ∈ db.indexes, index.name ∉ r.renamed ∧ index.name ∉ r.olds
  freed : ∀ index ∈ db.indexes, index.name ∈ r.indexNames → index.table ∈ r.renamed

/-- A database whose tables are rebuilt. -/
structure Rebuilt (r : Rebuild) (rows : String → List Row) (base db : Database) : Prop where
  live : ∀ schema ∈ r.created, db.tables schema.name = some ⟨schema, rows schema.name⟩
  old : ∀ table ∈ r.renamed, db.tables (r.old table) = none
  others : ∀ name, name ∉ r.renamed → name ∉ r.olds → db.tables name = base.tables name
  named : ∀ index ∈ db.indexes, index.name ∉ r.renamed ∧ index.name ∉ r.olds
  freed : ∀ index ∈ db.indexes, index.name ∈ r.indexNames → index.table ∈ r.renamed

/-- How far the script is: what the tables and their old namesakes hold, and where the
indexes are. -/
structure Stage (r : Rebuild) (base : Database) (live kept : String → Option Table → Prop)
    (site : Index → Prop) (db : Database) : Prop where
  off : db.enforced = false
  live : ∀ table ∈ r.renamed, live table (db.tables table)
  kept : ∀ table ∈ r.renamed, kept table (db.tables (r.old table))
  others : ∀ name, name ∉ r.renamed → name ∉ r.olds → db.tables name = base.tables name
  named : ∀ index ∈ db.indexes, index.name ∉ r.renamed ∧ index.name ∉ r.olds
  sites : ∀ index ∈ db.indexes, site index

section

variable {r : Rebuild} {rows : String → List Row} {base db next : Database}

theorem mem_olds {name : String} : name ∈ r.olds ↔ ∃ table ∈ r.renamed, r.old table = name :=
  List.mem_map

theorem Proper.mem_renamed (h : r.Proper) {schema : Schema} (hSchema : schema ∈ r.created) :
    schema.name ∈ r.renamed :=
  h.perm.mem_iff.mp (List.mem_map_of_mem hSchema)

theorem Proper.exists_schema (h : r.Proper) {table : String} (hTable : table ∈ r.renamed) :
    ∃ schema ∈ r.created, schema.name = table :=
  List.mem_map.mp (h.perm.mem_iff.mpr hTable)

theorem Proper.unique (h : r.Proper) {a b : Schema} (ha : a ∈ r.created) (hb : b ∈ r.created)
    (hName : a.name = b.name) : a = b :=
  List.inj_on_of_nodup_map (h.perm.nodup_iff.mpr h.nodup) ha hb hName

theorem Rebuilt.ready (h : r.Rebuilt rows base db) (hProper : r.Proper) : r.Ready rows base db where
  live table hTable := by
    obtain ⟨schema, hSchema, rfl⟩ := hProper.exists_schema hTable
    refine ⟨_, h.live schema hSchema, rfl, fun other hOther hName => ?_⟩
    rw [hProper.unique hOther hSchema hName]
  old := h.old
  others := h.others
  named := h.named
  freed := h.freed

theorem Carries.retarget {name a b : String} {found : Option Table} (h : r.Carries rows name found) :
    r.Carries rows name (found.map (Table.retarget a b)) := by
  obtain ⟨table, rfl, hRows⟩ := h
  exact ⟨_, rfl, hRows⟩

/-- References to other tables stay. -/
theorem retarget_eq_self {a b : String} {table : Table}
    (h : ∀ key ∈ table.schema.foreignKeys, key.parent ≠ a) : table.retarget a b = table := by
  have hKeys : (table.schema.foreignKeys.map fun key =>
      if key.parent = a then { key with parent := b } else key) = table.schema.foreignKeys := by
    refine (List.map_congr_left fun key hKey => ?_).trans (List.map_id _)
    rw [if_neg (h key hKey)]
    rfl
  rw [Table.retarget, hKeys]

/-- A name is free when neither a table nor an index has it. -/
theorem taken_eq_false {name : String} : db.taken name = false ↔
    db.tables name = none ∧ ∀ index ∈ db.indexes, index.name ≠ name := by
  rw [Database.taken, Bool.or_eq_false_iff, Option.isSome_eq_false_iff, Option.isNone_iff_eq_none,
    List.any_eq_false]
  simp only [decide_eq_true_eq]

theorem not_mem_of_split {α : Type} {entries done todo : List α} {a : α} (hNodup : entries.Nodup)
    (h : entries = done ++ a :: todo) : a ∉ done := by
  rw [h] at hNodup
  exact fun hOld => (List.nodup_append.mp hNodup).2.2 a hOld a List.mem_cons_self rfl

/-! The five parts of the script. -/

/-- Where an index is while the tables are moved aside. -/
def movedSite (r : Rebuild) (done : List String) (index : Index) : Prop :=
  index.table ∉ done ∧ (index.name ∈ r.indexNames → index.table ∈ r.renamed ∨ index.table ∈ r.olds)

/-- Where an index is once the tables are moved, as far as the old ones are dropped. -/
def asideSite (r : Rebuild) (dropped : List String) (index : Index) : Prop :=
  index.table ∉ r.renamed ∧ (index.name ∈ r.indexNames →
    index.table ∈ r.olds ∧ ∀ table ∈ dropped, index.table ≠ r.old table)

/-- The tables of the first list have been moved aside. -/
def Moved (r : Rebuild) (rows : String → List Row) (base : Database) (done : List String) :
    Database → Prop :=
  r.Stage base (fun table found => if table ∈ done then found = none else r.Carries rows table found)
    (fun table found => if table ∈ done then r.Carries rows table found else found = none)
    (r.movedSite done)

theorem run_moves (hProper : r.Proper) (hApart : r.Apart base)
    (h : r.Ready rows base db) (hOff : db.enforced = false) :
    ∃ next, db.run r.moves = .ok next ∧ r.Moved rows base r.renamed next := by
  refine run_map (P := r.Moved rows base) (fun done table todo db hSplit hDone => ?_) ?_
  · have hTable : table ∈ r.renamed := hSplit ▸ List.mem_append_right _ List.mem_cons_self
    have hNew : table ∉ done := not_mem_of_split hProper.nodup hSplit
    have hOldName : r.old table ∈ r.olds := List.mem_map_of_mem hTable
    have hLive := hDone.live table hTable
    have hKept := hDone.kept table hTable
    rw [if_neg hNew] at hLive hKept
    obtain ⟨moved, hMoved, hRows⟩ := hLive
    have hFree : db.taken (r.old table) = false := taken_eq_false.mpr ⟨hKept, fun index hIndex hName =>
      (hDone.named index hIndex).2 (hName ▸ hOldName)⟩
    refine ⟨_, exec_rename_eq_ok.mpr ⟨moved, hMoved, hFree, rfl⟩, ?_⟩
    refine ⟨hDone.off, fun other hOther => ?_, fun other hOther => ?_, fun name hLiveName hOldNames => ?_,
      fun index hIndex => ?_, fun index hIndex => ?_⟩
    · have hApartName : other ≠ r.old table := fun hSame => hProper.apart table hTable (hSame ▸ hOther)
      simp only [if_neg hApartName]
      by_cases hSame : other = table
      · rw [if_pos hSame, if_pos (hSame ▸ List.mem_append_right _ (List.mem_singleton_self _))]
      · rw [if_neg hSame]
        have hOld := hDone.live other hOther
        by_cases hIn : other ∈ done
        · rw [if_pos hIn] at hOld
          rw [if_pos (List.mem_append_left _ hIn), hOld]
          rfl
        · rw [if_neg hIn] at hOld
          rw [if_neg (by simp [hIn, hSame])]
          exact hOld.retarget
    · by_cases hSame : other = table
      · subst hSame
        simp only [if_true]
        rw [if_pos (List.mem_append_right _ (List.mem_singleton_self _))]
        exact ⟨_, rfl, hRows⟩
      · have hNames : r.old other ≠ r.old table := fun hEq =>
          hSame (hProper.injective other hOther table hTable hEq)
        have hApartName : r.old other ≠ table := fun hEq =>
          hProper.apart other hOther (hEq ▸ hTable)
        simp only [if_neg hNames, if_neg hApartName]
        have hOld := hDone.kept other hOther
        by_cases hIn : other ∈ done
        · rw [if_pos hIn] at hOld
          rw [if_pos (List.mem_append_left _ hIn)]
          exact hOld.retarget
        · rw [if_neg hIn] at hOld
          rw [if_neg (by simp [hIn, hSame]), hOld]
          rfl
    · have hFirst : name ≠ r.old table := fun hEq => hOldNames (hEq ▸ hOldName)
      have hSecond : name ≠ table := fun hEq => hLiveName (hEq ▸ hTable)
      simp only [if_neg hFirst, if_neg hSecond]
      rw [hDone.others name hLiveName hOldNames]
      cases hFound : base.tables name with
      | none => rfl
      | some found =>
          rw [Option.map_some, retarget_eq_self fun key hKey hParent =>
            hApart.foreign name found hLiveName hFound key hKey (hParent ▸ hTable)]
    · obtain ⟨before, hBefore, rfl⟩ := List.mem_map.mp hIndex
      split <;> exact hDone.named before hBefore
    · obtain ⟨before, hBefore, rfl⟩ := List.mem_map.mp hIndex
      obtain ⟨hSite, hNewName⟩ := hDone.sites before hBefore
      split
      · refine ⟨fun hIn => hProper.apart table hTable ?_, fun _ => .inr hOldName⟩
        rcases List.mem_append.mp hIn with hOld | hLast
        · rw [hSplit]
          exact List.mem_append_left _ hOld
        · have hSelf : r.old table = table := List.mem_singleton.mp hLast
          rw [hSelf]
          exact hTable
      · rename_i hOther
        refine ⟨fun hIn => ?_, hNewName⟩
        rcases List.mem_append.mp hIn with hOld | hLast
        · exact hSite hOld
        · exact hOther (List.mem_singleton.mp hLast)
  · refine ⟨hOff, fun table hTable => ?_, fun table hTable => ?_, h.others, h.named,
      fun index hIndex => ⟨List.not_mem_nil, fun hName => .inl (h.freed index hIndex hName)⟩⟩
    · rw [if_neg List.not_mem_nil]
      exact h.live table hTable
    · rw [if_neg List.not_mem_nil]
      exact h.old table hTable

/-- The definitions of the first list have been created. -/
def Created (r : Rebuild) (rows : String → List Row) (base : Database) (done : List Schema) :
    Database → Prop :=
  r.Stage base (fun table found => (∀ schema ∈ done, schema.name = table → found = some ⟨schema, []⟩) ∧
      (table ∉ done.map (·.name) → found = none))
    (r.Carries rows) (r.asideSite [])

theorem run_creations (hProper : r.Proper) (h : r.Moved rows base r.renamed db) :
    ∃ next, db.run r.creations = .ok next ∧ r.Created rows base r.created next := by
  refine run_map (P := r.Created rows base) (fun done schema todo db hSplit hDone => ?_) ?_
  · have hSchema : schema ∈ r.created := hSplit ▸ List.mem_append_right _ List.mem_cons_self
    have hName := hProper.mem_renamed hSchema
    have hNew : schema.name ∉ done.map (·.name) :=
      not_mem_of_split (hProper.perm.nodup_iff.mpr hProper.nodup) (by rw [hSplit, List.map_append]; rfl)
    have hFree : db.taken schema.name = false :=
      taken_eq_false.mpr ⟨(hDone.live _ hName).2 hNew, fun index hIndex hSame =>
        (hDone.named index hIndex).1 (hSame ▸ hName)⟩
    refine ⟨_, exec_create_eq_ok.mpr ⟨hFree, rfl⟩, hDone.off, fun table hTable => ?_,
      fun table hTable => ?_, fun name hLiveName hOldName => ?_, hDone.named, hDone.sites⟩
    · by_cases hSame : table = schema.name
      · subst hSame
        rw [put_self]
        refine ⟨fun other hOther hEq => ?_, fun hMissing => absurd (by simp) hMissing⟩
        rcases List.mem_append.mp hOther with hOld | hLast
        · exact absurd (List.mem_map.mpr ⟨other, hOld, hEq⟩) hNew
        · rw [List.mem_singleton.mp hLast]
      · rw [put_of_ne _ _ hSame]
        obtain ⟨hCreated, hMissing⟩ := hDone.live table hTable
        refine ⟨fun other hOther hEq => ?_, fun hOut => hMissing fun hIn => hOut ?_⟩
        · rcases List.mem_append.mp hOther with hOld | hLast
          · exact hCreated other hOld hEq
          · rw [List.mem_singleton.mp hLast] at hEq
            exact absurd hEq.symm hSame
        · rw [List.map_append]
          exact List.mem_append_left _ hIn
    · have hOther : r.old table ≠ schema.name := fun hEq => hProper.apart table hTable (hEq ▸ hName)
      rw [put_of_ne _ _ hOther]
      exact hDone.kept table hTable
    · have hOther : name ≠ schema.name := fun hEq => hLiveName (hEq ▸ hName)
      rw [put_of_ne _ _ hOther]
      exact hDone.others name hLiveName hOldName
  · refine ⟨h.off, fun table hTable => ?_, fun table hTable => ?_, h.others, h.named,
      fun index hIndex => ?_⟩
    · have hNone := h.live table hTable
      rw [if_pos hTable] at hNone
      exact ⟨fun _ hSchema => absurd hSchema List.not_mem_nil, fun _ => hNone⟩
    · have hKept := h.kept table hTable
      rwa [if_pos hTable] at hKept
    · obtain ⟨hOut, hNewName⟩ := h.sites index hIndex
      refine ⟨hOut, fun hIn => ⟨(hNewName hIn).resolve_left hOut, fun _ hTable => ?_⟩⟩
      exact absurd hTable List.not_mem_nil

/-- The definitions of the first list have been filled. -/
def Filled (r : Rebuild) (rows : String → List Row) (base : Database) (done : List Schema) :
    Database → Prop :=
  r.Stage base (fun table found => ∀ schema ∈ r.created, schema.name = table → found =
      some ⟨schema, if table ∈ done.map (·.name) then rows table else []⟩)
    (r.Carries rows) (r.asideSite [])

theorem run_copies (hProper : r.Proper) (hFits : r.Fits rows) (h : r.Created rows base r.created db) :
    ∃ next, db.run r.copies = .ok next ∧ r.Filled rows base r.created next := by
  refine run_map (P := r.Filled rows base) (fun done schema todo db hSplit hDone => ?_) ?_
  · have hSchema : schema ∈ r.created := hSplit ▸ List.mem_append_right _ List.mem_cons_self
    have hName := hProper.mem_renamed hSchema
    have hNew : schema.name ∉ done.map (·.name) :=
      not_mem_of_split (hProper.perm.nodup_iff.mpr hProper.nodup) (by rw [hSplit, List.map_append]; rfl)
    obtain ⟨donor, hDonor, hRows, hWidth⟩ := hDone.kept schema.name hName
    have hHeir := hDone.live schema.name hName schema hSchema rfl
    rw [if_neg hNew] at hHeir
    have hUniques : db.uniques schema = schema.keys := by
      have hNone : (db.indexes.filter fun index => index.unique && index.table = schema.name) = [] := by
        refine List.filter_eq_nil_iff.mpr fun index hIndex hHit => ?_
        rw [Bool.and_eq_true, decide_eq_true_eq] at hHit
        exact (hDone.sites index hIndex).1 (hHit.2 ▸ hName)
      rw [Database.uniques, hNone, List.map_nil, List.append_nil]
    have hInserted := insert_all hHeir hDone.off (hFits.admitted schema hSchema) fun key hKey => by
      rw [List.nil_append]
      exact hFits.keyed schema hSchema key (hUniques ▸ hKey)
    refine ⟨db.put schema.name (some ⟨schema, [] ++ rows schema.name⟩), bind_eq_ok.mpr ⟨donor,
      okOr_eq_ok.mpr hDonor, bind_eq_ok.mpr ⟨_, okOr_eq_ok.mpr hHeir, bind_eq_ok.mpr ⟨(),
        reject_eq_ok.mpr (not_not.mpr (hWidth schema hSchema rfl)), by rw [hRows]; exact hInserted⟩⟩⟩,
      hDone.off, fun table hTable other hOther hSame => ?_, fun table hTable => ?_,
      fun name hLiveName hOldName => ?_, hDone.named, hDone.sites⟩
    · by_cases hEq : table = schema.name
      · subst hEq
        obtain rfl := hProper.unique hOther hSchema hSame
        rw [put_self, if_pos (by simp)]
        rfl
      · rw [put_of_ne _ _ hEq, hDone.live table hTable other hOther hSame]
        have hIff : table ∈ done.map (·.name) ↔ table ∈ (done ++ [schema]).map (·.name) := by
          simp [hEq]
        simp only [hIff]
    · have hOther : r.old table ≠ schema.name := fun hEq => hProper.apart table hTable (hEq ▸ hName)
      rw [put_of_ne _ _ hOther]
      exact hDone.kept table hTable
    · have hOther : name ≠ schema.name := fun hEq => hLiveName (hEq ▸ hName)
      rw [put_of_ne _ _ hOther]
      exact hDone.others name hLiveName hOldName
  · refine ⟨h.off, fun table hTable schema hSchema hSame => ?_, h.kept, h.others, h.named, h.sites⟩
    rw [(h.live table hTable).1 schema hSchema hSame]
    rfl

/-- The old tables of the first list have been dropped. -/
def Dropped (r : Rebuild) (rows : String → List Row) (base : Database) (done : List String) :
    Database → Prop :=
  r.Stage base
    (fun table found => ∀ schema ∈ r.created, schema.name = table → found = some ⟨schema, rows table⟩)
    (fun table found => if table ∈ done then found = none else r.Carries rows table found)
    (r.asideSite done)

theorem run_drops (hProper : r.Proper) (h : r.Filled rows base r.created db) :
    ∃ next, db.run r.drops = .ok next ∧ r.Dropped rows base r.renamed next := by
  refine run_map (P := r.Dropped rows base) (fun done table todo db hSplit hDone => ?_) ?_
  · have hTable : table ∈ r.renamed := hSplit ▸ List.mem_append_right _ List.mem_cons_self
    have hNew : table ∉ done := not_mem_of_split hProper.nodup hSplit
    have hKept := hDone.kept table hTable
    rw [if_neg hNew] at hKept
    obtain ⟨old, hOld, -⟩ := hKept
    refine ⟨_, exec_drop_eq_ok.mpr ⟨by rw [hOld]; rfl, hDone.off, rfl⟩, hDone.off,
      fun other hOther schema hSchema hSame => ?_, fun other hOther => ?_,
      fun name hLiveName hOldName => ?_, fun index hIndex => ?_, fun index hIndex => ?_⟩
    · simp only [Database.put]
      have hApartName : other ≠ r.old table := fun hEq => hProper.apart table hTable (hEq ▸ hOther)
      rw [Function.update_of_ne hApartName]
      exact hDone.live other hOther schema hSchema hSame
    · simp only [Database.put]
      by_cases hSame : other = table
      · rw [hSame, Function.update_self, if_pos (by simp)]
      · have hNames : r.old other ≠ r.old table := fun hEq =>
          hSame (hProper.injective other hOther table hTable hEq)
        rw [Function.update_of_ne hNames]
        have hBefore := hDone.kept other hOther
        by_cases hIn : other ∈ done
        · rw [if_pos hIn] at hBefore
          rwa [if_pos (List.mem_append_left _ hIn)]
        · rw [if_neg hIn] at hBefore
          rwa [if_neg (by simp [hIn, hSame])]
    · simp only [Database.put]
      have hOther : name ≠ r.old table := fun hEq => hOldName (hEq ▸ List.mem_map_of_mem hTable)
      rw [Function.update_of_ne hOther]
      exact hDone.others name hLiveName hOldName
    · exact hDone.named index (List.mem_filter.mp hIndex).1
    · obtain ⟨hBefore, hLeft⟩ := List.mem_filter.mp hIndex
      obtain ⟨hOut, hNewName⟩ := hDone.sites index hBefore
      refine ⟨hOut, fun hIn => ⟨(hNewName hIn).1, fun other hOther => ?_⟩⟩
      rcases List.mem_append.mp hOther with hEarlier | hLast
      · exact (hNewName hIn).2 other hEarlier
      · rw [List.mem_singleton.mp hLast]
        exact of_decide_eq_true hLeft
  · refine ⟨h.off, fun table hTable schema hSchema hSame => ?_, fun table hTable => ?_, h.others,
      h.named, h.sites⟩
    · rw [h.live table hTable schema hSchema hSame, if_pos (hSame ▸ List.mem_map_of_mem hSchema)]
    · rw [if_neg List.not_mem_nil]
      exact h.kept table hTable

theorem Dropped.rebuilt (hProper : r.Proper) (h : r.Dropped rows base r.renamed db) :
    r.Rebuilt rows base db ∧ ∀ index ∈ db.indexes, index.name ∉ r.indexNames := by
  have hFreed : ∀ index ∈ db.indexes, index.name ∉ r.indexNames := by
    intro index hIndex hIn
    obtain ⟨hOld, hNone⟩ := (h.sites index hIndex).2 hIn
    obtain ⟨table, hTable, hSame⟩ := mem_olds.mp hOld
    exact hNone table hTable hSame.symm
  refine ⟨⟨fun schema hSchema => h.live _ (hProper.mem_renamed hSchema) schema hSchema rfl,
    fun table hTable => ?_, h.others, h.named, fun index hIndex hIn => absurd hIn (hFreed index hIndex)⟩,
    hFreed⟩
  have hKept := h.kept table hTable
  rwa [if_pos hTable] at hKept

/-- The indexes of the first list have been created. -/
structure Indexed (r : Rebuild) (rows : String → List Row) (base : Database) (done : List Index)
    (db : Database) : Prop where
  rebuilt : r.Rebuilt rows base db
  made : ∀ index ∈ done, index ∈ db.indexes
  names : ∀ index ∈ db.indexes, index.name ∈ r.indexNames → index ∈ done

theorem run_indexes (hProper : r.Proper) (hApart : r.Apart base) (hFits : r.Fits rows)
    (h : r.Rebuilt rows base db) (hFreed : ∀ index ∈ db.indexes, index.name ∉ r.indexNames) :
    ∃ next, db.run (r.indexes.map .createIndex) = .ok next ∧ r.Indexed rows base r.indexes next := by
  refine run_map (P := r.Indexed rows base) (fun done index todo db hSplit hDone => ?_)
    ⟨h, fun _ hIndex => absurd hIndex List.not_mem_nil, fun index hIndex hIn =>
      absurd hIn (hFreed index hIndex)⟩
  have hIndex : index ∈ r.indexes := hSplit ▸ List.mem_append_right _ List.mem_cons_self
  have hNames : index.name ∈ r.indexNames := List.mem_map_of_mem hIndex
  obtain ⟨schema, hSchema, hName⟩ := hProper.exists_schema (hProper.indexTables index hIndex)
  have hTable := hDone.rebuilt.live schema hSchema
  have hNew : index.name ∉ done.map (·.name) :=
    not_mem_of_split hProper.indexNodup (by rw [indexNames, hSplit, List.map_append]; rfl)
  have hFree : db.taken index.name = false := by
    refine taken_eq_false.mpr ⟨?_, fun other hOther hSame => hNew ?_⟩
    · obtain ⟨hLive, hOld⟩ := hProper.indexApart index hIndex
      rw [hDone.rebuilt.others _ hLive hOld]
      exact hApart.indexNames _ hNames
    · exact hSame ▸ List.mem_map_of_mem (hDone.names other hOther (hSame ▸ hNames))
  refine ⟨{ db with indexes := db.indexes ++ [index] }, ?_, ?_⟩
  · refine bind_eq_ok.mpr ⟨_, okOr_eq_ok.mpr (by rw [← hName]; exact hTable), bind_eq_ok.mpr ⟨(),
      reject_eq_ok.mpr (by rw [hFree]; exact Bool.false_ne_true), bind_eq_ok.mpr ⟨(), reject_eq_ok.mpr ?_, rfl⟩⟩⟩
    rintro ⟨hUnique, hClash⟩
    exact hClash (hFits.indexed index hIndex hUnique schema hSchema hName)
  · refine ⟨⟨hDone.rebuilt.live, hDone.rebuilt.old, hDone.rebuilt.others, fun other hOther => ?_,
      fun other hOther hIn => ?_⟩, fun other hOther => ?_, fun other hOther hIn => ?_⟩
    · rcases List.mem_append.mp hOther with hOld | hLast
      · exact hDone.rebuilt.named other hOld
      · rw [List.mem_singleton.mp hLast]
        exact hProper.indexApart index hIndex
    · rcases List.mem_append.mp hOther with hOld | hLast
      · exact hDone.rebuilt.freed other hOld hIn
      · rw [List.mem_singleton.mp hLast]
        exact hProper.indexTables index hIndex
    · rcases List.mem_append.mp hOther with hOld | hLast
      · exact List.mem_append_left _ (hDone.made other hOld)
      · exact List.mem_append_right _ hLast
    · rcases List.mem_append.mp hOther with hOld | hLast
      · exact List.mem_append_left _ (hDone.names other hOld hIn)
      · exact List.mem_append_right _ hLast

/-! Attempts. -/

theorem Ready.enforce (h : r.Ready rows base db) (enforced : Bool) :
    r.Ready rows base { db with enforced := enforced } :=
  ⟨h.live, h.old, h.others, h.named, h.freed⟩

/-- The tables are filled under their new definitions. -/
theorem Ready.exists_filled (h : r.Ready rows base db) (hProper : r.Proper) (hApart : r.Apart base)
    (hFits : r.Fits rows) : ∃ next, db.connect.run
      (.foreignKeys false :: (r.moves ++ (r.creations ++ r.copies))) = .ok next ∧
        r.Filled rows base r.created next := by
  obtain ⟨first, hMoves, hMoved⟩ := run_moves hProper hApart (h.enforce false) rfl
  obtain ⟨second, hCreations, hCreated⟩ := run_creations hProper hMoved
  obtain ⟨third, hCopies, hFilled⟩ := run_copies hProper hFits hCreated
  refine ⟨third, ?_, hFilled⟩
  change Database.run { db with enforced := false } _ = _
  rw [run_append, hMoves, ok_bind, run_append, hCreations]
  exact hCopies

theorem Ready.exists_dropped (h : r.Ready rows base db) (hProper : r.Proper) (hApart : r.Apart base)
    (hFits : r.Fits rows) : ∃ next, db.connect.run
      ((.foreignKeys false :: (r.moves ++ (r.creations ++ r.copies))) ++ r.drops) = .ok next ∧
        r.Rebuilt rows base next ∧ ∀ index ∈ next.indexes, index.name ∉ r.indexNames := by
  obtain ⟨filled, hRun, hFilled⟩ := h.exists_filled hProper hApart hFits
  obtain ⟨next, hDrops, hDropped⟩ := run_drops hProper hFilled
  exact ⟨next, by rw [run_append, hRun]; exact hDrops, hDropped.rebuilt hProper⟩

theorem script_eq (r : Rebuild) : r.script =
    ((.foreignKeys false :: (r.moves ++ (r.creations ++ r.copies))) ++ r.drops) ++ r.finish := by
  simp [script]

/-- The script goes through from its start. -/
theorem Ready.completes (h : r.Ready rows base db) (hProper : r.Proper) (hApart : r.Apart base)
    (hFits : r.Fits rows) : ∃ out, db.connect.run r.script = .ok out ∧ r.Rebuilt rows base out ∧
      (∀ index ∈ r.indexes, index ∈ out.indexes) ∧ out.version = r.version ∧ out.enforced = true := by
  obtain ⟨dropped, hRun, hRebuilt, hFreed⟩ := h.exists_dropped hProper hApart hFits
  obtain ⟨next, hIndexes, hDone⟩ := run_indexes hProper hApart hFits hRebuilt hFreed
  refine ⟨{ next with version := r.version, enforced := true }, ?_, ⟨hDone.rebuilt.live,
    hDone.rebuilt.old, hDone.rebuilt.others, hDone.rebuilt.named, hDone.rebuilt.freed⟩, hDone.made, rfl,
    rfl⟩
  rw [script_eq, run_append, hRun, ok_bind, finish, run_append, hIndexes]
  rfl

/-- The last statements keep the rebuilt tables. -/
theorem Rebuilt.finish (hProper : r.Proper) (h : r.Rebuilt rows base db) (n : Nat) :
    r.Rebuilt rows base (db.attempt r.finish n) := by
  refine attempt_invariant (fun statement hStatement db next hKept hExec => ?_) h
  rcases List.mem_append.mp (List.mem_of_mem_take hStatement) with hFirst | hLast
  · obtain ⟨index, hIndex, rfl⟩ := List.mem_map.mp hFirst
    obtain ⟨_, -, hExec⟩ := bind_eq_ok.mp hExec
    obtain ⟨_, -, hExec⟩ := bind_eq_ok.mp hExec
    obtain ⟨_, -, hExec⟩ := bind_eq_ok.mp hExec
    cases pure_eq_ok.mp hExec
    refine ⟨hKept.live, hKept.old, hKept.others, fun other hOther => ?_, fun other hOther hIn => ?_⟩
    · rcases List.mem_append.mp hOther with hOld | hNew
      · exact hKept.named other hOld
      · rw [List.mem_singleton.mp hNew]
        exact hProper.indexApart index hIndex
    · rcases List.mem_append.mp hOther with hOld | hNew
      · exact hKept.freed other hOld hIn
      · rw [List.mem_singleton.mp hNew]
        exact hProper.indexTables index hIndex
  · rw [List.mem_cons, List.mem_singleton] at hLast
    rcases hLast with rfl | rfl <;> cases hExec <;>
      exact ⟨hKept.live, hKept.old, hKept.others, hKept.named, hKept.freed⟩

/-- A cut after the last drop leaves the script runnable. -/
theorem Ready.cut_late (h : r.Ready rows base db) (hProper : r.Proper) (hApart : r.Apart base)
    (hFits : r.Fits rows) {n : Nat} (hn : 4 * r.renamed.length + 1 ≤ n) :
    r.Ready rows base (db.connect.attempt r.script n) := by
  obtain ⟨dropped, hRun, hRebuilt, -⟩ := h.exists_dropped hProper hApart hFits
  have hLength : r.created.length = r.renamed.length := by
    rw [← hProper.perm.length_eq, List.length_map]
  obtain ⟨m, rfl⟩ := Nat.exists_eq_add_of_le hn
  have hFront : 4 * r.renamed.length + 1 =
      ((.foreignKeys false :: (r.moves ++ (r.creations ++ r.copies))) ++ r.drops).length := by
    simp only [List.length_append, List.length_cons, moves, creations, copies, drops, List.length_map,
      hLength]
    omega
  rw [script_eq, hFront, attempt_append hRun]
  exact (hRebuilt.finish hProper m).ready hProper

/-- So does a cut before the first table is moved. -/
theorem Ready.cut_early (h : r.Ready rows base db) {n : Nat} (hn : n ≤ 1) :
    r.Ready rows base (db.connect.attempt r.script n) := by
  match n, hn with
  | 0, _ => exact h.enforce true
  | 1, _ =>
      have hRest : ∀ rest : List Statement, Database.attempt rest 0 { db with enforced := false } =
          { db with enforced := false } := fun rest => by cases rest <;> rfl
      change r.Ready rows base (Database.attempt _ 0 { db with enforced := false })
      rw [hRest]
      exact h.enforce false

/-- A table is missing, or its old namesake is in the way. -/
def Stuck (r : Rebuild) (db : Database) : Prop :=
  ∃ table ∈ r.renamed, db.tables table = none ∨ (db.tables (r.old table)).isSome = true

/-- The tables cannot all be moved aside. -/
theorem moves_fail (hProper : r.Proper) {todo : List String} (hTodo : ∀ table ∈ todo, table ∈ r.renamed)
    (hNodup : todo.Nodup)
    (h : ∃ table ∈ todo, db.tables table = none ∨ (db.tables (r.old table)).isSome = true) :
    ∃ e, db.run (todo.map fun table => .rename table (r.old table)) = .error e := by
  induction todo generalizing db with
  | nil =>
      obtain ⟨_, hTable, -⟩ := h
      exact absurd hTable List.not_mem_nil
  | cons first todo ih =>
      rw [List.map_cons, Database.run, List.foldlM_cons]
      cases hFirst : db.exec (.rename first (r.old first)) with
      | error e => exact ⟨e, rfl⟩
      | ok next =>
          obtain ⟨moved, hMoved, hFree, rfl⟩ := exec_rename_eq_ok.mp hFirst
          obtain ⟨hOut, hNodup⟩ := List.nodup_cons.mp hNodup
          have hFirstIn := hTodo first List.mem_cons_self
          obtain ⟨table, hTable, hBad⟩ := h
          have hLater : table ∈ todo := by
            rcases List.mem_cons.mp hTable with rfl | hLater
            · rw [hMoved, (taken_eq_false.mp hFree).1] at hBad
              rcases hBad with hBad | hBad <;> cases hBad
            · exact hLater
          have hIn := hTodo table hTable
          have hOther : table ≠ first := fun hSame => hOut (hSame ▸ hLater)
          have hFirstName : table ≠ r.old first := fun hSame => hProper.apart first hFirstIn (hSame ▸ hIn)
          have hNames : r.old table ≠ r.old first := fun hSame =>
            hOther (hProper.injective table hIn first hFirstIn hSame)
          have hApartName : r.old table ≠ first := fun hSame =>
            hProper.apart table hIn (hSame ▸ hFirstIn)
          refine ih (fun other hOther => hTodo other (List.mem_cons_of_mem _ hOther)) hNodup
            ⟨table, hLater, ?_⟩
          simp only [if_neg hFirstName, if_neg hOther, if_neg hNames, if_neg hApartName,
            Option.map_eq_none_iff, Option.isSome_map]
          exact hBad

/-- From there the script never goes through, -/
theorem Stuck.fails (h : r.Stuck db) (hProper : r.Proper) :
    ∃ e, db.connect.run r.script = .error e := by
  obtain ⟨e, hMoves⟩ := @moves_fail r { db with enforced := false } hProper r.renamed (fun _ h => h)
    hProper.nodup h
  refine ⟨e, ?_⟩
  change Database.run { db with enforced := false } _ = _
  rw [run_append, moves, hMoves]
  rfl

/-- and no attempt changes that. -/
theorem Stuck.attempt (h : r.Stuck db) (hProper : r.Proper) (n : Nat) :
    r.Stuck (db.connect.attempt r.script n) := by
  cases n with
  | zero => exact h
  | succ n =>
      have hStart : r.Stuck { db with enforced := false } := h
      obtain ⟨e, hMoves⟩ := moves_fail hProper (fun _ h => h) hProper.nodup hStart
      change r.Stuck (Database.attempt (r.moves ++ _) n { db with enforced := false })
      rw [attempt_of_error (e := e) (by rw [moves]; exact hMoves)]
      refine attempt_invariant (fun statement hStatement db next _ hExec => ?_) hStart
      obtain ⟨table, hTable, rfl⟩ := List.mem_map.mp (List.mem_of_mem_take hStatement)
      obtain ⟨moved, -, -, rfl⟩ := exec_rename_eq_ok.mp hExec
      have hName : table ≠ r.old table := fun hSame => hProper.apart table hTable (hSame ▸ hTable)
      exact ⟨table, hTable, .inl (by simp only [if_neg hName, if_true])⟩

/-- The statements that move, create and fill the other tables leave an old one in place. -/
theorem exec_keeps_old (hProper : r.Proper) {table : String} (hTable : table ∈ r.renamed)
    {statement : Statement} (hStatement : (∃ other ∈ r.renamed, other ≠ table ∧
        statement = .rename other (r.old other)) ∨
      (∃ schema ∈ r.created, statement = .create schema ∨
        statement = .copy schema.name (r.old schema.name)) ∨
      ∃ other ∈ r.renamed, other ≠ table ∧ statement = .drop (r.old other))
    (h : (db.tables (r.old table)).isSome = true) (hExec : db.exec statement = .ok next) :
    (next.tables (r.old table)).isSome = true := by
  have hNames : ∀ other ∈ r.renamed, other ≠ table → r.old table ≠ r.old other :=
    fun other hOther hNe hSame => hNe (hProper.injective table hTable other hOther hSame).symm
  have hLive : ∀ other ∈ r.renamed, r.old table ≠ other :=
    fun other hOther hSame => hProper.apart table hTable (hSame ▸ hOther)
  rcases hStatement with ⟨other, hOther, hNe, rfl⟩ | ⟨schema, hSchema, rfl | rfl⟩ | ⟨other, hOther, hNe, rfl⟩
  · obtain ⟨moved, -, -, rfl⟩ := exec_rename_eq_ok.mp hExec
    simp only [if_neg (hNames other hOther hNe), if_neg (hLive other hOther), Option.isSome_map]
    exact h
  · obtain ⟨-, rfl⟩ := exec_create_eq_ok.mp hExec
    rw [put_of_ne _ _ (hLive _ (hProper.mem_renamed hSchema))]
    exact h
  · obtain ⟨_, -, hExec⟩ := bind_eq_ok.mp hExec
    obtain ⟨_, -, hExec⟩ := bind_eq_ok.mp hExec
    obtain ⟨_, -, hExec⟩ := bind_eq_ok.mp hExec
    refine foldlM_invariant (fun db => (db.tables (r.old table)).isSome = true) hExec h ?_
    intro before row after _ hBefore hInsert
    obtain ⟨_, -, hInsert⟩ := bind_eq_ok.mp hInsert
    obtain ⟨_, -, hInsert⟩ := bind_eq_ok.mp hInsert
    obtain ⟨_, -, hInsert⟩ := bind_eq_ok.mp hInsert
    obtain ⟨_, -, hInsert⟩ := bind_eq_ok.mp hInsert
    cases pure_eq_ok.mp hInsert
    rw [put_of_ne _ _ (hLive _ (hProper.mem_renamed hSchema))]
    exact hBefore
  · obtain ⟨-, -, rfl⟩ := exec_drop_eq_ok.mp hExec
    change ((db.put (r.old other) none).tables (r.old table)).isSome = true
    rw [put_of_ne _ _ (hNames other hOther hNe)]
    exact h

/-- A cut between the first move and the first drop finds the first old table. -/
theorem Ready.cut_filling (h : r.Ready rows base db) (hProper : r.Proper) {n : Nat} (hn : 2 ≤ n)
    (hEnd : n ≤ 3 * r.renamed.length + 1) : r.Stuck (db.connect.attempt r.script n) := by
  cases hRenamed : r.renamed with
  | nil =>
      rw [hRenamed, List.length_nil] at hEnd
      omega
  | cons first others =>
      have hFirst : first ∈ r.renamed := hRenamed ▸ List.mem_cons_self
      have hOut : first ∉ others := (List.nodup_cons.mp (hRenamed ▸ hProper.nodup)).1
      obtain ⟨moved, hMoved, -⟩ := h.live first hFirst
      have hFree : (db.taken (r.old first)) = false := taken_eq_false.mpr ⟨h.old first hFirst,
        fun index hIndex hSame => (h.named index hIndex).2 (hSame ▸ List.mem_map_of_mem hFirst)⟩
      obtain ⟨m, rfl⟩ := Nat.exists_eq_add_of_le hn
      have hLength : r.created.length = r.renamed.length := by
        rw [← hProper.perm.length_eq, List.length_map]
      have hMoves : r.moves = .rename first (r.old first) ::
          others.map fun table => .rename table (r.old table) := by
        rw [moves, hRenamed]
        rfl
      refine ⟨first, hFirst, .inr ?_⟩
      have hRun : db.connect.run [.foreignKeys false, .rename first (r.old first)] = .ok _ :=
        bind_eq_ok.mpr ⟨{ db with enforced := false }, rfl, bind_eq_ok.mpr
          ⟨_, exec_rename_eq_ok.mpr ⟨moved, hMoved, hFree, rfl⟩, rfl⟩⟩
      have hScript : r.script = [.foreignKeys false, .rename first (r.old first)] ++
          ((others.map fun table => .rename table (r.old table)) ++ (r.creations ++ r.copies) ++
            (r.drops ++ r.finish)) := by
        simp [script, hMoves]
      rw [hScript, show 2 + m = [Statement.foreignKeys false, .rename first (r.old first)].length + m
        from rfl, attempt_append hRun]
      refine attempt_invariant (P := fun db => (db.tables (r.old first)).isSome = true)
        (fun statement hStatement before after hKept hExec => ?_) (by simp)
      refine exec_keeps_old hProper hFirst ?_ hKept hExec
      rw [List.take_append_of_le_length] at hStatement
      · rcases List.mem_append.mp (List.mem_of_mem_take hStatement) with hMove | hFill
        · obtain ⟨other, hOther, rfl⟩ := List.mem_map.mp hMove
          exact .inl ⟨other, hRenamed ▸ List.mem_cons_of_mem _ hOther, fun hSame => hOut (hSame ▸ hOther),
            rfl⟩
        · rcases List.mem_append.mp hFill with hCreate | hCopy
          · obtain ⟨schema, hSchema, rfl⟩ := List.mem_map.mp hCreate
            exact .inr (.inl ⟨schema, hSchema, .inl rfl⟩)
          · obtain ⟨schema, hSchema, rfl⟩ := List.mem_map.mp hCopy
            exact .inr (.inl ⟨schema, hSchema, .inr rfl⟩)
      · simp only [List.length_append, creations, copies, List.length_map, hLength]
        rw [hRenamed, List.length_cons] at hEnd ⊢
        omega

/-- A cut among the drops finds the last old table. -/
theorem Ready.cut_dropping (h : r.Ready rows base db) (hProper : r.Proper) (hApart : r.Apart base)
    (hFits : r.Fits rows) {n : Nat} (hn : 3 * r.renamed.length + 1 < n)
    (hEnd : n ≤ 4 * r.renamed.length) : r.Stuck (db.connect.attempt r.script n) := by
  obtain ⟨filled, hRun, hFilled⟩ := h.exists_filled hProper hApart hFits
  rcases List.eq_nil_or_concat r.renamed with hRenamed | ⟨others, last, hRenamed⟩
  · rw [hRenamed, List.length_nil] at hEnd hn
    omega
  · rw [List.concat_eq_append] at hRenamed
    have hLast : last ∈ r.renamed := hRenamed ▸ List.mem_append_right _ (List.mem_singleton_self _)
    have hOut : last ∉ others := not_mem_of_split hProper.nodup hRenamed
    have hLength : r.created.length = r.renamed.length := by
      rw [← hProper.perm.length_eq, List.length_map]
    obtain ⟨m, rfl⟩ := Nat.exists_eq_add_of_le (Nat.le_of_lt hn)
    have hFront : 3 * r.renamed.length + 1 =
        (.foreignKeys false :: (r.moves ++ (r.creations ++ r.copies))).length := by
      simp only [List.length_append, List.length_cons, moves, creations, copies, List.length_map,
        hLength]
      omega
    have hDrops : r.drops = (others.map fun table => .drop (r.old table)) ++ [.drop (r.old last)] := by
      rw [drops, hRenamed, List.map_append]
      rfl
    refine ⟨last, hLast, .inr ?_⟩
    rw [script_eq, List.append_assoc, hFront, attempt_append hRun, hDrops, List.append_assoc]
    refine attempt_invariant (P := fun db => (db.tables (r.old last)).isSome = true)
      (fun statement hStatement before after hKept hExec => ?_) ?_
    · refine exec_keeps_old hProper hLast ?_ hKept hExec
      rw [List.take_append_of_le_length] at hStatement
      · obtain ⟨other, hOther, rfl⟩ := List.mem_map.mp (List.mem_of_mem_take hStatement)
        exact .inr (.inr ⟨other, hRenamed ▸ List.mem_append_left _ hOther,
          fun hSame => hOut (hSame ▸ hOther), rfl⟩)
      · rw [List.length_map]
        rw [hRenamed, List.length_append, List.length_singleton] at hEnd
        omega
    · obtain ⟨old, hOld, -⟩ := hFilled.kept last hLast
      rw [hOld]
      rfl

/-- Cut off again and again, and run again from its start every time. -/
def resumed (r : Rebuild) (cuts : List Nat) (db : Database) : Database :=
  cuts.foldl (fun db n => db.connect.attempt r.script n) db

theorem Stuck.resumed (h : r.Stuck db) (hProper : r.Proper) (cuts : List Nat) :
    r.Stuck (r.resumed cuts db) := by
  induction cuts generalizing db with
  | nil => exact h
  | cons n cuts ih => exact ih (h.attempt hProper n)

/-- Where the script goes through, every cut came before the first move or after the last
drop. -/
theorem Ready.harmless (h : r.Ready rows base db) (hProper : r.Proper) (hApart : r.Apart base)
    (hFits : r.Fits rows) {cuts : List Nat} {out : Database}
    (hRun : (r.resumed cuts db).connect.run r.script = .ok out) :
    ∀ n ∈ cuts, n ≤ 1 ∨ 4 * r.renamed.length + 1 ≤ n := by
  induction cuts generalizing db with
  | nil => exact fun _ hn => absurd hn List.not_mem_nil
  | cons n cuts ih =>
      rw [List.forall_mem_cons]
      by_cases hEarly : n ≤ 1
      · exact ⟨.inl hEarly, ih (h.cut_early hEarly) hRun⟩
      by_cases hLate : 4 * r.renamed.length + 1 ≤ n
      · exact ⟨.inr hLate, ih (h.cut_late hProper hApart hFits hLate) hRun⟩
      have hStuck : r.Stuck (db.connect.attempt r.script n) := by
        rw [Nat.not_le] at hEarly hLate
        rcases Nat.lt_or_ge (3 * r.renamed.length + 1) n with hDropping | hFilling
        · exact h.cut_dropping hProper hApart hFits hDropping (by omega)
        · exact h.cut_filling hProper hEarly hFilling
      obtain ⟨e, hFails⟩ := (hStuck.resumed hProper cuts).fails hProper
      exact absurd (hFails.symm.trans hRun) (by simp)

/-- After such cuts it goes through. -/
theorem Ready.completes_resumed (h : r.Ready rows base db) (hProper : r.Proper)
    (hApart : r.Apart base) (hFits : r.Fits rows) {cuts : List Nat}
    (hCuts : ∀ n ∈ cuts, n ≤ 1 ∨ 4 * r.renamed.length + 1 ≤ n) :
    ∃ out, (r.resumed cuts db).connect.run r.script = .ok out ∧ r.Rebuilt rows base out ∧
      (∀ index ∈ r.indexes, index ∈ out.indexes) ∧ out.version = r.version ∧ out.enforced = true := by
  induction cuts generalizing db with
  | nil => exact h.completes hProper hApart hFits
  | cons n cuts ih =>
      rw [List.forall_mem_cons] at hCuts
      have hNext : r.Ready rows base (db.connect.attempt r.script n) := by
        rcases hCuts.1 with hEarly | hLate
        · exact h.cut_early hEarly
        · exact h.cut_late hProper hApart hFits hLate
      exact ih hNext hCuts.2

end

end Rebuild

end Sql
