import AdgLang.RowProfiles
import AdgLang.Fallible
import AdgLang.Script
/-!
# ExportRuns — what a migration that succeeded has moved

The import loop of `migrate-d1-export-to-postgres.mjs` and its report.  PostgreSQL may answer an insert in any way that
leaves the rows of other tables alone: rows that conflict may be there and stay.  The profile of each table is taken of
its rows after the inserts, so a run with `--apply` that succeeds has left every table equal to its source.
-/
namespace Adg
namespace Migration

open Js

/-! ## The databases -/

/-- `createInsertSql`. -/
structure Insert where
  table : Str
  columns : List Str
  onConflictDoNothing : Bool
deriving DecidableEq

/-- The export in SQLite, and how PostgreSQL answers.  SQLite has no two tables of one name. -/
structure Databases where
  sqliteMaster : List SqliteTable
  names : (sqliteMaster.map SqliteTable.name).Nodup
  sourceRows : Str → Except Thrown (List Row)
  targetColumns : Str → Except Thrown (List Str)
  insertRows : Insert → List (List Value) → List Row → Except Thrown (List Row)
  readable : Str → Except Thrown Unit

/-- The rows of each table in PostgreSQL. -/
abbrev Target := Str → List Row

inductive Validation
  | pending | skippedDryRun | matched | mismatch | failed
deriving DecidableEq

structure TableReport (δ : Type) where
  name : Str
  conflictStrategy : Str
  columns : List Column
  source : Profile δ
  target : Option (Profile δ)
  validation : Validation
deriving DecidableEq

structure Report (δ : Type) where
  apply : Bool
  success : Bool
  validation : Validation
  tables : List (TableReport δ)
  error : Option Str
deriving DecidableEq

/-- PostgreSQL and the tables reported so far. -/
structure Progress (δ : Type) where
  target : Target
  tables : List (TableReport δ)

/-! ## The program -/

variable {δ : Type} [DecidableEq δ] (sha256 : List UInt8 → δ) (db : Databases)

abbrev Importing (δ α : Type) := Script (Progress δ) Thrown α

/-- `loadApplicationTables`; the sort always ends (`topologicallySortTables_spec`). -/
def loadApplicationTables : Except Thrown (List AppTable) := do
  let tables ← (db.sqliteMaster.filter (fun row => isApplicationTable row.name)).mapM loadTable
  match topologicallySortTables tables with
  | some ordered => return ordered
  | none => throw []

def loadTargetColumns (table : Str) : Except Thrown (List Str) := do
  let columns ← db.targetColumns table
  if columns.isEmpty then throw (str "Target table '" ++ table ++ str "' was not found.")
  return columns

def normalizeTargetParameter : Value → Except Thrown Value
  | .bigint i =>
    .ok (if (Number.ofBigInt i).isSafeInteger then .number (Number.ofBigInt i) else .string (intStr i))
  | .bytes _ => .error (str "Binary values are not supported by this migration CLI.")
  | v => .ok v

def parametersOf (columns : List Column) (row : Row) : Except Thrown (List Value) :=
  columns.mapM (fun column => normalizeTargetParameter (row column.name).1)

/-- A batch of statements on one table. -/
def batch (insert : Insert) (parameters : List (List Value)) : Importing δ Unit := do
  let existing ← Script.read (fun s => s.target insert.table)
  let rows ← Script.lift (db.insertRows insert parameters existing)
  Script.modify (fun s => { s with target := Function.update s.target insert.table rows })

def selectTargetRows (table : Str) : Importing δ (List Row) := do
  Script.lift (db.readable table)
  Script.read (fun s => s.target table)

/-- The report of the table at hand, the last one. -/
def updateLast (f : TableReport δ → TableReport δ) (s : Progress δ) : Progress δ :=
  { s with tables := s.tables.dropLast ++ s.tables.getLast?.toList.map f }

def profileOf (columns : List Column) (rows : List Row) : Except Thrown (Profile δ) :=
  (buildRowSetProfile sha256 columns rows).mapError str

def missingColumns (table : AppTable) (targetColumns : List Str) : Thrown :=
  str "Target table '" ++ table.name ++ str "' is missing source columns: " ++
    (str ", ").intercalate ((table.columns.filter (fun column => !targetColumns.contains column.name)).map Column.name)

def mismatched (table : AppTable) : Thrown :=
  str "Imported table '" ++ table.name ++ str "' did not match the source count/hash."

/-- The rows of a table are inserted where the run applies and there are any. -/
def importRows (apply : Bool) (table : AppTable) (columns : List Column) (rows : List Row) : Importing δ Unit :=
  if apply && !rows.isEmpty then do
    let parameters ← Script.lift (rows.mapM (parametersOf columns))
    batch db ⟨table.name, columns.map Column.name, table.conflictProtected⟩ parameters
  else pure ()

/-- A run that applies compares the two profiles. -/
def validateTable (apply : Bool) (table : AppTable) (source target : Profile δ) : Importing δ Unit :=
  if apply then do
    let matched := decide (target.count = source.count) && decide (target.sha256 = source.sha256)
    Script.modify (updateLast (fun report => { report with validation := if matched then .matched else .mismatch }))
    Script.throwIf (!matched) (mismatched table)
  else pure ()

/-- The body of the import loop. -/
def importTable (apply : Bool) (table : AppTable) : Importing δ Unit := do
  let sourceRows ← Script.lift (db.sourceRows table.name)
  let targetColumns ← Script.lift (loadTargetColumns db table.name)
  let importColumns := table.columns.filter (fun column => targetColumns.contains column.name)
  Script.throwIf (decide (importColumns.length ≠ table.columns.length)) (missingColumns table targetColumns)
  let sourceProfile ← Script.lift (profileOf sha256 importColumns sourceRows)
  Script.modify (fun s => { s with tables := s.tables ++ [{
    name := table.name
    conflictStrategy := if table.conflictProtected then str "on-conflict-do-nothing" else str "plain-insert"
    columns := importColumns
    source := sourceProfile
    target := none
    validation := if apply then .pending else .skippedDryRun }] })
  importRows db apply table importColumns sourceRows
  let targetRows ← selectTargetRows db table.name
  let targetProfile ← Script.lift (profileOf sha256 importColumns targetRows)
  Script.modify (updateLast (fun report => { report with target := some targetProfile }))
  validateTable apply table sourceProfile targetProfile

/-- The `try` block; `opened` is how opening the two databases ended. -/
def migration (opened : Except Thrown Unit) (apply : Bool) : Importing δ Unit := do
  Script.lift opened
  let tables ← Script.lift (loadApplicationTables db)
  Script.each tables (importTable sha256 db apply)

/-- The report, and what the run leaves in PostgreSQL. -/
def migrate (opened : Except Thrown Unit) (apply : Bool) (target : Target) : Report δ × Target :=
  match migration sha256 db opened apply ⟨target, []⟩ with
  | (.ok _, s) => (⟨apply, true, if apply then .matched else .skippedDryRun, s.tables, none⟩, s.target)
  | (.error e, s) => (⟨apply, false, .failed, s.tables,
      some ((if e = [] then str "D1 export migration failed." else e).take 400)⟩, s.target)

/-! ## What an import leaves -/

variable {sha256 db} {target : Target} {table : AppTable}

/-- The rows of the table in PostgreSQL have the profile of its rows in the export. -/
def Imported (sha256 : List UInt8 → δ) (db : Databases) (target : Target) (table : AppTable) : Prop :=
  ∃ rows, db.sourceRows table.name = .ok rows ∧
    profileOf sha256 table.columns (target table.name) = profileOf sha256 table.columns rows

/-- The rows of the other tables are as they were. -/
def OthersKept (target : Target) (table : AppTable) (s : Progress δ) : Prop :=
  ∀ name, name ≠ table.name → s.target name = target name

omit [DecidableEq δ] in
theorem importRows_spec {apply : Bool} {columns : List Column} {rows : List Row} :
    Script.Triple (OthersKept target table) (importRows db apply table columns rows : Importing δ Unit)
      (fun _ => OthersKept target table) (fun _ => True) := by
  refine .ite (fun _ => ?_) (fun _ => .pure (fun _ h => h))
  refine .bind_lift (fun _ _ => trivial) (fun parameters _ => ?_)
  refine .bind_read (fun existing => .pre (P := OthersKept target table) ?_ (fun _ h => h.2))
  refine .bind_lift (fun _ _ => trivial) (fun inserted _ => .modify (fun s h name hname => ?_))
  show Function.update s.target table.name inserted name = target name
  rw [Function.update_of_ne hname]
  exact h name hname

omit [DecidableEq δ] in
theorem profileOf_ok (columns : List Column) (rows : List Row) : profileOf sha256 columns rows =
    .ok ⟨rows.length, sha256 (encodeUtf8 (joinLines (sortStrings (rows.map (fun row => (rowValue columns row).text)))))⟩ := by
  rw [profileOf, buildRowSetProfile, profileInput_eq]
  rfl

/-- Two profiles that a run takes for equal. -/
theorem validateTable_spec {source found : Profile δ} {P : Progress δ → Prop} (hkeep : ∀ f s, P s → P (updateLast f s)) :
    Script.Triple P (validateTable true table source found) (fun _ s => P s ∧ found = source) (fun _ => True) := by
  refine .bind_modify (fun s h => hkeep _ s h) (.throwIf (fun s hmatched h => ⟨h, ?_⟩) (fun _ _ _ => trivial))
  rw [Bool.not_eq_eq_eq_not, Bool.not_false, Bool.and_eq_true, decide_eq_true_iff, decide_eq_true_iff] at hmatched
  obtain ⟨count, sha⟩ := found
  obtain ⟨count', sha'⟩ := source
  rw [Profile.mk.injEq]
  exact hmatched

/-- **A table imported by a run that applies** has its profile, and nothing else has changed. -/
theorem importTable_spec : Script.Triple (OthersKept target table) (importTable sha256 db true table)
    (fun _ s => OthersKept target table s ∧ Imported sha256 db s.target table) (fun _ => True) := by
  refine .bind_lift (fun _ _ => trivial) (fun rows hrows => ?_)
  refine .bind_lift (fun _ _ => trivial) (fun targetColumns _ => ?_)
  refine .bind_throwIf (fun _ _ _ => trivial) (fun hcolumns => ?_)
  have hall := List.filter_sublist.eq_of_length (not_not.1 (of_decide_eq_false hcolumns))
  rw [hall]
  refine .bind_lift (fun _ _ => trivial) (fun source hsource => ?_)
  refine .bind_modify (S := OthersKept target table) (fun s h => h) (.bind importRows_spec (fun _ => ?_))
  refine .bind (Q := fun found s => OthersKept target table s ∧ s.target table.name = found)
    (.bind_lift (fun _ _ => trivial) (fun _ _ => .read (fun s h => ⟨h, rfl⟩))) (fun found => ?_)
  refine .bind_lift (fun _ _ => trivial) (fun profile hprofile => ?_)
  refine .bind_modify (S := fun s => OthersKept target table s ∧ s.target table.name = found) (fun s h => h) ?_
  refine (validateTable_spec (fun f s h => h)).mono (fun _ h => h) (fun _ s h => ?_) (fun _ h => h)
  obtain ⟨⟨hothers, hfound⟩, hequal⟩ := h
  exact ⟨hothers, rows, hrows, by rw [hfound, hprofile, hsource, hequal]⟩

/-- The tables that have been imported stay as they are while others are. -/
theorem import_tables_spec {tables : List AppTable} (hnames : (tables.map AppTable.name).Nodup) :
    Script.Triple (fun _ => True) (Script.each tables (importTable sha256 db true))
      (fun _ s => ∀ table ∈ tables, Imported sha256 db s.target table) (fun _ => True) := by
  refine (Script.Triple.each (fun done (s : Progress δ) => ∀ table ∈ done, Imported sha256 db s.target table)
    (fun pre table post htables => ?_)).pre (fun _ _ => nofun)
  intro s hdone
  refine ⟨fun a t hrun => ?_, fun _ _ _ => trivial⟩
  obtain ⟨hothers, himported⟩ := (importTable_spec s (fun _ _ => rfl)).1 a t hrun
  intro other hother
  rcases List.mem_append.1 hother with hother | hother
  · obtain ⟨rows, hrows, hprofile⟩ := hdone other hother
    have hne : other.name ≠ table.name := fun heq => by
      rw [htables, List.map_append, List.nodup_append] at hnames
      exact hnames.2.2 _ (List.mem_map_of_mem hother) _ (by simp) heq
    exact ⟨rows, hrows, by rw [hothers other.name hne, hprofile]⟩
  · rw [List.mem_singleton.1 hother]
    exact himported

/-! ## The tables that are imported -/

theorem loadTable_ok {row : SqliteTable} {table : AppTable} (h : loadTable row = .ok table) :
    table.name = row.name ∧ table.columns = row.tableInfo := by
  obtain ⟨_, -, h⟩ := bind_eq_ok.1 h
  obtain ⟨_, -, h⟩ := bind_eq_ok.1 h
  cases h
  exact ⟨rfl, rfl⟩

theorem load_names {rows : List SqliteTable} {tables : List AppTable}
    (h : List.Forall₂ (fun row table => loadTable row = .ok table) rows tables) :
    tables.map AppTable.name = rows.map SqliteTable.name ∧
      ∀ row ∈ rows, ∃ table ∈ tables, table.name = row.name ∧ table.columns = row.tableInfo := by
  induction h with
  | nil => exact ⟨rfl, nofun⟩
  | @cons row table rows tables hload _ ih =>
    obtain ⟨hname, hcolumns⟩ := loadTable_ok hload
    refine ⟨by rw [List.map_cons, List.map_cons, ih.1, hname], fun other hother => ?_⟩
    rcases List.mem_cons.1 hother with rfl | hother
    · exact ⟨table, by simp, hname, hcolumns⟩
    · obtain ⟨found, hfound, hspec⟩ := ih.2 other hother
      exact ⟨found, by simp [hfound], hspec⟩

/-- **Every table of the application is imported**, under a name of its own. -/
theorem loadApplicationTables_ok {tables : List AppTable} (h : loadApplicationTables db = .ok tables) :
    (tables.map AppTable.name).Nodup ∧ ∀ row ∈ db.sqliteMaster, isApplicationTable row.name = true →
      ∃ table ∈ tables, table.name = row.name ∧ table.columns = row.tableInfo := by
  obtain ⟨loaded, hloaded, h⟩ := bind_eq_ok.1 h
  obtain ⟨hnames, hrows⟩ := load_names (mapM_eq_ok hloaded)
  have hnodup : (loaded.map AppTable.name).Nodup := by
    rw [hnames]
    exact (List.filter_sublist.map SqliteTable.name).nodup db.names
  obtain ⟨ordered, hordered, hperm, -⟩ := topologicallySortTables_spec hnodup
  rw [hordered] at h
  cases h
  refine ⟨(hperm.map AppTable.name).nodup_iff.2 hnodup, fun row hrow happlication => ?_⟩
  obtain ⟨table, htable, hspec⟩ := hrows row (List.mem_filter.2 ⟨hrow, happlication⟩)
  exact ⟨table, hperm.mem_iff.2 htable, hspec⟩

/-- No two different inputs of the profiles of a table and of its export have one hash. -/
def CollisionFree (sha256 : List UInt8 → δ) (db : Databases) (target : Target) : Prop :=
  ∀ row ∈ db.sqliteMaster, ∀ rows, db.sourceRows row.name = .ok rows →
    ∀ a b, profileInput row.tableInfo (target row.name) = .ok a → profileInput row.tableInfo rows = .ok b →
      sha256 a = sha256 b → a = b

/-- The table holds the rows of the export, as multisets of rows. -/
def SameRows (db : Databases) (target : Target) (row : SqliteTable) : Prop :=
  ∃ rows, db.sourceRows row.name = .ok rows ∧
    ((target row.name).map (cells row.tableInfo)).Perm (rows.map (cells row.tableInfo))

theorem imported_of_success {opened : Except Thrown Unit} (h : (migrate sha256 db opened true target).1.success = true) :
    ∀ row ∈ db.sqliteMaster, isApplicationTable row.name = true → ∃ rows, db.sourceRows row.name = .ok rows ∧
      profileOf sha256 row.tableInfo ((migrate sha256 db opened true target).2 row.name) =
        profileOf sha256 row.tableInfo rows := by
  have hmigration : Script.Triple (fun _ : Progress δ => True) (migration sha256 db opened true)
      (fun _ s => ∀ row ∈ db.sqliteMaster, isApplicationTable row.name = true → ∃ rows,
        db.sourceRows row.name = .ok rows ∧
          profileOf sha256 row.tableInfo (s.target row.name) = profileOf sha256 row.tableInfo rows)
      (fun _ => True) := by
    refine .bind_lift (fun _ _ => trivial) (fun _ _ => .bind_lift (fun _ _ => trivial) (fun tables hload => ?_))
    obtain ⟨hnodup, hrows⟩ := loadApplicationTables_ok hload
    refine (import_tables_spec hnodup).mono (fun _ h => h) (fun _ s himported row hrow happlication => ?_) (fun _ h => h)
    obtain ⟨table, htable, hname, hcolumns⟩ := hrows row hrow happlication
    rw [← hname, ← hcolumns]
    exact himported table htable
  rw [migrate] at h ⊢
  rcases hrun : migration sha256 db opened true ⟨target, []⟩ with ⟨e | u, s⟩
  · rw [hrun] at h
    cases h
  · exact (hmigration ⟨target, []⟩ trivial).1 u s hrun

theorem sameRows_of_success {opened : Except Thrown Unit} (h : (migrate sha256 db opened true target).1.success = true)
    (hsha : CollisionFree sha256 db (migrate sha256 db opened true target).2) :
    ∀ row ∈ db.sqliteMaster, isApplicationTable row.name = true →
      SameRows db (migrate sha256 db opened true target).2 row := by
  intro row hrow happlication
  obtain ⟨rows, hrows, hprofile⟩ := imported_of_success h row hrow happlication
  refine ⟨rows, hrows, (profileInput_iff _ _ _).1 ?_⟩
  rw [profileOf_ok, profileOf_ok, Except.ok.injEq, Profile.mk.injEq] at hprofile
  rw [profileInput_eq, profileInput_eq,
    hsha row hrow rows hrows _ _ (profileInput_eq _ _) (profileInput_eq _ _) hprofile.2]

/-- **The order is sound and the report truthful.**  The sort ends with the tables of the list, each after those it
refers to where no references go in a circle; two row sets have one hash input exactly when they are equal; and a run
with `--apply` that succeeds has left every table of the application equal to its export. -/
theorem migration_sound {δ : Type} [DecidableEq δ] (sha256 : List UInt8 → δ) :
    (∀ tables : List AppTable, (tables.map AppTable.name).Nodup →
      ∃ ordered, topologicallySortTables tables = some ordered ∧ ordered.Perm tables ∧
        (DependencyOrder.Acyclic (Refers tables) → DependencyOrder.Sorted (Refers tables) tables ordered)) ∧
    (∀ (columns : List Column) (rows others : List Row),
      profileInput columns rows = profileInput columns others ↔
        (rows.map (cells columns)).Perm (others.map (cells columns))) ∧
    (∀ (db : Databases) (opened : Except Thrown Unit) (target : Target),
      (migrate sha256 db opened true target).1.success = true →
        CollisionFree sha256 db (migrate sha256 db opened true target).2 →
          ∀ row ∈ db.sqliteMaster, isApplicationTable row.name = true →
            SameRows db (migrate sha256 db opened true target).2 row) :=
  ⟨fun _ hnames => topologicallySortTables_spec hnames, profileInput_iff,
    fun _ _ _ h hsha => sameRows_of_success h hsha⟩

/-! Comments that refer to users, and to the comments they answer: the users go first. -/

def sampleMaster : List SqliteTable :=
  [⟨str "comments", [⟨str "id", str "INTEGER", true, 1⟩, ⟨str "author", str "TEXT", true, 0⟩],
      [str "users", str "comments"], []⟩,
    ⟨str "users", [⟨str "name", str "TEXT", true, 1⟩], [], [true]⟩, ⟨str "d1_migrations", [], [], []⟩]

def sampleRow : Row := fun column =>
  if column = str "id" then ⟨.number (Number.ofDecimal false 7 0), rfl⟩ else ⟨.string (str "Ada"), rfl⟩

/-- PostgreSQL already holds the rows, and an insert that conflicts leaves them. -/
def sampleDatabases : Databases where
  sqliteMaster := sampleMaster
  names := by decide
  sourceRows _ := .ok [sampleRow]
  targetColumns _ := .ok [str "id", str "author", str "name"]
  insertRows insert _ existing := if insert.onConflictDoNothing then .ok existing else .error []
  readable _ := .ok ()

def sampleTables : List AppTable :=
  (sampleMaster.take 2).map (fun row => ⟨row.name, row.tableInfo, row.foreignKeys, true⟩)

theorem migration_sound_sample :
    (∃ ordered, topologicallySortTables sampleTables = some ordered ∧ ordered.Perm sampleTables) ∧
    ∀ row ∈ sampleMaster, isApplicationTable row.name = true →
      SameRows sampleDatabases (migrate id sampleDatabases (.ok ()) true (fun _ => [sampleRow])).2 row := by
  obtain ⟨hsort, -, hrun⟩ := migration_sound (id : List UInt8 → List UInt8)
  obtain ⟨ordered, hordered, hperm, -⟩ := hsort sampleTables (by decide)
  exact ⟨⟨ordered, hordered, hperm⟩,
    hrun sampleDatabases (.ok ()) (fun _ => [sampleRow]) (by decide +kernel) (fun _ _ _ _ _ _ _ _ h => h)⟩

end Migration
end Adg
