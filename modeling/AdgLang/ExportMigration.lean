import AdgLang.DependencyOrder
import AdgLang.JsString
import Mathlib.Data.Finset.Dedup
import Mathlib.Data.List.Sort
/-!
# ExportMigration — the tables of an export, in the order of their references

`loadApplicationTables` and `topologicallySortTables` of `migrate-d1-export-to-postgres.mjs`.  The sort keeps a map from
each table left to the tables left that it refers to.  A round takes the tables that refer to none, or else the first
table left, and strikes what it took from the map and from every set in it.
-/
namespace Adg
namespace Migration

open Js

/-! ## Maps -/

/-- `Map.prototype.set`: the value of a key that is there, or a key at the end. -/
def mapSet {β : Type} (key : Str) (value : β) : List (Str × β) → List (Str × β)
  | [] => [(key, value)]
  | e :: entries => if e.1 = key then (key, value) :: entries else e :: mapSet key value entries

/-- `new Map` of entries. -/
def mapOf {β : Type} (entries : List (Str × β)) : List (Str × β) :=
  entries.foldl (fun map e => mapSet e.1 e.2 map) []

theorem mapSet_new {β : Type} {key : Str} {value : β} {entries : List (Str × β)} (h : key ∉ entries.map Prod.fst) :
    mapSet key value entries = entries ++ [(key, value)] := by
  induction entries with
  | nil => rfl
  | cons e entries ih =>
    rw [List.map_cons, List.mem_cons, not_or] at h
    rw [mapSet, if_neg (Ne.symm h.1), ih h.2, List.cons_append]

theorem foldl_mapSet {β : Type} (entries acc : List (Str × β)) (h : ((acc ++ entries).map Prod.fst).Nodup) :
    entries.foldl (fun map e => mapSet e.1 e.2 map) acc = acc ++ entries := by
  induction entries generalizing acc with
  | nil => simp
  | cons e entries ih =>
    have hnew : e.1 ∉ acc.map Prod.fst := fun hmem => by
      rw [List.map_append, List.nodup_append] at h
      exact h.2.2 e.1 hmem e.1 (by simp) rfl
    rw [List.foldl_cons, mapSet_new hnew, ih (acc ++ [(e.1, e.2)]) (by simpa using h), List.append_assoc]
    rfl

/-- Entries with different keys are the map. -/
theorem mapOf_nodup {β : Type} {entries : List (Str × β)} (h : (entries.map Prod.fst).Nodup) : mapOf entries = entries :=
  foldl_mapSet entries [] h

theorem lookup_of_mem {β : Type} {entries : List (Str × β)} (h : (entries.map Prod.fst).Nodup) {key : Str} {value : β}
    (hmem : (key, value) ∈ entries) : entries.lookup key = some value := by
  induction entries with
  | nil => simp at hmem
  | cons e entries ih =>
    obtain ⟨key', value'⟩ := e
    rw [List.map_cons, List.nodup_cons] at h
    rw [List.lookup_cons]
    rcases List.mem_cons.1 hmem with heq | hmem
    · simp only [Prod.mk.injEq] at heq
      simp [heq]
    · have hne : key ≠ key' := fun heq => h.1 (List.mem_map.2 ⟨(key, value), hmem, heq⟩)
      rw [beq_false_of_ne hne]
      exact ih h.2 hmem

/-! ## Tables -/

structure Column where
  name : Str
  type : Str
  notNull : Bool
  primaryKeyOrder : Nat
deriving DecidableEq

structure AppTable where
  name : Str
  columns : List Column
  dependencies : List Str
  conflictProtected : Bool
deriving DecidableEq

/-- What SQLite says of a table: `table_info`, the tables of `foreign_key_list`, the `unique` flags of `index_list`. -/
structure SqliteTable where
  name : Str
  tableInfo : List Column
  foreignKeys : List Str
  uniqueFlags : List Bool
deriving DecidableEq

def EXCLUDED_TABLES : List Str :=
  [str "d1_migrations", str "sqlite_sequence", str "cpoly_backup_sets", str "cpoly_backup_chunks",
    str "cpoly_backup_chunk_inventory", str "cpoly_signed_api_nonces", str "cpoly_pg_write_journal",
    str "cpoly_recovery_runtime"]

def INTERNAL_TABLE_PREFIXES : List Str := [str "sqlite_", str "_cf_"]

def isInternalTableName (name : Str) : Bool := INTERNAL_TABLE_PREFIXES.any (fun start => start.isPrefixOf name)

/-- The table is one of the application. -/
def isApplicationTable (name : Str) : Bool := !(EXCLUDED_TABLES.contains name || isInternalTableName name)

def isIdentifierStart (u : UInt16) : Bool :=
  decide (65 ≤ u.toNat ∧ u.toNat ≤ 90) || decide (97 ≤ u.toNat ∧ u.toNat ≤ 122) || decide (u = unit '_')

/-- `IDENTIFIER_PATTERN`. -/
def isIdentifier : Str → Bool
  | [] => false
  | u :: name => isIdentifierStart u &&
      name.all (fun v => isIdentifierStart v || decide (48 ≤ v.toNat ∧ v.toNat ≤ 57))

/-- What an exception says. -/
abbrev Thrown := Str

def assertSafeIdentifier (name kind : Str) : Except Thrown Unit :=
  if isIdentifier name then .ok ()
  else .error (str "Unexpected " ++ kind ++ str " identifier '" ++ name ++ str "'.")

/-- The body of the loop of `loadApplicationTables`. -/
def loadTable (row : SqliteTable) : Except Thrown AppTable := do
  assertSafeIdentifier row.name (str "table")
  row.tableInfo.forM (fun column => assertSafeIdentifier column.name (str "column"))
  return {
    name := row.name
    columns := row.tableInfo
    dependencies := row.foreignKeys.filter isApplicationTable
    conflictProtected := row.tableInfo.any (fun column => decide (0 < column.primaryKeyOrder)) || row.uniqueFlags.any id }

/-! ## The sort -/

/-- The position that `orderByName` holds. -/
def orderByName (tables : List AppTable) (name : Str) : Nat :=
  ((mapOf (tables.mapIdx (fun index table => (table.name, index)))).lookup name).getD 0

def tablesByName (tables : List AppTable) (name : Str) : Option AppTable :=
  (mapOf (tables.map (fun table => (table.name, table)))).lookup name

/-- The tables of the list to which a table refers, itself apart. -/
def dependencySet (tables : List AppTable) (table : AppTable) : Finset Str :=
  (table.dependencies.filter (fun dependency =>
    (tables.map AppTable.name).contains dependency && decide (dependency ≠ table.name))).toFinset

abbrev Remaining := List (Str × Finset Str)

/-- `remaining` before the loop. -/
def remainingOf (tables : List AppTable) : Remaining :=
  mapOf (tables.map (fun table => (table.name, dependencySet tables table)))

/-- Names by their position in the list of tables. -/
def sortNames (tables : List AppTable) (names : List Str) : List Str :=
  names.insertionSort (fun left right => orderByName tables left ≤ orderByName tables right)

def readyNames (tables : List AppTable) (remaining : Remaining) : List Str :=
  sortNames tables ((remaining.filter (fun e => decide (e.2.card = 0))).map Prod.fst)

def nextNames (tables : List AppTable) (remaining : Remaining) : List Str :=
  if (readyNames tables remaining).isEmpty then (sortNames tables (remaining.map Prod.fst)).take 1
  else readyNames tables remaining

/-- `remaining.delete` of a name, and its deletion from every set. -/
def settle (remaining : Remaining) (name : Str) : Remaining :=
  (remaining.filter (fun e => decide (e.1 ≠ name))).map (fun e => (e.1, e.2.erase name))

/-- The rounds of the loop, at most so many; `none` when tables are left after them. -/
def sortRounds (tables : List AppTable) : Nat → Remaining → Option (List AppTable)
  | _, [] => some []
  | 0, _ :: _ => none
  | fuel + 1, e :: remaining => do
    let names := nextNames tables (e :: remaining)
    let ordered ← sortRounds tables fuel (names.foldl settle (e :: remaining))
    return names.filterMap (tablesByName tables) ++ ordered

/-- `topologicallySortTables`, with a round for each table. -/
def topologicallySortTables (tables : List AppTable) : Option (List AppTable) :=
  sortRounds tables tables.length (remainingOf tables)

/-! ## What the sort does -/

/-- A table of the list refers to another one. -/
def Refers (tables : List AppTable) (table other : AppTable) : Prop :=
  table ∈ tables ∧ other ∈ tables ∧ other.name ∈ table.dependencies ∧ other.name ≠ table.name

/-- The map that the loop keeps, of the tables left. -/
def leftOver (tables left : List AppTable) : Remaining :=
  left.map (fun table => (table.name, (dependencySet tables table).filter (· ∈ left.map AppTable.name)))

theorem mem_dependencySet {tables : List AppTable} {table : AppTable} {name : Str} :
    name ∈ dependencySet tables table ↔
      name ∈ table.dependencies ∧ name ∈ tables.map AppTable.name ∧ name ≠ table.name := by
  rw [dependencySet, List.mem_toFinset, List.mem_filter, Bool.and_eq_true, List.contains_iff_mem, decide_eq_true_iff]

theorem remainingOf_eq {tables : List AppTable} (hnames : (tables.map AppTable.name).Nodup) :
    remainingOf tables = leftOver tables tables := by
  rw [remainingOf, mapOf_nodup (by simpa [Function.comp_def] using hnames), leftOver]
  refine List.map_congr_left (fun table _ => ?_)
  have hall : (dependencySet tables table).filter (· ∈ tables.map AppTable.name) = dependencySet tables table :=
    Finset.filter_true_of_mem (fun name hname => (mem_dependencySet.1 hname).2.1)
  rw [hall]

theorem tablesByName_eq {tables : List AppTable} (hnames : (tables.map AppTable.name).Nodup) {table : AppTable}
    (htable : table ∈ tables) : tablesByName tables table.name = some table := by
  have hkeys : ((tables.map (fun table => (table.name, table))).map Prod.fst).Nodup := by
    simpa [Function.comp_def] using hnames
  rw [tablesByName, mapOf_nodup hkeys]
  exact lookup_of_mem hkeys (List.mem_map.2 ⟨table, htable, rfl⟩)

/-- The tables of names that are those of tables of the list. -/
theorem filterMap_tablesByName {tables : List AppTable} (hnames : (tables.map AppTable.name).Nodup)
    {left : List AppTable} (hleft : ∀ table ∈ left, table ∈ tables) :
    (left.map AppTable.name).filterMap (tablesByName tables) = left := by
  induction left with
  | nil => rfl
  | cons table left ih =>
    rw [List.map_cons, List.filterMap_cons, tablesByName_eq hnames (hleft table (by simp))]
    exact congrArg (table :: ·) (ih (fun t ht => hleft t (by simp [ht])))

/-- Striking a name leaves the map of the other tables. -/
theorem settle_leftOver (tables left : List AppTable) (name : Str) :
    settle (leftOver tables left) name = leftOver tables (left.filter (fun table => decide (table.name ≠ name))) := by
  rw [settle, leftOver, leftOver, List.filter_map, List.map_map]
  refine List.map_congr_left (fun table _ => ?_)
  refine Prod.ext rfl (Finset.ext (fun other => ?_))
  simp only [Function.comp_apply, Finset.mem_erase, Finset.mem_filter, List.mem_map, List.mem_filter,
    decide_eq_true_eq]
  constructor
  · rintro ⟨hne, hdependency, t, ht, rfl⟩
    exact ⟨hdependency, t, ⟨ht, hne⟩, rfl⟩
  · rintro ⟨hdependency, t, ⟨ht, hne⟩, rfl⟩
    exact ⟨hne, hdependency, t, ht, rfl⟩

theorem foldl_settle (tables : List AppTable) (names : List Str) (left : List AppTable) :
    names.foldl settle (leftOver tables left) =
      leftOver tables (left.filter (fun table => decide (table.name ∉ names))) := by
  induction names generalizing left with
  | nil => simp
  | cons name names ih =>
    rw [List.foldl_cons, settle_leftOver, ih, List.filter_filter]
    refine congrArg (leftOver tables) (List.filter_congr (fun table _ => ?_))
    simp [Bool.and_comm]

/-- The tables left whose set in the map is empty. -/
def readyTables (tables left : List AppTable) : List AppTable :=
  left.filter (fun table =>
    decide (((dependencySet tables table).filter (· ∈ left.map AppTable.name)).card = 0))

/-- Tables by their position in the list. -/
def sortTables (tables left : List AppTable) : List AppTable :=
  left.insertionSort (fun table other => orderByName tables table.name ≤ orderByName tables other.name)

/-- The tables of a round. -/
def nextTables (tables left : List AppTable) : List AppTable :=
  if (readyTables tables left).isEmpty then (sortTables tables left).take 1 else sortTables tables (readyTables tables left)

theorem mem_sortTables {tables left : List AppTable} {table : AppTable} : table ∈ sortTables tables left ↔ table ∈ left :=
  List.mem_insertionSort _

theorem sortNames_map (tables left : List AppTable) :
    sortNames tables (left.map AppTable.name) = (sortTables tables left).map AppTable.name :=
  (List.map_insertionSort (fun (table other : AppTable) => orderByName tables table.name ≤ orderByName tables other.name)
    (fun (name other : Str) => orderByName tables name ≤ orderByName tables other) AppTable.name left
    (fun _ _ _ _ => Iff.rfl)).symm

theorem readyNames_leftOver (tables left : List AppTable) :
    readyNames tables (leftOver tables left) = (sortTables tables (readyTables tables left)).map AppTable.name := by
  rw [← sortNames_map, readyNames, leftOver, List.filter_map, List.map_map]
  rfl

theorem nextNames_leftOver (tables left : List AppTable) :
    nextNames tables (leftOver tables left) = (nextTables tables left).map AppTable.name := by
  have hkeys : (leftOver tables left).map Prod.fst = left.map AppTable.name := by
    rw [leftOver, List.map_map]
    rfl
  have hempty : (readyNames tables (leftOver tables left)).isEmpty = (readyTables tables left).isEmpty := by
    rw [readyNames_leftOver, List.isEmpty_map, Bool.eq_iff_iff, List.isEmpty_iff, List.isEmpty_iff,
      ← List.length_eq_zero_iff, sortTables, List.length_insertionSort, List.length_eq_zero_iff]
  rw [nextNames, nextTables, hempty, hkeys, sortNames_map, readyNames_leftOver]
  split
  · rw [List.map_take]
  · rfl

theorem mem_readyTables {tables left : List AppTable} (hleft : ∀ table ∈ left, table ∈ tables) {table : AppTable} :
    table ∈ readyTables tables left ↔ table ∈ left ∧ DependencyOrder.Ready (Refers tables) left table := by
  rw [readyTables, List.mem_filter, decide_eq_true_iff, Finset.card_eq_zero, Finset.filter_eq_empty_iff]
  refine and_congr_right (fun htable => ⟨fun h other hother hrefers => ?_, fun h name hname hmem => ?_⟩)
  · obtain ⟨-, hin, hdependency, hne⟩ := hrefers
    exact h (mem_dependencySet.2 ⟨hdependency, List.mem_map_of_mem hin, hne⟩) (List.mem_map_of_mem hother)
  · obtain ⟨other, hother, rfl⟩ := List.mem_map.1 hmem
    obtain ⟨hdependency, -, hne⟩ := mem_dependencySet.1 hname
    exact h other hother ⟨hleft table htable, hleft other hother, hdependency, hne⟩

theorem nextTables_subset {tables left : List AppTable} {table : AppTable} (h : table ∈ nextTables tables left) :
    table ∈ left := by
  rw [nextTables] at h
  split at h
  · exact mem_sortTables.1 (List.mem_of_mem_take h)
  · exact List.mem_of_mem_filter (mem_sortTables.1 h)

theorem nextTables_ne_nil {tables left : List AppTable} (hne : left ≠ []) : nextTables tables left ≠ [] := by
  have hsort : ∀ l : List AppTable, l ≠ [] → sortTables tables l ≠ [] := fun l hl h => by
    obtain ⟨table, htable⟩ := List.exists_mem_of_ne_nil l hl
    have hmem : table ∈ sortTables tables l := mem_sortTables.2 htable
    rw [h] at hmem
    cases hmem
  rw [nextTables]
  split
  · intro h
    exact (List.take_eq_nil_iff.1 h).elim (by omega) (hsort left hne)
  · rename_i hready
    exact hsort _ (fun h => hready (by rw [h]; rfl))

theorem nextTables_ready {tables left : List AppTable} (hleft : ∀ table ∈ left, table ∈ tables)
    (hready : ∃ table ∈ left, DependencyOrder.Ready (Refers tables) left table) :
    ∀ table ∈ nextTables tables left, DependencyOrder.Ready (Refers tables) left table := by
  obtain ⟨first, hfirst, hfirstReady⟩ := hready
  have hne : (readyTables tables left).isEmpty = false := by
    rw [List.isEmpty_eq_false_iff]
    exact List.ne_nil_of_mem ((mem_readyTables hleft).2 ⟨hfirst, hfirstReady⟩)
  intro table htable
  rw [nextTables, hne] at htable
  exact ((mem_readyTables hleft).1 (mem_sortTables.1 htable)).2

theorem nextTables_nodup {tables left : List AppTable} (hnodup : left.Nodup) : (nextTables tables left).Nodup := by
  have hsort : ∀ l : List AppTable, l.Nodup → (sortTables tables l).Nodup := fun l hl =>
    (List.perm_insertionSort _ l).nodup_iff.2 hl
  rw [nextTables]
  split
  · exact (List.take_sublist _ _).nodup (hsort left hnodup)
  · exact hsort _ (List.filter_sublist.nodup hnodup)

/-- The tables left are those of the round and the ones that stay. -/
theorem nextTables_split {tables left : List AppTable} (hnames : (left.map AppTable.name).Nodup) :
    left.Perm (nextTables tables left ++
      left.filter (fun table => decide (table.name ∉ (nextTables tables left).map AppTable.name))) := by
  have hnodup : left.Nodup := hnames.of_map
  have htaken : (left.filter (fun table => decide (table.name ∈ (nextTables tables left).map AppTable.name))).Perm
      (nextTables tables left) := by
    refine (List.perm_ext_iff_of_nodup (List.filter_sublist.nodup hnodup) (nextTables_nodup hnodup)).2 (fun table => ?_)
    rw [List.mem_filter, decide_eq_true_iff]
    refine ⟨fun ⟨hmem, hname⟩ => ?_, fun h => ⟨nextTables_subset h, List.mem_map_of_mem h⟩⟩
    obtain ⟨other, hother, heq⟩ := List.mem_map.1 hname
    rwa [List.inj_on_of_nodup_map hnames hmem (nextTables_subset hother) heq.symm]
  refine (List.filter_append_perm _ left).symm.trans ((htaken.append_right _).trans (.of_eq ?_))
  refine congrArg _ (List.filter_congr (fun table _ => ?_))
  rw [decide_not]

/-- **The loop ends after at most a round for each table left**, and its rounds take the tables left. -/
theorem sortRounds_taken {tables : List AppTable} (hnames : (tables.map AppTable.name).Nodup) (fuel : Nat) :
    ∀ left : List AppTable, left.Sublist tables → left.length ≤ fuel →
      ∃ ordered, sortRounds tables fuel (leftOver tables left) = some ordered ∧
        DependencyOrder.Taken (Refers tables) left ordered := by
  induction fuel with
  | zero =>
    intro left _ hlength
    rw [List.eq_nil_of_length_eq_zero (Nat.le_zero.1 hlength)]
    exact ⟨[], rfl, .nil⟩
  | succ fuel ih =>
    intro left hsub hlength
    cases hleft : left with
    | nil => exact ⟨[], rfl, .nil⟩
    | cons first others =>
      rw [← hleft]
      have hne : left ≠ [] := by rw [hleft]; exact List.cons_ne_nil _ _
      have hmem : ∀ table ∈ left, table ∈ tables := fun table ht => hsub.subset ht
      have hsplit := @nextTables_split tables left ((hsub.map AppTable.name).nodup hnames)
      let rest := left.filter (fun table => decide (table.name ∉ (nextTables tables left).map AppTable.name))
      have hshorter : rest.length ≤ fuel := by
        have hsum := hsplit.length_eq
        have htaken := List.length_pos_of_ne_nil (@nextTables_ne_nil tables left hne)
        rw [List.length_append] at hsum
        show (left.filter _).length ≤ fuel
        omega
      obtain ⟨ordered, hordered, htaken⟩ := ih rest (List.filter_sublist.trans hsub) hshorter
      refine ⟨nextTables tables left ++ ordered, ?_, .round hsplit (nextTables_ready hmem) htaken⟩
      have hcons : ∃ e remaining, leftOver tables left = e :: remaining := by
        rw [hleft]
        exact ⟨_, _, rfl⟩
      obtain ⟨e, remaining, hremaining⟩ := hcons
      rw [hremaining, sortRounds, ← hremaining, nextNames_leftOver, foldl_settle, hordered,
        filterMap_tablesByName hnames (fun table ht => hmem table (nextTables_subset ht))]
      rfl

/-- **The sort returns the tables of the list**, each after those it refers to where no references go in a circle. -/
theorem topologicallySortTables_spec {tables : List AppTable} (hnames : (tables.map AppTable.name).Nodup) :
    ∃ ordered, topologicallySortTables tables = some ordered ∧ ordered.Perm tables ∧
      (DependencyOrder.Acyclic (Refers tables) → DependencyOrder.Sorted (Refers tables) tables ordered) := by
  obtain ⟨ordered, hordered, htaken⟩ := sortRounds_taken hnames tables.length tables (.refl _) (Nat.le_refl _)
  refine ⟨ordered, ?_, htaken.perm, fun hacyclic => htaken.sorted hacyclic⟩
  rw [topologicallySortTables, remainingOf_eq hnames, hordered]

end Migration
end Adg
