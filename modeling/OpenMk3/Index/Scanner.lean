import OpenMk3.Index.Schema
import OpenMk3.Library.KeyedRows

/-!
# The library scanner

The upsert of one preset file, the walk over a root and the counts of a scan.
-/

namespace OpenMk3
namespace Index

open Library Nks

variable {ε : Type}

/-!
## Files
-/

/-- What the file system reports of a file: nanoseconds since the epoch, when
the platform has them, and the length. -/
structure FileMetadata where
  modified : Option Int
  len : Nat
deriving DecidableEq, Repr

/-- Times before the epoch and missing times are stored as 0; the casts to
`i64` wrap. -/
def FileMetadata.stamp (md : FileMetadata) : Stamp :=
  { mtimeNs :=
      match md.modified with
      | some ns => if 0 <= ns then Int64.ofInt ns else 0
      | none => 0
    size := Int64.ofNat md.len }

inductive IndexError (ε : Type) where
  | sqlite
  | io (kind : IoErrorKind)
  | parse (e : NksError ε)
deriving DecidableEq, Repr

/-- The outside of a scan: metadata reads and parses, by path. -/
structure Source (ε : Type) where
  metadata : Path -> Except IoErrorKind FileMetadata
  scan : Path -> Except (NksError ε) NksFile

/-!
## Upserts
-/

/-- The statements after the preset's id is known. -/
def rowStatements (id : Nat) (m : Metadata) : List Statement :=
  [.deleteTypes id, .deleteModes id] ++
    (m.types.map (.insertType id) ++
      (m.modes.map (.insertMode id) ++ [.deleteFts id, .insertFts id m]))

/-- The body of the transaction.  `fails n` is a fault of the `n`-th SQL
operation of the upsert, the first query being number 0. -/
def writeRows (contentlessDelete : Bool) (fails : Nat -> Bool) (path : Path)
    (m : Metadata) (stamp : Stamp) (t : Tables) : Option Tables :=
  let perform := Transaction.runFaulty (exec contentlessDelete) fails
  -- begin
  if fails 1 then none
  else
    (perform 2 [.upsertPreset path m stamp] t).bind fun t =>
      if fails 3 then none
      else
        (t.rowOf path).bind fun row =>
          let statements := rowStatements row.id m
          (perform 4 statements t).bind fun t =>
            -- commit
            if fails (4 + statements.length) then none else some t

/-- `Scanner::upsert`; a transaction that fails is dropped and rolled back. -/
def upsert (contentlessDelete : Bool) (src : Source ε) (fails : Nat -> Bool)
    (path : Path) (t : Tables) : Except (IndexError ε) Bool × Tables :=
  match src.metadata path with
  | .error kind => (.error (.io kind), t)
  | .ok md =>
      let stamp := md.stamp
      -- a query that fails counts as no row
      let existing := if fails 0 then none else (t.rowOf path).map (·.stamp)
      if existing = some stamp then (.ok false, t)
      else
        match src.scan path with
        | .error e => (.error (.parse e), t)
        | .ok nks =>
            let body := writeRows contentlessDelete fails path
              (Metadata.ofNks nks) stamp
            match Transaction.transact body t with
            | (true, t') => (.ok true, t')
            | (false, t') => (.error .sqlite, t')

/-!
## Walks
-/

/-- The entries of a directory, in the order it lists them. -/
inductive Listing where
  | nil
  | file (name : String) (rest : Listing)
  | dir (name : String) (error : Option IoErrorKind) (entries rest : Listing)
deriving DecidableEq, Repr

/-- A directory on the walk's stack, with the error that reading it gives. -/
structure Directory where
  path : Path
  error : Option IoErrorKind
  entries : Listing
deriving DecidableEq, Repr

namespace Listing

/-- The paths of a directory's own files. -/
def files (path : Path) : Listing -> List Path
  | nil => []
  | file name rest => (path ++ [name]) :: rest.files path
  | dir _ _ _ rest => rest.files path

def subdirs (path : Path) : Listing -> List Directory
  | nil => []
  | file _ rest => rest.subdirs path
  | dir name error entries rest =>
      { path := path ++ [name], error := error, entries := entries } ::
        rest.subdirs path

def size : Listing -> Nat
  | nil => 0
  | file _ rest => rest.size
  | dir _ _ entries rest => entries.size + 1 + rest.size

end Listing

/-- The directories still to be read. -/
def stackSize (stack : List Directory) : Nat :=
  (stack.map fun d => d.entries.size + 1).sum

theorem stackSize_subdirs (path : Path) (entries : Listing) :
    stackSize (entries.subdirs path) = entries.size := by
  induction entries with
  | nil =>
      rfl
  | file name rest ih =>
      exact ih
  | dir name error entries rest _ ih =>
      rw [Listing.subdirs, stackSize, List.map_cons, List.sum_cons]
      rw [stackSize] at ih
      rw [ih]
      rfl

theorem stackSize_push (path : Path) (entries : Listing)
    (stack : List Directory) :
    stackSize ((entries.subdirs path).reverse ++ stack) =
      entries.size + stackSize stack := by
  have hsub := stackSize_subdirs path entries
  unfold stackSize at hsub ⊢
  rw [List.map_append, List.sum_append, List.map_reverse, List.sum_reverse,
    hsub]

/-- The visited paths, and the error that ended the walk early.  The last
subdirectory pushed is read first. -/
def walkStack : List Directory -> List Path × Option IoErrorKind
  | [] => ([], none)
  | dir :: stack =>
      match dir.error with
      | some .permissionDenied => walkStack stack
      | some e => ([], some e)
      | none =>
          let (visited, error) := walkStack
            ((dir.entries.subdirs dir.path).reverse ++ stack)
          (dir.entries.files dir.path ++ visited, error)
termination_by stack => stackSize stack
decreasing_by
  · simp [stackSize]
  · rw [stackSize_push]
    simp [stackSize]

/-- The walk of a root, when it exists. -/
def walk : Option Directory -> List Path × Option IoErrorKind
  | none => ([], none)
  | some root => walkStack [root]

/-!
## Scans
-/

/-- `Path::extension` of a file name that is UTF-8. -/
def extension (name : String) : Option String :=
  (extensionOf '.' name.toList).map String.ofList

def isNksf (path : Path) : Bool :=
  path.getLast?.bind extension = some "nksf"

structure ScanStats where
  seen : Nat := 0
  added : Nat := 0
  updated : Nat := 0
  skipped : Nat := 0
  failed : Nat := 0
deriving DecidableEq, Repr

/-- The SQL operations of these runs do not fail by themselves. -/
def noFaults : Nat -> Bool := fun _ => false

/-- The closure that `scan_root` hands to the walk. -/
def visit (src : Source ε) (s : ScanStats × Tables) (path : Path) :
    ScanStats × Tables :=
  if isNksf path then
    let stats := { s.1 with seen := s.1.seen + 1 }
    match upsert false src noFaults path s.2 with
    | (.ok true, t) => ({ stats with added := stats.added + 1 }, t)
    | (.ok false, t) => ({ stats with updated := stats.updated + 1 }, t)
    | (.error _, t) => ({ stats with failed := stats.failed + 1 }, t)
  else s

def scanRoot (src : Source ε) (root : Option Directory) (t : Tables) :
    Except (IndexError ε) ScanStats × Tables :=
  let (visited, error) := walk root
  let (stats, t) := visited.foldl (visit src) ({}, t)
  match error with
  | some kind => (.error (.io kind), t)
  | none => (.ok stats, t)

/-- One turn of the loop over the libraries; a failed scan counts nothing. -/
def scanLibrary (s : Nat × Tables) (library : Source ε × Option Directory) :
    Nat × Tables :=
  match scanRoot library.1 library.2 s.2 with
  | (.ok st, t) => (s.1 + (st.added + st.updated), t)
  | (.error _, t) => (s.1, t)

/-- `presets_changed` of a `ScanLibraries` reply, and the tables after it. -/
def scanLibraries (libraries : List (Source ε × Option Directory))
    (t : Tables) : Nat × Tables :=
  libraries.foldl scanLibrary (0, t)

/-- The preset files that a walk visits. -/
def presetPaths (root : Option Directory) : List Path :=
  (walk root).1.filter isNksf

theorem visit_tables (src : Source ε) (s : ScanStats × Tables) (path : Path) :
    (visit src s path).2 =
      if isNksf path then (upsert false src noFaults path s.2).2 else s.2 := by
  unfold visit
  split
  · cases upsert false src noFaults path s.2 with
    | mk result t =>
        cases result with
        | error e =>
            rfl
        | ok b =>
            cases b with
            | true =>
                rfl
            | false =>
                rfl
  · rfl

theorem foldl_visit_filter (src : Source ε) (visited : List Path)
    (s : ScanStats × Tables) :
    visited.foldl (visit src) s =
      (visited.filter isNksf).foldl (visit src) s := by
  induction visited generalizing s with
  | nil =>
      rfl
  | cons path rest ih =>
      rw [List.foldl_cons, ih]
      by_cases hnksf : isNksf path = true
      · rw [List.filter_cons_of_pos hnksf, List.foldl_cons]
      · rw [List.filter_cons_of_neg hnksf, visit, if_neg hnksf]

/-- A scan visits the preset files of its walk, and fails if the walk does. -/
theorem scanRoot_eq (src : Source ε) (root : Option Directory) (t : Tables) :
    scanRoot src root t =
      let out := (presetPaths root).foldl (visit src) ({}, t)
      (match (walk root).2 with
        | some kind => .error (.io kind)
        | none => .ok out.1,
        out.2) := by
  unfold scanRoot presetPaths
  dsimp only
  rw [foldl_visit_filter]
  cases (walk root).2 with
  | none =>
      rfl
  | some kind =>
      rfl

theorem foldl_visit_tables (src : Source ε) {paths : List Path}
    (h : forall path, path ∈ paths -> isNksf path = true)
    (s : ScanStats × Tables) :
    (paths.foldl (visit src) s).2 =
      paths.foldl (fun t path => (upsert false src noFaults path t).2) s.2 := by
  induction paths generalizing s with
  | nil =>
      rfl
  | cons path rest ih =>
      rw [List.foldl_cons, List.foldl_cons,
        ih fun p hp => h p (List.mem_cons_of_mem _ hp), visit_tables,
        if_pos (h path (List.mem_cons_self ..))]

theorem isNksf_of_mem_presetPaths {root : Option Directory} {path : Path}
    (h : path ∈ presetPaths root) : isNksf path = true :=
  (List.mem_filter.mp h).right

theorem scanRoot_tables (src : Source ε) (root : Option Directory)
    (t : Tables) :
    (scanRoot src root t).2 =
      (presetPaths root).foldl
        (fun t path => (upsert false src noFaults path t).2) t := by
  rw [scanRoot_eq]
  exact foldl_visit_tables src (fun _ hp => isNksf_of_mem_presetPaths hp)
    ({}, t)

/-!
## What a committed upsert writes
-/

namespace Tables

/-- The id under which a path's rows are written. -/
def idFor (t : Tables) (path : Path) : Nat :=
  match t.rowOf path with
  | some row => row.id
  | none => t.nextId

/-- The preset rows after the first statement. -/
def placed (t : Tables) (path : Path) (m : Metadata) (stamp : Stamp) :
    List PresetRow :=
  if (t.rowOf path).isSome then
    t.presets.map fun r =>
      if r.path = path then PresetRow.of r.id path m stamp else r
  else t.presets ++ [PresetRow.of t.nextId path m stamp]

/-- The tables after a committed upsert. -/
def written (t : Tables) (path : Path) (m : Metadata) (stamp : Stamp) :
    Tables :=
  { presets := t.placed path m stamp
    presetTypes := replaceRows TypeRow.presetId (t.idFor path)
      (m.types.map (TypeRow.of (t.idFor path))) t.presetTypes
    presetModes := replaceRows ModeRow.presetId (t.idFor path)
      (m.modes.map (ModeRow.of (t.idFor path))) t.presetModes
    presetsFts := replaceRows FtsRow.rowid (t.idFor path)
      [FtsRow.of (t.idFor path) m] t.presetsFts
    sequence := t.nextId }

/-- The search table rejects the delete of the path's row. -/
def Rejects (contentlessDelete : Bool) (t : Tables) (path : Path) : Prop :=
  t.HasFts (t.idFor path) ∧ contentlessDelete = false

instance (contentlessDelete : Bool) (t : Tables) (path : Path) :
    Decidable (t.Rejects contentlessDelete path) :=
  inferInstanceAs (Decidable (_ ∧ _))

theorem rowOf_eq_none_iff {t : Tables} {path : Path} :
    t.rowOf path = none <-> forall r, r ∈ t.presets -> r.path ≠ path := by
  unfold rowOf
  rw [List.find?_eq_none]
  simp

theorem rowOf_mem {t : Tables} {path : Path} {row : PresetRow}
    (h : t.rowOf path = some row) : row ∈ t.presets ∧ row.path = path := by
  unfold rowOf at h
  exact ⟨List.mem_of_find?_eq_some h, by simpa using List.find?_some h⟩

end Tables

theorem find?_map_row {rows : List PresetRow} {path : Path} {m : Metadata}
    {stamp : Stamp} :
    (rows.map fun r =>
      if r.path = path then PresetRow.of r.id path m stamp else r).find?
        (fun r => r.path = path) =
      (rows.find? fun r => r.path = path).map fun r =>
        PresetRow.of r.id path m stamp := by
  induction rows with
  | nil =>
      rfl
  | cons r rest ih =>
      rw [List.map_cons]
      by_cases hpath : r.path = path
      · rw [if_pos hpath, List.find?_cons_of_pos (by simp [PresetRow.of]),
          List.find?_cons_of_pos (by simp [hpath])]
        rfl
      · rw [if_neg hpath, List.find?_cons_of_neg (by simp [hpath]),
          List.find?_cons_of_neg (by simp [hpath])]
        exact ih

/-- The query after the first statement finds the row just written. -/
theorem rowOf_placed (t : Tables) (path : Path) (m : Metadata)
    (stamp : Stamp) (seq : Nat) :
    ({ t with presets := t.placed path m stamp, sequence := seq } :
      Tables).rowOf path =
      some (PresetRow.of (t.idFor path) path m stamp) := by
  unfold Tables.placed Tables.idFor
  cases hrow : t.rowOf path with
  | some row =>
      simp only [Option.isSome_some, if_true]
      unfold Tables.rowOf at hrow ⊢
      rw [find?_map_row, hrow]
      rfl
  | none =>
      simp only [Option.isSome_none, Bool.false_eq_true, if_false]
      unfold Tables.rowOf at hrow ⊢
      rw [List.find?_append, hrow, Option.none_or]
      simp [PresetRow.of]

theorem runAll_insertTypes (contentlessDelete : Bool) (id : Nat)
    (pairs : List (String × String)) (t : Tables) :
    Transaction.runAll (exec contentlessDelete)
        (pairs.map (Statement.insertType id)) t =
      some { t with
        presetTypes := t.presetTypes ++ pairs.map (TypeRow.of id) } := by
  refine @Transaction.runAll_map _ _ _ _ _
    (fun t pairs => { t with
      presetTypes := t.presetTypes ++ pairs.map (TypeRow.of id) }) ?_ ?_ pairs t
  · intro t
    simp
  · intro t pair rest
    exact ⟨_, rfl, by simp⟩

theorem runAll_insertModes (contentlessDelete : Bool) (id : Nat)
    (modes : List String) (t : Tables) :
    Transaction.runAll (exec contentlessDelete)
        (modes.map (Statement.insertMode id)) t =
      some { t with
        presetModes := t.presetModes ++ modes.map (ModeRow.of id) } := by
  refine @Transaction.runAll_map _ _ _ _ _
    (fun t modes => { t with
      presetModes := t.presetModes ++ modes.map (ModeRow.of id) }) ?_ ?_ modes t
  · intro t
    simp
  · intro t mode rest
    exact ⟨_, rfl, by simp⟩

theorem runAll_rowStatements (contentlessDelete : Bool) (id : Nat)
    (m : Metadata) (t : Tables) :
    Transaction.runAll (exec contentlessDelete) (rowStatements id m) t =
      if t.HasFts id ∧ contentlessDelete = false then none
      else
        some
          { t with
            presetTypes := replaceRows TypeRow.presetId id
              (m.types.map (TypeRow.of id)) t.presetTypes
            presetModes := replaceRows ModeRow.presetId id
              (m.modes.map (ModeRow.of id)) t.presetModes
            presetsFts := replaceRows FtsRow.rowid id [FtsRow.of id m]
              t.presetsFts } := by
  unfold rowStatements
  simp only [Transaction.runAll_append, Transaction.runAll, exec,
    Option.bind_some, runAll_insertTypes, runAll_insertModes]
  split
  · rename_i hrejects
    exact (if_pos hrejects).symm
  · rename_i hrejects
    exact (if_neg hrejects).symm

/-- The statements of an upsert, run one after the other. -/
theorem runAll_upsert (contentlessDelete : Bool) (path : Path) (m : Metadata)
    (stamp : Stamp) (t : Tables) :
    ((Transaction.runAll (exec contentlessDelete)
      [.upsertPreset path m stamp] t).bind fun t =>
        (t.rowOf path).bind fun row =>
          Transaction.runAll (exec contentlessDelete)
            (rowStatements row.id m) t) =
      if t.Rejects contentlessDelete path then none
      else some (t.written path m stamp) := by
  have hplace : Transaction.runAll (exec contentlessDelete)
      [.upsertPreset path m stamp] t =
        some { t with presets := t.placed path m stamp, sequence := t.nextId } :=
    rfl
  rw [hplace, Option.bind_some, rowOf_placed, Option.bind_some,
    runAll_rowStatements]
  rfl

/-- A body that ends writes exactly the path's rows. -/
theorem writeRows_some {contentlessDelete : Bool} {fails : Nat -> Bool}
    {path : Path} {m : Metadata} {stamp : Stamp} {t t' : Tables}
    (h : writeRows contentlessDelete fails path m stamp t = some t') :
    Not (t.Rejects contentlessDelete path) ∧ t' = t.written path m stamp := by
  unfold writeRows at h
  dsimp only at h
  split at h
  · cases h
  rcases Option.bind_eq_some_iff.mp h with ⟨t1, hplace, h⟩
  split at h
  · cases h
  rcases Option.bind_eq_some_iff.mp h with ⟨row, hrow, h⟩
  rcases Option.bind_eq_some_iff.mp h with ⟨t2, hrows, h⟩
  split at h
  · cases h
  cases h
  have hrun := runAll_upsert contentlessDelete path m stamp t
  rw [Transaction.runAll_of_runFaulty hplace, Option.bind_some, hrow,
    Option.bind_some, Transaction.runAll_of_runFaulty hrows] at hrun
  split at hrun
  · cases hrun
  · rename_i hrejects
    cases hrun
    exact ⟨hrejects, rfl⟩

/-- Without faults the body ends unless the search table rejects it. -/
theorem writeRows_of_no_faults (contentlessDelete : Bool) {fails : Nat -> Bool}
    (hfails : forall n, fails n = false) (path : Path) (m : Metadata)
    (stamp : Stamp) (t : Tables) :
    writeRows contentlessDelete fails path m stamp t =
      if t.Rejects contentlessDelete path then none
      else some (t.written path m stamp) := by
  rw [<- runAll_upsert]
  unfold writeRows
  simp only [hfails, Bool.false_eq_true, if_false,
    Transaction.runFaulty_of_no_faults hfails, Option.bind_fun_some]

/-- Everything an upsert can do. -/
theorem upsert_cases (contentlessDelete : Bool) (src : Source ε)
    (fails : Nat -> Bool) (path : Path) (t : Tables) :
    (exists e, upsert contentlessDelete src fails path t = (.error e, t)) ∨
      upsert contentlessDelete src fails path t = (.ok false, t) ∨
      exists md nks, src.metadata path = .ok md ∧ src.scan path = .ok nks ∧
        upsert contentlessDelete src fails path t =
          (.ok true, t.written path (Metadata.ofNks nks) md.stamp) := by
  unfold upsert
  cases hmd : src.metadata path with
  | error kind =>
      exact Or.inl ⟨_, rfl⟩
  | ok md =>
      dsimp only
      by_cases hskip : (if fails 0 = true then none
          else (t.rowOf path).map (·.stamp)) = some md.stamp
      · rw [if_pos hskip]
        exact Or.inr (Or.inl rfl)
      · rw [if_neg hskip]
        cases hscan : src.scan path with
        | error e =>
            exact Or.inl ⟨_, rfl⟩
        | ok nks =>
            dsimp only
            cases hbody : writeRows contentlessDelete fails path
                (Metadata.ofNks nks) md.stamp t with
            | none =>
                rw [Transaction.transact_of_none hbody]
                exact Or.inl ⟨_, rfl⟩
            | some t' =>
                rw [Transaction.transact_of_some hbody]
                rw [(writeRows_some hbody).right]
                exact Or.inr (Or.inr ⟨md, nks, rfl, rfl, rfl⟩)

/-- An upsert under no faults, by what it finds. -/
theorem upsert_noFaults (contentlessDelete : Bool) (src : Source ε)
    (path : Path) (t : Tables) :
    upsert contentlessDelete src noFaults path t =
      match src.metadata path with
      | .error kind => (.error (.io kind), t)
      | .ok md =>
          if (t.rowOf path).map (·.stamp) = some md.stamp then (.ok false, t)
          else
            match src.scan path with
            | .error e => (.error (.parse e), t)
            | .ok nks =>
                if t.Rejects contentlessDelete path then (.error .sqlite, t)
                else
                  (.ok true,
                    t.written path (Metadata.ofNks nks) md.stamp) := by
  have hfails : forall n, noFaults n = false := fun _ => rfl
  unfold upsert
  cases src.metadata path with
  | error kind =>
      rfl
  | ok md =>
      simp only [hfails, Bool.false_eq_true, if_false]
      split
      · rfl
      · cases src.scan path with
        | error e =>
            rfl
        | ok nks =>
            simp only [Transaction.transact,
              writeRows_of_no_faults contentlessDelete hfails]
            by_cases hrejects : t.Rejects contentlessDelete path
            · simp only [if_pos hrejects]
            · simp only [if_neg hrejects]

end Index
end OpenMk3
