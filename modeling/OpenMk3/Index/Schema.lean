import OpenMk3.Index.Rows
import OpenMk3.Library.Transaction

/-!
# The index database

The four tables of the schema that scans write, and the SQL statements of an
upsert with their documented semantics.
-/

namespace OpenMk3
namespace Index

open Library Nks

/-!
## Tables
-/

/-- Modification time and size of a file, as stored. -/
structure Stamp where
  mtimeNs : Int64
  size : Int64
deriving DecidableEq, Repr

structure PresetRow where
  id : Nat
  path : Path
  name : String
  vendor : String
  author : String
  comment : String
  pluginRef : String
  bankChain : String
  stamp : Stamp
deriving DecidableEq, Repr

structure TypeRow where
  presetId : Nat
  ty : String
  subtype : String
deriving DecidableEq, Repr

structure ModeRow where
  presetId : Nat
  mode : String
deriving DecidableEq, Repr

structure FtsRow where
  rowid : Nat
  name : String
  vendor : String
  author : String
  comment : String
  bankChain : String
deriving DecidableEq, Repr

/-- The tables, and the largest id that `AUTOINCREMENT` has drawn. -/
structure Tables where
  presets : List PresetRow := []
  presetTypes : List TypeRow := []
  presetModes : List ModeRow := []
  presetsFts : List FtsRow := []
  sequence : Nat := 0
deriving DecidableEq, Repr

/-!
## Rows of a preset
-/

def PresetRow.of (id : Nat) (path : Path) (m : Metadata) (stamp : Stamp) :
    PresetRow :=
  { id := id, path := path, name := m.name, vendor := m.vendor
    author := m.author, comment := m.comment, pluginRef := m.pluginRef
    bankChain := m.bankChain, stamp := stamp }

def TypeRow.of (id : Nat) (pair : String × String) : TypeRow :=
  { presetId := id, ty := pair.1, subtype := pair.2 }

def ModeRow.of (id : Nat) (mode : String) : ModeRow :=
  { presetId := id, mode := mode }

def FtsRow.of (id : Nat) (m : Metadata) : FtsRow :=
  { rowid := id, name := m.name, vendor := m.vendor, author := m.author
    comment := m.comment, bankChain := m.bankChain }

namespace Tables

/-- The row of a path, as `WHERE path = ?1` finds it. -/
def rowOf (t : Tables) (path : Path) : Option PresetRow :=
  t.presets.find? fun r => r.path = path

/-- The next id: above every id of the table and every id drawn before. -/
def nextId (t : Tables) : Nat :=
  (t.presets.map PresetRow.id).foldr max t.sequence + 1

def HasFts (t : Tables) (id : Nat) : Prop :=
  exists r, r ∈ t.presetsFts ∧ r.rowid = id

instance (t : Tables) (id : Nat) : Decidable (t.HasFts id) :=
  inferInstanceAs (Decidable (exists r, r ∈ t.presetsFts ∧ r.rowid = id))

end Tables

/-!
## Statements
-/

inductive Statement where
  | upsertPreset (path : Path) (m : Metadata) (stamp : Stamp)
  | deleteTypes (id : Nat)
  | deleteModes (id : Nat)
  | insertType (id : Nat) (pair : String × String)
  | insertMode (id : Nat) (mode : String)
  | deleteFts (id : Nat)
  | insertFts (id : Nat) (m : Metadata)

/-- A statement on the tables; `none` when SQLite rejects it.  The search table
is contentless, and takes the delete of an existing row only if it was declared
with `contentless_delete`. -/
def exec (contentlessDelete : Bool) : Statement -> Tables -> Option Tables
  | .upsertPreset path m stamp, t =>
      -- the id is drawn before the conflict on the path is found
      some
        { t with
          presets :=
            if (t.rowOf path).isSome then
              t.presets.map fun r =>
                if r.path = path then PresetRow.of r.id path m stamp else r
            else t.presets ++ [PresetRow.of t.nextId path m stamp]
          sequence := t.nextId }
  | .deleteTypes id, t =>
      some { t with
        presetTypes := t.presetTypes.filter fun r => r.presetId ≠ id }
  | .deleteModes id, t =>
      some { t with
        presetModes := t.presetModes.filter fun r => r.presetId ≠ id }
  | .insertType id pair, t =>
      some { t with presetTypes := t.presetTypes ++ [TypeRow.of id pair] }
  | .insertMode id mode, t =>
      some { t with presetModes := t.presetModes ++ [ModeRow.of id mode] }
  | .deleteFts id, t =>
      if t.HasFts id ∧ contentlessDelete = false then none
      else
        some { t with presetsFts := t.presetsFts.filter fun r => r.rowid ≠ id }
  | .insertFts id m, t =>
      some { t with presetsFts := t.presetsFts ++ [FtsRow.of id m] }

end Index
end OpenMk3
