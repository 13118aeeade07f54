import OpenMk3.Index.Scanner

/-!
# Index consistency

What holds of the four tables after any sequence of upserts, whichever of them
fail and wherever.
-/

namespace OpenMk3
namespace Index

open Library Nks

variable {ε : Type}

/-!
## Rows by preset
-/

def PresetRow.Holds (p : PresetRow) (m : Metadata) : Prop :=
  p = PresetRow.of p.id p.path m p.stamp

def FtsRow.ofPreset (p : PresetRow) : FtsRow :=
  { rowid := p.id, name := p.name, vendor := p.vendor, author := p.author
    comment := p.comment, bankChain := p.bankChain }

namespace Tables

def typesOf (t : Tables) (id : Nat) : List (String × String) :=
  (rowsAt TypeRow.presetId id t.presetTypes).map fun r => (r.ty, r.subtype)

def modesOf (t : Tables) (id : Nat) : List String :=
  (rowsAt ModeRow.presetId id t.presetModes).map ModeRow.mode

theorem typesOf_written (t : Tables) (path : Path) (m : Metadata)
    (stamp : Stamp) (id : Nat) :
    (t.written path m stamp).typesOf id =
      if id = t.idFor path then m.types else t.typesOf id := by
  have hkey : forall r, r ∈ m.types.map (TypeRow.of (t.idFor path)) ->
      r.presetId = t.idFor path := by
    intro r hr
    rcases List.mem_map.mp hr with ⟨pair, _, hpair⟩
    rw [<- hpair]
    rfl
  unfold typesOf written
  rw [rowsAt_replaceRows hkey]
  split
  · simp [TypeRow.of, Function.comp_def]
  · rfl

theorem modesOf_written (t : Tables) (path : Path) (m : Metadata)
    (stamp : Stamp) (id : Nat) :
    (t.written path m stamp).modesOf id =
      if id = t.idFor path then m.modes else t.modesOf id := by
  have hkey : forall r, r ∈ m.modes.map (ModeRow.of (t.idFor path)) ->
      r.presetId = t.idFor path := by
    intro r hr
    rcases List.mem_map.mp hr with ⟨mode, _, hmode⟩
    rw [<- hmode]
    rfl
  unfold modesOf written
  rw [rowsAt_replaceRows hkey]
  split
  · simp [ModeRow.of, Function.comp_def]
  · rfl

theorem lt_nextId {t : Tables} {p : PresetRow} (h : p ∈ t.presets) :
    p.id < t.nextId := by
  have hle : forall (ids : List Nat) (start : Nat), p.id ∈ ids ->
      p.id <= ids.foldr max start := by
    intro ids start hmem
    induction ids with
    | nil =>
        cases hmem
    | cons id rest ih =>
        rcases List.mem_cons.mp hmem with heq | hrest
        · rw [List.foldr_cons, heq]
          exact Nat.le_max_left _ _
        · exact (ih hrest).trans (Nat.le_max_right _ _)
  exact Nat.lt_succ_of_le (hle _ _ (List.mem_map_of_mem h))

end Tables

/-!
## Preset rows after an upsert
-/

/-- The two keys of the presets table, which SQLite keeps unique. -/
structure Tables.Keyed (t : Tables) : Prop where
  paths : (t.presets.map PresetRow.path).Nodup
  ids : (t.presets.map PresetRow.id).Nodup

section Placed

variable {t : Tables} {path : Path} {m : Metadata} {stamp : Stamp}

/-- The row of a path is the only one. -/
theorem rowOf_unique (h : t.Keyed) {p : PresetRow} (hp : p ∈ t.presets)
    (hpath : p.path = path) : t.rowOf path = some p := by
  cases hrow : t.rowOf path with
  | none =>
      exact absurd hpath (Tables.rowOf_eq_none_iff.mp hrow p hp)
  | some row =>
      rcases Tables.rowOf_mem hrow with ⟨hmem, hrowPath⟩
      have heq : p = row :=
        List.inj_on_of_nodup_map h.paths hp hmem (hpath.trans hrowPath.symm)
      rw [heq]

/-- The upsert replaces the row of its id. -/
theorem placed_perm (h : t.Keyed) (path : Path) (m : Metadata)
    (stamp : Stamp) :
    (t.placed path m stamp).Perm
      (replaceRows PresetRow.id (t.idFor path)
        [PresetRow.of (t.idFor path) path m stamp] t.presets) := by
  unfold Tables.placed Tables.idFor
  cases hrow : t.rowOf path with
  | none =>
      have hkeep : (t.presets.filter fun r => r.id ≠ t.nextId) = t.presets := by
        rw [List.filter_eq_self]
        intro r hr
        have hlt := Tables.lt_nextId hr
        simp
        omega
      simp only [Option.isSome_none, Bool.false_eq_true, if_false, replaceRows,
        hkeep]
      exact List.Perm.refl _
  | some row =>
      rcases Tables.rowOf_mem hrow with ⟨hmem, hpath⟩
      have hnodup : t.presets.Nodup := List.Nodup.of_map _ h.ids
      have hself : forall r, r ∈ t.presets.erase row ->
          (if r.path = path then PresetRow.of r.id path m stamp else r) =
            r := by
        intro r hr
        have hne : r ≠ row := (hnodup.mem_erase_iff.mp hr).left
        apply if_neg
        intro hrpath
        exact hne (List.inj_on_of_nodup_map h.paths (List.mem_of_mem_erase hr)
          hmem (hrpath.trans hpath.symm))
      have hfilter : (t.presets.filter fun r => r.id ≠ row.id) =
          t.presets.erase row := by
        rw [hnodup.erase_eq_filter]
        apply List.filter_congr
        intro r hr
        by_cases heq : r = row
        · simp [heq]
        · have hid : r.id ≠ row.id := fun hid =>
            heq (List.inj_on_of_nodup_map h.ids hr hmem hid)
          simp [heq, hid]
      simp only [Option.isSome_some, if_true, replaceRows, hfilter]
      have hfirst := (List.perm_cons_erase hmem).map fun r =>
        if r.path = path then PresetRow.of r.id path m stamp else r
      rw [List.map_cons, if_pos hpath, List.map_congr_left hself,
        List.map_id'] at hfirst
      exact hfirst.trans (List.perm_append_singleton _ _).symm

namespace Tables

theorem Keyed.mem_written_iff (h : t.Keyed) {p : PresetRow} :
    p ∈ (t.written path m stamp).presets <->
      p ∈ t.presets ∧ p.id ≠ t.idFor path ∨
        p = PresetRow.of (t.idFor path) path m stamp := by
  rw [Tables.written, (placed_perm h path m stamp).mem_iff,
    mem_replaceRows_iff, List.mem_singleton]

/-- Only the row of the path has the id that the path is written under. -/
theorem Keyed.id_eq_iff (h : t.Keyed) {p : PresetRow} (hp : p ∈ t.presets) :
    p.id = t.idFor path <-> p.path = path := by
  unfold idFor
  constructor
  · intro hid
    cases hrow : t.rowOf path with
    | none =>
        rw [hrow] at hid
        exact absurd hid (lt_nextId hp).ne
    | some row =>
        rw [hrow] at hid
        rcases rowOf_mem hrow with ⟨hmem, hpath⟩
        rw [List.inj_on_of_nodup_map h.ids hp hmem hid, hpath]
  · intro hpath
    rw [rowOf_unique h hp hpath]

theorem Keyed.written (h : t.Keyed) : (t.written path m stamp).Keyed := by
  have hperm := placed_perm h path m stamp
  constructor
  · rw [Tables.written, (hperm.map _).nodup_iff, replaceRows, List.map_append]
    apply List.Nodup.append
    · exact List.Nodup.sublist (List.filter_sublist.map _) h.paths
    · exact List.nodup_singleton _
    · intro q hq hnew
      rcases List.mem_map.mp hq with ⟨p, hp, hpath⟩
      rcases List.mem_filter.mp hp with ⟨hmem, hne⟩
      rw [List.map_singleton, List.mem_singleton] at hnew
      have hid := (h.id_eq_iff hmem).mpr (hpath.trans hnew)
      exact of_decide_eq_true hne hid
  · exact (hperm.map _).nodup_iff.mpr (replaceRows_nodup rfl h.ids)

end Tables

end Placed

/-!
## Runs of upserts
-/

/-- One call of `upsert`: the file system it sees, the SQL operations that fail
under it, and its path. -/
structure UpsertCall (ε : Type) where
  src : Source ε
  fails : Nat -> Bool
  path : Path

/-- The tables, with the metadata of the last committed upsert of each path. -/
structure Ledger where
  tables : Tables
  committed : Path -> Option Metadata

namespace Ledger

def empty : Ledger := { tables := {}, committed := fun _ => none }

def call (contentlessDelete : Bool) (s : Ledger) (c : UpsertCall ε) : Ledger :=
  match upsert contentlessDelete c.src c.fails c.path s.tables with
  | (.ok true, t) =>
      { tables := t
        committed := Function.update s.committed c.path
          ((c.src.scan c.path).toOption.map Metadata.ofNks) }
  | (_, t) => { s with tables := t }

def run (contentlessDelete : Bool) (calls : List (UpsertCall ε)) : Ledger :=
  calls.foldl (call contentlessDelete) empty

/-- A call commits the rows of its path, or changes nothing. -/
theorem call_cases (contentlessDelete : Bool) (s : Ledger)
    (c : UpsertCall ε) :
    call contentlessDelete s c = s ∨
      exists m stamp, call contentlessDelete s c =
        { tables := s.tables.written c.path m stamp
          committed := Function.update s.committed c.path (some m) } := by
  unfold call
  rcases upsert_cases contentlessDelete c.src c.fails c.path s.tables with
    ⟨e, herror⟩ | hskip | ⟨md, nks, _, hscan, hcommit⟩
  · rw [herror]
    exact Or.inl rfl
  · rw [hskip]
    exact Or.inl rfl
  · rw [hcommit, hscan]
    exact Or.inr ⟨Metadata.ofNks nks, md.stamp, rfl⟩

end Ledger

/-!
## The invariant
-/

structure Consistent (s : Ledger) : Prop where
  keyed : s.tables.Keyed
  fts : s.tables.presetsFts.Perm (s.tables.presets.map FtsRow.ofPreset)
  types : forall r, r ∈ s.tables.presetTypes ->
    exists p, p ∈ s.tables.presets ∧ p.id = r.presetId
  modes : forall r, r ∈ s.tables.presetModes ->
    exists p, p ∈ s.tables.presets ∧ p.id = r.presetId
  rows : forall p, p ∈ s.tables.presets ->
    exists m, s.committed p.path = some m ∧ p.Holds m ∧
      s.tables.typesOf p.id = m.types ∧ s.tables.modesOf p.id = m.modes
  recorded : forall path m, s.committed path = some m ->
    exists p, p ∈ s.tables.presets ∧ p.path = path

theorem Consistent.empty : Consistent Ledger.empty :=
  { keyed := ⟨List.nodup_nil, List.nodup_nil⟩
    fts := List.Perm.refl _
    types := fun _ h => by cases h
    modes := fun _ h => by cases h
    rows := fun _ h => by cases h
    recorded := fun _ _ h => by cases h }

section Written

variable {s : Ledger} {path : Path} {m : Metadata} {stamp : Stamp}

/-- Rows that refer to presets still do after an upsert. -/
theorem Consistent.refers_written (h : Consistent s) {row : Type}
    {key : row -> Nat} {rows news : List row}
    (hrows : forall r, r ∈ rows ->
      exists p, p ∈ s.tables.presets ∧ p.id = key r)
    (hnews : forall r, r ∈ news -> key r = s.tables.idFor path) :
    forall r, r ∈ replaceRows key (s.tables.idFor path) news rows ->
      exists p, p ∈ (s.tables.written path m stamp).presets ∧
        p.id = key r := by
  intro r hr
  rcases mem_replaceRows_iff.mp hr with ⟨hold, hne⟩ | hnew
  · rcases hrows r hold with ⟨p, hp, hid⟩
    refine ⟨p, h.keyed.mem_written_iff.mpr (Or.inl ⟨hp, ?_⟩), hid⟩
    rw [hid]
    exact hne
  · exact ⟨_, h.keyed.mem_written_iff.mpr (Or.inr rfl), (hnews r hnew).symm⟩

/-- The search rows are replaced as the preset rows are. -/
theorem Consistent.fts_written (h : Consistent s) :
    (s.tables.written path m stamp).presetsFts.Perm
      ((s.tables.written path m stamp).presets.map FtsRow.ofPreset) := by
  have hperm := placed_perm h.keyed path m stamp
  have hmap : (replaceRows PresetRow.id (s.tables.idFor path)
      [PresetRow.of (s.tables.idFor path) path m stamp] s.tables.presets).map
        FtsRow.ofPreset =
      replaceRows FtsRow.rowid (s.tables.idFor path)
        [FtsRow.of (s.tables.idFor path) m]
        (s.tables.presets.map FtsRow.ofPreset) :=
    map_replaceRows FtsRow.ofPreset fun _ => rfl
  exact (replaceRows_perm h.fts).trans
    (hmap ▸ (hperm.map FtsRow.ofPreset).symm)

theorem Consistent.rows_written (h : Consistent s) {p : PresetRow}
    (hp : p ∈ (s.tables.written path m stamp).presets) :
    exists m', Function.update s.committed path (some m) p.path = some m' ∧
      p.Holds m' ∧
        (s.tables.written path m stamp).typesOf p.id = m'.types ∧
          (s.tables.written path m stamp).modesOf p.id = m'.modes := by
  rw [Tables.typesOf_written, Tables.modesOf_written]
  rcases h.keyed.mem_written_iff.mp hp with ⟨hold, hne⟩ | hnew
  · have hpath : p.path ≠ path := fun hpath =>
      hne ((h.keyed.id_eq_iff hold).mpr hpath)
    rw [Function.update_of_ne hpath, if_neg hne, if_neg hne]
    exact h.rows p hold
  · rw [hnew]
    refine ⟨m, Function.update_self .., rfl, ?_, ?_⟩
    · exact if_pos rfl
    · exact if_pos rfl

theorem Consistent.recorded_written (h : Consistent s) :
    forall path' m', Function.update s.committed path (some m) path' =
      some m' ->
        exists p, p ∈ (s.tables.written path m stamp).presets ∧
          p.path = path' := by
  intro path' m' hm'
  by_cases hpath : path' = path
  · exact ⟨_, h.keyed.mem_written_iff.mpr (Or.inr rfl), hpath.symm⟩
  · rw [Function.update_of_ne hpath] at hm'
    rcases h.recorded path' m' hm' with ⟨p, hp, hpp⟩
    refine ⟨p, h.keyed.mem_written_iff.mpr (Or.inl ⟨hp, ?_⟩), hpp⟩
    intro hid
    exact hpath (hpp.symm.trans ((h.keyed.id_eq_iff hp).mp hid))

theorem Consistent.written (h : Consistent s) :
    Consistent
      { tables := s.tables.written path m stamp
        committed := Function.update s.committed path (some m) } := by
  refine ⟨h.keyed.written, h.fts_written, ?_, ?_, ?_, h.recorded_written⟩
  · apply h.refers_written h.types
    intro r hr
    rcases List.mem_map.mp hr with ⟨pair, _, hpair⟩
    rw [<- hpair]
    rfl
  · apply h.refers_written h.modes
    intro r hr
    rcases List.mem_map.mp hr with ⟨mode, _, hmode⟩
    rw [<- hmode]
    rfl
  · intro p hp
    exact h.rows_written hp

end Written

theorem Consistent.call {s : Ledger} (h : Consistent s)
    (contentlessDelete : Bool) (c : UpsertCall ε) :
    Consistent (s.call contentlessDelete c) := by
  rcases Ledger.call_cases contentlessDelete s c with hsame | ⟨m, stamp, hnew⟩
  · rw [hsame]
    exact h
  · rw [hnew]
    exact h.written

theorem Consistent.run (contentlessDelete : Bool)
    (calls : List (UpsertCall ε)) :
    Consistent (Ledger.run contentlessDelete calls) := by
  unfold Ledger.run
  induction calls using List.reverseRecOn with
  | nil =>
      exact Consistent.empty
  | append_singleton calls c ih =>
      rw [List.foldl_append]
      exact ih.call contentlessDelete c

/-- After any sequence of upserts, with failures anywhere, the four tables
agree, and a failing upsert has changed none of them. -/
theorem index_consistency (contentlessDelete : Bool)
    (calls : List (UpsertCall ε)) :
    let s := Ledger.run contentlessDelete calls
    let t := s.tables
    (t.presets.map PresetRow.path).Nodup ∧
      (forall id, (exists p, p ∈ t.presets ∧ p.id = id) <->
        exists r, r ∈ t.presetsFts ∧ r.rowid = id) ∧
      (forall p r, p ∈ t.presets -> r ∈ t.presetsFts -> r.rowid = p.id ->
        r.name = p.name ∧ r.vendor = p.vendor ∧ r.author = p.author ∧
          r.comment = p.comment ∧ r.bankChain = p.bankChain) ∧
      (forall r, r ∈ t.presetTypes ->
        exists p, p ∈ t.presets ∧ p.id = r.presetId) ∧
      (forall r, r ∈ t.presetModes ->
        exists p, p ∈ t.presets ∧ p.id = r.presetId) ∧
      (forall p, p ∈ t.presets ->
        exists m, s.committed p.path = some m ∧ p.Holds m ∧
          (t.typesOf p.id).Perm m.types ∧ (t.modesOf p.id).Perm m.modes) ∧
      forall (src : Source ε) (fails : Nat -> Bool) (path : Path)
        (e : IndexError ε),
        (upsert contentlessDelete src fails path t).1 = .error e ->
          (upsert contentlessDelete src fails path t).2 = t := by
  have h := Consistent.run contentlessDelete calls
  refine ⟨h.keyed.paths, ?_, ?_, h.types, h.modes, ?_, ?_⟩
  · intro id
    constructor
    · intro hp
      rcases hp with ⟨p, hp, hid⟩
      exact ⟨FtsRow.ofPreset p, h.fts.mem_iff.mpr (List.mem_map_of_mem hp), hid⟩
    · intro hr
      rcases hr with ⟨r, hr, hid⟩
      rcases List.mem_map.mp (h.fts.mem_iff.mp hr) with ⟨p, hp, hpr⟩
      rw [<- hpr] at hid
      exact ⟨p, hp, hid⟩
  · intro p r hp hr hid
    rcases List.mem_map.mp (h.fts.mem_iff.mp hr) with ⟨q, hq, hqr⟩
    rw [<- hqr] at hid
    have heq : q = p := List.inj_on_of_nodup_map h.keyed.ids hq hp hid
    rw [<- hqr, heq]
    exact ⟨rfl, rfl, rfl, rfl, rfl⟩
  · intro p hp
    rcases h.rows p hp with ⟨m, hm, hholds, htypes, hmodes⟩
    rw [htypes, hmodes]
    exact ⟨m, hm, hholds, List.Perm.refl _, List.Perm.refl _⟩
  · intro src fails path e herror
    rcases upsert_cases contentlessDelete src fails path
        (Ledger.run contentlessDelete calls).tables with
      ⟨e', hcase⟩ | hcase | ⟨md, nks, _, _, hcase⟩
    · rw [hcase]
    · rw [hcase] at herror
      cases herror
    · rw [hcase] at herror
      cases herror

end Index
end OpenMk3
