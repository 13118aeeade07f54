import OpenMk3.Index.Consistency

/-!
# Re-scan freshness

What the rows of a path hold after a history of scans: the search table does
not take the delete of an existing row, so the first scan in which a preset
parses is the only one that writes it.
-/

namespace OpenMk3
namespace Index

open Library Nks

variable {ε : Type}

/-!
## Histories of scans
-/

/-- One `scan_root`: the file system it sees and the root it walks. -/
structure ScanEvent (ε : Type) where
  src : Source ε
  root : Option Directory

/-- The metadata of a path's current content, when it can be read. -/
def Source.parsed (src : Source ε) (path : Path) : Option Metadata :=
  match src.metadata path, src.scan path with
  | .ok _, .ok nks => some (Metadata.ofNks nks)
  | _, _ => none

theorem Source.scan_of_parsed {src : Source ε} {path : Path} {m : Metadata}
    (h : src.parsed path = some m) :
    (src.scan path).toOption.map Metadata.ofNks = some m := by
  unfold Source.parsed at h
  split at h
  · rename_i hscan
    rw [hscan]
    exact h
  · cases h

namespace ScanEvent

def paths (e : ScanEvent ε) : List Path := presetPaths e.root

def calls (e : ScanEvent ε) : List (UpsertCall ε) :=
  e.paths.map fun path => { src := e.src, fails := noFaults, path := path }

end ScanEvent

/-- The tables after a history, from the empty schema. -/
def runScans (events : List (ScanEvent ε)) : Tables :=
  events.foldl (fun t e => (scanRoot e.src e.root t).2) {}

/-- The metadata of a path at the first scan that visits and parses it. -/
def firstParsed (path : Path) (events : List (ScanEvent ε)) :
    Option Metadata :=
  events.findSome? fun e =>
    if path ∈ e.paths then e.src.parsed path else none

theorem Ledger.call_tables (contentlessDelete : Bool) (s : Ledger)
    (c : UpsertCall ε) :
    (s.call contentlessDelete c).tables =
      (upsert contentlessDelete c.src c.fails c.path s.tables).2 := by
  unfold Ledger.call
  split
  · rename_i h
    rw [h]
  · rename_i h
    rw [h]

theorem Ledger.foldl_call_tables (src : Source ε) (paths : List Path)
    (s : Ledger) :
    ((paths.map fun path => ({ src := src, fails := noFaults, path := path } :
      UpsertCall ε)).foldl (Ledger.call false) s).tables =
      paths.foldl (fun t path => (upsert false src noFaults path t).2)
        s.tables := by
  induction paths generalizing s with
  | nil =>
      rfl
  | cons path rest ih =>
      rw [List.map_cons, List.foldl_cons, List.foldl_cons, ih,
        Ledger.call_tables]

/-- A history of scans is a run of upserts. -/
theorem runScans_eq_run (events : List (ScanEvent ε)) :
    runScans events =
      (Ledger.run false (events.flatMap ScanEvent.calls)).tables := by
  unfold runScans Ledger.run
  induction events using List.reverseRecOn with
  | nil =>
      rfl
  | append_singleton events e ih =>
      rw [List.foldl_append, List.foldl_cons, List.foldl_nil, ih,
        List.flatMap_append, List.foldl_append, scanRoot_tables,
        List.flatMap_singleton, ScanEvent.calls, Ledger.foldl_call_tables]
      rfl

/-!
## The first parse decides
-/

theorem Consistent.hasFts_iff {s : Ledger} (h : Consistent s) (id : Nat) :
    s.tables.HasFts id <-> exists p, p ∈ s.tables.presets ∧ p.id = id := by
  constructor
  · intro hfts
    rcases hfts with ⟨r, hr, hid⟩
    rcases List.mem_map.mp (h.fts.mem_iff.mp hr) with ⟨p, hp, hpr⟩
    rw [<- hpr] at hid
    exact ⟨p, hp, hid⟩
  · intro hp
    rcases hp with ⟨p, hp, hid⟩
    exact ⟨_, h.fts.mem_iff.mpr (List.mem_map_of_mem hp), hid⟩

/-- The search table rejects exactly the updates of indexed paths. -/
theorem Consistent.rejects_iff {s : Ledger} (h : Consistent s) (path : Path) :
    s.tables.Rejects false path <-> (s.tables.rowOf path).isSome := by
  unfold Tables.Rejects Tables.idFor
  rw [h.hasFts_iff]
  cases hrow : s.tables.rowOf path with
  | some row =>
      have hmem := (Tables.rowOf_mem hrow).left
      simp only [Option.isSome_some, and_true, iff_true]
      exact ⟨row, hmem, rfl⟩
  | none =>
      simp only [Option.isSome_none, Bool.false_eq_true, and_true, iff_false]
      intro hp
      rcases hp with ⟨p, hp, hid⟩
      exact absurd hid (Tables.lt_nextId hp).ne

theorem Consistent.committed_isSome_iff {s : Ledger} (h : Consistent s)
    (path : Path) :
    (s.committed path).isSome <-> (s.tables.rowOf path).isSome := by
  constructor
  · intro hsome
    rcases Option.isSome_iff_exists.mp hsome with ⟨m, hm⟩
    rcases h.recorded path m hm with ⟨p, hp, hpath⟩
    rw [rowOf_unique h.keyed hp hpath]
    rfl
  · intro hsome
    rcases Option.isSome_iff_exists.mp hsome with ⟨row, hrow⟩
    rcases Tables.rowOf_mem hrow with ⟨hmem, hpath⟩
    rcases h.rows row hmem with ⟨m, hm, _⟩
    rw [<- hpath, hm]
    rfl

theorem upsert_of_rejects (src : Source ε) {path : Path} {t : Tables}
    (h : t.Rejects false path) :
    exists r, r ≠ .ok true ∧ upsert false src noFaults path t = (r, t) := by
  rw [upsert_noFaults]
  cases src.metadata path with
  | error kind =>
      exact ⟨_, by simp, rfl⟩
  | ok md =>
      dsimp only
      split
      · exact ⟨_, by simp, rfl⟩
      · cases src.scan path with
        | error e =>
            exact ⟨_, by simp, rfl⟩
        | ok nks =>
            exact ⟨.error .sqlite, by simp, rfl⟩

theorem upsert_of_new (src : Source ε) {path : Path} {t : Tables}
    (hrow : t.rowOf path = none) (h : Not (t.Rejects false path)) :
    (src.parsed path = none ∧
      exists e, upsert false src noFaults path t = (.error e, t)) ∨
      exists m stamp, src.parsed path = some m ∧
        upsert false src noFaults path t =
          (.ok true, t.written path m stamp) := by
  rw [upsert_noFaults]
  unfold Source.parsed
  cases src.metadata path with
  | error kind =>
      exact Or.inl ⟨rfl, _, rfl⟩
  | ok md =>
      rw [hrow]
      cases src.scan path with
      | error e =>
          exact Or.inl ⟨rfl, _, rfl⟩
      | ok nks =>
          exact Or.inr ⟨Metadata.ofNks nks, md.stamp, rfl, if_neg h⟩

/-- One upsert without faults: an indexed path keeps what it has. -/
theorem Consistent.committed_call {s : Ledger} (h : Consistent s)
    (src : Source ε) (target path : Path) :
    (s.call false { src := src, fails := noFaults, path := target }).committed
        path =
      (s.committed path).or
        (if target = path then src.parsed path else none) := by
  by_cases htarget : target = path
  · subst htarget
    rw [if_pos rfl]
    have hindexed := h.committed_isSome_iff target
    have hrejects := h.rejects_iff target
    cases hrow : s.tables.rowOf target with
    | some row =>
        rw [hrow, Option.isSome_some] at hindexed hrejects
        rcases Option.isSome_iff_exists.mp (hindexed.mpr rfl) with ⟨m, hm⟩
        rcases upsert_of_rejects src (hrejects.mpr rfl) with ⟨r, hr, hupsert⟩
        unfold Ledger.call
        rw [hm, hupsert, Option.some_or]
        split
        · rename_i heq
          exact absurd (congrArg Prod.fst heq) hr
        · exact hm
    | none =>
        rw [hrow] at hindexed hrejects
        have hnone : s.committed target = none := by
          simpa using hindexed
        have hallows : Not (s.tables.Rejects false target) := by
          simpa using hrejects
        rw [hnone, Option.none_or]
        rcases upsert_of_new src hrow hallows with
          ⟨hparsed, e, hupsert⟩ | ⟨m, stamp, hparsed, hupsert⟩
        · unfold Ledger.call
          rw [hupsert, hparsed]
          exact hnone
        · unfold Ledger.call
          rw [hupsert]
          dsimp only
          rw [Function.update_self, Source.scan_of_parsed hparsed, hparsed]
  · rw [if_neg htarget, Option.or_none]
    rcases Ledger.call_cases false s
        { src := src, fails := noFaults, path := target } with
      hsame | ⟨m, stamp, hnew⟩
    · rw [hsame]
    · rw [hnew]
      exact Function.update_of_ne (Ne.symm htarget) _ _

/-- The calls of one scan, in the order of its walk. -/
theorem Consistent.committed_calls {s : Ledger} (h : Consistent s)
    (src : Source ε) (path : Path) (paths : List Path) :
    Consistent ((paths.map fun target =>
      ({ src := src, fails := noFaults, path := target } :
        UpsertCall ε)).foldl (Ledger.call false) s) ∧
      ((paths.map fun target =>
        ({ src := src, fails := noFaults, path := target } :
          UpsertCall ε)).foldl (Ledger.call false) s).committed path =
        (s.committed path).or
          (if path ∈ paths then src.parsed path else none) := by
  induction paths generalizing s with
  | nil =>
      exact ⟨h, by simp⟩
  | cons target rest ih =>
      have hnext := h.call false
        ({ src := src, fails := noFaults, path := target } : UpsertCall ε)
      rcases ih hnext with ⟨hcons, hcommitted⟩
      refine ⟨hcons, ?_⟩
      rw [List.map_cons, List.foldl_cons, hcommitted, h.committed_call,
        Option.or_assoc]
      congr 1
      by_cases htarget : target = path
      · rw [if_pos htarget, if_pos (List.mem_cons.mpr (Or.inl htarget.symm))]
        split
        · exact Option.or_self
        · exact Option.or_none
      · simp [htarget, Ne.symm htarget]

/-- What is recorded of a path after a history is its first parse. -/
theorem committed_run_scans (events : List (ScanEvent ε)) (path : Path) :
    (Ledger.run false (events.flatMap ScanEvent.calls)).committed path =
      firstParsed path events := by
  unfold firstParsed
  induction events using List.reverseRecOn with
  | nil =>
      rfl
  | append_singleton events e ih =>
      have hcons := Consistent.run false (events.flatMap ScanEvent.calls)
      have hlast := (hcons.committed_calls e.src path e.paths).right
      rw [List.flatMap_append, Ledger.run, List.foldl_append,
        List.flatMap_singleton, ScanEvent.calls, List.findSome?_append,
        List.findSome?_singleton, <- ih]
      exact hlast

/-!
## Freshness
-/

/-- The rows of a path hold a preset's metadata. -/
def Tables.Fresh (t : Tables) (path : Path) (m : Metadata) : Prop :=
  exists row, t.rowOf path = some row ∧ row.Holds m ∧
    (t.typesOf row.id).Perm m.types ∧ (t.modesOf row.id).Perm m.modes ∧
      rowsAt FtsRow.rowid row.id t.presetsFts = [FtsRow.of row.id m]

/-- Metadata that give the same rows. -/
structure Metadata.SameRows (m m' : Metadata) : Prop where
  name : m.name = m'.name
  vendor : m.vendor = m'.vendor
  author : m.author = m'.author
  comment : m.comment = m'.comment
  pluginRef : m.pluginRef = m'.pluginRef
  bankChain : m.bankChain = m'.bankChain
  types : m.types.Perm m'.types
  modes : m.modes.Perm m'.modes

theorem holds_iff {p : PresetRow} {m m' : Metadata} (h : p.Holds m) :
    p.Holds m' <->
      m.name = m'.name ∧ m.vendor = m'.vendor ∧ m.author = m'.author ∧
        m.comment = m'.comment ∧ m.pluginRef = m'.pluginRef ∧
          m.bankChain = m'.bankChain := by
  unfold PresetRow.Holds at h ⊢
  rw [h]
  simp [PresetRow.of]

/-- The rows written with one metadata hold another exactly when they are the
same rows. -/
theorem Consistent.fresh_iff {s : Ledger} (h : Consistent s) {path : Path}
    {m : Metadata} (hm : s.committed path = some m) (m' : Metadata) :
    s.tables.Fresh path m' <-> m.SameRows m' := by
  rcases h.recorded path m hm with ⟨p, hp, hpath⟩
  have hrow := rowOf_unique h.keyed hp hpath
  rcases h.rows p hp with ⟨m0, hm0, hholds, htypes, hmodes⟩
  rw [hpath, hm] at hm0
  cases hm0
  have hkeys : ((s.tables.presets.map FtsRow.ofPreset).map
      FtsRow.rowid).Nodup := by
    rw [List.map_map]
    exact h.keyed.ids
  have hfts : rowsAt FtsRow.rowid p.id s.tables.presetsFts =
      [FtsRow.ofPreset p] := by
    have hone := rowsAt_of_mem hkeys (List.mem_map_of_mem hp)
    have hperm : (rowsAt FtsRow.rowid p.id s.tables.presetsFts).Perm
        (rowsAt FtsRow.rowid p.id (s.tables.presets.map FtsRow.ofPreset)) :=
      rowsAt_perm h.fts
    exact List.perm_singleton.mp (hperm.trans (List.Perm.of_eq hone))
  constructor
  · intro hfresh
    rcases hfresh with ⟨row, hrow', hholds', htypes', hmodes', _⟩
    rw [hrow] at hrow'
    cases hrow'
    rcases (holds_iff hholds).mp hholds' with ⟨h1, h2, h3, h4, h5, h6⟩
    rw [htypes] at htypes'
    rw [hmodes] at hmodes'
    exact ⟨h1, h2, h3, h4, h5, h6, htypes', hmodes'⟩
  · intro hsame
    have hholds' : p.Holds m' := (holds_iff hholds).mpr
      ⟨hsame.name, hsame.vendor, hsame.author, hsame.comment,
        hsame.pluginRef, hsame.bankChain⟩
    refine ⟨p, hrow, hholds', ?_, ?_, ?_⟩
    · rw [htypes]
      exact hsame.types
    · rw [hmodes]
      exact hsame.modes
    · rw [hfts]
      unfold PresetRow.Holds at hholds'
      rw [hholds']
      rfl

theorem runScans_fresh_iff {events : List (ScanEvent ε)} {path : Path}
    {m0 : Metadata} (h : firstParsed path events = some m0) (m : Metadata) :
    (runScans events).Fresh path m <-> m0.SameRows m := by
  rw [runScans_eq_run]
  apply (Consistent.run false (events.flatMap ScanEvent.calls)).fresh_iff
  rw [committed_run_scans, h]

/-- After a scan that visits and parses a path, its rows hold the metadata of
its content exactly when they are those of the first scan that parsed it. -/
theorem rescan_fresh_iff (events : List (ScanEvent ε)) (last : ScanEvent ε)
    (path : Path) (m : Metadata) (hvisited : path ∈ last.paths)
    (hparsed : last.src.parsed path = some m) :
    exists m0, firstParsed path (events ++ [last]) = some m0 ∧
      ((runScans (events ++ [last])).Fresh path m <-> m0.SameRows m) := by
  have hlast : firstParsed path [last] = some m := by
    rw [firstParsed, List.findSome?_singleton, if_pos hvisited, hparsed]
  have happend : firstParsed path (events ++ [last]) =
      (firstParsed path events).or (some m) := by
    rw [<- hlast]
    exact List.findSome?_append
  cases hfirst : firstParsed path events with
  | some m0 =>
      rw [hfirst, Option.some_or] at happend
      exact ⟨m0, happend, runScans_fresh_iff happend m⟩
  | none =>
      rw [hfirst, Option.none_or] at happend
      exact ⟨m, happend, runScans_fresh_iff happend m⟩

/-- A root that holds one preset file. -/
def onePresetRoot : Option Directory :=
  some { path := ["lib"], error := none, entries := .file "a.nksf" .nil }

theorem onePresetRoot_walk :
    walk onePresetRoot = ([["lib", "a.nksf"]], none) := by
  simp [walk, onePresetRoot, walkStack, Listing.files, Listing.subdirs]

/-- A file system whose files are all one preset with the given name and
modification time. -/
def namedSource (name : String) (modified : Int) : Source Unit :=
  { metadata := fun _ => .ok { modified := some modified, len := 100 }
    scan := fun path =>
      .ok
        { path := path
          summary := { name := some name }
          plugin := .unknown
          controller := none
          pchkOffset := 0
          pchkLen := 0 } }

def namedScan (name : String) (modified : Int) : ScanEvent Unit :=
  { src := namedSource name modified, root := onePresetRoot }

theorem namedScan_paths (name : String) (modified : Int) :
    (namedScan name modified).paths = [["lib", "a.nksf"]] := by
  rw [ScanEvent.paths, presetPaths, namedScan, onePresetRoot_walk]
  decide

def namedMetadata (name : String) : Metadata :=
  { name := name, vendor := "", author := "", comment := ""
    pluginRef := "unknown", bankChain := "", types := [], modes := [] }

theorem namedScan_parsed (name : String) (modified : Int) (path : Path) :
    (namedScan name modified).src.parsed path = some (namedMetadata name) :=
  rfl

theorem rescan_fresh_iff_named :
    exists m0, firstParsed ["lib", "a.nksf"]
        ([namedScan "old" 1] ++ [namedScan "new" 2]) = some m0 ∧
      ((runScans ([namedScan "old" 1] ++ [namedScan "new" 2])).Fresh
        ["lib", "a.nksf"] (namedMetadata "new") <->
          m0.SameRows (namedMetadata "new")) :=
  rescan_fresh_iff [namedScan "old" 1] (namedScan "new" 2) ["lib", "a.nksf"]
    (namedMetadata "new")
    (by rw [namedScan_paths]; exact List.mem_cons_self ..)
    (namedScan_parsed "new" 2 ["lib", "a.nksf"])

/-- Files that look the same to the scanner have the same content. -/
def StampsTrackContent (events : List (ScanEvent ε)) : Prop :=
  forall e e', e ∈ events -> e' ∈ events ->
    forall path, e.src.metadata path = e'.src.metadata path ->
      e.src.scan path = e'.src.scan path

/-- A preset renamed between two scans keeps its old rows. -/
theorem rescan_not_always_fresh :
    Not (forall (events : List (ScanEvent Unit)) (last : ScanEvent Unit)
      (path : Path) (m : Metadata), StampsTrackContent (events ++ [last]) ->
        path ∈ last.paths -> last.src.parsed path = some m ->
          (runScans (events ++ [last])).Fresh path m) := by
  intro hall
  have htrack : StampsTrackContent
      ([namedScan "old" 1] ++ [namedScan "new" 2]) := by
    intro e e' he he' path hmetadata
    simp only [List.cons_append, List.nil_append, List.mem_cons,
      List.not_mem_nil, or_false] at he he'
    rcases he with rfl | rfl <;> rcases he' with rfl | rfl
    · rfl
    · simp [namedScan, namedSource] at hmetadata
    · simp [namedScan, namedSource] at hmetadata
    · rfl
  have hfresh := hall [namedScan "old" 1] (namedScan "new" 2)
    ["lib", "a.nksf"] (namedMetadata "new") htrack
    (by rw [namedScan_paths]; exact List.mem_cons_self ..)
    (namedScan_parsed "new" 2 ["lib", "a.nksf"])
  have hfirst : firstParsed ["lib", "a.nksf"]
      ([namedScan "old" 1] ++ [namedScan "new" 2]) =
        some (namedMetadata "old") := by
    simp [firstParsed, namedScan_paths, namedScan_parsed]
  have hname := ((runScans_fresh_iff hfirst _).mp hfresh).name
  exact absurd hname (by decide)

end Index
end OpenMk3
