import OpenMk3.Index.Freshness

/-!
# Scan accounting

The counts of a scan compared with what the scan did to each visited path, and
the number of changes that a client is told.
-/

namespace OpenMk3
namespace Index

open Library Nks

variable {ε : Type}

/-!
## Visited paths
-/

namespace Listing

def names : Listing -> List String
  | nil => []
  | file name rest => name :: rest.names
  | dir name _ _ rest => name :: rest.names

/-- The names in each directory are different. -/
def Distinct : Listing -> Prop
  | nil => True
  | file name rest => name ∉ rest.names ∧ rest.Distinct
  | dir name _ entries rest =>
      name ∉ rest.names ∧ entries.Distinct ∧ rest.Distinct

/-- Every file below a directory. -/
def allFiles (path : Path) : Listing -> List Path
  | nil => []
  | file name rest => (path ++ [name]) :: rest.allFiles path
  | dir name _ entries rest =>
      entries.allFiles (path ++ [name]) ++ rest.allFiles path

/-- A file below a directory is reached through one of its names. -/
theorem prefix_of_mem_allFiles {path p : Path} {entries : Listing}
    (h : p ∈ entries.allFiles path) :
    exists name, name ∈ entries.names ∧ path ++ [name] <+: p := by
  induction entries generalizing path with
  | nil =>
      cases h
  | file name rest ih =>
      rcases List.mem_cons.mp h with heq | hrest
      · exact ⟨name, List.mem_cons_self .., by rw [heq]⟩
      · rcases ih hrest with ⟨n, hn, hpre⟩
        exact ⟨n, List.mem_cons_of_mem _ hn, hpre⟩
  | dir name error entries rest ihEntries ihRest =>
      rcases List.mem_append.mp h with hbelow | hrest
      · rcases ihEntries hbelow with ⟨n, _, hpre⟩
        exact ⟨name, List.mem_cons_self ..,
          (List.prefix_append _ _).trans hpre⟩
      · rcases ihRest hrest with ⟨n, hn, hpre⟩
        exact ⟨n, List.mem_cons_of_mem _ hn, hpre⟩

theorem name_eq_of_prefix {path p : Path} {m n : String}
    (hm : path ++ [m] <+: p) (hn : path ++ [n] <+: p) : m = n := by
  have heq : path ++ [m] = path ++ [n] := by
    apply List.IsPrefix.eq_of_length ?_ (by simp)
    exact List.prefix_of_prefix_length_le hm hn (by simp)
  simpa using heq

theorem allFiles_nodup {entries : Listing} (h : entries.Distinct)
    (path : Path) : (entries.allFiles path).Nodup := by
  induction entries generalizing path with
  | nil =>
      exact List.nodup_nil
  | file name rest ih =>
      refine List.nodup_cons.mpr ⟨?_, ih h.right path⟩
      intro hmem
      rcases prefix_of_mem_allFiles hmem with ⟨n, hn, hpre⟩
      have heq := name_eq_of_prefix hpre (List.prefix_refl _)
      exact h.left (heq ▸ hn)
  | dir name error entries rest ihEntries ihRest =>
      refine List.Nodup.append (ihEntries h.right.left _)
        (ihRest h.right.right path) ?_
      intro p hbelow hrest
      rcases prefix_of_mem_allFiles hbelow with ⟨_, _, hpre⟩
      rcases prefix_of_mem_allFiles hrest with ⟨n, hn, hpre'⟩
      have heq := name_eq_of_prefix hpre' ((List.prefix_append _ _).trans hpre)
      exact h.left (heq ▸ hn)

theorem allFiles_perm (path : Path) (entries : Listing) :
    (entries.allFiles path).Perm
      (entries.files path ++
        (entries.subdirs path).flatMap fun d => d.entries.allFiles d.path) := by
  induction entries with
  | nil =>
      exact List.Perm.refl _
  | file name rest ih =>
      exact ih.cons _
  | dir name error entries rest _ ih =>
      rw [allFiles, files, subdirs, List.flatMap_cons]
      have hswap := List.perm_append_comm_assoc (rest.files path)
        (entries.allFiles (path ++ [name]))
        ((rest.subdirs path).flatMap fun d => d.entries.allFiles d.path)
      exact (ih.append_left _).trans hswap.symm

end Listing

/-- A walk visits each file below its stack at most once. -/
theorem walkStack_subperm (stack : List Directory) :
    (walkStack stack).1.Subperm
      (stack.flatMap fun d => d.entries.allFiles d.path) := by
  induction stack using walkStack.induct with
  | case1 =>
      rw [walkStack]
      exact List.nil_subperm
  | case2 dir stack herror ih =>
      rw [walkStack, herror, List.flatMap_cons]
      exact ih.trans (List.sublist_append_right _ _).subperm
  | case3 dir stack e hdenied herror =>
      rw [walkStack, herror]
      cases e with
      | permissionDenied =>
          exact absurd rfl hdenied
      | notFound =>
          exact List.nil_subperm
      | unexpectedEof =>
          exact List.nil_subperm
      | other =>
          exact List.nil_subperm
  | case4 dir stack herror visited error hrest ih =>
      rw [walkStack, herror, hrest, List.flatMap_cons]
      rw [hrest, List.flatMap_append] at ih
      have hreverse := ((dir.entries.subdirs dir.path).reverse_perm).flatMap_right
        fun d => d.entries.allFiles d.path
      have hbelow := ((List.Subperm.refl (dir.entries.files dir.path)).append ih)
      rw [<- List.append_assoc] at hbelow
      have hfiles := (hreverse.append_left (dir.entries.files dir.path)).trans
        (Listing.allFiles_perm dir.path dir.entries).symm
      exact hbelow.trans (hfiles.append_right _).subperm

/-- The entries of a root, all their names different in each directory. -/
def DistinctRoot : Option Directory -> Prop
  | none => True
  | some root => root.entries.Distinct

theorem walk_nodup {root : Option Directory} (h : DistinctRoot root) :
    (walk root).1.Nodup := by
  cases root with
  | none =>
      exact List.nodup_nil
  | some root =>
      have hsub := walkStack_subperm [root]
      rw [List.flatMap_singleton] at hsub
      rcases hsub with ⟨l, hperm, hsublist⟩
      exact hperm.nodup_iff.mp (hsublist.nodup (Listing.allFiles_nodup h _))

/-!
## Outcomes
-/

/-- What a scan did to a visited path. -/
inductive Outcome where
  | added
  | updated
  | skipped
  | failed
deriving DecidableEq, Repr

/-- The outcome of a path, from its row before and after the scan. -/
def outcomeOf (md : Except IoErrorKind FileMetadata)
    (before after : Option PresetRow) : Outcome :=
  match before, md with
  | none, _ => if after.isSome then .added else .failed
  | some _, .error _ => .failed
  | some row, .ok md =>
      if row.stamp = md.stamp then .skipped
      else if after.map (·.stamp) = some md.stamp then .updated
      else .failed

def outcome (src : Source ε) (pre post : Tables) (path : Path) : Outcome :=
  outcomeOf (src.metadata path) (pre.rowOf path) (post.rowOf path)

/-- The counts that the outcomes of the visited paths call for. -/
def claimedStats (src : Source ε) (pre post : Tables) (paths : List Path) :
    ScanStats :=
  let count := fun o => paths.countP fun path => outcome src pre post path = o
  { seen := paths.length
    added := count .added
    updated := count .updated
    skipped := count .skipped
    failed := count .failed }

theorem rowOf_written_self (t : Tables) (path : Path) (m : Metadata)
    (stamp : Stamp) :
    (t.written path m stamp).rowOf path =
      some (PresetRow.of (t.idFor path) path m stamp) :=
  rowOf_placed t path m stamp t.nextId

theorem find?_map_other {rows : List PresetRow} {path other : Path}
    {m : Metadata} {stamp : Stamp} (h : other ≠ path) :
    (rows.map fun r =>
      if r.path = path then PresetRow.of r.id path m stamp else r).find?
        (fun r => r.path = other) =
      rows.find? fun r => r.path = other := by
  induction rows with
  | nil =>
      rfl
  | cons r rest ih =>
      rw [List.map_cons, List.find?_cons, List.find?_cons, ih]
      by_cases hpath : r.path = path
      · simp [hpath, PresetRow.of, Ne.symm h]
      · rw [if_neg hpath]

theorem rowOf_written_of_ne (t : Tables) {path other : Path} (m : Metadata)
    (stamp : Stamp) (h : other ≠ path) :
    (t.written path m stamp).rowOf other = t.rowOf other := by
  unfold Tables.written Tables.placed
  cases hrow : t.rowOf path with
  | some row =>
      exact find?_map_other h
  | none =>
      simp only [Option.isSome_none, Bool.false_eq_true, if_false]
      unfold Tables.rowOf
      rw [List.find?_append]
      simp [PresetRow.of, Ne.symm h]

/-- An upsert leaves the rows of other paths alone. -/
theorem rowOf_upsert_of_ne (src : Source ε) {path other : Path}
    (h : other ≠ path) (t : Tables) :
    (upsert false src noFaults path t).2.rowOf other = t.rowOf other := by
  rcases upsert_cases false src noFaults path t with
    ⟨e, herror⟩ | hskip | ⟨md, nks, _, _, hcommit⟩
  · rw [herror]
  · rw [hskip]
  · rw [hcommit]
    exact rowOf_written_of_ne t _ _ h

/-- The result of an upsert tells a skipped file from a written one, and no
more. -/
theorem outcome_upsert (src : Source ε) (path : Path) (t : Tables) :
    let after := upsert false src noFaults path t
    match after.1 with
    | .ok true => outcome src t after.2 path = .added ∨
        outcome src t after.2 path = .updated
    | .ok false => outcome src t after.2 path = .skipped
    | .error _ => outcome src t after.2 path = .failed := by
  rw [upsert_noFaults]
  unfold outcome
  cases hmd : src.metadata path with
  | error kind =>
      cases hrow : t.rowOf path with
      | none =>
          simp [outcomeOf, hrow]
      | some row =>
          simp [outcomeOf]
  | ok md =>
      dsimp only
      cases hrow : t.rowOf path with
      | none =>
          cases src.scan path with
          | error e =>
              simp [outcomeOf, hrow]
          | ok nks =>
              by_cases hrejects : t.Rejects false path
              · simp [outcomeOf, hrow, hrejects]
              · simp [outcomeOf, hrejects, rowOf_written_self]
      | some row =>
          by_cases hstamp : row.stamp = md.stamp
          · simp [outcomeOf, hstamp]
          · cases src.scan path with
            | error e =>
                simp [outcomeOf, hrow, hstamp]
            | ok nks =>
                by_cases hrejects : t.Rejects false path
                · simp [outcomeOf, hrow, hstamp, hrejects]
                · simp [outcomeOf, hstamp, hrejects, rowOf_written_self,
                    PresetRow.of]

/-!
## Counters
-/

def ScanStats.add (a b : ScanStats) : ScanStats :=
  { seen := a.seen + b.seen
    added := a.added + b.added
    updated := a.updated + b.updated
    skipped := a.skipped + b.skipped
    failed := a.failed + b.failed }

theorem ScanStats.add_assoc (a b c : ScanStats) :
    (a.add b).add c = a.add (b.add c) := by
  simp [ScanStats.add, Nat.add_assoc]

/-- What the closure counts for an outcome. -/
def counted : Outcome -> ScanStats
  | .added => { seen := 1, added := 1 }
  | .updated => { seen := 1, added := 1 }
  | .skipped => { seen := 1, updated := 1 }
  | .failed => { seen := 1, failed := 1 }

def countedStats (o : Path -> Outcome) : List Path -> ScanStats
  | [] => {}
  | path :: rest => (counted (o path)).add (countedStats o rest)

theorem countedStats_congr {o o' : Path -> Outcome} {paths : List Path}
    (h : forall path, path ∈ paths -> o path = o' path) :
    countedStats o paths = countedStats o' paths := by
  induction paths with
  | nil =>
      rfl
  | cons path rest ih =>
      rw [countedStats, countedStats, h path (List.mem_cons_self ..),
        ih fun p hp => h p (List.mem_cons_of_mem _ hp)]

theorem countedStats_eq (o : Path -> Outcome) (paths : List Path) :
    countedStats o paths =
      { seen := paths.length
        added := (paths.countP fun p => o p = .added) +
          paths.countP fun p => o p = .updated
        updated := paths.countP fun p => o p = .skipped
        skipped := 0
        failed := paths.countP fun p => o p = .failed } := by
  induction paths with
  | nil =>
      rfl
  | cons path rest ih =>
      rw [countedStats, ih]
      cases h : o path with
      | added =>
          simp [counted, ScanStats.add, h]
          omega
      | updated =>
          simp [counted, ScanStats.add, h]
          omega
      | skipped =>
          simp [counted, ScanStats.add, h]
          omega
      | failed =>
          simp [counted, ScanStats.add, h]
          omega

/-- One visit counts the outcome of its path. -/
theorem visit_stats (src : Source ε) {path : Path} (h : isNksf path = true)
    (s : ScanStats × Tables) :
    (visit src s path).1 =
      s.1.add (counted (outcome src s.2 (visit src s path).2 path)) := by
  have hout := outcome_upsert src path s.2
  unfold visit
  rw [if_pos h]
  revert hout
  cases upsert false src noFaults path s.2 with
  | mk result t =>
      intro hout
      cases result with
      | error e =>
          have hfailed : outcome src s.2 t path = .failed := hout
          simp [hfailed, counted, ScanStats.add]
      | ok b =>
          cases b with
          | true =>
              have hwritten : outcome src s.2 t path = .added ∨
                outcome src s.2 t path = .updated := hout
              rcases hwritten with hadded | hupdated
              · simp [hadded, counted, ScanStats.add]
              · simp [hupdated, counted, ScanStats.add]
          | false =>
              have hskipped : outcome src s.2 t path = .skipped := hout
              simp [hskipped, counted, ScanStats.add]

theorem rowOf_visit_of_ne (src : Source ε) {path other : Path}
    (h : other ≠ path) (s : ScanStats × Tables) :
    (visit src s path).2.rowOf other = s.2.rowOf other := by
  rw [visit_tables]
  split
  · exact rowOf_upsert_of_ne src h s.2
  · rfl

theorem rowOf_foldl_visit (src : Source ε) {other : Path} {paths : List Path}
    (h : other ∉ paths) (s : ScanStats × Tables) :
    (paths.foldl (visit src) s).2.rowOf other = s.2.rowOf other := by
  induction paths generalizing s with
  | nil =>
      rfl
  | cons path rest ih =>
      rw [List.mem_cons, not_or] at h
      rw [List.foldl_cons, ih h.right, rowOf_visit_of_ne src h.left]

/-- The counters after visits of different files, by what the visits did. -/
theorem foldl_visit_stats (src : Source ε) {paths : List Path}
    (hnodup : paths.Nodup) (hnksf : forall path, path ∈ paths ->
      isNksf path = true) (s : ScanStats × Tables) :
    (paths.foldl (visit src) s).1 =
      s.1.add (countedStats
        (outcome src s.2 (paths.foldl (visit src) s).2) paths) := by
  induction paths generalizing s with
  | nil =>
      rfl
  | cons path rest ih =>
      rw [List.nodup_cons] at hnodup
      have hpath := hnksf path (List.mem_cons_self ..)
      have hrest := ih hnodup.right
        (fun p hp => hnksf p (List.mem_cons_of_mem _ hp)) (visit src s path)
      rw [List.foldl_cons, hrest, visit_stats src hpath, countedStats,
        ScanStats.add_assoc]
      -- the other visits leave the row of this path alone, and this visit theirs
      have hfirst : outcome src s.2 (visit src s path).2 path =
          outcome src s.2 (rest.foldl (visit src) (visit src s path)).2 path := by
        unfold outcome
        rw [rowOf_foldl_visit src hnodup.left]
      have hothers : forall p, p ∈ rest ->
          outcome src (visit src s path).2
            (rest.foldl (visit src) (visit src s path)).2 p =
          outcome src s.2 (rest.foldl (visit src) (visit src s path)).2 p := by
        intro p hp
        have hne : p ≠ path := fun heq => hnodup.left (heq ▸ hp)
        unfold outcome
        rw [rowOf_visit_of_ne src hne]
      rw [hfirst, countedStats_congr hothers]

/-!
## Outcomes by the state before the scan
-/

/-- The row of a path matches its file. -/
def Skips (src : Source ε) (t : Tables) (path : Path) : Prop :=
  exists row md, t.rowOf path = some row ∧ src.metadata path = .ok md ∧
    row.stamp = md.stamp

/-- The file of an indexed path has changed and parses, and the search table
holds no row that it would have to delete. -/
def Rewrites (src : Source ε) (t : Tables) (path : Path) : Prop :=
  exists row md nks, t.rowOf path = some row ∧ src.metadata path = .ok md ∧
    row.stamp ≠ md.stamp ∧ src.scan path = .ok nks ∧ Not (t.HasFts row.id)

theorem outcomeOf_none (md : Except IoErrorKind FileMetadata)
    (after : Option PresetRow) :
    outcomeOf md none after ≠ .updated ∧ outcomeOf md none after ≠ .skipped := by
  unfold outcomeOf
  cases after with
  | none =>
      simp
  | some row =>
      simp

theorem outcome_skipped_iff {src : Source ε} {pre post : Tables}
    {path : Path} :
    outcome src pre post path = .skipped <-> Skips src pre path := by
  unfold outcome Skips
  cases pre.rowOf path with
  | none =>
      simp only [reduceCtorEq, false_and, exists_false, iff_false]
      exact (outcomeOf_none _ _).right
  | some row =>
      cases src.metadata path with
      | error kind =>
          simp [outcomeOf]
      | ok md =>
          by_cases hstamp : row.stamp = md.stamp
          · simp [outcomeOf, hstamp]
          · simp only [outcomeOf, if_neg hstamp]
            split <;> simp [hstamp]

theorem outcome_updated_iff (src : Source ε) (t : Tables) (path : Path) :
    outcome src t (upsert false src noFaults path t).2 path = .updated <->
      Rewrites src t path := by
  rw [upsert_noFaults]
  unfold outcome Rewrites
  cases hrow : t.rowOf path with
  | none =>
      simp only [reduceCtorEq, false_and, exists_false, iff_false]
      exact (outcomeOf_none _ _).left
  | some row =>
      have hid : t.idFor path = row.id := by
        rw [Tables.idFor, hrow]
      cases src.metadata path with
      | error kind =>
          simp [outcomeOf]
      | ok md =>
          by_cases hstamp : row.stamp = md.stamp
          · simp [outcomeOf, hstamp]
          · cases src.scan path with
            | error e =>
                simp [outcomeOf, hrow, hstamp]
            | ok nks =>
                by_cases hfts : t.HasFts row.id
                · simp [outcomeOf, hrow, hstamp, Tables.Rejects, hid, hfts]
                · simp [outcomeOf, hstamp, Tables.Rejects, hid, hfts,
                    rowOf_written_self, PresetRow.of]

theorem keyed_upsert (src : Source ε) (path : Path) {t : Tables}
    (h : t.Keyed) : (upsert false src noFaults path t).2.Keyed := by
  rcases upsert_cases false src noFaults path t with
    ⟨e, herror⟩ | hskip | ⟨md, nks, _, _, hcommit⟩
  · rw [herror]
    exact h
  · rw [hskip]
    exact h
  · rw [hcommit]
    exact h.written

/-- The search row of an indexed path is not touched by other upserts. -/
theorem hasFts_upsert_of_ne (src : Source ε) {path other : Path}
    (hne : other ≠ path) {t : Tables} (h : t.Keyed) {row : PresetRow}
    (hrow : t.rowOf other = some row) :
    (upsert false src noFaults path t).2.HasFts row.id <->
      t.HasFts row.id := by
  rcases Tables.rowOf_mem hrow with ⟨hmem, hpath⟩
  have hid : row.id ≠ t.idFor path := fun hid =>
    hne (hpath.symm.trans ((h.id_eq_iff hmem).mp hid))
  rcases upsert_cases false src noFaults path t with
    ⟨e, herror⟩ | hskip | ⟨md, nks, _, _, hcommit⟩
  · rw [herror]
  · rw [hskip]
  · rw [hcommit]
    constructor
    · intro hfts
      rcases hfts with ⟨r, hr, hrid⟩
      rcases mem_replaceRows_iff.mp hr with ⟨hold, _⟩ | hnew
      · exact ⟨r, hold, hrid⟩
      · rw [List.mem_singleton] at hnew
        rw [hnew] at hrid
        exact absurd hrid.symm hid
    · intro hfts
      rcases hfts with ⟨r, hr, hrid⟩
      exact ⟨r, mem_replaceRows_iff.mpr (Or.inl ⟨hr, by rw [hrid]; exact hid⟩),
        hrid⟩

theorem rewrites_upsert_of_ne (src : Source ε) {path other : Path}
    (hne : other ≠ path) {t : Tables} (h : t.Keyed) :
    Rewrites src (upsert false src noFaults path t).2 other <->
      Rewrites src t other := by
  unfold Rewrites
  rw [rowOf_upsert_of_ne src hne]
  constructor
  · intro hrewrites
    rcases hrewrites with ⟨row, md, nks, hrow, hmd, hstamp, hscan, hfts⟩
    rw [hasFts_upsert_of_ne src hne h hrow] at hfts
    exact ⟨row, md, nks, hrow, hmd, hstamp, hscan, hfts⟩
  · intro hrewrites
    rcases hrewrites with ⟨row, md, nks, hrow, hmd, hstamp, hscan, hfts⟩
    rw [<- hasFts_upsert_of_ne src hne h hrow] at hfts
    exact ⟨row, md, nks, hrow, hmd, hstamp, hscan, hfts⟩

/-- A visited path is rewritten exactly when the state before the scan said
so. -/
theorem outcome_foldl_updated_iff (src : Source ε) {paths : List Path}
    (hnodup : paths.Nodup) (hnksf : forall path, path ∈ paths ->
      isNksf path = true) (s : ScanStats × Tables) (h : s.2.Keyed)
    {path : Path} (hpath : path ∈ paths) :
    outcome src s.2 (paths.foldl (visit src) s).2 path = .updated <->
      Rewrites src s.2 path := by
  induction paths generalizing s with
  | nil =>
      cases hpath
  | cons first rest ih =>
      rw [List.nodup_cons] at hnodup
      have htables : (visit src s first).2 =
          (upsert false src noFaults first s.2).2 := by
        rw [visit_tables, if_pos (hnksf first (List.mem_cons_self ..))]
      rw [List.foldl_cons]
      rcases List.mem_cons.mp hpath with heq | hrest
      · have hafter := rowOf_foldl_visit src hnodup.left (visit src s first)
        rw [heq, <- outcome_updated_iff src s.2 first]
        unfold outcome
        rw [hafter, htables]
      · have hne : path ≠ first := fun heq => hnodup.left (heq ▸ hrest)
        have hkeyed : (visit src s first).2.Keyed :=
          htables ▸ keyed_upsert src first h
        have hrec := ih hnodup.right
          (fun p hp => hnksf p (List.mem_cons_of_mem _ hp))
          (visit src s first) hkeyed hrest
        rw [htables, rewrites_upsert_of_ne src hne h, <- htables] at hrec
        rw [<- hrec]
        unfold outcome
        rw [rowOf_visit_of_ne src hne]

/-!
## Accounting of scans
-/

/-- A state of the database: SQLite keeps the keys of the presets unique. -/
structure Database where
  tables : Tables
  keyed : tables.Keyed

theorem presetPaths_nodup {root : Option Directory} (h : DistinctRoot root) :
    (presetPaths root).Nodup := (walk_nodup h).filter _

/-- The counters of a scan, by what it did to the visited paths. -/
theorem scanRoot_stats {src : Source ε} {root : Option Directory}
    {t t' : Tables} {stats : ScanStats} (hroot : DistinctRoot root)
    (h : scanRoot src root t = (.ok stats, t')) :
    t' = ((presetPaths root).foldl (visit src) ({}, t)).2 ∧
      stats = countedStats (outcome src t t') (presetPaths root) := by
  rw [scanRoot_eq] at h
  dsimp only at h
  rcases Prod.mk.inj h with ⟨hresult, htables⟩
  refine ⟨htables.symm, ?_⟩
  cases hwalk : (walk root).2 with
  | some kind =>
      rw [hwalk] at hresult
      cases hresult
  | none =>
      rw [hwalk] at hresult
      have hstats := foldl_visit_stats src (presetPaths_nodup hroot)
        (fun _ hp => isNksf_of_mem_presetPaths hp) ({}, t)
      rw [htables] at hstats
      rw [<- Except.ok.inj hresult, hstats]
      simp [ScanStats.add]

/-- The counters are the claimed ones when nothing is skipped or updated. -/
theorem countedStats_eq_claimed_iff (src : Source ε) (pre post : Tables)
    (paths : List Path) :
    countedStats (outcome src pre post) paths =
        claimedStats src pre post paths <->
      forall path, path ∈ paths -> outcome src pre post path ≠ .skipped ∧
        outcome src pre post path ≠ .updated := by
  rw [countedStats_eq]
  unfold claimedStats
  constructor
  · intro h
    have hadded := congrArg ScanStats.added h
    have hskipped := congrArg ScanStats.skipped h
    dsimp only at hadded hskipped
    have hupdated : (paths.countP fun p =>
        outcome src pre post p = .updated) = 0 := by omega
    intro path hpath
    constructor
    · simpa using List.countP_eq_zero.mp hskipped.symm path hpath
    · simpa using List.countP_eq_zero.mp hupdated path hpath
  · intro h
    have hskipped : (paths.countP fun p =>
        outcome src pre post p = .skipped) = 0 := by
      rw [List.countP_eq_zero]
      intro path hpath
      simpa using (h path hpath).left
    have hupdated : (paths.countP fun p =>
        outcome src pre post p = .updated) = 0 := by
      rw [List.countP_eq_zero]
      intro path hpath
      simpa using (h path hpath).right
    simp [hskipped, hupdated]

theorem outcome_total (src : Source ε) (pre post : Tables)
    (paths : List Path) :
    paths.length =
      (paths.countP fun p => outcome src pre post p = .added) +
        (paths.countP fun p => outcome src pre post p = .updated) +
          (paths.countP fun p => outcome src pre post p = .skipped) +
            paths.countP fun p => outcome src pre post p = .failed := by
  induction paths with
  | nil =>
      rfl
  | cons path rest ih =>
      cases h : outcome src pre post path with
      | added =>
          simp [h]
          omega
      | updated =>
          simp [h]
          omega
      | skipped =>
          simp [h]
          omega
      | failed =>
          simp [h]
          omega

/-- The scan changes nothing at a path: its row matches the file, or the file
cannot be read or parsed, or the search table rejects the update. -/
def Settled (src : Source ε) (t : Tables) (path : Path) : Prop :=
  Skips src t path ∨ (exists kind, src.metadata path = .error kind) ∨
    (exists e, src.scan path = .error e) ∨ t.Rejects false path

theorem upsert_of_settled {src : Source ε} {t : Tables} {path : Path}
    (h : Settled src t path) : (upsert false src noFaults path t).2 = t := by
  rw [upsert_noFaults]
  rcases h with ⟨row, md, hrow, hmd, hstamp⟩ | ⟨kind, hmd⟩ | ⟨e, hscan⟩ | hrejects
  · rw [hmd]
    dsimp only
    rw [hrow, if_pos (by simp [hstamp])]
  · rw [hmd]
  · cases src.metadata path with
    | error kind =>
        rfl
    | ok md =>
        rw [hscan]
        dsimp only
        split <;> rfl
  · cases src.metadata path with
    | error kind =>
        rfl
    | ok md =>
        cases src.scan path with
        | error e =>
            dsimp only
            split <;> rfl
        | ok nks =>
            dsimp only
            rw [if_pos hrejects]
            split <;> rfl

theorem outcome_self (src : Source ε) (t : Tables) (path : Path) :
    outcome src t t path ≠ .added ∧ outcome src t t path ≠ .updated := by
  unfold outcome
  cases hrow : t.rowOf path with
  | none =>
      exact ⟨by simp [outcomeOf], (outcomeOf_none _ _).left⟩
  | some row =>
      cases src.metadata path with
      | error kind =>
          simp [outcomeOf]
      | ok md =>
          by_cases hstamp : row.stamp = md.stamp
          · simp [outcomeOf, hstamp]
          · simp [outcomeOf, hstamp]

/-- A scan of settled paths counts the skipped ones as updated. -/
theorem scanRoot_settled {src : Source ε} {root : Option Directory}
    {t : Tables} (hroot : DistinctRoot root)
    (h : forall path, path ∈ presetPaths root -> Settled src t path) :
    (scanRoot src root t).2 = t ∧
      forall stats, (scanRoot src root t).1 = .ok stats ->
        (stats.added + stats.updated = 0 <->
          forall path, path ∈ presetPaths root -> Not (Skips src t path)) := by
  have htables : (scanRoot src root t).2 = t := by
    rw [scanRoot_tables]
    generalize presetPaths root = paths at h
    induction paths with
    | nil =>
        rfl
    | cons path rest ih =>
        rw [List.foldl_cons,
          upsert_of_settled (h path (List.mem_cons_self ..))]
        exact ih fun p hp => h p (List.mem_cons_of_mem _ hp)
  refine ⟨htables, ?_⟩
  intro stats hstats
  have hscan : scanRoot src root t = (.ok stats, t) :=
    Prod.ext hstats htables
  have hcounted := (scanRoot_stats hroot hscan).right
  rw [countedStats_eq] at hcounted
  have hadded : ((presetPaths root).countP fun p =>
      outcome src t t p = .added) = 0 := by
    rw [List.countP_eq_zero]
    intro path _
    simpa using (outcome_self src t path).left
  have hupdated : ((presetPaths root).countP fun p =>
      outcome src t t p = .updated) = 0 := by
    rw [List.countP_eq_zero]
    intro path _
    simpa using (outcome_self src t path).right
  rw [hcounted, hadded, hupdated]
  simp [List.countP_eq_zero, outcome_skipped_iff]

theorem scanRoot_isOk_iff (src : Source ε) (root : Option Directory)
    (t : Tables) :
    (exists stats, (scanRoot src root t).1 = .ok stats) <->
      (walk root).2 = none := by
  rw [scanRoot_eq]
  cases (walk root).2 with
  | none =>
      simp
  | some kind =>
      simp

/-- The number of changes reported when nothing has changed. -/
theorem scanLibraries_settled
    (libraries : List (Source ε × Option Directory)) (t : Tables)
    (h : forall library, library ∈ libraries -> DistinctRoot library.2 ∧
      forall path, path ∈ presetPaths library.2 ->
        Settled library.1 t path) (n : Nat) :
    (libraries.foldl scanLibrary (n, t)).1 = 0 <->
      n = 0 ∧ forall library, library ∈ libraries ->
        (walk library.2).2 = none ->
          forall path, path ∈ presetPaths library.2 ->
            Not (Skips library.1 t path) := by
  induction libraries generalizing n with
  | nil =>
      simp
  | cons library rest ih =>
      have hrest := ih fun l hl => h l (List.mem_cons_of_mem _ hl)
      rcases h library (List.mem_cons_self ..) with ⟨hroot, hsettled⟩
      rcases scanRoot_settled hroot hsettled with ⟨htables, hcount⟩
      have hok := scanRoot_isOk_iff library.1 library.2 t
      rw [List.foldl_cons, List.forall_mem_cons]
      cases hresult : (scanRoot library.1 library.2 t).1 with
      | error e =>
          have hscan : scanRoot library.1 library.2 t = (.error e, t) :=
            Prod.ext hresult htables
          have hturn : scanLibrary (n, t) library = (n, t) := by
            rw [scanLibrary, hscan]
          have hwalk : (walk library.2).2 ≠ none := by
            rw [hresult] at hok
            simpa using hok
          rw [hturn, hrest]
          simp [hwalk]
      | ok stats =>
          have hscan : scanRoot library.1 library.2 t = (.ok stats, t) :=
            Prod.ext hresult htables
          have hturn : scanLibrary (n, t) library =
              (n + (stats.added + stats.updated), t) := by
            rw [scanLibrary, hscan]
          have hwalk := hok.mp ⟨stats, hresult⟩
          rw [hturn, hrest, <- hcount stats hresult]
          simp only [hwalk, true_implies]
          constructor
          · intro hall
            exact ⟨by omega, by omega, hall.right⟩
          · intro hall
            exact ⟨by omega, hall.right.right⟩

/-- The counters of a scan are those of what it did, and the reported number
of changes is 0 when nothing has changed, exactly when no visited path is
skipped and none is rewritten. -/
theorem scan_accounting (ε : Type) :
    (forall (src : Source ε) (root : Option Directory) (db : Database)
      (stats : ScanStats) (t' : Tables), DistinctRoot root ->
        scanRoot src root db.tables = (.ok stats, t') ->
          stats.seen = stats.added + stats.updated + stats.skipped +
              stats.failed ∧
            (stats = claimedStats src db.tables t' (presetPaths root) <->
              forall path, path ∈ presetPaths root ->
                Not (Skips src db.tables path) ∧
                  Not (Rewrites src db.tables path))) ∧
      forall (libraries : List (Source ε × Option Directory)) (db : Database),
        (forall library, library ∈ libraries -> DistinctRoot library.2 ∧
          forall path, path ∈ presetPaths library.2 ->
            Settled library.1 db.tables path) ->
          ((scanLibraries libraries db.tables).1 = 0 <->
            forall library, library ∈ libraries ->
              (walk library.2).2 = none ->
                forall path, path ∈ presetPaths library.2 ->
                  Not (Skips library.1 db.tables path)) := by
  constructor
  · intro src root db stats t' hroot hscan
    rcases scanRoot_stats hroot hscan with ⟨htables, hstats⟩
    constructor
    · rw [hstats, countedStats_eq]
      have htotal := outcome_total src db.tables t' (presetPaths root)
      dsimp only
      omega
    · rw [hstats, countedStats_eq_claimed_iff]
      apply forall₂_congr
      intro path hpath
      have hupdated := outcome_foldl_updated_iff src (presetPaths_nodup hroot)
        (fun _ hp => isNksf_of_mem_presetPaths hp) ({}, db.tables) db.keyed
        hpath
      rw [<- htables] at hupdated
      exact and_congr (not_congr outcome_skipped_iff) (not_congr hupdated)
  · intro libraries db h
    rw [scanLibraries, scanLibraries_settled libraries db.tables h 0]
    simp

/-- The database after a first scan of the preset "old". -/
def scannedDatabase : Database :=
  { tables := ({} : Tables).written ["lib", "a.nksf"] (namedMetadata "old")
      { mtimeNs := 1, size := 100 }
    keyed := ⟨by simp [Tables.written, Tables.placed, Tables.rowOf],
      by simp [Tables.written, Tables.placed, Tables.rowOf]⟩ }

/-- A second scan of an unchanged preset counts it as updated. -/
theorem scan_accounting_fails :
    Not (forall (src : Source Unit) (root : Option Directory) (db : Database)
      (stats : ScanStats) (t' : Tables), DistinctRoot root ->
        scanRoot src root db.tables = (.ok stats, t') ->
          stats = claimedStats src db.tables t' (presetPaths root)) := by
  intro hall
  have hroot : DistinctRoot onePresetRoot := by
    simp [DistinctRoot, onePresetRoot, Listing.Distinct, Listing.names]
  have hscan : scanRoot (namedSource "old" 1) onePresetRoot
      scannedDatabase.tables =
        (.ok { seen := 1, updated := 1 }, scannedDatabase.tables) := by
    rw [scanRoot_eq, presetPaths, onePresetRoot_walk]
    rfl
  have hstats := congrArg ScanStats.updated (hall _ _ _ _ _ hroot hscan)
  rw [presetPaths, onePresetRoot_walk] at hstats
  exact absurd hstats (by decide)

end Index
end OpenMk3
