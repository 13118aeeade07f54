import OpenMk3.Daemon.Load
import OpenMk3.Index.Query
import OpenMk3.Library.Transition
import OpenMk3.Ui.Lists

/-!
# What the daemon shows and what it loads

The index, the browse state, and the tasks that use them: files are upserted one
by one by the scan in the background and by `ScanLibraries`, a query is shown
some time after it was run, and a client loads by an id from a reply that it may
have had long ago.  No upsert removes a preset or moves an id to another path.
-/

namespace OpenMk3
namespace Daemon

open Device Index Library Nks Plugins Session Ui

/-- The database and the browse state, the rows that the two tasks have queried
and not yet shown, and the rows of every reply to `Browse`. -/
structure Views where
  ledger : Ledger
  browse : BrowseState
  queried : Option (List Ui.PresetRow)
  refreshed : Option (List Ui.PresetRow)
  replies : List (List Ui.PresetRow)

inductive ViewsAct (ε : Type) where
  | upsert (c : UpsertCall ε)
  -- The op pump runs the query of a `Browse`, then shows it and replies.
  | browse (args : BrowseArgs)
  | reply
  -- The background task does the same when it has scanned.
  | refresh
  | show
  | event (ev : Event)

def BrowseArgs.query (args : BrowseArgs) : Query :=
  { text := args.text
    vendor := args.vendor
    typeFilter := args.type
    limit := args.limit.or (some 100) }

/-- The query of the first view and of the refresh. -/
def newest (limit : UInt32) : Query :=
  { text := none, vendor := none, typeFilter := none, limit := some limit }

namespace Views

variable {ε : Type} (contentlessDelete : Bool) (db : Sqlite)

/-- The daemon over the database that earlier runs have left. -/
def boot (ledger : Ledger) : Views where
  ledger := ledger
  browse :=
    let initial : BrowseState := { facetValues := BrowseState.daemonFacets }
    match (newest 50).run db ledger.tables with
    | .ok rows => initial.setRows rows
    | .error _ => initial
  queried := none
  refreshed := none
  replies := []

def step : Transition Views (ViewsAct ε)
  | s, .upsert c => some { s with ledger := s.ledger.call contentlessDelete c }
  | s, .browse args =>
      if s.queried.isSome then none
      else
        match args.query.run db s.ledger.tables with
        | .ok rows => some { s with queried := some rows }
        | .error _ => some s
  | s, .reply =>
      s.queried.map fun rows =>
        { s with
          browse := s.browse.setRows rows
          queried := none
          replies := s.replies ++ [rows] }
  | s, .refresh =>
      if s.refreshed.isSome then none
      else
        match (newest 100).run db s.ledger.tables with
        | .ok rows => some { s with refreshed := some rows }
        | .error _ => some s
  | s, .show =>
      s.refreshed.map fun rows =>
        { s with
          browse := s.browse.setRows rows
          refreshed := none }
  | s, .event ev => some { s with browse := (s.browse.navigate ev).1 }

/-- The rows that are on their way, in view or in a reply. -/
def Holds (s : Views) (row : Ui.PresetRow) : Prop :=
  row ∈ s.browse.rows ∨ (exists rows, s.queried = some rows ∧ row ∈ rows) ∨
    (exists rows, s.refreshed = some rows ∧ row ∈ rows) ∨
    exists rows, rows ∈ s.replies ∧ row ∈ rows

variable {contentlessDelete db} {s s' : Views}

theorem rows_navigate (b : BrowseState) (ev : Event) :
    (b.navigate ev).1.rows = b.rows := by
  have hdown : forall n, (Nat.repeat BrowseState.cursorDown n b).rows = b.rows := by
    intro n
    induction n with
    | zero => rfl
    | succ n ih =>
        rw [Nat.repeat, ← ih, BrowseState.cursorDown]
        split <;> rfl
  have hup : forall n, (Nat.repeat BrowseState.cursorUp n b).rows = b.rows := by
    intro n
    rw [BrowseState.repeat_cursorUp]
  unfold BrowseState.navigate
  cases ev with
  | macroEncoder index delta absolute =>
      dsimp only
      split
      · split
        · exact hdown _
        · exact hup _
      · split
        · split <;> rfl
        · rfl
  | _ => rfl

/-- A step upserts a file, or it leaves the database and holds no row that was
not held before or just read from it. -/
theorem step_cases {a : ViewsAct ε}
    (h : step contentlessDelete db s a = some s') :
    (exists c : UpsertCall ε,
      s' = { s with ledger := s.ledger.call contentlessDelete c }) ∨
    s'.ledger = s.ledger ∧ forall row, s'.Holds row -> s.Holds row ∨
      exists (q : Query) (rows : List Ui.PresetRow),
        q.run db s.ledger.tables = .ok rows ∧ row ∈ rows := by
  cases a with
  | upsert c =>
      cases h
      exact .inl ⟨c, rfl⟩
  | browse args =>
      simp only [step] at h
      split at h
      · cases h
      · split at h
        · next rows hrun =>
            cases h
            refine .inr ⟨rfl, ?_⟩
            rintro row (hview | ⟨rows', heq, hmem⟩ | hother)
            · exact .inl (.inl hview)
            · cases heq
              exact .inr ⟨args.query, rows, hrun, hmem⟩
            · exact .inl (.inr (.inr hother))
        · cases h
          exact .inr ⟨rfl, fun _ => .inl⟩
  | reply =>
      rcases Option.map_eq_some_iff.mp h with ⟨rows, hrows, rfl⟩
      refine .inr ⟨rfl, ?_⟩
      rintro row (hview | ⟨rows', heq, -⟩ | hrefreshed | ⟨rows', hreply, hmem⟩)
      · exact .inl (.inr (.inl ⟨rows, hrows, hview⟩))
      · cases heq
      · exact .inl (.inr (.inr (.inl hrefreshed)))
      · rcases List.mem_append.mp hreply with hold | hnew
        · exact .inl (.inr (.inr (.inr ⟨rows', hold, hmem⟩)))
        · cases List.mem_singleton.mp hnew
          exact .inl (.inr (.inl ⟨rows, hrows, hmem⟩))
  | refresh =>
      simp only [step] at h
      split at h
      · cases h
      · split at h
        · next rows hrun =>
            cases h
            refine .inr ⟨rfl, ?_⟩
            rintro row (hview | hqueried | ⟨rows', heq, hmem⟩ | hreply)
            · exact .inl (.inl hview)
            · exact .inl (.inr (.inl hqueried))
            · cases heq
              exact .inr ⟨newest 100, rows, hrun, hmem⟩
            · exact .inl (.inr (.inr (.inr hreply)))
        · cases h
          exact .inr ⟨rfl, fun _ => .inl⟩
  | «show» =>
      rcases Option.map_eq_some_iff.mp h with ⟨rows, hrows, rfl⟩
      refine .inr ⟨rfl, ?_⟩
      rintro row (hview | hqueried | ⟨rows', heq, -⟩ | hreply)
      · exact .inl (.inr (.inr (.inl ⟨rows, hrows, hview⟩)))
      · exact .inl (.inr (.inl hqueried))
      · cases heq
      · exact .inl (.inr (.inr (.inr hreply)))
  | event ev =>
      cases h
      refine .inr ⟨rfl, ?_⟩
      rintro row (hview | hother)
      · exact .inl (.inl ((rows_navigate s.browse ev) ▸ hview))
      · exact .inl (.inr hother)

/-!
## Ids
-/

/-- The database has a preset with this id and path. -/
def Names (t : Tables) (row : Ui.PresetRow) : Prop :=
  exists p, p ∈ t.presets ∧ (p.id : Int) = row.id ∧ p.path = row.path

theorem names_of_run {q : Query} {t : Tables} {rows : List Ui.PresetRow}
    (h : q.run db t = .ok rows) {row : Ui.PresetRow} (hrow : row ∈ rows) :
    Names t row := by
  rcases preset_of_run h hrow with ⟨p, hp, rfl⟩
  exact ⟨p, hp, rfl, rfl⟩

/-- An upsert leaves a preset its id and its path. -/
theorem names_call {ledger : Ledger} (hledger : Consistent ledger)
    (c : UpsertCall ε) {row : Ui.PresetRow} (h : Names ledger.tables row) :
    Names (ledger.call contentlessDelete c).tables row := by
  rcases h with ⟨p, hp, hid, hpath⟩
  rcases Ledger.call_cases contentlessDelete ledger c with hsame | ⟨m, stamp, hnew⟩
  · rw [hsame]
    exact ⟨p, hp, hid, hpath⟩
  · rw [hnew]
    by_cases hwritten : p.path = c.path
    · have hkey := (hledger.keyed.id_eq_iff hp).mpr hwritten
      refine ⟨PresetRow.of (ledger.tables.idFor c.path) c.path m stamp,
        hledger.keyed.mem_written_iff.mpr (.inr rfl), ?_, ?_⟩
      · rw [← hid, hkey]
        rfl
      · exact hwritten.symm.trans hpath
    · refine ⟨p, hledger.keyed.mem_written_iff.mpr (.inl ⟨hp, ?_⟩), hid, hpath⟩
      intro hkey
      exact hwritten ((hledger.keyed.id_eq_iff hp).mp hkey)

/-- Every row that is held is named by the database. -/
structure Rooted (s : Views) : Prop where
  consistent : Consistent s.ledger
  named : forall row, s.Holds row -> Names s.ledger.tables row

theorem rooted_boot {ledger : Ledger} (h : Consistent ledger) :
    (boot db ledger).Rooted := by
  refine ⟨h, ?_⟩
  rintro row (hview | ⟨rows, heq, -⟩ | ⟨rows, heq, -⟩ | ⟨rows, hreply, -⟩)
  · unfold boot at hview
    cases hrun : (newest 50).run db ledger.tables with
    | ok rows =>
        simp only [hrun] at hview
        exact names_of_run hrun hview
    | error e =>
        simp only [hrun] at hview
        cases hview
  · cases heq
  · cases heq
  · cases hreply

theorem step_rooted {a : ViewsAct ε} (h : s.Rooted)
    (hstep : step contentlessDelete db s a = some s') : s'.Rooted := by
  rcases step_cases hstep with ⟨c, rfl⟩ | ⟨hledger, hheld⟩
  · refine ⟨h.consistent.call contentlessDelete c, ?_⟩
    intro row hrow
    exact names_call h.consistent c (h.named row hrow)
  · refine ⟨hledger ▸ h.consistent, ?_⟩
    intro row hrow
    rw [hledger]
    rcases hheld row hrow with hold | ⟨q, rows, hrun, hmem⟩
    · exact h.named row hold
    · exact names_of_run hrun hmem

theorem run_rooted {calls : List (UpsertCall ε)} {actions : List (ViewsAct ε)}
    (h : Transition.run (step contentlessDelete db)
      (boot db (Ledger.run contentlessDelete calls)) actions = some s) :
    s.Rooted :=
  Transition.run_invariant_of_steps (step contentlessDelete db) (fun _ _ => True)
    (rooted_boot (Consistent.run contentlessDelete calls))
    (fun _ _ _ hinv _ hstep => step_rooted hinv hstep)
    (fun _ _ _ _ _ => trivial) h

/-- Rows that are held with one id have one path. -/
theorem Rooted.path_eq (h : s.Rooted) {row row' : Ui.PresetRow}
    (hrow : s.Holds row) (hrow' : s.Holds row') (hid : row.id = row'.id) :
    row.path = row'.path := by
  rcases h.named row hrow with ⟨p, hp, hpid, hpath⟩
  rcases h.named row' hrow' with ⟨p', hp', hpid', hpath'⟩
  have hids : p.id = p'.id :=
    Int.ofNat.inj (hpid.trans (hid.trans hpid'.symm))
  rw [← hpath, ← hpath', List.inj_on_of_nodup_map h.consistent.keyed.ids hp hp' hids]

/-- The daemon with one row in view. -/
def showing (app : App) (row : Ui.PresetRow) : App :=
  { app with browse := app.browse.setRows [row] }

/-- A load depends on the row in view only by its path. -/
theorem handleLoad_of_find {ε : Type} (ctx : LoadContext ε) {app : App}
    {shown row : Ui.PresetRow} (hpath : shown.path = row.path)
    (hfind : app.browse.rows.find? (fun r => r.id == row.id) = some shown)
    (m : SessionManager Json) (l : Nat) :
    ctx.handleLoad app m l row.id = ctx.handleLoad (showing app row) m l row.id := by
  have hone : (showing app row).browse.rows.find? (fun r => r.id == row.id) =
      some row := by
    show [row].find? _ = _
    exact List.find?_cons_of_pos (p := fun r : Ui.PresetRow => r.id == row.id)
      (beq_self_eq_true row.id)
  have hprepare : ctx.prepare (showing app row) row = ctx.prepare app shown := by
    unfold LoadContext.prepare
    rw [hpath]
    rfl
  unfold LoadContext.handleLoad LoadContext.loadPreset
  simp only [hfind, hone, hprepare]

/-- In every run, over the database that any earlier runs have left, a client may
load by the id of a row from any reply it has had: the load is refused because the
row is no longer in view, or it is answered as that row asks, the file read being
the one at its path, which the database still has under that id. -/
theorem load_of_reply_run {calls : List (UpsertCall ε)}
    {actions : List (ViewsAct ε)} {rows : List Ui.PresetRow} {row : Ui.PresetRow}
    (h : Transition.run (step contentlessDelete db)
      (boot db (Ledger.run contentlessDelete calls)) actions = some s)
    (hreply : rows ∈ s.replies) (hrow : row ∈ rows) {δ : Type}
    (ctx : LoadContext δ) {app : App} (happ : app.browse = s.browse)
    (m : SessionManager Json) (l : Nat) :
    (ctx.handleLoad app m l row.id =
        some (errorReply "preset not in current view") ∨
      ctx.handleLoad app m l row.id =
        ctx.handleLoad (showing app row) m l row.id) ∧
    Names s.ledger.tables row := by
  have hrooted := run_rooted h
  have hheld : s.Holds row := .inr (.inr (.inr ⟨rows, hreply, hrow⟩))
  refine ⟨?_, hrooted.named row hheld⟩
  cases hfind : app.browse.rows.find? fun r => r.id == row.id with
  | none =>
      refine .inl ?_
      unfold LoadContext.handleLoad
      rw [hfind]
  | some shown =>
      refine .inr (handleLoad_of_find ctx ?_ hfind m l)
      have hview : s.Holds shown := .inl (happ ▸ List.mem_of_find?_eq_some hfind)
      have hid := List.find?_some hfind
      exact hrooted.path_eq hview hheld (beq_iff_eq.mp hid)

/-- Nothing can be read, and every text is empty. -/
private def noFiles : LoadContext Unit where
  files _ := none
  dec := emptyMapDecoder
  base64 _ := ""
  display _ := ""
  nksError _ := ""
  debug _ := ""
  loadError _ := ""

/-- A file is scanned again after the reply that shows it. -/
private def scannedAgain : List (ViewsAct Unit) :=
  [.browse { text := none, vendor := none, type := some "Bass", limit := none },
    .refresh, .reply, .upsert { src := bassSource, fails := fun _ => false
                                path := ["lib", "b.nksf"] }, .show]

theorem load_of_reply_scannedAgain :
    exists s rows row, Transition.run (step true columnSqlite)
        (boot columnSqlite (Ledger.run true bassCalls)) scannedAgain = some s ∧
      rows ∈ s.replies ∧ row ∈ rows ∧ Names s.ledger.tables row ∧
      (noFiles.handleLoad { browse := s.browse, registry := Registry.scan [] [] }
          SessionManager.new 0 row.id =
            some (errorReply "preset not in current view") ∨
        noFiles.handleLoad { browse := s.browse, registry := Registry.scan [] [] }
            SessionManager.new 0 row.id =
          noFiles.handleLoad
            (showing { browse := s.browse, registry := Registry.scan [] [] } row)
            SessionManager.new 0 row.id) := by
  have hsome : ((Transition.run (step true columnSqlite)
      (boot columnSqlite (Ledger.run true bassCalls)) scannedAgain).map
        fun s => s.replies.map List.length) = some [2] := by
    decide
  rcases Option.map_eq_some_iff.mp hsome with ⟨s, hs, hreplies⟩
  rcases List.map_eq_singleton_iff.mp hreplies with ⟨rows, hrows, hlength⟩
  have hpos : 0 < rows.length := hlength ▸ Nat.zero_lt_two
  rcases List.exists_mem_of_length_pos hpos with ⟨row, hrow⟩
  have hreply : rows ∈ s.replies := hrows ▸ List.mem_singleton.mpr rfl
  have happ : ({ browse := s.browse, registry := Registry.scan [] [] } : App).browse =
      s.browse := rfl
  rcases load_of_reply_run hs hreply hrow noFiles happ SessionManager.new 0 with
    ⟨hload, hnames⟩
  exact ⟨s, rows, row, hs, hreply, hrow, hnames, hload⟩

end Views
end Daemon
end OpenMk3
