import Mathlib.Data.List.Dedup
import Mathlib.Data.List.Sort
import OpenMk3.Index.Consistency
import OpenMk3.Library.Json
import OpenMk3.Library.Limit
import OpenMk3.Ui.Browse

/-!
# Querying the index

`run` assembles one `SELECT` from the filters that are set.  Its placeholders are
numbered by hand, and a join with a type row or a search row may produce a preset
more than once.  SQLite is modelled by what the documentation says of the
statement; the full-text syntax, and the order of rows whose names compare equal,
are its own.
-/

namespace OpenMk3
namespace Index

open Library

structure Query where
  text : Option String
  vendor : Option String
  typeFilter : Option String
  limit : Option UInt32

/-!
## The statement
-/

inductive Join where
  | presetTypes
  | presetsFts
deriving DecidableEq, Repr

/-- A condition, with the number of its placeholder. -/
inductive Condition where
  | typeIs (arg : Nat)
  | ftsMatch (arg : Nat)
  | vendorIs (arg : Nat)
deriving DecidableEq, Repr

def Condition.arg : Condition -> Nat
  | typeIs arg | ftsMatch arg | vendorIs arg => arg

structure Select where
  joins : List Join
  whereClauses : List Condition
  limit : Option UInt32
deriving DecidableEq, Repr

/-- The variables of `run` while it assembles the statement. -/
structure Assembly where
  joins : List Join := []
  whereClauses : List Condition := []
  args : List String := []
  argI : Nat := 1

namespace Query

def withType (q : Query) (a : Assembly) : Assembly :=
  match q.typeFilter with
  | some t =>
      { joins := a.joins ++ [.presetTypes]
        whereClauses := a.whereClauses ++ [.typeIs a.argI]
        args := a.args ++ [t]
        argI := a.argI + 1 }
  | none => a

def withText (q : Query) (a : Assembly) : Assembly :=
  match q.text with
  | some text =>
      if text ≠ "" then
        { joins := a.joins ++ [.presetsFts]
          whereClauses := a.whereClauses ++ [.ftsMatch a.argI]
          args := a.args ++ [text]
          argI := a.argI + 1 }
      else a
  | none => a

/-- The last placeholder does not move the number on. -/
def withVendor (q : Query) (a : Assembly) : Assembly :=
  match q.vendor with
  | some v =>
      { a with
        whereClauses := a.whereClauses ++ [.vendorIs a.argI]
        args := a.args ++ [v] }
  | none => a

def assembly (q : Query) : Assembly :=
  q.withVendor (q.withText (q.withType {}))

def select (q : Query) : Select :=
  { joins := q.assembly.joins
    whereClauses := q.assembly.whereClauses
    limit := q.limit }

end Query

/-!
## SQLite
-/

/-- `NOCASE` folds the upper-case letters of ASCII. -/
def nocaseByte (b : UInt8) : UInt8 :=
  if 65 ≤ b ∧ b ≤ 90 then b + 32 else b

/-- What `NOCASE` looks at: a name up to its first zero byte. -/
def nocaseKey (s : String) : List UInt8 :=
  ((utf8 s).takeWhile fun b => b ≠ 0).map nocaseByte

def nocaseLe (s t : String) : Prop :=
  nocaseKey s ≤ nocaseKey t

instance (s t : String) : Decidable (nocaseLe s t) :=
  inferInstanceAs (Decidable (nocaseKey s ≤ nocaseKey t))

def NameLe (r r' : Ui.PresetRow) : Prop :=
  nocaseLe r.name r'.name

inductive SqliteError where
  | parameterCount
  | ftsSyntax
deriving DecidableEq, Repr

/-- `MATCH` takes a text to a test on the indexed columns, unless the text is no
query; `ORDER BY` arranges the rows.  The plan of a statement decides whether a
`MATCH` is evaluated at all, and none is when no row is asked for. -/
structure Sqlite where
  fts : String -> Option (List String -> Bool)
  evaluates : Tables -> Select -> List String -> Bool
  evaluates_limit : forall t s args, s.limit = some 0 -> evaluates t s args = false
  orderByName : List Ui.PresetRow -> List Ui.PresetRow
  perm : forall rows, (orderByName rows).Perm rows
  sorted : forall rows, (orderByName rows).Pairwise NameLe

def FtsRow.columns (f : FtsRow) : List String :=
  [f.name, f.vendor, f.author, f.comment, f.bankChain]

/-- A row of the joined tables. -/
structure JoinedRow where
  preset : PresetRow
  type : Option TypeRow := none
  fts : Option FtsRow := none

/-- The `ON` of each join compares with the id of the preset. -/
def Join.rows (t : Tables) (r : JoinedRow) : Join -> List JoinedRow
  | presetTypes =>
      (rowsAt TypeRow.presetId r.preset.id t.presetTypes).map fun pt =>
        { r with type := some pt }
  | presetsFts =>
      (rowsAt FtsRow.rowid r.preset.id t.presetsFts).map fun f =>
        { r with fts := some f }

def joinedRows (t : Tables) (joins : List Join) : List JoinedRow :=
  joins.foldl (fun rows join => rows.flatMap fun r => join.rows t r)
    (t.presets.map fun p => { preset := p })

/-- The value bound to a placeholder, which are numbered from one. -/
def bound (args : List String) (i : Nat) : Option String :=
  args[i - 1]?

/-- The columns that the query returns. -/
def PresetRow.output (p : PresetRow) : Ui.PresetRow :=
  { id := p.id, path := p.path, name := p.name, vendor := p.vendor
    pluginRef := p.pluginRef, bankChain := p.bankChain }

namespace Select

def parameterCount (s : Select) : Nat :=
  (s.whereClauses.map Condition.arg).foldr max 0

end Select

namespace Sqlite

variable (db : Sqlite)

def holds (args : List String) (r : JoinedRow) : Condition -> Bool
  | .typeIs i => r.type.any fun pt => bound args i = some pt.ty
  | .ftsMatch i =>
      ((bound args i).bind db.fts).any fun test =>
        r.fts.any fun f => test f.columns
  | .vendorIs i => bound args i = some r.preset.vendor

/-- The text of a `MATCH` is no query. -/
def rejects (args : List String) : Condition -> Bool
  | .ftsMatch i => (bound args i).any fun text => (db.fts text).isNone
  | _ => false

def matching (t : Tables) (s : Select) (args : List String) : List Ui.PresetRow :=
  (((joinedRows t s.joins).filter fun r => s.whereClauses.all (db.holds args r)).map
    fun r => r.preset.output).dedup

def query (t : Tables) (s : Select) (args : List String) :
    Except SqliteError (List Ui.PresetRow) :=
  if s.parameterCount ≠ args.length then .error .parameterCount
  else if s.whereClauses.any (db.rejects args) && db.evaluates t s args then
    .error .ftsSyntax
  else
    .ok (limited (s.limit.map UInt32.toNat)
      (db.orderByName (db.matching t s args)))

end Sqlite

def Query.run (q : Query) (db : Sqlite) (t : Tables) :
    Except SqliteError (List Ui.PresetRow) :=
  db.query t q.select q.assembly.args

/-!
## The placeholders
-/

/-- The placeholders so far are bound to the arguments so far. -/
structure Assembly.Numbered (a : Assembly) : Prop where
  next : a.argI = a.args.length + 1
  count : (a.whereClauses.map Condition.arg).foldr max 0 = a.args.length

theorem foldr_max_snoc (xs : List Nat) (n : Nat) :
    (xs ++ [n]).foldr max 0 = max (xs.foldr max 0) n := by
  induction xs with
  | nil => exact Nat.max_comm n 0
  | cons x rest ih =>
      rw [List.cons_append, List.foldr_cons, ih, List.foldr_cons, Nat.max_assoc]

/-- One more clause with the next placeholder. -/
theorem Assembly.Numbered.count_snoc {a : Assembly} (h : a.Numbered)
    {c : Condition} (hc : c.arg = a.argI) (value : String) :
    ((a.whereClauses ++ [c]).map Condition.arg).foldr max 0 =
      (a.args ++ [value]).length := by
  rw [List.map_append, List.map_singleton, foldr_max_snoc, hc, h.count, h.next,
    List.length_append, List.length_singleton]
  exact Nat.max_eq_right (Nat.le_succ _)

theorem Assembly.Numbered.bound {a : Assembly} (h : a.Numbered) {value : String}
    {args : List String} (hargs : a.args ++ [value] <+: args) :
    bound args a.argI = some value := by
  rcases hargs with ⟨rest, rfl⟩
  unfold Index.bound
  rw [h.next, Nat.add_sub_cancel, List.append_assoc, List.getElem?_append_right
    (Nat.le_refl _), Nat.sub_self]
  rfl

namespace Query

theorem numbered_withType (q : Query) : (q.withType {}).Numbered := by
  have hstart : ({} : Assembly).Numbered := ⟨rfl, rfl⟩
  unfold withType
  cases q.typeFilter with
  | none => exact hstart
  | some t => exact ⟨rfl, hstart.count_snoc rfl t⟩

theorem numbered_withText (q : Query) {a : Assembly} (h : a.Numbered) :
    (q.withText a).Numbered := by
  unfold withText
  cases q.text with
  | none => exact h
  | some text =>
      dsimp only
      split
      · refine ⟨?_, h.count_snoc rfl text⟩
        rw [h.next, List.length_append]
        rfl
      · exact h

/-- Every placeholder has its argument, and every argument its placeholder. -/
theorem parameterCount_select (q : Query) :
    q.select.parameterCount = q.assembly.args.length := by
  have h := q.numbered_withText q.numbered_withType
  show (q.assembly.whereClauses.map Condition.arg).foldr max 0 = _
  unfold assembly withVendor
  cases q.vendor with
  | none => exact h.count
  | some v => exact h.count_snoc rfl v

end Query

/-!
## The presets that a statement selects
-/

/-- Some joined row of the preset meets the conditions. -/
def Selected (db : Sqlite) (t : Tables) (args : List String) (joins : List Join)
    (clauses : List Condition) (p : PresetRow) : Prop :=
  exists r, r ∈ joinedRows t joins ∧ r.preset = p ∧
    forall c, c ∈ clauses -> db.holds args r c = true

section Selected

variable {db : Sqlite} {t : Tables} {args : List String} {joins : List Join}
  {clauses : List Condition} {p : PresetRow} {Q : PresetRow -> Prop}

theorem mem_matching_iff {s : Select} {row : Ui.PresetRow} :
    row ∈ db.matching t s args <->
      exists p, Selected db t args s.joins s.whereClauses p ∧ p.output = row := by
  unfold Sqlite.matching
  rw [List.mem_dedup, List.mem_map]
  constructor
  · rintro ⟨r, hr, rfl⟩
    rw [List.mem_filter, List.all_eq_true] at hr
    exact ⟨r.preset, ⟨r, hr.left, rfl, hr.right⟩, rfl⟩
  · rintro ⟨p, ⟨r, hmem, rfl, hclauses⟩, rfl⟩
    refine ⟨r, List.mem_filter.mpr ⟨hmem, ?_⟩, rfl⟩
    rw [List.all_eq_true]
    exact hclauses

theorem selected_nil : Selected db t args [] [] p <-> p ∈ t.presets := by
  constructor
  · rintro ⟨r, hmem, rfl, -⟩
    rcases List.mem_map.mp hmem with ⟨p, hp, rfl⟩
    exact hp
  · intro hp
    exact ⟨_, List.mem_map_of_mem hp, rfl, nofun⟩

/-- A condition on the preset alone. -/
theorem selected_clause {c : Condition}
    (hc : forall r, db.holds args r c = true <-> Q r.preset) :
    Selected db t args joins (clauses ++ [c]) p <->
      Selected db t args joins clauses p ∧ Q p := by
  constructor
  · rintro ⟨r, hmem, rfl, hclauses⟩
    refine ⟨⟨r, hmem, rfl, ?_⟩, (hc r).mp (hclauses c ?_)⟩
    · intro c' hc'
      exact hclauses c' (List.mem_append_left _ hc')
    · exact List.mem_append_right _ (List.mem_singleton.mpr rfl)
  · rintro ⟨⟨r, hmem, rfl, hclauses⟩, hq⟩
    refine ⟨r, hmem, rfl, ?_⟩
    intro c' hc'
    rcases List.mem_append.mp hc' with hold | hnew
    · exact hclauses c' hold
    · rw [List.mem_singleton.mp hnew]
      exact (hc r).mpr hq

/-- A join that the conditions so far do not look at. -/
theorem selected_join {j : Join} {c : Condition}
    (hkeep : forall r r', r' ∈ j.rows t r -> r'.preset = r.preset ∧
      forall c', c' ∈ clauses -> db.holds args r' c' = db.holds args r c')
    (hc : forall r, (exists r', r' ∈ j.rows t r ∧ db.holds args r' c = true) <->
      Q r.preset) :
    Selected db t args (joins ++ [j]) (clauses ++ [c]) p <->
      Selected db t args joins clauses p ∧ Q p := by
  have hjoined : joinedRows t (joins ++ [j]) =
      (joinedRows t joins).flatMap fun r => j.rows t r := by
    unfold joinedRows
    rw [List.foldl_append]
    rfl
  constructor
  · rintro ⟨r', hmem, rfl, hclauses⟩
    rw [hjoined] at hmem
    rcases List.mem_flatMap.mp hmem with ⟨r, hr, hr'⟩
    rcases hkeep r r' hr' with ⟨hpreset, hsame⟩
    refine ⟨⟨r, hr, hpreset.symm, ?_⟩, ?_⟩
    · intro c' hc'
      rw [← hsame c' hc']
      exact hclauses c' (List.mem_append_left _ hc')
    · rw [hpreset]
      exact (hc r).mp ⟨r', hr', hclauses c
        (List.mem_append_right _ (List.mem_singleton.mpr rfl))⟩
  · rintro ⟨⟨r, hr, rfl, hclauses⟩, hq⟩
    rcases (hc r).mpr hq with ⟨r', hr', hholds⟩
    rcases hkeep r r' hr' with ⟨hpreset, hsame⟩
    refine ⟨r', ?_, hpreset, ?_⟩
    · rw [hjoined]
      exact List.mem_flatMap.mpr ⟨r, hr, hr'⟩
    · intro c' hc'
      rcases List.mem_append.mp hc' with hold | hnew
      · rw [hsame c' hold]
        exact hclauses c' hold
      · rw [List.mem_singleton.mp hnew]
        exact hholds

end Selected

namespace Query

variable {db : Sqlite} {t : Tables} {args : List String} {p : PresetRow}

/-- The text, when it is given and not empty. -/
def searched (q : Query) : Option String :=
  q.text.filter fun text => text ≠ ""

theorem selected_withType (q : Query) (hargs : (q.withType {}).args <+: args) :
    Selected db t args (q.withType {}).joins (q.withType {}).whereClauses p <->
      p ∈ t.presets ∧
        forall ty, q.typeFilter = some ty -> ty ∈ (t.typesOf p.id).map Prod.fst := by
  unfold withType at hargs ⊢
  cases hfilter : q.typeFilter with
  | none =>
      rw [selected_nil]
      exact (and_iff_left nofun).symm
  | some ty =>
      rw [hfilter] at hargs
      have hstart : ({} : Assembly).Numbered := ⟨rfl, rfl⟩
      have hbound := hstart.bound hargs
      rw [selected_join (Q := fun p => ty ∈ (t.typesOf p.id).map Prod.fst) ?_ ?_,
        selected_nil]
      · simp only [Option.some.injEq, forall_eq']
      · intro r r' hr'
        rcases List.mem_map.mp hr' with ⟨pt, -, rfl⟩
        exact ⟨rfl, nofun⟩
      · intro r
        simp only [Join.rows, List.mem_map, Tables.typesOf, List.map_map]
        constructor
        · rintro ⟨r', ⟨pt, hpt, rfl⟩, hholds⟩
          simp only [Sqlite.holds, hbound, Option.any_some,
            decide_eq_true_eq, Option.some.injEq] at hholds
          exact ⟨pt, hpt, hholds.symm⟩
        · rintro ⟨pt, hpt, hty⟩
          refine ⟨_, ⟨pt, hpt, rfl⟩, ?_⟩
          simp only [Sqlite.holds, hbound, Option.any_some,
            decide_eq_true_eq, Option.some.injEq]
          exact hty.symm

/-- The search row of the preset passes the test of a text. -/
def Found (db : Sqlite) (t : Tables) (text : String) (p : PresetRow) : Prop :=
  exists test f, db.fts text = some test ∧
    f ∈ rowsAt FtsRow.rowid p.id t.presetsFts ∧ test f.columns = true

theorem selected_withText (q : Query) {a : Assembly} (ha : a.Numbered)
    (htypes : forall c, c ∈ a.whereClauses -> exists i, c = .typeIs i)
    (hargs : (q.withText a).args <+: args) :
    Selected db t args (q.withText a).joins (q.withText a).whereClauses p <->
      Selected db t args a.joins a.whereClauses p ∧
        forall text, q.searched = some text -> Found db t text p := by
  unfold withText at hargs ⊢
  unfold searched
  cases htext : q.text with
  | none => exact (and_iff_left nofun).symm
  | some text =>
      rw [htext] at hargs
      dsimp only at hargs ⊢
      by_cases hne : text ≠ ""
      · rw [if_pos hne] at hargs ⊢
        have hbound := ha.bound hargs
        rw [selected_join (Q := Found db t text) ?_ ?_]
        · simp [hne]
        · intro r r' hr'
          rcases List.mem_map.mp hr' with ⟨f, -, rfl⟩
          refine ⟨rfl, ?_⟩
          intro c hc
          rcases htypes c hc with ⟨i, rfl⟩
          rfl
        · intro r
          simp only [Join.rows, List.mem_map]
          constructor
          · rintro ⟨r', ⟨f, hf, rfl⟩, hholds⟩
            simp only [Sqlite.holds, hbound, Option.bind_some,
              Option.any_some] at hholds
            rcases (Option.any_eq_true _ _).mp hholds with ⟨test, htest, hpass⟩
            exact ⟨test, f, htest, hf, hpass⟩
          · rintro ⟨test, f, htest, hf, hpass⟩
            refine ⟨_, ⟨f, hf, rfl⟩, ?_⟩
            simp only [Sqlite.holds, hbound, Option.bind_some, htest,
              Option.any_some]
            exact hpass
      · rw [if_neg hne]
        exact (and_iff_left (by simp [Option.filter, hne])).symm

theorem selected_withVendor (q : Query) {a : Assembly} (ha : a.Numbered)
    (hargs : (q.withVendor a).args <+: args) :
    Selected db t args (q.withVendor a).joins (q.withVendor a).whereClauses p <->
      Selected db t args a.joins a.whereClauses p ∧
        forall v, q.vendor = some v -> p.vendor = v := by
  unfold withVendor at hargs ⊢
  cases hvendor : q.vendor with
  | none => exact (and_iff_left nofun).symm
  | some v =>
      rw [hvendor] at hargs
      have hbound := ha.bound hargs
      rw [selected_clause (Q := fun p => p.vendor = v)]
      · simp only [Option.some.injEq, forall_eq']
      · intro r
        simp only [Sqlite.holds, hbound, decide_eq_true_eq, Option.some.injEq]
        exact eq_comm

theorem args_withText (q : Query) (a : Assembly) : a.args <+: (q.withText a).args := by
  unfold withText
  cases q.text with
  | none => exact List.prefix_rfl
  | some text =>
      dsimp only
      split
      · exact List.prefix_append _ _
      · exact List.prefix_rfl

theorem args_withVendor (q : Query) (a : Assembly) :
    a.args <+: (q.withVendor a).args := by
  unfold withVendor
  cases q.vendor with
  | none => exact List.prefix_rfl
  | some v => exact List.prefix_append _ _

theorem typeIs_of_withType (q : Query) :
    forall c, c ∈ (q.withType {}).whereClauses -> exists i, c = .typeIs i := by
  intro c hc
  unfold withType at hc
  cases hty : q.typeFilter with
  | none =>
      rw [hty] at hc
      cases hc
  | some ty =>
      rw [hty] at hc
      exact ⟨_, List.mem_singleton.mp hc⟩

/-- A selected preset passes each filter that is set. -/
theorem mem_matching_iff (q : Query) {row : Ui.PresetRow} :
    row ∈ db.matching t q.select q.assembly.args <->
      exists p, p ∈ t.presets ∧
        (forall ty, q.typeFilter = some ty ->
          ty ∈ (t.typesOf p.id).map Prod.fst) ∧
        (forall text, q.searched = some text -> Found db t text p) ∧
        (forall v, q.vendor = some v -> p.vendor = v) ∧ p.output = row := by
  have htypes := q.numbered_withType
  have htexts := q.numbered_withText htypes
  have hvendor : (q.withText (q.withType {})).args <+: q.assembly.args :=
    q.args_withVendor _
  have htext := q.args_withText (q.withType {})
  rw [Index.mem_matching_iff]
  apply exists_congr
  intro p
  rw [show Selected db t q.assembly.args q.select.joins q.select.whereClauses p <->
    _ from selected_withVendor q htexts List.prefix_rfl,
    selected_withText q htypes q.typeIs_of_withType hvendor,
    selected_withType q (htext.trans hvendor)]
  tauto

/-- Only a text that is no full-text query is rejected. -/
theorem any_rejects (q : Query) (db : Sqlite) :
    q.select.whereClauses.any (db.rejects q.assembly.args) =
      q.searched.any fun text => (db.fts text).isNone := by
  have hvendor : forall a : Assembly,
      (q.withVendor a).whereClauses.any (db.rejects q.assembly.args) =
        a.whereClauses.any (db.rejects q.assembly.args) := by
    intro a
    unfold withVendor
    cases q.vendor with
    | none => rfl
    | some v => rw [List.any_append]; exact Bool.or_false _
  have htype : (q.withType {}).whereClauses.any (db.rejects q.assembly.args) =
      false := by
    rw [List.any_eq_false]
    intro c hc
    rcases q.typeIs_of_withType c hc with ⟨i, rfl⟩
    exact Bool.false_ne_true
  have hargs : (q.withText (q.withType {})).args <+: q.assembly.args :=
    q.args_withVendor _
  refine (hvendor _).trans ?_
  unfold withText at hargs ⊢
  unfold searched
  cases htext : q.text with
  | none => exact htype
  | some text =>
      rw [htext] at hargs
      dsimp only at hargs ⊢
      by_cases hne : text ≠ ""
      · rw [if_pos hne] at hargs ⊢
        have hbound := q.numbered_withType.bound hargs
        rw [List.any_append, htype, Bool.false_or]
        simp [Sqlite.rejects, hbound, Option.filter, hne]
      · rw [if_neg hne, htype]
        simp [Option.filter, hne]

/-- The query searches for a text that is no full-text query. -/
def Rejected (db : Sqlite) (q : Query) : Prop :=
  exists text, q.searched = some text ∧ db.fts text = none

theorem any_rejects_iff (q : Query) (db : Sqlite) :
    q.select.whereClauses.any (db.rejects q.assembly.args) = true <-> q.Rejected db := by
  rw [q.any_rejects db, Option.any_eq_true]
  simp only [Option.isNone_iff_eq_none]
  rfl

theorem matching_of_rejected {q : Query} (h : q.Rejected db) :
    db.matching t q.select q.assembly.args = [] := by
  rcases h with ⟨text, hsearched, hfts⟩
  apply List.eq_nil_iff_forall_not_mem.mpr
  intro row hrow
  rcases q.mem_matching_iff.mp hrow with ⟨p, -, -, htext, -⟩
  rcases htext text hsearched with ⟨test, -, htest, -⟩
  cases hfts.symm.trans htest

theorem run_eq (q : Query) (db : Sqlite) (t : Tables) :
    q.run db t =
      if q.select.whereClauses.any (db.rejects q.assembly.args) &&
          db.evaluates t q.select q.assembly.args then .error .ftsSyntax
      else
        .ok (limited (q.limit.map UInt32.toNat)
          (db.orderByName (db.matching t q.select q.assembly.args))) := by
  unfold run Sqlite.query
  rw [if_neg (not_not_intro q.parameterCount_select)]
  rfl

/-- The statement always has its arguments: a query fails only over a text that is no
full-text query, when the engine comes to evaluate it, which it never does for a limit
of zero; and a text that is not evaluated finds nothing. -/
theorem run_error_iff (q : Query) (db : Sqlite) (t : Tables) :
    (forall e, q.run db t = .error e <->
      e = .ftsSyntax ∧ q.Rejected db ∧
        db.evaluates t q.select q.assembly.args = true) ∧
    (q.limit = some 0 -> q.run db t = .ok []) ∧
    (q.Rejected db -> forall rows, q.run db t = .ok rows -> rows = []) := by
  rw [run_eq]
  refine ⟨?_, ?_, ?_⟩
  · intro e
    rw [← q.any_rejects_iff db, ← Bool.and_eq_true]
    split
    · next h => simp [h, eq_comm]
    · next h => simp [h]
  · intro hlimit
    have hno := db.evaluates_limit t q.select q.assembly.args hlimit
    rw [hno, Bool.and_false, if_neg Bool.false_ne_true, hlimit]
    rfl
  · intro hrejected rows hrows
    split at hrows
    · cases hrows
    · cases hrows
      have hnil : db.orderByName [] = [] := (db.perm []).eq_nil
      rw [matching_of_rejected hrejected, hnil]
      exact List.eq_nil_of_sublist_nil (limited_sublist _ _)

end Query

/-!
## Queries after any scans
-/

def Metadata.columns (m : Metadata) : List String :=
  [m.name, m.vendor, m.author, m.comment, m.bankChain]

/-- A preset with these values passes every filter that is set. -/
structure Query.Admits (db : Sqlite) (q : Query) (m : Metadata) : Prop where
  type : forall ty, q.typeFilter = some ty -> ty ∈ m.types.map Prod.fst
  text : forall text, q.searched = some text ->
    exists test, db.fts text = some test ∧ test m.columns = true
  vendor : forall v, q.vendor = some v -> m.vendor = v

section Scanned

variable {db : Sqlite} {q : Query} {s : Ledger} {p : PresetRow}

/-- A preset has one search row, with its own columns. -/
theorem Consistent.found_iff (h : Consistent s) (hp : p ∈ s.tables.presets)
    (text : String) : Query.Found db s.tables text p <->
      exists test, db.fts text = some test ∧
        test (FtsRow.ofPreset p).columns = true := by
  constructor
  · rintro ⟨test, f, htest, hf, hpass⟩
    rcases List.mem_filter.mp hf with ⟨hmem, hid⟩
    rcases List.mem_map.mp (h.fts.mem_iff.mp hmem) with ⟨p', hp', rfl⟩
    have heq : p' = p :=
      List.inj_on_of_nodup_map h.keyed.ids hp' hp (of_decide_eq_true hid)
    exact ⟨test, htest, heq ▸ hpass⟩
  · rintro ⟨test, htest, hpass⟩
    refine ⟨test, FtsRow.ofPreset p, htest, ?_, hpass⟩
    exact List.mem_filter.mpr
      ⟨h.fts.mem_iff.mpr (List.mem_map_of_mem hp), decide_eq_true rfl⟩

theorem Consistent.mem_matching_iff (h : Consistent s) {row : Ui.PresetRow} :
    row ∈ db.matching s.tables q.select q.assembly.args <->
      exists p m, p ∈ s.tables.presets ∧ s.committed p.path = some m ∧
        p.Holds m ∧ q.Admits db m ∧ p.output = row := by
  rw [q.mem_matching_iff]
  apply exists_congr
  intro p
  constructor
  · rintro ⟨hp, htype, htext, hvendor, houtput⟩
    rcases h.rows p hp with ⟨m, hm, hholds, htypes, -⟩
    refine ⟨m, hp, hm, hholds, ⟨?_, ?_, ?_⟩, houtput⟩
    · exact htypes ▸ htype
    · intro text hsearched
      rcases (h.found_iff hp text).mp (htext text hsearched) with
        ⟨test, htest, hpass⟩
      rw [hholds] at hpass
      exact ⟨test, htest, hpass⟩
    · rw [hholds] at hvendor
      exact hvendor
  · rintro ⟨m, hp, hm, hholds, hadmits, houtput⟩
    rcases h.rows p hp with ⟨m', hm', -, htypes, -⟩
    cases hm.symm.trans hm'
    refine ⟨hp, htypes ▸ hadmits.type, ?_, ?_, houtput⟩
    · intro text hsearched
      rcases hadmits.text text hsearched with ⟨test, htest, hpass⟩
      refine (h.found_iff hp text).mpr ⟨test, htest, ?_⟩
      rw [hholds]
      exact hpass
    · rw [hholds]
      exact hadmits.vendor

/-- Rows of presets with the same id are the same row. -/
theorem Consistent.matching_ids (h : Consistent s) :
    ((db.matching s.tables q.select q.assembly.args).map
      Ui.PresetRow.id).Nodup := by
  apply List.Nodup.map_on
  · intro row hrow row' hrow' hid
    rcases h.mem_matching_iff.mp hrow with ⟨p, -, hp, -, -, -, rfl⟩
    rcases h.mem_matching_iff.mp hrow' with ⟨p', -, hp', -, -, -, rfl⟩
    rw [List.inj_on_of_nodup_map h.keyed.ids hp hp' (Int.ofNat.inj hid)]
  · exact List.nodup_dedup _

theorem run_ok {t : Tables} {rows : List Ui.PresetRow}
    (h : q.run db t = .ok rows) :
    rows = limited (q.limit.map UInt32.toNat)
      (db.orderByName (db.matching t q.select q.assembly.args)) := by
  rw [q.run_eq] at h
  split at h
  · cases h
  · cases h
    rfl

/-- Every row returned is that of a preset. -/
theorem preset_of_run {t : Tables} {rows : List Ui.PresetRow}
    (h : q.run db t = .ok rows) {row : Ui.PresetRow} (hrow : row ∈ rows) :
    exists p, p ∈ t.presets ∧ p.output = row := by
  rw [run_ok h] at hrow
  have hmem := (db.perm _).mem_iff.mp ((limited_sublist _ _).subset hrow)
  rcases q.mem_matching_iff.mp hmem with ⟨p, hp, -, -, -, houtput⟩
  exact ⟨p, hp, houtput⟩

end Scanned

/-- After any sequence of upserts, failing or not, a query that succeeds returns
each preset once, in the order of the names and within the limit: each row is
that of a preset whose last committed metadata pass every filter, and such a
preset is left out only if the limit is reached by presets that come no later. -/
theorem query_returns_admitted {ε : Type} {contentlessDelete : Bool}
    {calls : List (UpsertCall ε)} {db : Sqlite} {q : Query}
    {rows : List Ui.PresetRow}
    (h : q.run db (Ledger.run contentlessDelete calls).tables = .ok rows) :
    let s := Ledger.run contentlessDelete calls
    (rows.map Ui.PresetRow.id).Nodup ∧ rows.Pairwise NameLe ∧
    (forall n, q.limit = some n -> rows.length ≤ n.toNat) ∧
    (forall row, row ∈ rows -> exists p m, p ∈ s.tables.presets ∧
      s.committed p.path = some m ∧ p.Holds m ∧ q.Admits db m ∧
        p.output = row) ∧
    forall path m, s.committed path = some m -> q.Admits db m ->
      (exists row, row ∈ rows ∧ row.path = path) ∨
      exists n, q.limit = some n ∧ rows.length = n.toNat ∧
        forall row, row ∈ rows -> nocaseLe row.name m.name := by
  have hs := Consistent.run contentlessDelete calls
  have hperm := db.perm (db.matching (Ledger.run contentlessDelete calls).tables
    q.select q.assembly.args)
  have hsorted := db.sorted (db.matching
    (Ledger.run contentlessDelete calls).tables q.select q.assembly.args)
  cases run_ok h
  have hsub := limited_sublist (q.limit.map UInt32.toNat) (db.orderByName
    (db.matching (Ledger.run contentlessDelete calls).tables q.select
      q.assembly.args))
  refine ⟨?_, hsorted.sublist hsub, ?_, ?_, ?_⟩
  · exact ((hperm.map _).nodup_iff.mpr hs.matching_ids).sublist (hsub.map _)
  · intro n hn
    exact length_limited_le (congrArg (Option.map UInt32.toNat) hn) _
  · intro row hrow
    exact hs.mem_matching_iff.mp (hperm.mem_iff.mp (hsub.subset hrow))
  · intro path m hm hadmits
    rcases hs.recorded path m hm with ⟨p, hp, rfl⟩
    rcases hs.rows p hp with ⟨m', hm', hholds, -⟩
    cases hm.symm.trans hm'
    have hmem : p.output ∈ db.orderByName _ := hperm.mem_iff.mpr
      (hs.mem_matching_iff.mpr ⟨p, m, hp, hm, hholds, hadmits, rfl⟩)
    by_cases hin : p.output ∈ limited (q.limit.map UInt32.toNat)
        (db.orderByName (db.matching (Ledger.run contentlessDelete calls).tables
          q.select q.assembly.args))
    · exact .inl ⟨p.output, hin, rfl⟩
    · rcases cut_off_limited hsorted hmem hin with ⟨n, hn, hlength, hle⟩
      rcases Option.map_eq_some_iff.mp hn with ⟨limit, hlimit, rfl⟩
      refine .inr ⟨limit, hlimit, hlength, ?_⟩
      intro row hrow
      have hname : p.output.name = m.name := by
        rw [hholds]
        rfl
      rw [← hname]
      exact hle row hrow

instance : DecidableRel NameLe := fun r r' =>
  inferInstanceAs (Decidable (nocaseLe r.name r'.name))

instance : Std.Total NameLe where
  total _ _ := List.le_total _ _

instance : IsTrans Ui.PresetRow NameLe where
  trans _ _ _ h h' := List.le_trans (α := UInt8) h h'

/-- A text finds the rows that have it as a column. -/
def columnSqlite : Sqlite where
  fts text := some fun columns => columns.contains text
  evaluates _ s _ := s.limit != some 0
  evaluates_limit _ s _ h := by rw [h]; rfl
  orderByName rows := rows.insertionSort NameLe
  perm rows := List.perm_insertionSort _ rows
  sorted rows := List.pairwise_insertionSort _ rows

/-- Every file is a preset with two rows of one type. -/
def bassSource : Source Unit where
  metadata _ := .ok { modified := some 1, len := 100 }
  scan path :=
    .ok
      { path := path
        summary :=
          { name := some "Sub", types := some [["Bass", "Deep"], ["Bass", "Dark"]] }
        plugin := .unknown
        controller := none
        pchkOffset := 0
        pchkLen := 0 }

def bassCalls : List (UpsertCall Unit) :=
  [{ src := bassSource, fails := fun _ => false, path := ["lib", "a.nksf"] },
    { src := bassSource, fails := fun _ => false, path := ["lib", "b.nksf"] }]

def bassQuery : Query :=
  { text := some "Sub", vendor := none, typeFilter := some "Bass", limit := some 1 }

theorem query_returns_admitted_bass :
    exists rows, bassQuery.run columnSqlite (Ledger.run true bassCalls).tables =
        .ok rows ∧
      rows.length = 1 ∧ (rows.map Ui.PresetRow.id).Nodup ∧
      forall row, row ∈ rows -> exists p m,
        p ∈ (Ledger.run true bassCalls).tables.presets ∧
        (Ledger.run true bassCalls).committed p.path = some m ∧ p.Holds m ∧
          bassQuery.Admits columnSqlite m ∧ p.output = row := by
  have hlength : ((bassQuery.run columnSqlite
      (Ledger.run true bassCalls).tables).toOption.map List.length) = some 1 := by
    decide
  cases hrun : bassQuery.run columnSqlite (Ledger.run true bassCalls).tables with
  | error e =>
      rw [hrun] at hlength
      cases hlength
  | ok rows =>
      rw [hrun] at hlength
      rcases query_returns_admitted hrun with ⟨hids, -, -, hrows, -⟩
      exact ⟨rows, rfl, Option.some.inj hlength, hids, hrows⟩

end Index
end OpenMk3
