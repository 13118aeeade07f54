import OpenMk3.Index.Scanner
import OpenMk3.Library.Transition
import OpenMk3.Library.Traversal

/-!
# The walk on a directory graph

`walk` where links to directories make the library a graph, with every order in
which `read_dir` may yield the entries of a directory.
-/

namespace OpenMk3
namespace Index

open Library Nks Relation

/-- What the path of an entry leads to, links followed. -/
inductive Target (D : Type) where
  | dir (d : D)
  | other
deriving DecidableEq

/-- What `read_dir` reports of each directory: its entries by name, or an
error. -/
structure DirGraph (D : Type) where
  readDir : D -> Except IoErrorKind (List (String × Target D))
  names_nodup : forall {d l}, readDir d = .ok l -> (l.map Prod.fst).Nodup

/-- A call of `visit`. -/
structure Visit (D : Type) where
  path : Path
  parent : D
  name : String

/-- The paths to be read, each with the directory it leads to, and the calls of
`visit` so far. -/
structure Walking (D : Type) where
  stack : List (Path × D)
  visits : List (Visit D)

namespace DirGraph

variable {D : Type} (G : DirGraph D)

/-- The body of the loop over the entries of a directory. -/
def walkEntry (path : Path) (parent : D) (s : Walking D) (e : String × Target D) :
    Walking D :=
  match e.2 with
  | .dir d => { s with stack := (path ++ [e.1], d) :: s.stack }
  | .other =>
      { s with
        visits := s.visits ++ [{ path := path ++ [e.1], parent := parent, name := e.1 }] }

/-- One round of the walk, on a directory that yields its entries in the given
order; none once the walk has returned. -/
def walkStep [DecidableEq D] : Transition (Walking D) (List (String × Target D)) :=
  fun s es =>
    match s.stack with
    | [] => none
    | (path, dir) :: stack =>
        match G.readDir dir with
        | .ok l =>
            if es.Perm l then
              some (es.foldl (walkEntry path dir) { s with stack := stack })
            else none
        | .error .permissionDenied => some { s with stack := stack }
        | .error _ => none

/-- The walk of a root, when it exists. -/
def walkStart (path : Path) : Option D -> Walking D
  | none => { stack := [], visits := [] }
  | some root => { stack := [(path, root)], visits := [] }

section Runs

variable [DecidableEq D]

def Next (s s' : Walking D) : Prop := exists es, G.walkStep s es = some s'

/-- No walk goes on for ever. -/
def Terminates (path : Path) (root : Option D) : Prop :=
  Acc (flip G.Next) (walkStart path root)

/-- No walk visits an entry of a directory twice. -/
def VisitsOnce (path : Path) (root : Option D) : Prop :=
  forall s, ReflTransGen G.Next (walkStart path root) s ->
    (s.visits.map fun v => (v.parent, v.name)).Nodup

end Runs

/-!
## The traversal that a walk is
-/

def dir? (e : String × Target D) : Option (String × D) :=
  match e.2 with
  | .dir d => some (e.1, d)
  | .other => none

def otherName? (e : String × Target D) : Option String :=
  match e.2 with
  | .dir _ => none
  | .other => some e.1

@[simp] theorem dir?_dir (name : String) (d : D) :
    dir? (name, .dir d) = some (name, d) := rfl

@[simp] theorem dir?_other (name : String) :
    dir? ((name, .other) : String × Target D) = none := rfl

@[simp] theorem otherName?_dir (name : String) (d : D) :
    otherName? (name, .dir d) = none := rfl

@[simp] theorem otherName?_other (name : String) :
    otherName? ((name, .other) : String × Target D) = some name := rfl

def listing (d : D) : Option (List (String × Target D)) :=
  match G.readDir d with
  | .ok l => some l
  | .error .permissionDenied => some []
  | .error _ => none

theorem names_of_listing {d : D} {l : List (String × Target D)}
    (h : G.listing d = some l) : (l.map Prod.fst).Nodup := by
  unfold listing at h
  split at h
  · next hl =>
      cases h
      exact G.names_nodup hl
  · cases h
    exact List.nodup_nil
  · cases h

theorem dirEntries_sublist (l : List (String × Target D)) :
    ((l.filterMap dir?).map Prod.fst).Sublist (l.map Prod.fst) := by
  induction l with
  | nil =>
      exact List.Sublist.refl _
  | cons e l ih =>
      rcases e with ⟨name, target⟩
      cases target with
      | dir d =>
          exact ih.cons_cons name
      | other =>
          exact ih.cons name

theorem otherNames_sublist (l : List (String × Target D)) :
    (l.filterMap otherName?).Sublist (l.map Prod.fst) := by
  induction l with
  | nil =>
      exact List.Sublist.refl _
  | cons e l ih =>
      rcases e with ⟨name, target⟩
      cases target with
      | dir d =>
          exact ih.cons name
      | other =>
          exact ih.cons_cons name

/-- The subdirectories of each directory; nothing where the walk fails. -/
def dirs : ListedGraph D String where
  edges d := (G.listing d).map fun l => l.filterMap dir?
  labels_nodup := by
    intro d es h
    rcases Option.map_eq_some_iff.mp h with ⟨l, hl, rfl⟩
    exact (G.names_of_listing hl).sublist (dirEntries_sublist l)

/-- The entries of a directory that are visited. -/
def others (d : D) : List (D × String) :=
  ((G.listing d).getD []).filterMap fun e => (otherName? e).map (d, ·)

/-!
## One round
-/

/-- What the loop over the entries of a directory pushes and visits. -/
theorem foldl_walkEntry (path : Path) (parent : D) (es : List (String × Target D))
    (s : Walking D) :
    es.foldl (walkEntry path parent) s =
      { stack := ((es.filterMap dir?).map fun e => (path ++ [e.1], e.2)).reverse ++
          s.stack
        visits := s.visits ++ (es.filterMap otherName?).map fun name =>
          { path := path ++ [name], parent := parent, name := name } } := by
  induction es generalizing s with
  | nil =>
      simp
  | cons e es ih =>
      rcases e with ⟨name, target⟩
      rw [List.foldl_cons, ih]
      cases target with
      | dir d =>
          simp [walkEntry, List.filterMap_cons]
      | other =>
          simp [walkEntry, List.filterMap_cons]

theorem next_iff [DecidableEq D] {s s' : Walking D} :
    G.Next s s' <-> exists (path : Path) (dir : D) (stack : List (Path × D))
      (l es : List (String × Target D)), s.stack = (path, dir) :: stack ∧
      G.listing dir = some l ∧ es.Perm l ∧
        s' = es.foldl (walkEntry path dir) { s with stack := stack } := by
  constructor
  · rintro ⟨es, hstep⟩
    unfold walkStep at hstep
    split at hstep
    · cases hstep
    · next path dir stack hstack =>
        split at hstep
        · next l hl =>
            split_ifs at hstep with hperm
            cases hstep
            exact ⟨path, dir, stack, l, es, hstack, by rw [listing, hl], hperm, rfl⟩
        · next hl =>
            cases hstep
            exact ⟨path, dir, stack, [], [], hstack, by rw [listing, hl],
              List.Perm.refl _, rfl⟩
        · cases hstep
  · rintro ⟨path, dir, stack, l, es, hstack, hl, hperm, rfl⟩
    refine ⟨es, ?_⟩
    unfold walkStep
    rw [hstack]
    unfold listing at hl
    split at hl
    · next l' hread =>
        cases hl
        simp only [hread, if_pos hperm]
    · next hread =>
        cases hl
        rw [List.perm_nil.mp hperm]
        simp only [hread]
        rfl
    · cases hl

/-- The state of a walk and the state of the traversal of its directories. -/
structure Follows (base : Path) (s : Walking D) (t : ListedGraph.State D String) :
    Prop where
  stack : s.stack = t.stack.map fun f => (base ++ f.path, f.vertex)
  visits : (s.visits.map fun v => (v.parent, v.name)).Perm
    (t.opened.flatMap fun f => G.others f.vertex)

variable {G} {base : Path}

theorem follows_start (base : Path) (root : D) :
    G.Follows base (walkStart base (some root)) (ListedGraph.start root) := by
  refine ⟨?_, List.Perm.refl _⟩
  simp [walkStart, ListedGraph.start, ListedGraph.rootFrame]

/-- The round on a directory is the opening of its vertex. -/
theorem follows_round {s : Walking D} {t : ListedGraph.State D String}
    (h : G.Follows base s t) {f : ListedGraph.Frame D String}
    (stack : List (ListedGraph.Frame D String)) {l es : List (String × Target D)}
    (hl : G.listing f.vertex = some l) (hperm : es.Perm l) :
    G.Follows base
      (es.foldl (walkEntry (base ++ f.path) f.vertex)
        { s with stack := stack.map fun f => (base ++ f.path, f.vertex) })
      { stack := ((es.filterMap dir?).map f.child).reverse ++ stack
        opened := t.opened ++ [f] } := by
  rw [foldl_walkEntry]
  constructor
  · simp [ListedGraph.Frame.child, List.append_assoc]
  · have hothers : (es.filterMap fun e => (otherName? e).map (f.vertex, ·)).Perm
        (G.others f.vertex) := by
      rw [others, hl]
      exact hperm.filterMap _
    rw [List.map_append, List.flatMap_append, List.flatMap_singleton, List.map_map]
    refine h.visits.append ?_
    rw [<- List.map_filterMap] at hothers
    exact hothers

def dirEntry (e : String × D) : String × Target D := (e.1, .dir e.2)

/-- The entries of a directory, those that are visited first. -/
theorem perm_split (l : List (String × Target D)) :
    (l.filter (fun e => (dir? e).isNone) ++
      (l.filterMap dir?).map dirEntry).Perm l := by
  induction l with
  | nil =>
      exact List.Perm.refl _
  | cons e l ih =>
      rcases e with ⟨name, target⟩
      cases target with
      | dir d =>
          rw [List.filter_cons_of_neg (by simp),
            List.filterMap_cons_some (dir?_dir name d)]
          exact List.perm_middle.trans (ih.cons _)
      | other =>
          rw [List.filter_cons_of_pos (by simp),
            List.filterMap_cons_none (dir?_other name)]
          exact ih.cons _

theorem filterMap_split (l : List (String × Target D)) (es : List (String × D)) :
    (l.filter (fun e => (dir? e).isNone) ++ es.map dirEntry).filterMap dir? =
      es := by
  have hothers : (l.filter fun e => (dir? e).isNone).filterMap dir? = [] := by
    rw [List.filterMap_eq_nil_iff]
    intro e he
    exact Option.isNone_iff_eq_none.mp (List.mem_filter.mp he).right
  have hdirs : (es.map dirEntry).filterMap dir? = es := by
    rw [List.filterMap_map]
    exact List.filterMap_some
  rw [List.filterMap_append, hothers, hdirs, List.nil_append]

theorem forward [DecidableEq D] {s s' : Walking D} {t : ListedGraph.State D String}
    (h : G.Follows base s t) (hnext : G.Next s s') :
    exists t', G.dirs.Next t t' ∧ G.Follows base s' t' := by
  rcases G.next_iff.mp hnext with ⟨path, dir, stack, l, es, hstack, hl, hperm, rfl⟩
  rw [h.stack] at hstack
  rcases List.map_eq_cons_iff.mp hstack with ⟨f, stack', htop, hf, rfl⟩
  cases hf
  have hedges : G.dirs.edges f.vertex = some (l.filterMap dir?) := by
    rw [dirs]
    simp [hl]
  exact ⟨_, ⟨f, stack', _, _, htop, hedges, hperm.filterMap _, rfl⟩,
    follows_round h stack' hl hperm⟩

theorem backward [DecidableEq D] {s : Walking D} {t t' : ListedGraph.State D String}
    (h : G.Follows base s t) (hnext : G.dirs.Next t t') :
    exists s', G.Next s s' ∧ G.Follows base s' t' := by
  rcases hnext with ⟨f, stack, l', es', htop, hedges, hperm', rfl⟩
  rcases Option.map_eq_some_iff.mp hedges with ⟨l, hl, rfl⟩
  have hperm : (l.filter (fun e => (dir? e).isNone) ++ es'.map dirEntry).Perm l :=
    ((hperm'.map dirEntry).append_left _).trans (perm_split l)
  have hround := follows_round h stack hl hperm
  rw [filterMap_split] at hround
  refine ⟨_, G.next_iff.mpr ⟨base ++ f.path, f.vertex, _, l, _, ?_, hl, hperm, rfl⟩, hround⟩
  rw [h.stack, htop]
  rfl

/-!
## Walks and traversals
-/

theorem nodup_others (d : D) : (G.others d).Nodup := by
  unfold others
  cases hl : G.listing d with
  | none =>
      exact List.nodup_nil
  | some l =>
      have hnames := (G.names_of_listing hl).sublist (otherNames_sublist l)
      rw [Option.getD_some, <- List.map_filterMap]
      exact hnames.map (Prod.mk_right_injective d)

theorem mem_others {d d' : D} {name : String} (h : (d', name) ∈ G.others d) : d' = d := by
  rcases List.mem_filterMap.mp h with ⟨e, -, he⟩
  rcases Option.map_eq_some_iff.mp he with ⟨name', -, heq⟩
  exact (congrArg Prod.fst heq).symm

section Runs

variable [DecidableEq D]

theorem acc_of_follows {s : Walking D} {t : ListedGraph.State D String}
    (hacc : Acc (flip G.dirs.Next) t) (h : G.Follows base s t) : Acc (flip G.Next) s := by
  induction hacc generalizing s with
  | intro t _ ih =>
      refine Acc.intro s fun s' hnext => ?_
      rcases forward h hnext with ⟨t', hnext', h'⟩
      exact ih t' hnext' h'

theorem acc_of_followed {s : Walking D} {t : ListedGraph.State D String}
    (hacc : Acc (flip G.Next) s) (h : G.Follows base s t) : Acc (flip G.dirs.Next) t := by
  induction hacc generalizing t with
  | intro s _ ih =>
      refine Acc.intro t fun t' hnext => ?_
      rcases backward h hnext with ⟨s', hnext', h'⟩
      exact ih s' hnext' h'

theorem run_forward {s s' : Walking D} {t : ListedGraph.State D String}
    (h : G.Follows base s t) (hrun : ReflTransGen G.Next s s') :
    exists t', G.dirs.Run t t' ∧ G.Follows base s' t' := by
  induction hrun with
  | refl =>
      exact ⟨t, ReflTransGen.refl, h⟩
  | tail _ hnext ih =>
      rcases ih with ⟨t', hrun', h'⟩
      rcases forward h' hnext with ⟨t'', hnext', h''⟩
      exact ⟨t'', hrun'.tail hnext', h''⟩

theorem run_backward {s : Walking D} {t t' : ListedGraph.State D String}
    (h : G.Follows base s t) (hrun : G.dirs.Run t t') :
    exists s', ReflTransGen G.Next s s' ∧ G.Follows base s' t' := by
  induction hrun with
  | refl =>
      exact ⟨s, ReflTransGen.refl, h⟩
  | tail _ hnext ih =>
      rcases ih with ⟨s', hrun', h'⟩
      rcases backward h' hnext with ⟨s'', hnext', h''⟩
      exact ⟨s'', hrun'.tail hnext', h''⟩

theorem terminates_iff [Finite D] (path : Path) (root : D) :
    G.Terminates path (some root) <-> G.dirs.Acyclic root := by
  rw [<- ListedGraph.acc_start_iff]
  have hstart := G.follows_start path root
  exact ⟨fun hacc => acc_of_followed hacc hstart, fun hacc => acc_of_follows hacc hstart⟩

/-- No entry is visited twice exactly when no directory with something to visit
is opened twice. -/
theorem visitsOnce_iff (path : Path) (root : D) :
    G.VisitsOnce path (some root) <->
      forall d, G.others d ≠ [] -> Not (G.dirs.OpensTwice root d) := by
  have hstart := G.follows_start path root
  constructor
  · rintro honce d hothers ⟨t, hrun, f, g, hf, hg, hne, rfl, hgd⟩
    rcases run_backward hstart hrun with ⟨s, hruns, hs⟩
    have hnodup := (hs.visits.nodup_iff.mp (honce s hruns))
    rw [List.nodup_flatMap] at hnodup
    have hsymm : Std.Symm (Function.onFun List.Disjoint fun k : ListedGraph.Frame D String =>
        G.others k.vertex) := ⟨fun _ _ h => List.Disjoint.symm h⟩
    have hdisjoint := hnodup.right.forall hf hg hne
    rcases List.exists_mem_of_ne_nil _ hothers with ⟨e, he⟩
    have heg : e ∈ G.others g.vertex := by
      rw [hgd]
      exact he
    exact hdisjoint he heg
  · intro honce s hrun
    rcases run_forward hstart hrun with ⟨t, hrunt, ht⟩
    rw [ht.visits.nodup_iff, List.nodup_flatMap]
    refine ⟨fun f _ => nodup_others f.vertex, ?_⟩
    have hpaths := (ListedGraph.Traversed.run hrunt).nodup
    rw [List.map_append, List.nodup_append] at hpaths
    refine List.Pairwise.imp_of_mem ?_ hpaths.left.of_map
    intro f g hf hg hne e hef heg
    have hsame : f.vertex = g.vertex := (mem_others hef).symm.trans (mem_others heg)
    exact honce f.vertex (List.ne_nil_of_mem hef) ⟨t, hrunt, f, g, hf, hg, hne, rfl, hsame.symm⟩

end Runs

/-- With every order of the entries, a walk ends exactly when no cycle of
directories is below its root, and it visits no entry twice exactly when no
directory with something to visit can be reached by two entries of a directory,
the first of them past no directory that cannot be read. -/
theorem walk_directory_graph [Fintype D] [DecidableEq D] (G : DirGraph D) (path : Path)
    (root : Option D) :
    G.Terminates path root ∧ G.VisitsOnce path root <->
      forall r, root = some r -> G.dirs.Acyclic r ∧
        forall d, G.others d ≠ [] -> Not (G.dirs.Joins r d) := by
  cases root with
  | none =>
      have hidle : forall s, Not (G.Next (walkStart path none) s) := by
        rintro s ⟨es, hstep⟩
        cases hstep
      refine iff_of_true ⟨Acc.intro _ fun s hs => absurd hs (hidle s), ?_⟩ nofun
      intro s hrun
      rcases ReflTransGen.cases_head hrun with rfl | ⟨s', hs', -⟩
      · exact List.nodup_nil
      · exact absurd hs' (hidle s')
  | some r =>
      simp only [Option.some_inj, forall_eq']
      rw [terminates_iff, visitsOnce_iff]
      refine and_congr_right fun hacyclic => ?_
      simp only [ListedGraph.opensTwice_iff hacyclic]

/-- A directory with a link to itself. -/
private def looped : DirGraph Unit where
  readDir _ := .ok [("link", .dir ())]
  names_nodup h := by
    cases h
    decide

theorem walk_looped : Not (looped.Terminates [] (some ())) := by
  rw [terminates_iff]
  intro hacyclic
  have hedge : looped.dirs.Edge () () := ⟨"link", _, rfl, by simp⟩
  exact hacyclic () ReflTransGen.refl (TransGen.single hedge)

end DirGraph

end Index
end OpenMk3
