import Mathlib.Data.Fintype.Card
import Mathlib.Data.List.Nodup
import Mathlib.Logic.Hydra
import Mathlib.Logic.Relation

/-!
# Traversal without marks

A stack traversal of a graph that does not remember the vertices it has opened:
the edges of the vertex on top are pushed in any order.  It ends in every order
exactly when the graph has no cycle below the root, and it opens a vertex twice
in some order exactly when two edges of one vertex lead there, one of them past
no vertex that stops the traversal.
-/

namespace OpenMk3
namespace Library

universe u v

open Relation

/-- The labelled edges of each vertex; nothing where a traversal stops. -/
structure ListedGraph (V : Type u) (L : Type v) where
  edges : V -> Option (List (L × V))
  labels_nodup : forall {x l}, edges x = some l -> (l.map Prod.fst).Nodup

namespace ListedGraph

variable {V : Type u} {L : Type v} (G : ListedGraph V L)

def Lists (x : V) (label : L) (y : V) : Prop :=
  exists l, G.edges x = some l ∧ (label, y) ∈ l

def Edge (x y : V) : Prop := exists label, G.Lists x label y

abbrev Reach : V -> V -> Prop := ReflTransGen G.Edge

/-- No traversal from here on stops early. -/
def Clean (x : V) : Prop := forall y, G.Reach x y -> G.edges y ≠ none

/-- No cycle below the root. -/
def Acyclic (root : V) : Prop := forall x, G.Reach root x -> Not (TransGen G.Edge x x)

/-!
## Steps
-/

/-- A vertex with the labels that led to it. -/
structure Frame (V : Type u) (L : Type v) where
  path : List L
  vertex : V

structure State (V : Type u) (L : Type v) where
  stack : List (Frame V L)
  opened : List (Frame V L)

def Frame.child (f : Frame V L) (e : L × V) : Frame V L :=
  { path := f.path ++ [e.1], vertex := e.2 }

@[simp] theorem Frame.child_path (f : Frame V L) (e : L × V) :
    (f.child e).path = f.path ++ [e.1] := rfl

def rootFrame (root : V) : Frame V L := { path := [], vertex := root }

def start (root : V) : State V L := { stack := [rootFrame root], opened := [] }

/-- Open the vertex on top, taking its edges in some order. -/
def Next (s s' : State V L) : Prop :=
  exists (f : Frame V L) (stack : List (Frame V L)) (l es : List (L × V)),
    s.stack = f :: stack ∧ G.edges f.vertex = some l ∧ es.Perm l ∧
    s' = { stack := (es.map f.child).reverse ++ stack, opened := s.opened ++ [f] }

abbrev Run : State V L -> State V L -> Prop := ReflTransGen G.Next

variable {G} {root : V}

theorem clean_of_reach {x y : V} (h : G.Clean x) (hy : G.Reach x y) : G.Clean y :=
  fun z hz => h z (hy.trans hz)

/-!
## Termination
-/

/-- Edges below the root, from the higher vertex to the lower. -/
def Down (G : ListedGraph V L) (root y x : V) : Prop := G.Reach root x ∧ G.Edge x y

theorem transGen_down {x y : V} (h : TransGen (G.Down root) y x) :
    G.Reach root x ∧ TransGen G.Edge x y := by
  induction h with
  | single hdown =>
      exact ⟨hdown.left, TransGen.single hdown.right⟩
  | tail _ hdown ih =>
      exact ⟨hdown.left, TransGen.head hdown.right ih.right⟩

theorem wellFounded_down [Finite V] (h : G.Acyclic root) :
    WellFounded (G.Down root) := by
  have htrans : IsTrans V (TransGen (G.Down root)) := ⟨fun _ _ _ => TransGen.trans⟩
  have hirrefl : Std.Irrefl (TransGen (G.Down root)) := by
    refine ⟨fun x hx => ?_⟩
    rcases transGen_down hx with ⟨hreach, hcycle⟩
    exact h x hreach hcycle
  exact Subrelation.wf TransGen.single
    (Finite.wellFounded_of_trans_of_irrefl (TransGen (G.Down root)))

theorem irrefl_down (h : G.Acyclic root) : Std.Irrefl (G.Down root) :=
  ⟨fun x hx => h x hx.left (TransGen.single hx.right)⟩

/-- The vertices that wait on the stack. -/
def waiting (s : State V L) : Multiset V := (s.stack.map Frame.vertex : List V)

/-- A step replaces the vertex on top by lower ones. -/
theorem cutExpand_of_next {s s' : State V L}
    (hreach : forall f, f ∈ s.stack -> G.Reach root f.vertex) (h : G.Next s s') :
    CutExpand (G.Down root) (waiting s') (waiting s) ∧
      forall f, f ∈ s'.stack -> G.Reach root f.vertex := by
  rcases h with ⟨f, stack, l, es, hstack, hl, hperm, rfl⟩
  rw [hstack] at hreach
  have htop := hreach f (by simp)
  have hedge : forall e, e ∈ es -> G.Edge f.vertex e.2 :=
    fun e he => ⟨e.1, l, hl, hperm.mem_iff.mp he⟩
  constructor
  · refine ⟨(es.map Prod.snd : List V), f.vertex, ?_, ?_⟩
    · intro y hy
      rcases List.mem_map.mp (Multiset.mem_coe.mp hy) with ⟨e, he, rfl⟩
      exact ⟨htop, hedge e he⟩
    · have hvertices : ((es.map f.child).reverse.map Frame.vertex).Perm (es.map Prod.snd) := by
        rw [List.map_reverse, List.map_map]
        exact List.reverse_perm _
      have hperm' : (((es.map f.child).reverse ++ stack).map Frame.vertex ++
          [f.vertex]).Perm (f.vertex :: stack.map Frame.vertex ++ es.map Prod.snd) := by
        rw [List.map_append]
        refine (List.perm_append_singleton _ _).trans (List.Perm.cons _ ?_)
        exact (hvertices.append_right _).trans List.perm_append_comm
      unfold waiting
      rw [hstack, List.map_cons, <- Multiset.coe_singleton, Multiset.coe_add,
        Multiset.coe_add]
      exact Multiset.coe_eq_coe.mpr hperm'
  · intro g hg
    rcases List.mem_append.mp hg with hg | hg
    · rcases List.mem_map.mp (List.mem_reverse.mp hg) with ⟨e, he, rfl⟩
      exact htop.tail (hedge e he)
    · exact hreach g (List.mem_cons_of_mem f hg)

theorem acc_start [Finite V] (h : G.Acyclic root) : Acc (flip G.Next) (start root) := by
  have hirrefl := irrefl_down h
  have hwf : WellFounded (CutExpand (G.Down root)) := (wellFounded_down h).cutExpand
  have hacc : forall (m : Multiset V) (s : State V L), waiting s = m ->
      (forall f, f ∈ s.stack -> G.Reach root f.vertex) -> Acc (flip G.Next) s := by
    intro m
    induction m using hwf.induction with
    | _ m ih =>
        rintro s rfl hreach
        refine Acc.intro s fun s' hnext => ?_
        rcases cutExpand_of_next hreach hnext with ⟨hcut, hreach'⟩
        exact ih _ hcut s' rfl hreach'
  refine hacc _ (start root) rfl ?_
  intro f hf
  rw [List.mem_singleton.mp hf]
  exact ReflTransGen.refl

/-- The vertex of an edge can be the next to be opened. -/
theorem exists_next {s : State V L} {f : Frame V L} {stack : List (Frame V L)}
    (hstack : s.stack = f :: stack) {y : V} (hedge : G.Edge f.vertex y) :
    exists s', G.Next s s' ∧ s'.opened = s.opened ++ [f] ∧
      exists g stack', s'.stack = g :: stack' ∧ g.vertex = y := by
  rcases hedge with ⟨label, l, hl, hmem⟩
  rcases List.append_of_mem hmem with ⟨front, back, rfl⟩
  have hperm : (front ++ back ++ [(label, y)]).Perm (front ++ (label, y) :: back) := by
    rw [List.append_assoc]
    exact (List.perm_append_singleton _ back).append_left front
  refine ⟨_, ⟨f, stack, _, _, hstack, hl, hperm, rfl⟩, rfl, f.child (label, y),
    ((front ++ back).map f.child).reverse ++ stack, ?_, rfl⟩
  simp only [List.map_append, List.reverse_append, List.append_assoc]
  rfl

theorem exists_run {s : State V L} {f : Frame V L} {stack : List (Frame V L)}
    (hstack : s.stack = f :: stack) {y : V} (hreach : G.Reach f.vertex y) :
    exists s', G.Run s s' ∧ s.opened <+: s'.opened ∧
      exists g stack', s'.stack = g :: stack' ∧ g.vertex = y := by
  induction hreach with
  | refl =>
      exact ⟨s, ReflTransGen.refl, List.prefix_refl _, f, stack, hstack, rfl⟩
  | tail _ hedge ih =>
      rcases ih with ⟨s', hrun, hbegin, g, stack', hstack', rfl⟩
      rcases exists_next hstack' hedge with ⟨s'', hnext, hopened, htop⟩
      refine ⟨s'', hrun.tail hnext, hbegin.trans ?_, htop⟩
      rw [hopened]
      exact List.prefix_append _ _

theorem exists_transGen_next {s : State V L} {f : Frame V L} {stack : List (Frame V L)}
    (hstack : s.stack = f :: stack) {y : V} (hreach : TransGen G.Edge f.vertex y) :
    exists s', TransGen G.Next s s' ∧
      exists g stack', s'.stack = g :: stack' ∧ g.vertex = y := by
  rcases TransGen.tail'_iff.mp hreach with ⟨z, hz, hedge⟩
  rcases exists_run hstack hz with ⟨s', hrun, -, g, stack', hstack', rfl⟩
  rcases exists_next hstack' hedge with ⟨s'', hnext, -, htop⟩
  exact ⟨s'', TransGen.tail' hrun hnext, htop⟩

/-- Around a cycle the traversal does not end. -/
theorem not_acc_of_cycle {s : State V L} (hacc : Acc (flip G.Next) s) {f : Frame V L}
    {stack : List (Frame V L)} (hstack : s.stack = f :: stack) :
    Not (TransGen G.Edge f.vertex f.vertex) := by
  have hacc' := hacc.transGen
  clear hacc
  induction hacc' generalizing f stack with
  | intro s _ ih =>
      intro hcycle
      rcases exists_transGen_next hstack hcycle with ⟨s', hnext, g, stack', hstack', hg⟩
      have hprev : TransGen (flip G.Next) s' s := transGen_swap.mpr hnext
      exact ih s' hprev hstack' (hg ▸ hcycle)

theorem acc_of_run {s s' : State V L} (hacc : Acc (flip G.Next) s) (h : G.Run s s') :
    Acc (flip G.Next) s' := by
  induction h with
  | refl =>
      exact hacc
  | tail _ hnext ih =>
      exact ih.inv hnext

theorem acc_start_iff [Finite V] : Acc (flip G.Next) (start root) <-> G.Acyclic root := by
  constructor
  · intro hacc x hreach hcycle
    rcases exists_run (s := start root) rfl hreach with ⟨s, hrun, -, g, stack, hstack, rfl⟩
    exact not_acc_of_cycle (acc_of_run hacc hrun) hstack hcycle
  · exact acc_start

/-!
## Openings
-/

variable (G root)

/-- What holds of every state of a traversal. -/
structure Traversed (s : State V L) : Prop where
  -- no two frames have one path
  nodup : ((s.opened ++ s.stack).map Frame.path).Nodup
  parent : forall f, f ∈ s.opened ++ s.stack -> f = rootFrame root ∨
    exists g, g ∈ s.opened ∧ exists label, f.path = g.path ++ [label] ∧
      G.Lists g.vertex label f.vertex
  closed : forall g, g ∈ s.opened -> G.edges g.vertex ≠ none ∧
    forall label y, G.Lists g.vertex label y -> g.child (label, y) ∈ s.opened ++ s.stack
  -- what lies deeper on the stack was pushed by an ancestor
  chain : s.stack.Pairwise fun f g => g.path.dropLast <+: f.path.dropLast
  -- of two opened siblings, one was done when the other was opened
  siblings : forall f, f ∈ s.opened -> forall g, g ∈ s.opened -> f.path ≠ g.path ->
    f.path ≠ [] -> g.path ≠ [] -> f.path.dropLast = g.path.dropLast ->
      G.Clean f.vertex ∨ G.Clean g.vertex

variable {G root}

theorem Lists.unique {x y z : V} {label : L} (hy : G.Lists x label y)
    (hz : G.Lists x label z) : y = z := by
  rcases hy with ⟨l, hl, hy⟩
  rcases hz with ⟨l', hl', hz⟩
  rw [hl] at hl'
  cases hl'
  have hnodup := G.labels_nodup hl
  have heq := List.inj_on_of_nodup_map hnodup hy hz rfl
  exact congrArg Prod.snd heq

theorem traversed_start : G.Traversed root (start root) := by
  refine ⟨by simp [start], ?_, nofun, by simp [start], nofun⟩
  intro f hf
  exact Or.inl (List.mem_singleton.mp hf)

namespace Traversed

variable {s s' : State V L}

/-- When a frame is on top, what was opened beside it is done. -/
theorem clean_of_top (h : G.Traversed root s) {f : Frame V L} {stack : List (Frame V L)}
    (hstack : s.stack = f :: stack) {g : Frame V L} (hg : g ∈ s.opened)
    (hne : g.path ≠ []) (hsibling : f.path.dropLast = g.path.dropLast) :
    G.Clean g.vertex := by
  have hopened : forall y, G.Reach g.vertex y ->
      exists k, k ∈ s.opened ∧ g.path <+: k.path ∧ k.vertex = y := by
    intro y hy
    induction hy with
    | refl =>
        exact ⟨g, hg, List.prefix_refl _, rfl⟩
    | @tail _ z _ hedge ih =>
        rcases ih with ⟨k, hk, hbegin, rfl⟩
        rcases hedge with ⟨label, hlists⟩
        have hchild := (h.closed k hk).right label z hlists
        rcases List.mem_append.mp hchild with hchild | hchild
        · exact ⟨_, hchild, hbegin.trans (List.prefix_append _ _), rfl⟩
        · exfalso
          have hbelow : k.path <+: f.path.dropLast := by
            have hchain := h.chain
            rw [hstack] at hchain hchild
            have hparent : (k.child (label, z)).path.dropLast = k.path :=
              List.dropLast_concat
            rcases List.mem_cons.mp hchild with heq | hmem
            · rw [<- heq, hparent]
            · rw [<- hparent]
              exact (List.pairwise_cons.mp hchain).left _ hmem
          have hle := (hbegin.trans hbelow).length_le
          have hpos := List.length_pos_iff.mpr hne
          rw [hsibling, List.length_dropLast] at hle
          omega
  intro y hy
  rcases hopened y hy with ⟨k, hk, -, rfl⟩
  exact (h.closed k hk).left

/-- No frame has a path that the children of the top frame will have. -/
theorem ne_child_path (h : G.Traversed root s) {f : Frame V L} {stack : List (Frame V L)}
    (hstack : s.stack = f :: stack) {k : Frame V L} (hk : k ∈ s.opened ++ s.stack)
    (label : L) : k.path ≠ f.path ++ [label] := by
  intro hpath
  rcases h.parent k hk with rfl | ⟨g, hg, label', hparent, -⟩
  · exact List.append_ne_nil_of_right_ne_nil f.path (List.cons_ne_nil label []) hpath.symm
  · rw [hpath] at hparent
    have hsame : f.path = g.path := (List.append_inj' hparent rfl).left
    have hnodup := h.nodup
    rw [hstack, List.map_append, List.nodup_append] at hnodup
    exact hnodup.right.right g.path (List.mem_map_of_mem hg) f.path
      (by simp) hsame.symm

theorem step (h : G.Traversed root s) (hnext : G.Next s s') : G.Traversed root s' := by
  rcases hnext with ⟨f, stack, l, es, hstack, hl, hperm, rfl⟩
  have hold {k : Frame V L} : k ∈ s.opened ++ s.stack <->
      k ∈ s.opened ∨ k = f ∨ k ∈ stack := by
    rw [hstack, List.mem_append, List.mem_cons]
  have hchild {k : Frame V L} : k ∈ (es.map f.child).reverse <->
      exists e, e ∈ es ∧ f.child e = k := by
    rw [List.mem_reverse, List.mem_map]
  constructor
  case nodup =>
    have hchildren : ((es.map f.child).map Frame.path).Nodup := by
      have hlabels : (es.map Prod.fst).Nodup :=
        (hperm.map Prod.fst).nodup_iff.mpr (G.labels_nodup hl)
      have hmap : (es.map f.child).map Frame.path =
          (es.map Prod.fst).map fun label => f.path ++ [label] := by
        rw [List.map_map, List.map_map]
        rfl
      rw [hmap]
      exact hlabels.map fun a b hab => List.singleton_inj.mp (List.append_cancel_left hab)
    have hreorder : (s.opened ++ [f] ++ ((es.map f.child).reverse ++ stack)).Perm
        (es.map f.child ++ (s.opened ++ s.stack)) := by
      have hsame : s.opened ++ s.stack = s.opened ++ [f] ++ stack := by
        rw [hstack, List.append_assoc, List.singleton_append]
      rw [hsame]
      exact (((List.reverse_perm _).append_right stack).append_left _).trans
        (List.perm_append_comm_assoc _ _ _)
    rw [(hreorder.map Frame.path).nodup_iff, List.map_append, List.nodup_append]
    refine ⟨hchildren, h.nodup, ?_⟩
    rintro p hp q hq rfl
    rcases List.mem_map.mp hp with ⟨c, hc, rfl⟩
    rcases List.mem_map.mp hc with ⟨e, he, rfl⟩
    rcases List.mem_map.mp hq with ⟨k, hk, hpath⟩
    exact h.ne_child_path hstack hk e.1 hpath
  case parent =>
    intro k hk
    simp only [List.mem_append, List.mem_singleton, or_assoc] at hk
    have hprior (hk : k ∈ s.opened ++ s.stack) : k = rootFrame root ∨
        exists g, g ∈ s.opened ++ [f] ∧ exists label, k.path = g.path ++ [label] ∧
          G.Lists g.vertex label k.vertex := by
      rcases h.parent k hk with hroot | ⟨g, hg, hparent⟩
      · exact Or.inl hroot
      · exact Or.inr ⟨g, List.mem_append_left _ hg, hparent⟩
    rcases hk with hk | hk | hk | hk
    · exact hprior (hold.mpr (Or.inl hk))
    · exact hprior (hold.mpr (Or.inr (Or.inl hk)))
    · rcases hchild.mp hk with ⟨e, he, rfl⟩
      exact Or.inr ⟨f, by simp, e.1, rfl, l, hl, hperm.mem_iff.mp he⟩
    · exact hprior (hold.mpr (Or.inr (Or.inr hk)))
  case closed =>
    intro g hg
    rcases List.mem_append.mp hg with hg | hg
    · refine ⟨(h.closed g hg).left, fun label y hlists => ?_⟩
      rcases hold.mp ((h.closed g hg).right label y hlists) with hk | hk | hk
      · simp [hk]
      · simp [hk]
      · simp [hk]
    · rw [List.mem_singleton.mp hg]
      refine ⟨by rw [hl]; nofun, ?_⟩
      rintro label y ⟨l', hl', hmem⟩
      rw [hl] at hl'
      cases hl'
      have hk := hchild.mpr ⟨(label, y), hperm.mem_iff.mpr hmem, rfl⟩
      exact List.mem_append_right _ (List.mem_append_left _ hk)
  case chain =>
    have hchain := h.chain
    rw [hstack, List.pairwise_cons] at hchain
    rw [List.pairwise_append]
    refine ⟨?_, hchain.right, ?_⟩
    · refine List.pairwise_of_forall_mem_list fun c hc d hd => ?_
      rcases hchild.mp hc with ⟨e, -, rfl⟩
      rcases hchild.mp hd with ⟨e', -, rfl⟩
      rw [Frame.child_path, Frame.child_path, List.dropLast_concat, List.dropLast_concat]
    · intro c hc g hg
      rcases hchild.mp hc with ⟨e, -, rfl⟩
      rw [Frame.child_path, List.dropLast_concat]
      exact (hchain.left g hg).trans (List.dropLast_prefix _)
  case siblings =>
    intro a ha b hb hne hane hbne hsibling
    rcases List.mem_append.mp ha with ha | ha
    · rcases List.mem_append.mp hb with hb | hb
      · exact h.siblings a ha b hb hne hane hbne hsibling
      · rw [List.mem_singleton.mp hb] at hsibling
        exact Or.inl (h.clean_of_top hstack ha hane hsibling.symm)
    · rw [List.mem_singleton.mp ha] at hsibling hne
      rcases List.mem_append.mp hb with hb | hb
      · exact Or.inr (h.clean_of_top hstack hb hbne hsibling)
      · exact absurd (congrArg Frame.path (List.mem_singleton.mp hb).symm) hne

theorem run (hrun : G.Run (start root) s) : G.Traversed root s := by
  induction hrun with
  | refl =>
      exact traversed_start
  | tail _ hnext ih =>
      exact ih.step hnext

theorem eq_of_path_eq (h : G.Traversed root s) {f g : Frame V L}
    (hf : f ∈ s.opened ++ s.stack) (hg : g ∈ s.opened ++ s.stack)
    (hpath : f.path = g.path) : f = g :=
  List.inj_on_of_nodup_map h.nodup hf hg hpath

/-- The frames on the way to an opened frame were opened. -/
theorem ancestor (h : G.Traversed root s) {f : Frame V L} (hf : f ∈ s.opened)
    {q : List L} (hq : q <+: f.path) :
    exists g, g ∈ s.opened ∧ g.path = q ∧ G.Reach g.vertex f.vertex ∧
      (q ≠ f.path -> TransGen G.Edge g.vertex f.vertex) := by
  generalize hn : f.path.length = n
  induction n generalizing f with
  | zero =>
      rw [List.length_eq_zero_iff.mp hn, List.prefix_nil] at hq
      refine ⟨f, hf, ?_, ReflTransGen.refl, fun hne => absurd ?_ hne⟩
      · rw [hq, List.length_eq_zero_iff.mp hn]
      · rw [hq, List.length_eq_zero_iff.mp hn]
  | succ n ih =>
      by_cases hsame : q = f.path
      · exact ⟨f, hf, hsame.symm, ReflTransGen.refl, fun hne => absurd hsame hne⟩
      · rcases h.parent f (List.mem_append_left _ hf) with
          rfl | ⟨g, hg, label, hpath, hlists⟩
        · cases hn
        · rw [hpath] at hq hn hsame
          have hqg : q <+: g.path := (List.prefix_concat_iff.mp hq).resolve_left hsame
          rw [List.length_append] at hn
          rcases ih hg hqg (by simpa using hn) with ⟨k, hk, hkpath, hreach, -⟩
          have hedge : G.Edge g.vertex f.vertex := ⟨label, hlists⟩
          exact ⟨k, hk, hkpath, hreach.tail hedge, fun _ => TransGen.tail' hreach hedge⟩

theorem reach_root (h : G.Traversed root s) {f : Frame V L} (hf : f ∈ s.opened) :
    G.Reach root f.vertex := by
  rcases h.ancestor hf List.nil_prefix with ⟨g, hg, hpath, hreach, -⟩
  rcases h.parent g (List.mem_append_left _ hg) with rfl | ⟨k, -, label, hparent, -⟩
  · exact hreach
  · rw [hpath] at hparent
    exact absurd hparent.symm (List.append_ne_nil_of_right_ne_nil _ (List.cons_ne_nil _ _))

end Traversed

/-- Two lists are one in front of the other, or part somewhere. -/
theorem prefix_or_part (p p' : List L) :
    p <+: p' ∨ p' <+: p ∨ exists q a b, a ≠ b ∧ q ++ [a] <+: p ∧ q ++ [b] <+: p' := by
  induction p generalizing p' with
  | nil =>
      exact Or.inl List.nil_prefix
  | cons a p ih =>
      cases p' with
      | nil =>
          exact Or.inr (Or.inl List.nil_prefix)
      | cons b p' =>
          by_cases hab : a = b
          · subst hab
            rcases ih p' with hp | hp | ⟨q, c, d, hne, hc, hd⟩
            · exact Or.inl ((List.prefix_cons_inj a).mpr hp)
            · exact Or.inr (Or.inl ((List.prefix_cons_inj a).mpr hp))
            · exact Or.inr (Or.inr ⟨a :: q, c, d, hne, (List.prefix_cons_inj a).mpr hc,
                (List.prefix_cons_inj a).mpr hd⟩)
          · exact Or.inr (Or.inr ⟨[], a, b, hab, ⟨p, rfl⟩, ⟨p', rfl⟩⟩)

variable (G root)

def OpensTwice (d : V) : Prop :=
  exists s, G.Run (start root) s ∧ exists f g, f ∈ s.opened ∧ g ∈ s.opened ∧ f ≠ g ∧
    f.vertex = d ∧ g.vertex = d

/-- Two edges of a vertex below the root lead to `d`, and nothing below the
first stops a traversal. -/
def Joins (d : V) : Prop :=
  exists x, G.Reach root x ∧ exists a y b z, a ≠ b ∧ G.Lists x a y ∧ G.Lists x b z ∧
    G.Reach y d ∧ G.Reach z d ∧ G.Clean y

variable {G root}

theorem joins_of_opensTwice (hacyclic : G.Acyclic root) {d : V}
    (h : G.OpensTwice root d) : G.Joins root d := by
  rcases h with ⟨s, hrun, f, g, hf, hg, hne, rfl, hvertex⟩
  have hinv := Traversed.run hrun
  have hopened {k : Frame V L} (hk : k ∈ s.opened) : k ∈ s.opened ++ s.stack :=
    List.mem_append_left _ hk
  -- one frame below the other would close a cycle
  have hcycle {k k' : Frame V L} (hk : k ∈ s.opened) (hk' : k' ∈ s.opened)
      (hkk' : k ≠ k') (hsame : k.vertex = k'.vertex) : Not (k.path <+: k'.path) := by
    intro hbegin
    rcases hinv.ancestor hk' hbegin with ⟨j, hj, hpath, -, htrans⟩
    have hjk := hinv.eq_of_path_eq (hopened hj) (hopened hk) hpath
    subst hjk
    have hpaths : j.path ≠ k'.path :=
      fun heq => hkk' (hinv.eq_of_path_eq (hopened hk) (hopened hk') heq)
    have hloop := htrans hpaths
    rw [<- hsame] at hloop
    exact hacyclic _ (hinv.reach_root hk) hloop
  rcases prefix_or_part f.path g.path with hp | hp | ⟨q, a, b, hab, ha, hb⟩
  · exact absurd hp (hcycle hf hg hne hvertex.symm)
  · exact absurd hp (hcycle hg hf hne.symm hvertex)
  · rcases hinv.ancestor hf ha with ⟨y, hy, hypath, hyreach, -⟩
    rcases hinv.ancestor hg hb with ⟨z, hz, hzpath, hzreach, -⟩
    have hparent {k : Frame V L} {c : L} (hk : k ∈ s.opened) (hpath : k.path = q ++ [c]) :
        exists x, x ∈ s.opened ∧ x.path = q ∧ G.Lists x.vertex c k.vertex := by
      rcases hinv.parent k (hopened hk) with rfl | ⟨x, hx, label, hxpath, hlists⟩
      · exact absurd hpath.symm
          (List.append_ne_nil_of_right_ne_nil _ (List.cons_ne_nil _ _))
      · rw [hpath] at hxpath
        rcases List.append_inj' hxpath rfl with ⟨hq, hc⟩
        rw [List.singleton_inj.mp hc]
        exact ⟨x, hx, hq.symm, hlists⟩
    rcases hparent hy hypath with ⟨x, hx, hxpath, hxy⟩
    rcases hparent hz hzpath with ⟨x', hx', hxpath', hxz⟩
    have hxx' := hinv.eq_of_path_eq (hopened hx') (hopened hx) (hxpath'.trans hxpath.symm)
    subst hxx'
    have hroot := hinv.reach_root hx
    rw [hvertex] at hzreach
    have hclean := hinv.siblings y hy z hz
      (by rw [hypath, hzpath]; simpa using hab)
      (by rw [hypath]; simp) (by rw [hzpath]; simp)
      (by rw [hypath, hzpath, List.dropLast_concat, List.dropLast_concat])
    rcases hclean with hclean | hclean
    · exact ⟨x'.vertex, hroot, a, y.vertex, b, z.vertex, hab, hxy, hxz, hyreach, hzreach,
        hclean⟩
    · exact ⟨x'.vertex, hroot, b, z.vertex, a, y.vertex, hab.symm, hxz, hxy, hzreach,
        hyreach, hclean⟩

/-- Below a clean vertex, everything is opened before the rest of the stack. -/
theorem exists_complete (hwf : WellFounded (G.Down root)) {x : V}
    (hroot : G.Reach root x) (hclean : G.Clean x) {s : State V L} {f : Frame V L}
    {stack : List (Frame V L)} (hstack : s.stack = f :: stack) (hf : f.vertex = x) :
    exists s', G.Run s s' ∧ s'.stack = stack ∧ s.opened <+: s'.opened ∧
      forall y, G.Reach x y -> exists g, g ∈ s'.opened ∧ g.vertex = y := by
  induction x using hwf.induction generalizing s f stack with
  | _ x ih =>
      subst hf
      cases hl : G.edges f.vertex with
      | none =>
          exact absurd hl (hclean _ ReflTransGen.refl)
      | some l =>
          have hfirst : G.Next s
              { stack := (l.map f.child).reverse ++ stack, opened := s.opened ++ [f] } :=
            ⟨f, stack, l, l, hstack, hl, List.Perm.refl _, rfl⟩
          have hrest : forall (cs : List (Frame V L)) (t : State V L),
              (forall c, c ∈ cs -> G.Edge f.vertex c.vertex) -> t.stack = cs ++ stack ->
              exists t', G.Run t t' ∧ t'.stack = stack ∧ t.opened <+: t'.opened ∧
                forall c, c ∈ cs -> forall y, G.Reach c.vertex y ->
                  exists g, g ∈ t'.opened ∧ g.vertex = y := by
            intro cs
            induction cs with
            | nil =>
                intro t _ ht
                exact ⟨t, ReflTransGen.refl, ht, List.prefix_refl _, nofun⟩
            | cons c cs ihcs =>
                intro t hedges ht
                have hedge := hedges c (by simp)
                rcases ih c.vertex ⟨hroot, hedge⟩ (hroot.tail hedge)
                  (clean_of_reach hclean (ReflTransGen.single hedge)) ht rfl with
                  ⟨t1, hrun1, ht1, hbegin1, hall1⟩
                rcases ihcs t1 (fun d hd => hedges d (by simp [hd])) ht1 with
                  ⟨t2, hrun2, ht2, hbegin2, hall2⟩
                refine ⟨t2, hrun1.trans hrun2, ht2, hbegin1.trans hbegin2, ?_⟩
                intro d hd y hy
                rcases List.mem_cons.mp hd with rfl | hd
                · rcases hall1 y hy with ⟨g, hg, hgy⟩
                  exact ⟨g, hbegin2.subset hg, hgy⟩
                · exact hall2 d hd y hy
          have hedges : forall c, c ∈ (l.map f.child).reverse -> G.Edge f.vertex c.vertex := by
            intro c hc
            rcases List.mem_map.mp (List.mem_reverse.mp hc) with ⟨e, he, rfl⟩
            exact ⟨e.1, l, hl, he⟩
          rcases hrest _ (State.mk ((l.map f.child).reverse ++ stack) (s.opened ++ [f]))
            hedges rfl with ⟨s', hrun, hs', hbegin, hall⟩
          refine ⟨s', ReflTransGen.head hfirst hrun, hs',
            (List.prefix_append _ _).trans hbegin, ?_⟩
          intro y hy
          rcases ReflTransGen.cases_head hy with rfl | ⟨z, ⟨label, l', hl', hmem⟩, hz⟩
          · exact ⟨f, hbegin.subset (by simp), rfl⟩
          · rw [hl] at hl'
            cases hl'
            have hchild : f.child (label, z) ∈ (l.map f.child).reverse :=
              List.mem_reverse.mpr (List.mem_map_of_mem hmem)
            exact hall _ hchild y hz

/-- Two edges can be the next to be followed, one after the other. -/
theorem exists_next_pair {s : State V L} {f : Frame V L} {stack : List (Frame V L)}
    (hstack : s.stack = f :: stack) {a b : L} {y z : V} (hab : a ≠ b)
    (hy : G.Lists f.vertex a y) (hz : G.Lists f.vertex b z) :
    exists s' stack', G.Next s s' ∧
      s'.stack = f.child (a, y) :: f.child (b, z) :: stack' := by
  rcases hy with ⟨l, hl, hy⟩
  rcases hz with ⟨l', hl', hz⟩
  rw [hl] at hl'
  cases hl'
  rcases List.append_of_mem hy with ⟨front, back, rfl⟩
  have hz' : (b, z) ∈ front ++ back := by
    simpa [Ne.symm hab] using hz
  rcases List.append_of_mem hz' with ⟨front', back', heq⟩
  have hperm : (front' ++ back' ++ [(b, z), (a, y)]).Perm (front ++ (a, y) :: back) := by
    refine List.perm_append_comm.trans ((List.Perm.swap _ _ _).trans ?_)
    have hmiddle : ((b, z) :: (front' ++ back')).Perm (front ++ back) := by
      rw [heq]
      exact List.perm_middle.symm
    exact (List.Perm.cons _ hmiddle).trans List.perm_middle.symm
  refine ⟨_, ((front' ++ back').map f.child).reverse ++ stack,
    ⟨f, stack, _, _, hstack, hl, hperm, rfl⟩, ?_⟩
  simp

theorem opensTwice_of_joins (hwf : WellFounded (G.Down root)) {d : V}
    (h : G.Joins root d) : G.OpensTwice root d := by
  rcases h with ⟨x, hroot, a, y, b, z, hab, hxy, hxz, hyd, hzd, hclean⟩
  rcases exists_run (s := start root) rfl hroot with ⟨s1, hrun1, -, f, stack1, hstack1, rfl⟩
  rcases exists_next_pair hstack1 hab hxy hxz with ⟨s2, stack2, hnext2, hstack2⟩
  have hrooty : G.Reach root y := hroot.tail ⟨a, hxy⟩
  rcases exists_complete hwf hrooty hclean hstack2 rfl with
    ⟨s3, hrun3, hstack3, -, hall⟩
  rcases hall d hyd with ⟨g, hg, hgd⟩
  rcases exists_run hstack3 hzd with ⟨s4, hrun4, hbegin, k, stack4, hstack4, hkd⟩
  cases hl : G.edges d with
  | none =>
      exact absurd hl (hclean d hyd)
  | some l =>
      have hrun : G.Run (start root) s4 :=
        ((hrun1.tail hnext2).trans hrun3).trans hrun4
      have hlast : G.Next s4
          { stack := (l.map k.child).reverse ++ stack4, opened := s4.opened ++ [k] } :=
        ⟨k, stack4, l, l, hstack4, hkd ▸ hl, List.Perm.refl _, rfl⟩
      have hg4 := hbegin.subset hg
      refine ⟨_, hrun.tail hlast, g, k, List.mem_append_left _ hg4, by simp, ?_, hgd, hkd⟩
      rintro rfl
      have hnodup := (Traversed.run hrun).nodup
      rw [hstack4, List.map_append, List.nodup_append] at hnodup
      exact hnodup.right.right g.path (List.mem_map_of_mem hg4) g.path (by simp) rfl

theorem opensTwice_iff [Finite V] (h : G.Acyclic root) (d : V) :
    G.OpensTwice root d <-> G.Joins root d :=
  ⟨joins_of_opensTwice h, opensTwice_of_joins (wellFounded_down h)⟩

end ListedGraph

end Library
end OpenMk3
