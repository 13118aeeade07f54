import OpenMk3.Library.Attempts

/-!
# Starting and stopping the transports

`Start` and `Stop` of the two USB transports of the driver extension.  `Start`
is a sequence of framework calls, each of which can fail or succeed with a null
object; what the instance holds is tracked through every prefix of it.
-/

namespace OpenMk3
namespace Dext

open Library

/-- `kern_return_t` as its 32 bits. -/
abbrev KernReturn : Type := UInt32

def kIOReturnSuccess : KernReturn := 0

def kIOReturnNoDevice : KernReturn := 0xe00002c0

/-- What `Start` stores in the instance variables of either transport. -/
inductive Object where
  | hidInPipe
  | hidOutPipe
  | inBuf
  | inReadAction
  | outBuf (i : Nat)
  | outAction (i : Nat)
  | bulkOutPipe
  | slot (i : Nat)
  | bundledAction
deriving DecidableEq, Repr

/-- The calls of `Start` after the superclass, the failures of which end it. -/
inductive StartCall where
  | castProvider
  | openInterface
  | copyPipe (object : Object)
  | createIOBuffer (object : Object)
  | createAction (object : Object)
  | createMemoryDescriptorRing
  | setMemoryDescriptor (i : Nat)
  | asyncIo
deriving DecidableEq, Repr

/-- What a call returns, and whether the object it yields is non-null. -/
structure CallResult where
  ret : KernReturn
  object : Bool

structure Ivars where
  interface : Bool := false
  interfaceOpen : Bool := false
  held : List Object := []

inductive Transport where
  | hid
  | display
deriving DecidableEq, Repr

def hidOutRingDepth : Nat := 4

def displayRingDepth : Nat := 16

namespace Transport

/-- The calls in the order `Start` makes them. -/
def startCalls : Transport -> List StartCall
  | hid =>
      [.castProvider, .openInterface, .copyPipe .hidInPipe,
        .copyPipe .hidOutPipe, .createIOBuffer .inBuf,
        .createAction .inReadAction] ++
      (List.range hidOutRingDepth).flatMap
        (fun i => [.createIOBuffer (.outBuf i), .createAction (.outAction i)]) ++
      [.asyncIo]
  | display =>
      [.castProvider, .openInterface, .copyPipe .bulkOutPipe,
        .createMemoryDescriptorRing] ++
      (List.range displayRingDepth).flatMap
        (fun i => [.createIOBuffer (.slot i), .setMemoryDescriptor i]) ++
      [.createAction .bundledAction]

/-- The pointers that `Stop` releases, in its order. -/
def released : Transport -> List Object
  | hid =>
      [.inReadAction, .inBuf] ++
      (List.range hidOutRingDepth).flatMap (fun i => [.outAction i, .outBuf i]) ++
      [.hidInPipe, .hidOutPipe]
  | display =>
      .bundledAction :: (List.range displayRingDepth).map .slot ++
      [.bulkOutPipe]

end Transport

namespace Ivars

/-- Store the object, then leave on an error or a null pointer. -/
def store (s : Ivars) (object : Object) (result : CallResult) :
    Ivars × Option KernReturn :=
  ({ s with held := if result.object then s.held ++ [object] else s.held },
    if result.ret ≠ kIOReturnSuccess ∨ result.object = false then
      some result.ret
    else none)

def check (s : Ivars) (result : CallResult) : Ivars × Option KernReturn :=
  (s, if result.ret ≠ kIOReturnSuccess then some result.ret else none)

/-- One call of `Start`; an error is the value it returns with. -/
def call (results : StartCall -> CallResult) (s : Ivars) (c : StartCall) :
    Ivars × Option KernReturn :=
  match c with
  | .castProvider =>
      if (results c).object then ({ s with interface := true }, none)
      else (s, some kIOReturnNoDevice)
  | .openInterface =>
      if (results c).ret ≠ kIOReturnSuccess then (s, some (results c).ret)
      else ({ s with interfaceOpen := true }, none)
  | .copyPipe object => s.store object (results c)
  | .createIOBuffer object => s.store object (results c)
  | .createAction object => s.store object (results c)
  | .createMemoryDescriptorRing => s.check (results c)
  | .setMemoryDescriptor _ => s.check (results c)
  | .asyncIo => s.check (results c)

/-- `Stop(provider, SUPERDISPATCH)` runs the superclass only. -/
def superStop (s : Ivars) : Ivars := s

/-- The `Stop` of the transport itself. -/
def stop (t : Transport) (s : Ivars) : Ivars :=
  let s := { s with held := s.held.filter fun object => object ∉ t.released }
  let s :=
    if s.interface && s.interfaceOpen then { s with interfaceOpen := false }
    else s
  { s with interface := false }.superStop

end Ivars

/-- `Start` once the superclass has returned. -/
def start (t : Transport) (superReturn : KernReturn)
    (results : StartCall -> CallResult) : KernReturn × Ivars :=
  if superReturn ≠ kIOReturnSuccess then (superReturn, {})
  else
    match Attempts.perform (Ivars.call results) {} t.startCalls with
    | (s, some ret) => (ret, s.superStop)
    | (s, none) => (kIOReturnSuccess, s)

/-!
## All or nothing
-/

/-- A call that succeeded, with a non-null object where it yields one. -/
def Succeeded (results : StartCall -> CallResult) (c : StartCall) : Prop :=
  match c with
  | .castProvider => (results c).object = true
  | .copyPipe _ | .createIOBuffer _ | .createAction _ =>
      (results c).ret = kIOReturnSuccess ∧ (results c).object = true
  | .openInterface | .createMemoryDescriptorRing | .setMemoryDescriptor _
  | .asyncIo => (results c).ret = kIOReturnSuccess

def AllSucceeded (t : Transport) (results : StartCall -> CallResult) : Prop :=
  forall c, c ∈ t.startCalls -> Succeeded results c

/-- `Start` succeeds just when every call did, and otherwise returns holding
nothing. -/
def AllOrNothing (t : Transport) (results : StartCall -> CallResult) : Prop :=
  let (ret, s) := start t kIOReturnSuccess results
  (ret = kIOReturnSuccess <-> AllSucceeded t results) ∧
    (Not (AllSucceeded t results) -> s.interfaceOpen = false ∧ s.held = [])

namespace Ivars

variable {results : StartCall -> CallResult}

theorem store_snd (s : Ivars) (object : Object) (result : CallResult) :
    (s.store object result).2 = none <->
      result.ret = kIOReturnSuccess ∧ result.object = true := by
  simp only [store, ite_eq_right_iff, reduceCtorEq, imp_false, not_or, ne_eq,
    not_not, Bool.not_eq_false]

theorem check_snd (s : Ivars) (result : CallResult) :
    (s.check result).2 = none <-> result.ret = kIOReturnSuccess := by
  simp only [check, ite_eq_right_iff, reduceCtorEq, imp_false, ne_eq, not_not]

theorem call_snd (s : Ivars) (c : StartCall) :
    (s.call results c).2 = none <-> Succeeded results c := by
  cases c with
  | castProvider =>
      simp only [call, Succeeded]
      split <;> simp_all
  | openInterface =>
      simp only [call, Succeeded]
      split <;> simp_all
  | copyPipe object => exact store_snd s object _
  | createIOBuffer object => exact store_snd s object _
  | createAction object => exact store_snd s object _
  | createMemoryDescriptorRing => exact check_snd s _
  | setMemoryDescriptor i => exact check_snd s _
  | asyncIo => exact check_snd s _

/-- What a call returns does not depend on what is held. -/
theorem call_snd_eq (s : Ivars) (c : StartCall) :
    (s.call results c).2 = (call results {} c).2 := by
  cases c with
  | castProvider =>
      simp only [call]
      split <;> rfl
  | openInterface =>
      simp only [call]
      split <;> rfl
  | _ => rfl

theorem perform_snd (s : Ivars) (calls : List StartCall) :
    (Attempts.perform (call results) s calls).2 = none <->
      forall c, c ∈ calls -> Succeeded results c := by
  rw [Attempts.perform_error call_snd_eq, List.findSome?_eq_none_iff]
  exact forall_congr' fun c => imp_congr_right fun _ => call_snd {} c

/-- No call closes the interface. -/
theorem call_interfaceOpen {s : Ivars} (h : s.interfaceOpen = true)
    (c : StartCall) : (s.call results c).1.interfaceOpen = true := by
  cases c with
  | castProvider =>
      simp only [call]
      split <;> exact h
  | openInterface =>
      simp only [call]
      split
      · exact h
      · rfl
  | _ => exact h

/-- The object a call stores. -/
def object? : StartCall -> Option Object
  | .copyPipe object | .createIOBuffer object | .createAction object =>
      some object
  | _ => none

/-- What is held is among the given objects, and the provider was cast. -/
structure Within (objects : List Object) (s : Ivars) : Prop where
  held : forall object, object ∈ s.held -> object ∈ objects
  interface : s.interface = true

theorem Within.store {objects : List Object} {s : Ivars} (h : Within objects s)
    {object : Object} (hobject : object ∈ objects) (result : CallResult) :
    Within objects (s.store object result).1 where
  held := by
    intro other hother
    simp only [Ivars.store] at hother
    split at hother
    · rcases List.mem_append.mp hother with hheld | hnew
      · exact h.held other hheld
      · rw [List.mem_singleton.mp hnew]
        exact hobject
    · exact h.held other hother
  interface := h.interface

theorem Within.call {objects : List Object} {s : Ivars} (h : Within objects s)
    {c : StartCall}
    (hobject : forall object, object? c = some object -> object ∈ objects) :
    Within objects (s.call results c).1 := by
  cases c with
  | castProvider =>
      simp only [Ivars.call]
      split
      · exact ⟨h.held, rfl⟩
      · exact h
  | openInterface =>
      simp only [Ivars.call]
      split
      · exact h
      · exact ⟨h.held, h.interface⟩
  | copyPipe object => exact h.store (hobject object rfl) _
  | createIOBuffer object => exact h.store (hobject object rfl) _
  | createAction object => exact h.store (hobject object rfl) _
  | _ => exact h

/-- The transport's own `Stop` gives back everything within its pointers. -/
theorem Within.stop {t : Transport} {s : Ivars} (h : Within t.released s) :
    (s.stop t).interfaceOpen = false ∧ (s.stop t).held = [] := by
  have hheld : s.held.filter (fun object => object ∉ t.released) = [] := by
    rw [List.filter_eq_nil_iff]
    intro object hobject
    simp [h.held object hobject]
  simp only [Ivars.stop, superStop, h.interface, hheld, Bool.true_and]
  split
  · exact ⟨rfl, rfl⟩
  · next hclosed => exact ⟨Bool.eq_false_iff.mpr hclosed, rfl⟩

end Ivars

theorem startCalls_eq (t : Transport) : exists rest,
    t.startCalls = .castProvider :: .openInterface :: rest := by
  cases t with
  | hid => exact ⟨_, rfl⟩
  | display => exact ⟨_, rfl⟩

/-- `Stop` releases every pointer that `Start` stores. -/
theorem released_of_startCalls (t : Transport) :
    forall c, c ∈ t.startCalls ->
      forall object, object ∈ Ivars.object? c -> object ∈ t.released := by
  cases t with
  | hid => decide
  | display => decide

section Start

variable (t : Transport) (results : StartCall -> CallResult)

theorem start_eq :
    start t kIOReturnSuccess results =
      ((Attempts.perform (Ivars.call results) {} t.startCalls).2.getD
          kIOReturnSuccess,
        (Attempts.perform (Ivars.call results) {} t.startCalls).1) := by
  rw [start, if_neg (not_not.mpr rfl)]
  rcases Attempts.perform (Ivars.call results) {} t.startCalls with ⟨s, _ | ret⟩
  · rfl
  · rfl

/-- However far `Start` got, the transport's own `Stop` would have undone it. -/
theorem stop_start :
    let (_, s) := start t kIOReturnSuccess results
    (s.stop t).interfaceOpen = false ∧ (s.stop t).held = [] := by
  rcases startCalls_eq t with ⟨rest, hcalls⟩
  have hstop : forall s : Ivars, s = {} ∨ Ivars.Within t.released s ->
      (s.stop t).interfaceOpen = false ∧ (s.stop t).held = [] := by
    intro s hs
    rcases hs with rfl | hs
    · exact ⟨rfl, rfl⟩
    · exact hs.stop
  have hend : let s := (Attempts.perform (Ivars.call results) {}
      t.startCalls).1; s = {} ∨ Ivars.Within t.released s := by
    have hreleased := released_of_startCalls t
    rw [hcalls] at hreleased ⊢
    cases hcast : (results .castProvider).object with
    | false =>
        rw [Attempts.perform_cons_of_some (by rw [Ivars.call, hcast]; rfl)]
        exact Or.inl rfl
    | true =>
        rw [Attempts.perform_cons_of_none (by rw [Ivars.call, hcast]; rfl)]
        refine Or.inr (Attempts.perform_invariant ?_ ⟨nofun, rfl⟩)
        intro s c hc hs
        exact hs.call (hreleased c (List.mem_cons_of_mem _ hc))
  rw [start_eq]
  exact hstop _ hend

/-- `Start` is all or nothing just when every call succeeds, or the first to
fail is the cast of the provider or `Open`; after `Open` no error exit gives
anything back. -/
theorem start_allOrNothing_iff :
    AllOrNothing t results <->
      AllSucceeded t results ∨ Not (Succeeded results .castProvider) ∨
        Not (Succeeded results .openInterface) := by
  rcases startCalls_eq t with ⟨rest, hcalls⟩
  rw [AllOrNothing, start_eq]
  by_cases hsucceeded : AllSucceeded t results
  · have hnone := (Ivars.perform_snd {} t.startCalls).mpr hsucceeded
    rw [hnone]
    exact iff_of_true
      ⟨iff_of_true rfl hsucceeded, fun hnot => absurd hsucceeded hnot⟩
      (Or.inl hsucceeded)
  · rw [or_iff_right hsucceeded, hcalls]
    cases hcast : (results .castProvider).object with
    | false =>
        have hfailed : Not (Succeeded results .castProvider) := by
          rw [Succeeded, hcast]
          exact Bool.false_ne_true
        rw [Attempts.perform_cons_of_some (by rw [Ivars.call, hcast]; rfl)]
        exact iff_of_true
          ⟨iff_of_false (by decide) hsucceeded, fun _ => ⟨rfl, rfl⟩⟩
          (Or.inl hfailed)
    | true =>
        rw [Attempts.perform_cons_of_none (by rw [Ivars.call, hcast]; rfl)]
        by_cases hopen : (results .openInterface).ret = kIOReturnSuccess
        · have hheld : Not (Not (Succeeded results .castProvider) ∨
              Not (Succeeded results .openInterface)) :=
            fun h => h.elim (fun hnot => hnot hcast) fun hnot => hnot hopen
          rw [Attempts.perform_cons_of_none
            (by rw [Ivars.call, if_neg (not_not.mpr hopen)])]
          have hleft := @Attempts.perform_invariant _ _ _ (Ivars.call results)
            (fun s => s.interfaceOpen = true) rest
            (fun s c _ hs => Ivars.call_interfaceOpen hs c)
            { interface := true, interfaceOpen := true } rfl
          refine iff_of_false ?_ hheld
          intro hnothing
          have hclosed := (hnothing.right hsucceeded).left
          rw [hleft] at hclosed
          cases hclosed
        · rw [Attempts.perform_cons_of_some
            (by rw [Ivars.call, if_pos hopen])]
          exact iff_of_true
            ⟨iff_of_false hopen hsucceeded, fun _ => ⟨rfl, rfl⟩⟩
            (Or.inr hopen)

/-- The first pipe of the HID transport cannot be copied. -/
private def lostPipe : StartCall -> CallResult
  | .copyPipe .hidInPipe => { ret := 0xe00002bc, object := false }
  | _ => { ret := kIOReturnSuccess, object := true }

theorem lostPipe_not_allOrNothing :
    Not (forall t results, AllOrNothing t results) := by
  intro h
  have hnothing := (h .hid lostPipe).right
  have hfailed : Not (AllSucceeded .hid lostPipe) := by
    intro hall
    have hpipe := (hall (.copyPipe .hidInPipe) (by decide)).left
    exact absurd hpipe (by decide)
  exact absurd (hnothing hfailed).left (by decide)

end Start

end Dext
end OpenMk3
