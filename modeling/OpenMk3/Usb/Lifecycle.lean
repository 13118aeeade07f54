import OpenMk3.Usb.Transfer

/-!
# Lifecycle of a transfer

At every moment the request is with one party at most.  From this, over every
interleaving, the box is freed once and by the last party that knows it, the
platform data is never shared, and the completions a poll returns are those the
kernel reported, in order.
-/

namespace OpenMk3
namespace Usb

open Library

namespace Transfer

/-- Nobody waits for a completion, or somebody will deliver it, unless the transfer
is stranded. -/
def Settled (s : Transfer) : TransferState -> Prop
  | .idle | .completed => s.busy = false ∧ s.stranded = false
  | .pending => s.busy = !s.stranded
  | .abandoned => False

/-- The state byte that goes with what the owner does. -/
def OwnerOk (s : Transfer) (state : TransferState) : Owner -> Prop
  | .ready | .polling | .abandoning | .unwinding => s.Settled state
  | .cancelling => s.Settled state ∧ state ≠ .idle
  | .submitting _ | .filled _ | .notifying .cloneWaker
  | .notifying .swapState => state = .pending ∧ s.busy = false
  | .notifying .wake | .storing => state = .completed ∧ s.busy = false
  | .notifying .dropBox => False
  | .taking => state = .idle ∧ s.busy = false
  | .freeing => state = .abandoned ∧ s.busy = false ∧ s.stranded = false
  | .gone =>
      (s.handler ≠ some (.notifying .dropBox) ∧ state = .abandoned ∧
        s.busy = !s.stranded) ∨
      (s.handler = some (.notifying .dropBox) ∧ state = .completed ∧
        s.busy = false ∧ s.stranded = false)

/-- The request is with one party, and the box outlives those that use it. -/
structure Sound (s : Transfer) : Prop where
  fault : s.fault = false
  panic : forall p, s.panic = some p -> p.ofCall = true
  calm : s.owner.serving = true -> s.panic = none
  single : s.kernel.isSome = true -> s.handler.any Handler.holds = false
  dropBox : s.handler = some (.notifying .dropBox) ->
    s.owner = .gone ∧ s.inner.isSome = true
  freed : s.inner = none -> s.owner = .gone ∧ s.busy = false ∧ s.stranded = false
  alive : forall inner, s.inner = some inner -> s.OwnerOk inner.state s.owner

theorem sound_new : new.Sound where
  fault := rfl
  panic := nofun
  calm _ := rfl
  single := nofun
  dropBox := nofun
  freed := nofun
  alive inner hinner := by
    cases hinner
    exact ⟨rfl, rfl⟩

section Steps

variable {s : Transfer} {inner : TransferInner}

theorem touch_of_some {f : TransferInner -> Transfer} (h : s.inner = some inner) :
    s.touch f = f inner := by
  unfold touch
  rw [h]

/-- The handle keeps the box. -/
theorem Sound.exists_inner (h : s.Sound) {owner : Owner}
    (howner : s.owner = owner) (hne : owner ≠ .gone) :
    s.owner ≠ .gone ∧
      exists inner, s.inner = some inner ∧ s.OwnerOk inner.state owner := by
  cases howner
  cases hinner : s.inner with
  | none => exact absurd (h.freed hinner).left hne
  | some inner => exact ⟨hne, inner, rfl, h.alive inner hinner⟩

theorem Sound.exists_inner_of_drop (h : s.Sound)
    (howner : s.owner = .ready ∨ s.owner = .unwinding) :
    s.owner ≠ .gone ∧
      exists inner, s.inner = some inner ∧ s.Settled inner.state := by
  rcases howner with hready | hunwinding
  · exact h.exists_inner hready nofun
  · exact h.exists_inner hunwinding nofun

theorem Sound.not_dropBox (h : s.Sound) (howner : s.owner ≠ .gone) :
    s.handler ≠ some (.notifying .dropBox) := fun hdrop =>
  howner (h.dropBox hdrop).left

theorem exclusive_of_some {f : TransferInner -> Transfer}
    (h : s.inner = some inner) (hbusy : s.busy = false) :
    s.exclusive f = f inner := by
  unfold exclusive
  rw [touch_of_some h, hbusy, Bool.or_false]

theorem stranded_eq_false (h : s.panic = none) : s.stranded = false := by
  unfold stranded
  rw [h]
  rfl

theorem Sound.not_stranded (h : s.Sound) {owner : Owner} (howner : s.owner = owner)
    (hserving : owner.serving = true) : s.stranded = false :=
  stranded_eq_false (h.calm (howner ▸ hserving))

/-- A step of the owner that leaves the box alive. -/
theorem Sound.owner_step (h : s.Sound) {s' : Transfer} {inner' : TransferInner}
    (howner : s.owner ≠ .gone) (hinner : s'.inner = some inner')
    (hkernel : s'.kernel = s.kernel) (hhandler : s'.handler = s.handler)
    (hfault : s'.fault = s.fault)
    (hpanic : forall p, s'.panic = some p -> s.panic = some p ∨ p.ofCall = true)
    (hcalm : s'.owner.serving = true -> s'.panic = none)
    (hok : s'.OwnerOk inner'.state s'.owner) : s'.Sound where
  fault := hfault.trans h.fault
  panic p hp := (hpanic p hp).elim (h.panic p) id
  calm := hcalm
  single := by
    rw [hkernel, hhandler]
    exact h.single
  dropBox hdrop := absurd (hhandler ▸ hdrop) (h.not_dropBox howner)
  freed hnone := by
    rw [hinner] at hnone
    cases hnone
  alive inner hsome := by
    rw [hinner] at hsome
    cases hsome
    exact hok

/-- A step in the middle of a call, or the first of one. -/
theorem Sound.serving_step (h : s.Sound) {s' : Transfer} {inner' : TransferInner}
    {owner : Owner} (howner : s.owner = owner) (hserving : owner.serving = true)
    (hinner : s'.inner = some inner')
    (hsame : s'.kernel = s.kernel ∧ s'.handler = s.handler ∧ s'.fault = s.fault ∧
      s'.panic = s.panic)
    (hok : s'.OwnerOk inner'.state s'.owner) : s'.Sound := by
  rcases hsame with ⟨hkernel, hhandler, hfault, hpanic⟩
  have hcalm : s'.panic = none := hpanic.trans (h.calm (howner ▸ hserving))
  refine h.owner_step ?_ hinner hkernel hhandler hfault ?_ (fun _ => hcalm) hok
  · rintro hgone
    rw [← howner, hgone] at hserving
    cases hserving
  · intro p hp
    rw [hcalm] at hp
    cases hp

/-- A panic of a call. -/
theorem Sound.panic_step (h : s.Sound) {s' : Transfer} {inner' : TransferInner}
    (howner : s.owner ≠ .gone) (hinner : s'.inner = some inner')
    (hsame : s'.kernel = s.kernel ∧ s'.handler = s.handler ∧ s'.fault = s.fault)
    (howner' : s'.owner = .unwinding) {p : Panic} (hpanic : s'.panic = some p)
    (hp : p.ofCall = true) (hok : s'.Settled inner'.state) : s'.Sound := by
  rcases hsame with ⟨hkernel, hhandler, hfault⟩
  refine h.owner_step howner hinner hkernel hhandler hfault ?_ ?_ (howner' ▸ hok)
  · intro q hq
    cases hpanic.symm.trans hq
    exact .inr hp
  · intro hserving
    rw [howner'] at hserving
    cases hserving

theorem Sound.submit (h : s.Sound) (howner : s.owner = .ready)
    (data : RequestBuffer) : (s.submit data).Sound := by
  rcases h.exists_inner howner nofun with ⟨hne, inner, hinner, hok⟩
  have hcalm := h.not_stranded howner rfl
  unfold Transfer.submit
  rw [touch_of_some hinner]
  split
  · next hidle =>
      rw [hidle] at hok
      exact h.serving_step howner rfl rfl ⟨rfl, rfl, rfl, rfl⟩ ⟨rfl, hok.left⟩
  · next hother =>
      refine h.panic_step hne rfl ⟨rfl, rfl, rfl⟩ rfl rfl (decide_eq_true hother) ?_
      cases hstate : inner.state <;> rw [hstate] at hok
      case idle => exact absurd hstate hother
      case pending => exact hok.trans (congrArg (! ·) hcalm)
      case abandoned => exact hok.elim
      case completed => exact hok.left

/-- Within a submit the owner is alone with the platform data. -/
theorem Sound.rewrite (h : s.Sound)
    (howner : (exists data, s.owner = .submitting data) ∨
      exists len, s.owner = .filled len) (owner : Owner)
    (hnext : forall s' : Transfer, s'.busy = false -> s'.OwnerOk .pending owner)
    (data : TransferInner -> TransferData) (overwritten : TransferInner -> Bool)
    (reported : List Completion) :
    (s.exclusive fun inner =>
      { s.setData inner (data inner) with
        owner := owner
        overwritten := overwritten inner
        reported := reported }).Sound := by
  have hbefore : s.owner.serving = true ∧ exists inner, s.inner = some inner ∧
      inner.state = .pending ∧ s.busy = false := by
    rcases howner with ⟨data, howner⟩ | ⟨len, howner⟩
    · exact ⟨howner ▸ rfl, (h.exists_inner howner nofun).right⟩
    · exact ⟨howner ▸ rfl, (h.exists_inner howner nofun).right⟩
  rcases hbefore with ⟨hserves, inner, hinner, hstate, hbusy⟩
  rw [exclusive_of_some hinner hbusy]
  refine h.serving_step rfl hserves rfl ⟨rfl, rfl, rfl, rfl⟩ ?_
  show OwnerOk _ inner.state owner
  rw [hstate]
  exact hnext _ hbusy

theorem Sound.fill (h : s.Sound) {data : RequestBuffer}
    (howner : s.owner = .submitting data) : (s.fill data).Sound :=
  h.rewrite (.inl ⟨data, howner⟩) (.filled data.requested)
    (fun _ hbusy => ⟨rfl, hbusy⟩) _ _ _

theorem Sound.refuse (h : s.Sound) {len : Nat} (howner : s.owner = .filled len)
    (res : IOReturn) : (s.refuse res).Sound :=
  h.rewrite (.inr ⟨len, howner⟩) (.notifying .cloneWaker)
    (fun _ hbusy => ⟨rfl, hbusy⟩) _ (fun _ => s.overwritten) _

theorem Sound.rejectLength (h : s.Sound) {len : Nat}
    (howner : s.owner = .filled len) : s.rejectLength.Sound := by
  rcases h.exists_inner howner nofun with ⟨hne, inner, hinner, hstate, hbusy⟩
  refine h.panic_step hne hinner ⟨rfl, rfl, rfl⟩ rfl rfl rfl ?_
  rw [hstate]
  exact hbusy

theorem Sound.accept (h : s.Sound) {len : Nat}
    (howner : s.owner = .filled len) : (s.accept len).Sound := by
  rcases h.exists_inner howner nofun with ⟨hne, inner, hinner, hok⟩
  rcases hok with ⟨hstate, hbusy⟩
  have hquiet := (Bool.or_eq_false_iff.mp hbusy).right
  have hcalm := h.not_stranded howner rfl
  exact
    { fault := h.fault
      panic := h.panic
      calm := fun _ => h.calm (howner ▸ rfl)
      single := fun _ => hquiet
      dropBox := fun hdrop => absurd hdrop (h.not_dropBox hne)
      freed := fun hnone => by
        rw [show (s.accept len).inner = s.inner from rfl, hinner] at hnone
        cases hnone
      alive := fun inner' hsome => by
        rw [show (s.accept len).inner = s.inner from rfl, hinner] at hsome
        cases hsome
        rw [hstate]
        exact (congrArg (! ·) hcalm).symm }

theorem Sound.ownerNotify (h : s.Sound) {n : Notify}
    (howner : s.owner = .notifying n) : (s.ownerNotify n).Sound := by
  rcases h.exists_inner howner nofun with ⟨-, inner, hinner, hok⟩
  unfold Transfer.ownerNotify notify
  cases n with
  | cloneWaker =>
      simp only [touch_of_some hinner]
      exact h.serving_step howner rfl hinner ⟨rfl, rfl, rfl, rfl⟩ hok
  | swapState =>
      simp only [hinner, hok.left]
      exact h.serving_step howner rfl rfl ⟨rfl, rfl, rfl, rfl⟩ ⟨rfl, hok.right⟩
  | wake =>
      refine h.serving_step howner rfl hinner ⟨rfl, rfl, rfl, rfl⟩ ?_
      rw [hok.left]
      exact ⟨hok.right, h.not_stranded howner rfl⟩
  | dropBox => exact hok.elim

theorem Sound.poll (h : s.Sound) (howner : s.owner = .ready) : s.poll.Sound := by
  rcases h.exists_inner howner nofun with ⟨-, inner, hinner, hok⟩
  unfold Transfer.poll
  rw [touch_of_some hinner]
  exact h.serving_step howner rfl hinner ⟨rfl, rfl, rfl, rfl⟩ hok

theorem Sound.load (h : s.Sound) (howner : s.owner = .polling) :
    s.load.Sound := by
  rcases h.exists_inner howner nofun with ⟨hne, inner, hinner, hok⟩
  unfold Transfer.load
  rw [touch_of_some hinner]
  cases hstate : inner.state <;> rw [hstate] at hok
  case idle =>
    refine h.panic_step hne hinner ⟨rfl, rfl, rfl⟩ rfl rfl rfl ?_
    rw [hstate]
    exact ⟨hok.left, rfl⟩
  case pending =>
    refine h.serving_step howner rfl hinner ⟨rfl, rfl, rfl, rfl⟩ ?_
    rw [hstate]
    exact hok
  case abandoned => exact hok.elim
  case completed =>
    refine h.serving_step howner rfl hinner ⟨rfl, rfl, rfl, rfl⟩ ?_
    rw [hstate]
    exact ⟨rfl, hok.left⟩

theorem Sound.store (h : s.Sound) (howner : s.owner = .storing) :
    s.store.Sound := by
  rcases h.exists_inner howner nofun with ⟨-, inner, hinner, hok⟩
  unfold Transfer.store
  rw [touch_of_some hinner]
  exact h.serving_step howner rfl rfl ⟨rfl, rfl, rfl, rfl⟩ ⟨rfl, hok.right⟩

theorem Sound.cancel (h : s.Sound) (howner : s.owner = .ready) :
    s.cancel.Sound := by
  rcases h.exists_inner howner nofun with ⟨-, inner, hinner, -⟩
  unfold Transfer.cancel
  rw [touch_of_some hinner]
  exact h

/-- A step of the drop. -/
theorem Sound.drop_step (h : s.Sound) {s' : Transfer} {inner' : TransferInner}
    (howner : s.owner ≠ .gone) (hinner : s'.inner = some inner')
    (hsame : s'.kernel = s.kernel ∧ s'.handler = s.handler ∧ s'.fault = s.fault ∧
      s'.panic = s.panic) (hserving : s'.owner.serving = false)
    (hok : s'.OwnerOk inner'.state s'.owner) : s'.Sound := by
  rcases hsame with ⟨hkernel, hhandler, hfault, hpanic⟩
  refine h.owner_step howner hinner hkernel hhandler hfault ?_ ?_ hok
  · intro p hp
    exact .inl (hpanic ▸ hp)
  · intro hserves
    rw [hserves] at hserving
    cases hserving

theorem Sound.drop (h : s.Sound)
    (howner : s.owner = .ready ∨ s.owner = .unwinding) : s.drop.Sound := by
  rcases h.exists_inner_of_drop howner with ⟨hne, inner, hinner, hsettled⟩
  unfold Transfer.drop
  rw [touch_of_some hinner]
  by_cases hpending : inner.state = .pending
  · simp only [hpending, if_true]
    refine h.drop_step hne hinner ⟨rfl, rfl, rfl, rfl⟩ rfl ?_
    rw [hpending] at hsettled ⊢
    exact ⟨hsettled, nofun⟩
  · simp only [hpending, if_false]
    exact h.drop_step hne hinner ⟨rfl, rfl, rfl, rfl⟩ rfl hsettled

theorem Sound.cancelDropped (h : s.Sound) (howner : s.owner = .cancelling) :
    s.cancelDropped.Sound := by
  rcases h.exists_inner howner nofun with ⟨hne, inner, hinner, hok⟩
  unfold Transfer.cancelDropped
  rw [touch_of_some hinner]
  exact h.drop_step hne hinner ⟨rfl, rfl, rfl, rfl⟩ rfl hok.left

theorem Sound.abandon (h : s.Sound) (howner : s.owner = .abandoning) :
    s.abandon.Sound := by
  rcases h.exists_inner howner nofun with ⟨hne, inner, hinner, hok⟩
  unfold Transfer.abandon
  rw [touch_of_some hinner]
  cases hstate : inner.state <;> rw [hstate] at hok
  case pending =>
    exact h.drop_step hne rfl ⟨rfl, rfl, rfl, rfl⟩ rfl
      (.inl ⟨h.not_dropBox hne, rfl, hok⟩)
  case abandoned => exact hok.elim
  all_goals exact h.drop_step hne rfl ⟨rfl, rfl, rfl, rfl⟩ rfl ⟨rfl, hok⟩

theorem Sound.free (h : s.Sound) (howner : s.owner = .freeing) :
    s.free.Sound := by
  rcases h.exists_inner howner nofun with ⟨hne, inner, hinner, hok⟩
  unfold Transfer.free freeBox
  rw [touch_of_some hinner]
  exact
    { fault := h.fault
      panic := h.panic
      calm := nofun
      single := h.single
      dropBox := fun hdrop => absurd hdrop (h.not_dropBox hne)
      freed := fun _ => ⟨rfl, hok.right⟩
      alive := nofun }

/-- Once the buffer is in place, the completion leaves the transfer idle. -/
theorem Sound.takeCompleted (h : s.Sound) (howner : s.owner = .taking)
    (hbuf : forall inner, s.inner = some inner -> exists memory,
      inner.platformData.buf = some memory ∧
        inner.platformData.actualLen ≤ memory.length) :
    s.takeCompleted.Sound := by
  rcases h.exists_inner howner nofun with ⟨-, inner, hinner, hok⟩
  rcases hbuf inner hinner with ⟨memory, hmemory, hlen⟩
  unfold Transfer.takeCompleted
  rw [exclusive_of_some hinner hok.right]
  simp only [hmemory, hlen, if_true]
  refine h.serving_step howner rfl rfl ⟨rfl, rfl, rfl, rfl⟩ ?_
  show s.Settled inner.state
  rw [hok.left]
  exact ⟨hok.right, h.not_stranded howner rfl⟩

/-!
## Steps of the kernel and of the callback
-/

theorem Settled.congr {s' : Transfer} {state : TransferState}
    (hbusy : s'.busy = s.busy) (hstranded : s'.stranded = s.stranded)
    (h : s.Settled state) : s'.Settled state := by
  cases state with
  | pending => exact hbusy.trans (h.trans (congrArg (! ·) hstranded.symm))
  | abandoned => exact h
  | idle => exact ⟨hbusy.trans h.left, hstranded.trans h.right⟩
  | completed => exact ⟨hbusy.trans h.left, hstranded.trans h.right⟩

theorem OwnerOk.congr {s' : Transfer} {state : TransferState} {owner : Owner}
    (hbusy : s'.busy = s.busy) (hstranded : s'.stranded = s.stranded)
    (hbefore : s.handler ≠ some (.notifying .dropBox))
    (hafter : s'.handler ≠ some (.notifying .dropBox))
    (h : s.OwnerOk state owner) : s'.OwnerOk state owner := by
  cases owner with
  | gone =>
      rcases h with ⟨-, hstate, hlive⟩ | ⟨hdrop, -⟩
      · exact .inl ⟨hafter, hstate,
          hbusy.trans (hlive.trans (congrArg (! ·) hstranded.symm))⟩
      · exact absurd hdrop hbefore
  | notifying n =>
      cases n with
      | dropBox => exact h
      | _ => exact ⟨h.left, hbusy.trans h.right⟩
  | cancelling => exact ⟨h.left.congr hbusy hstranded, h.right⟩
  | submitting data => exact ⟨h.left, hbusy.trans h.right⟩
  | filled len => exact ⟨h.left, hbusy.trans h.right⟩
  | storing => exact ⟨h.left, hbusy.trans h.right⟩
  | taking => exact ⟨h.left, hbusy.trans h.right⟩
  | freeing => exact ⟨h.left, hbusy.trans h.right.left, hstranded.trans h.right.right⟩
  | ready => exact Settled.congr hbusy hstranded h
  | polling => exact Settled.congr hbusy hstranded h
  | abandoning => exact Settled.congr hbusy hstranded h
  | unwinding => exact Settled.congr hbusy hstranded h

/-- A step of the kernel or the callback that leaves the state byte. -/
theorem Sound.handler_step (h : s.Sound) {s' : Transfer}
    {inner' : TransferInner}
    (hbefore : s.handler ≠ some (.notifying .dropBox))
    (hafter : s'.handler ≠ some (.notifying .dropBox))
    (hinner : s.inner = some inner) (hinner' : s'.inner = some inner')
    (hstate : inner'.state = inner.state) (howner : s'.owner = s.owner)
    (hbusy : s'.busy = s.busy) (hfault : s'.fault = s.fault)
    (hpanic : s'.panic = s.panic)
    (hsingle : s'.kernel.isSome = true -> s'.handler.any Handler.holds = false) :
    s'.Sound where
  fault := hfault.trans h.fault
  panic := hpanic ▸ h.panic
  calm := by
    rw [hpanic, howner]
    exact h.calm
  single := hsingle
  dropBox hdrop := absurd hdrop hafter
  freed hnone := by
    rw [hinner'] at hnone
    cases hnone
  alive inner'' hsome := by
    have hstranded : s'.stranded = s.stranded := congrArg (Option.any _) hpanic
    rw [hinner'] at hsome
    cases hsome
    rw [hstate, howner]
    exact (h.alive inner hinner).congr hbusy hstranded hbefore hafter

theorem busy_of_kernel {len : Nat} (hkernel : s.kernel = some len) :
    s.busy = true := by
  unfold busy
  rw [hkernel]
  rfl

theorem kernel_of_not_busy (hbusy : s.busy = false) : s.kernel = none := by
  have hkernel := (Bool.or_eq_false_iff.mp hbusy).left
  exact Option.isNone_iff_eq_none.mp (Option.isSome_eq_false_iff.mp hkernel)

/-- The box of a request that is under way is alive. -/
theorem Sound.exists_inner_of_busy (h : s.Sound) (hbusy : s.busy = true) :
    exists inner, s.inner = some inner := by
  cases hinner : s.inner with
  | none =>
      rw [(h.freed hinner).right.left] at hbusy
      cases hbusy
  | some inner => exact ⟨inner, rfl⟩

/-- A callback that has not handed the transfer back is alone with it. -/
theorem Sound.of_holds (h : s.Sound) {c : Handler} (hhandler : s.handler = some c)
    (hc : c.holds = true) :
    s.kernel.isSome = false ∧ s.busy = true ∧
      exists inner, s.inner = some inner := by
  have hholds : s.handler.any Handler.holds = true := by
    rw [hhandler]
    exact hc
  have hbusy : s.busy = true := by
    unfold busy
    rw [hholds, Bool.or_true]
  refine ⟨?_, hbusy, h.exists_inner_of_busy hbusy⟩
  rw [← Bool.not_eq_true]
  intro hsome
  rw [h.single hsome] at hholds
  cases hholds

theorem Sound.complete (h : s.Sound) {len : Nat} (hkernel : s.kernel = some len)
    (hhandler : s.handler = none) (result : IOReturn) (bytes : List UInt8) :
    (s.complete result bytes).Sound := by
  have hbusy := busy_of_kernel hkernel
  rcases h.exists_inner_of_busy hbusy with ⟨inner, hinner⟩
  unfold Transfer.complete
  rw [touch_of_some hinner]
  exact h.handler_step (hhandler ▸ nofun) nofun hinner rfl rfl rfl hbusy.symm rfl
    rfl nofun

theorem Sound.writeResult (h : s.Sound) {result : IOReturn} {len : Nat}
    (hhandler : s.handler = some (.called result len)) :
    (s.writeResult result len).Sound := by
  rcases h.of_holds hhandler rfl with ⟨hkernel, hbusy, inner, hinner⟩
  unfold Transfer.writeResult
  rw [touch_of_some hinner]
  refine h.handler_step (hhandler ▸ nofun) nofun hinner rfl rfl rfl ?_ rfl rfl ?_
  · rw [hbusy]
    exact Bool.or_true _
  · intro hsome
    rw [show s.kernel.isSome = true from hsome] at hkernel
    cases hkernel

/-- While somebody else has the transfer it is not stranded, and the state byte is
pending, or abandoned by an owner that is gone. -/
theorem OwnerOk.of_busy {state : TransferState} {owner : Owner}
    (hbusy : s.busy = true) (h : s.OwnerOk state owner) :
    s.stranded = false ∧
      ((state = .pending ∧ forall s' : Transfer, s'.busy = false ->
          s'.stranded = false -> s'.OwnerOk .completed owner) ∨
        (state = .abandoned ∧ owner = .gone)) := by
  have hquiet : s.busy = false -> False := fun hs =>
    absurd (hbusy.symm.trans hs) nofun
  have hlive : s.busy = (!s.stranded) -> s.stranded = false := fun hs =>
    (Bool.not_eq_true' _).mp (hs.symm.trans hbusy)
  have hsettled : s.Settled state -> s.stranded = false ∧ state = .pending := by
    intro hs
    cases state with
    | pending => exact ⟨hlive hs, rfl⟩
    | abandoned => exact hs.elim
    | idle => exact (hquiet hs.left).elim
    | completed => exact (hquiet hs.left).elim
  cases owner with
  | ready =>
      exact ⟨(hsettled h).left, .inl ⟨(hsettled h).right, fun _ => And.intro⟩⟩
  | polling =>
      exact ⟨(hsettled h).left, .inl ⟨(hsettled h).right, fun _ => And.intro⟩⟩
  | abandoning =>
      exact ⟨(hsettled h).left, .inl ⟨(hsettled h).right, fun _ => And.intro⟩⟩
  | unwinding =>
      exact ⟨(hsettled h).left, .inl ⟨(hsettled h).right, fun _ => And.intro⟩⟩
  | cancelling =>
      rcases hsettled h.left with ⟨hcalm, hstate⟩
      exact ⟨hcalm, .inl ⟨hstate, fun _ hs hcalm' => ⟨⟨hs, hcalm'⟩, nofun⟩⟩⟩
  | gone =>
      rcases h with ⟨-, hstate, hs⟩ | ⟨-, -, hs, -⟩
      · exact ⟨hlive hs, .inr ⟨hstate, rfl⟩⟩
      · exact (hquiet hs).elim
  | notifying n =>
      cases n with
      | dropBox => exact h.elim
      | _ => exact (hquiet h.right).elim
  | submitting data => exact (hquiet h.right).elim
  | filled len => exact (hquiet h.right).elim
  | storing => exact (hquiet h.right).elim
  | taking => exact (hquiet h.right).elim
  | freeing => exact (hquiet h.right.left).elim

theorem Sound.cloneWaker (h : s.Sound)
    (hhandler : s.handler = some (.notifying .cloneWaker)) :
    (s.handlerNotify .cloneWaker).Sound := by
  rcases h.of_holds hhandler rfl with ⟨hkernel, hbusy, inner, hinner⟩
  unfold Transfer.handlerNotify notify
  simp only [touch_of_some hinner]
  refine h.handler_step (hhandler ▸ nofun) nofun hinner hinner rfl rfl ?_ rfl rfl ?_
  · rw [hbusy]
    exact Bool.or_true _
  · intro hsome
    exact absurd (hkernel.symm.trans hsome) nofun

/-- The swap hands the transfer to the owner, or frees it for an owner that is
gone. -/
theorem Sound.swapState (h : s.Sound)
    (hhandler : s.handler = some (.notifying .swapState)) :
    (s.handlerNotify .swapState).Sound := by
  rcases h.of_holds hhandler rfl with ⟨hkernel, hbusy, inner, hinner⟩
  have hquiet : forall (s' : Transfer) (n : Notify), n = .wake ∨ n = .dropBox ->
      s'.kernel = s.kernel -> s'.handler = some (.notifying n) ->
        s'.busy = false := by
    intro s' n hn hk hc
    rw [busy, hk, hc, hkernel]
    rcases hn with hwake | hdrop
    · rw [hwake]
      rfl
    · rw [hdrop]
      rfl
  unfold Transfer.handlerNotify notify
  rcases (h.alive inner hinner).of_busy hbusy with
    ⟨hcalm, ⟨hstate, hok⟩ | ⟨hstate, hgone⟩⟩
  · simp only [hinner, hstate]
    exact
      { fault := h.fault
        panic := h.panic
        calm := h.calm
        single := fun _ => rfl
        dropBox := nofun
        freed := nofun
        alive := fun inner' hsome => by
          cases hsome
          exact hok _ (hquiet _ .wake (.inl rfl) rfl rfl) hcalm }
  · simp only [hinner, hstate]
    exact
      { fault := h.fault
        panic := h.panic
        calm := h.calm
        single := fun _ => rfl
        dropBox := fun _ => ⟨hgone, rfl⟩
        freed := nofun
        alive := fun inner' hsome => by
          cases hsome
          show OwnerOk _ _ s.owner
          rw [hgone]
          exact .inr ⟨rfl, rfl, hquiet _ .dropBox (.inr rfl) rfl rfl, hcalm⟩ }

theorem Sound.wake (h : s.Sound)
    (hhandler : s.handler = some (.notifying .wake)) :
    (s.handlerNotify .wake).Sound := by
  have hbusy : (s.handlerNotify .wake).busy = s.busy := by
    rw [busy, busy, hhandler]
    rfl
  exact
    { fault := h.fault
      panic := h.panic
      calm := h.calm
      single := fun _ => rfl
      dropBox := nofun
      freed := fun hnone => by
        rcases h.freed hnone with ⟨hgone, hquiet, hcalm⟩
        exact ⟨hgone, hbusy.trans hquiet, hcalm⟩
      alive := fun inner hsome =>
        (h.alive inner hsome).congr hbusy rfl (hhandler ▸ nofun) nofun }

/-- The callback frees the box that its owner left. -/
theorem Sound.dropAbandoned (h : s.Sound)
    (hhandler : s.handler = some (.notifying .dropBox)) :
    (s.handlerNotify .dropBox).Sound := by
  rcases h.dropBox hhandler with ⟨hgone, hsome⟩
  rcases Option.isSome_iff_exists.mp hsome with ⟨inner, hinner⟩
  have hok := h.alive inner hinner
  rw [hgone] at hok
  rcases hok with ⟨hother, -⟩ | ⟨-, -, hbusy, hcalm⟩
  · exact absurd hhandler hother
  · have hkernel : s.kernel.isSome = false :=
      (Bool.or_eq_false_iff.mp hbusy).left
    unfold Transfer.handlerNotify notify freeBox
    simp only [touch_of_some hinner]
    exact
      { fault := h.fault
        panic := h.panic
        calm := h.calm
        single := fun _ => rfl
        dropBox := nofun
        freed := fun _ => ⟨hgone, (Bool.or_false _).trans hkernel, hcalm⟩
        alive := nofun }

theorem Sound.handlerNotify (h : s.Sound) {n : Notify}
    (hhandler : s.handler = some (.notifying n)) : (s.handlerNotify n).Sound := by
  cases n with
  | cloneWaker => exact h.cloneWaker hhandler
  | swapState => exact h.swapState hhandler
  | wake => exact h.wake hhandler
  | dropBox => exact h.dropAbandoned hhandler

/-!
## The end of the box
-/

/-- The last party frees the box, unless the transfer is stranded. -/
theorem Sound.freed_of_gone (h : s.Sound) (hgone : s.owner = .gone)
    (hkernel : s.kernel = none) (hhandler : s.handler = none)
    (hcalm : s.stranded = false) : s.inner = none := by
  cases hinner : s.inner with
  | none => rfl
  | some inner =>
      have hok := h.alive inner hinner
      rw [hgone] at hok
      rcases hok with ⟨-, -, hlive⟩ | ⟨hdrop, -⟩
      · rw [hcalm, busy, hkernel, hhandler] at hlive
        cases hlive
      · rw [hhandler] at hdrop
        cases hdrop

/-- A freed box is with nobody; a callback has at most its waker left. -/
theorem Sound.of_freed (h : s.Sound) (hnone : s.inner = none) :
    s.owner = .gone ∧ s.kernel = none ∧
      forall c, s.handler = some c -> c = .notifying .wake := by
  rcases h.freed hnone with ⟨hgone, hbusy, -⟩
  have hholds := (Bool.or_eq_false_iff.mp hbusy).right
  refine ⟨hgone, kernel_of_not_busy hbusy, ?_⟩
  intro c hhandler
  rw [hhandler] at hholds
  cases c with
  | called result len => cases hholds
  | notifying n =>
      cases n with
      | cloneWaker => cases hholds
      | swapState => cases hholds
      | wake => rfl
      | dropBox =>
          have hsome := (h.dropBox hhandler).right
          rw [hnone] at hsome
          cases hsome

end Steps
end Transfer
end Usb
end OpenMk3
