import OpenMk3.Usb.Lifecycle

/-!
# Completions of a transfer

The buffer of a request is in place as long as somebody may use it, and the
result that a poll takes is the one the kernel reported.
-/

namespace OpenMk3
namespace Usb

open Library

/-- The result that a callback has yet to hand over. -/
def Handler.result? (data : TransferData) : Handler -> Option (IOReturn × Nat)
  | .called result len => some (result, len)
  | .notifying .cloneWaker | .notifying .swapState =>
      some (data.status, data.actualLen)
  | .notifying .wake | .notifying .dropBox => none

/-- The result that waits for the owner, or that the owner is taking. -/
def Owner.result? (inner : TransferInner) : Owner -> Option (IOReturn × Nat)
  | .notifying .cloneWaker | .notifying .swapState | .taking =>
      some (inner.platformData.status, inner.platformData.actualLen)
  | _ =>
      if inner.state = .completed then
        some (inner.platformData.status, inner.platformData.actualLen)
      else none

namespace Transfer

/-- The result of the request that no poll has returned. -/
def result? (s : Transfer) (inner : TransferInner) : Option (IOReturn × Nat) :=
  (s.handler.bind (Handler.result? inner.platformData)).or (s.owner.result? inner)

/-- The completion that a result stands for. -/
def completion (inner : TransferInner) (r : IOReturn × Nat) : Completion :=
  Completion.ofResult r.fst ((inner.platformData.buf.getD []).take r.snd)

/-- The buffer is in place and has at least this length. -/
def Holds (inner : TransferInner) (len : Nat) : Prop :=
  exists memory, inner.platformData.buf = some memory ∧ len ≤ memory.length

structure InnerOk (s : Transfer) (inner : TransferInner) : Prop where
  kernel : forall len, s.kernel = some len -> Holds inner len
  filled : forall len, s.owner = .filled len ->
    inner.platformData.actualLen = 0 ∧ Holds inner len
  result : forall r, s.result? inner = some r -> Holds inner r.snd
  empty : (inner.state = .idle ∧ s.owner ≠ .taking) ∨
    (exists data, s.owner = .submitting data) -> inner.platformData.buf = none
  history : s.owner.serving = true ->
    s.reported = s.returned ++ ((s.result? inner).map (completion inner)).toList

/-- No buffer is lost, and what was returned is what was reported first. -/
structure Stored (s : Transfer) : Prop where
  overwritten : s.overwritten = false
  returned : s.returned <+: s.reported
  alive : forall inner, s.inner = some inner -> s.InnerOk inner

theorem stored_new : new.Stored where
  overwritten := rfl
  returned := List.nil_prefix
  alive inner hinner := by
    cases hinner
    exact
      { kernel := nofun
        filled := nofun
        result := nofun
        empty := fun _ => rfl
        history := fun _ => rfl }

section Steps

variable {s : Transfer} {inner : TransferInner}

theorem handler_result?_of_not_busy (hbusy : s.busy = false)
    (data : TransferData) : s.handler.bind (Handler.result? data) = none := by
  have hholds := (Bool.or_eq_false_iff.mp hbusy).right
  cases hhandler : s.handler with
  | none => rfl
  | some c =>
      rw [hhandler] at hholds
      cases c with
      | called result len => exact absurd hholds nofun
      | notifying n =>
          cases n with
          | cloneWaker => exact absurd hholds nofun
          | swapState => exact absurd hholds nofun
          | wake => rfl
          | dropBox => rfl

theorem Stored.of_inner (h : s.Stored) {s' : Transfer} {inner' : TransferInner}
    (hinner : s'.inner = some inner') (hoverwritten : s'.overwritten = s.overwritten)
    (hreturned : s'.returned <+: s'.reported) (hok : s'.InnerOk inner') :
    s'.Stored where
  overwritten := hoverwritten.trans h.overwritten
  returned := hreturned
  alive inner hsome := by
    rw [hinner] at hsome
    cases hsome
    exact hok

/-- A step that leaves the platform data, the kernel and the history, and keeps
the result unless the owner is past returning it. -/
theorem InnerOk.move (h : s.InnerOk inner) {s' : Transfer}
    {inner' : TransferInner}
    (hdata : inner'.platformData = inner.platformData)
    (hkernel : s'.kernel = s.kernel)
    (hreported : s'.reported = s.reported) (hreturned : s'.returned = s.returned)
    (hresult : s'.result? inner' = s.result? inner ∨
      (s'.result? inner' = none ∧ s'.owner.serving = false))
    (hfilled : forall len, s'.owner = .filled len -> s.owner = .filled len)
    (hempty : (inner'.state = .idle ∧ s'.owner ≠ .taking) ∨
      (exists data, s'.owner = .submitting data) ->
        inner.platformData.buf = none)
    (hserving : s'.owner.serving = true -> s.owner.serving = true) :
    s'.InnerOk inner' where
  kernel len hlen := by
    rw [Holds, hdata]
    exact h.kernel len (hkernel ▸ hlen)
  filled len hlen := by
    rw [Holds, hdata]
    exact h.filled len (hfilled len hlen)
  result r hr := by
    rcases hresult with hsame | ⟨hnone, -⟩
    · rw [Holds, hdata]
      exact h.result r (hsame ▸ hr)
    · rw [hnone] at hr
      cases hr
  empty he := hdata ▸ hempty he
  history hserves := by
    have hcompletion : completion inner' = completion inner := by
      funext r
      rw [completion, completion, hdata]
    have hsame : s'.result? inner' = s.result? inner := by
      rcases hresult with hsame | ⟨-, hpast⟩
      · exact hsame
      · rw [hserves] at hpast
        cases hpast
    rw [hreported, hreturned, hsame, hcompletion]
    exact h.history (hserving hserves)

theorem result?_congr {s' : Transfer} {inner' : TransferInner}
    (hdata : inner'.platformData = inner.platformData)
    (hhandler : s'.handler = s.handler)
    (howner : s'.owner.result? inner' = s.owner.result? inner) :
    s'.result? inner' = s.result? inner := by
  unfold result?
  rw [hdata, hhandler, howner]

theorem Stored.submit (h : s.Stored) (hs : s.Sound) (howner : s.owner = .ready)
    (data : RequestBuffer) : (s.submit data).Stored := by
  rcases hs.exists_inner howner nofun with ⟨-, inner, hinner, hok⟩
  have hin := h.alive inner hinner
  have hserving : s.owner.serving = true := howner ▸ rfl
  unfold Transfer.submit
  rw [touch_of_some hinner]
  split
  · next hidle =>
      have hresult : (Owner.submitting data).result?
          { inner with state := .pending } = s.owner.result? inner := by
        rw [howner]
        simp [Owner.result?, hidle]
      refine h.of_inner rfl rfl h.returned
        (hin.move rfl rfl rfl rfl (.inl (result?_congr rfl rfl hresult)) nofun ?_
          fun _ => hserving)
      intro _
      exact hin.empty (.inl ⟨hidle, howner ▸ nofun⟩)
  · refine h.of_inner rfl rfl h.returned
      (hin.move rfl rfl rfl rfl ?_ nofun ?_ fun _ => hserving)
    · cases hstate : inner.state with
      | completed =>
          rw [hstate] at hok
          refine .inr ⟨?_, rfl⟩
          unfold result?
          rw [show (s.setState inner .pending).handler = s.handler from rfl,
            handler_result?_of_not_busy hok.left]
          rfl
      | _ =>
          refine .inl (result?_congr rfl rfl ?_)
          rw [howner]
          simp [Owner.result?, hstate]
    · rintro (⟨hidle, -⟩ | ⟨_, hsubmitting⟩)
      · cases hidle
      · cases hsubmitting

theorem result?_of_owner {r? : Option (IOReturn × Nat)}
    (hhandler : s.handler.bind (Handler.result? inner.platformData) = none)
    (howner : s.owner.result? inner = r?) : s.result? inner = r? := by
  unfold result?
  rw [hhandler, howner]
  exact Option.none_or

/-- A request that is with the owner or the kernel has no result. -/
theorem result?_of_pending (hstate : inner.state = .pending)
    (hhandler : s.handler.bind (Handler.result? inner.platformData) = none)
    (howner : s.owner.result? inner = if inner.state = .completed then
      some (inner.platformData.status, inner.platformData.actualLen) else none) :
    s.result? inner = none := by
  refine result?_of_owner hhandler (howner.trans ?_)
  rw [hstate]
  rfl

theorem InnerOk.of_result {r? : Option (IOReturn × Nat)}
    (hresult : s.result? inner = r?)
    (hkernel : forall len, s.kernel = some len -> Holds inner len)
    (hfilled : forall len, s.owner = .filled len ->
      inner.platformData.actualLen = 0 ∧ Holds inner len)
    (hholds : forall r, r? = some r -> Holds inner r.snd)
    (hempty : (inner.state = .idle ∧ s.owner ≠ .taking) ∨
      (exists data, s.owner = .submitting data) ->
        inner.platformData.buf = none)
    (hhistory : s.reported =
      s.returned ++ (r?.map (completion inner)).toList) : s.InnerOk inner where
  kernel := hkernel
  filled := hfilled
  result r hr := hholds r (hresult.symm.trans hr)
  empty := hempty
  history _ := by
    rw [hresult]
    exact hhistory

theorem Stored.fill (h : s.Stored) (hs : s.Sound) {data : RequestBuffer}
    (howner : s.owner = .submitting data) : (s.fill data).Stored := by
  rcases hs.exists_inner howner nofun with ⟨-, inner, hinner, hstate, hbusy⟩
  have hin := h.alive inner hinner
  have hempty : inner.platformData.buf = none := hin.empty (.inr ⟨data, howner⟩)
  have hresult : s.result? inner = none :=
    result?_of_pending hstate (handler_result?_of_not_busy hbusy _) (howner ▸ rfl)
  unfold Transfer.fill
  rw [exclusive_of_some hinner hbusy]
  have hoverwritten :
      (s.overwritten || inner.platformData.buf.isSome) = s.overwritten := by
    rw [hempty]
    exact Bool.or_false _
  refine h.of_inner rfl hoverwritten h.returned
    (.of_result (result?_of_pending hstate ?_ rfl) ?_ ?_ nofun ?_ ?_)
  · exact handler_result?_of_not_busy hbusy _
  · intro len hlen
    exact absurd (hlen.symm.trans (kernel_of_not_busy hbusy)) nofun
  · intro len hlen
    cases hlen
    exact ⟨rfl, data.memory, rfl, data.fits⟩
  · rintro (⟨hidle, -⟩ | ⟨_, hsubmitting⟩)
    · exact absurd (hstate.symm.trans hidle) nofun
    · cases hsubmitting
  · have hhistory := hin.history (howner ▸ rfl)
    rwa [hresult] at hhistory

theorem Stored.accept (h : s.Stored) (hs : s.Sound) {len : Nat}
    (howner : s.owner = .filled len) : (s.accept len).Stored := by
  rcases hs.exists_inner howner nofun with ⟨-, inner, hinner, hstate, hbusy⟩
  have hin := h.alive inner hinner
  have hresult : s.result? inner = none :=
    result?_of_pending hstate (handler_result?_of_not_busy hbusy _) (howner ▸ rfl)
  refine h.of_inner hinner rfl h.returned
    (.of_result (result?_of_pending hstate ?_ rfl) ?_ nofun nofun ?_ ?_)
  · exact handler_result?_of_not_busy hbusy _
  · intro n hn
    cases hn
    exact (hin.filled len howner).right
  · rintro (⟨hidle, -⟩ | ⟨_, hsubmitting⟩)
    · exact absurd (hstate.symm.trans hidle) nofun
    · cases hsubmitting
  · have hhistory := hin.history (howner ▸ rfl)
    rwa [hresult] at hhistory

/-- A step of the owner that changes nothing but what it does and the state
byte. -/
theorem Stored.owner_move (h : s.Stored) {s' : Transfer}
    {inner' : TransferInner} (hinner : s.inner = some inner)
    (hinner' : s'.inner = some inner')
    (hdata : inner'.platformData = inner.platformData)
    (hrest : s'.kernel = s.kernel ∧ s'.handler = s.handler ∧
      s'.overwritten = s.overwritten ∧ s'.reported = s.reported ∧
      s'.returned = s.returned)
    (hresult : s'.owner.result? inner' = s.owner.result? inner)
    (hfilled : forall len, s'.owner ≠ .filled len)
    (hsubmitting : forall data, s'.owner ≠ .submitting data)
    (hempty : inner'.state = .idle -> s'.owner ≠ .taking ->
      inner.platformData.buf = none)
    (hserving : s'.owner.serving = true -> s.owner.serving = true) :
    s'.Stored := by
  rcases hrest with ⟨hkernel, hhandler, hoverwritten, hreported, hreturned⟩
  refine h.of_inner hinner' hoverwritten ?_ ((h.alive inner hinner).move hdata hkernel
    hreported hreturned (.inl (result?_congr hdata hhandler hresult))
    (fun len hlen => absurd hlen (hfilled len)) ?_ hserving)
  · rw [hreturned, hreported]
    exact h.returned
  · rintro (⟨hidle, htaking⟩ | ⟨data, hdata⟩)
    · exact hempty hidle htaking
    · exact absurd hdata (hsubmitting data)

/-- A request too large leaves its buffer in the box. -/
theorem Stored.rejectLength (h : s.Stored) (hs : s.Sound) {len : Nat}
    (howner : s.owner = .filled len) : s.rejectLength.Stored := by
  rcases hs.exists_inner howner nofun with ⟨-, inner, hinner, hstate, -⟩
  exact h.owner_move hinner hinner rfl ⟨rfl, rfl, rfl, rfl, rfl⟩
    (howner ▸ rfl) nofun nofun
    (fun hidle => absurd (hstate.symm.trans hidle) nofun) nofun

/-- A refused request completes with the error and without data. -/
theorem Stored.refuse (h : s.Stored) (hs : s.Sound) {len : Nat}
    (howner : s.owner = .filled len) (res : IOReturn) :
    (s.refuse res).Stored := by
  rcases hs.exists_inner howner nofun with ⟨-, inner, hinner, hstate, hbusy⟩
  have hin := h.alive inner hinner
  rcases hin.filled len howner with ⟨hactual, memory, hbuf, -⟩
  have hresult : s.result? inner = none :=
    result?_of_pending hstate (handler_result?_of_not_busy hbusy _) (howner ▸ rfl)
  have hafter : some (res, inner.platformData.actualLen) = some (res, 0) := by
    rw [hactual]
  unfold Transfer.refuse
  rw [exclusive_of_some hinner hbusy]
  refine h.of_inner rfl rfl (h.returned.trans (List.prefix_append _ _))
    (.of_result (result?_of_owner ?_ hafter) ?_ nofun ?_ ?_ ?_)
  · exact handler_result?_of_not_busy hbusy _
  · intro n hn
    exact absurd (hn.symm.trans (kernel_of_not_busy hbusy)) nofun
  · intro r hr
    cases hr
    exact ⟨memory, hbuf, Nat.zero_le _⟩
  · rintro (⟨hidle, -⟩ | ⟨_, hsubmitting⟩)
    · exact absurd (hstate.symm.trans hidle) nofun
    · cases hsubmitting
  · have hhistory := hin.history (howner ▸ rfl)
    rw [hresult] at hhistory
    show s.reported ++ _ = s.returned ++ _
    rw [hhistory, List.append_assoc]
    rfl

theorem Stored.ownerNotify (h : s.Stored) (hs : s.Sound) {n : Notify}
    (howner : s.owner = .notifying n) : (s.ownerNotify n).Stored := by
  rcases hs.exists_inner howner nofun with ⟨-, inner, hinner, hok⟩
  have hserving : s.owner.serving = true := howner ▸ rfl
  unfold Transfer.ownerNotify notify
  cases n with
  | cloneWaker =>
      simp only [touch_of_some hinner]
      exact h.owner_move hinner hinner rfl ⟨rfl, rfl, rfl, rfl, rfl⟩
        (howner ▸ rfl) nofun nofun
        (fun hidle => absurd (hok.left.symm.trans hidle) nofun)
        fun _ => hserving
  | swapState =>
      simp only [hinner, hok.left]
      exact h.owner_move hinner rfl rfl ⟨rfl, rfl, rfl, rfl, rfl⟩
        (howner ▸ rfl) nofun nofun nofun
        fun _ => hserving
  | wake =>
      exact h.owner_move hinner hinner rfl ⟨rfl, rfl, rfl, rfl, rfl⟩
        (howner ▸ rfl) nofun nofun
        (fun hidle => absurd (hok.left.symm.trans hidle) nofun)
        fun _ => hserving
  | dropBox => exact hok.elim

theorem Stored.poll (h : s.Stored) (hs : s.Sound) (howner : s.owner = .ready) :
    s.poll.Stored := by
  rcases hs.exists_inner howner nofun with ⟨-, inner, hinner, -⟩
  unfold Transfer.poll
  rw [touch_of_some hinner]
  refine h.owner_move hinner hinner rfl ⟨rfl, rfl, rfl, rfl, rfl⟩
    (howner ▸ rfl) nofun nofun ?_ (fun _ => howner ▸ rfl)
  intro hidle _
  exact (h.alive inner hinner).empty (.inl ⟨hidle, howner ▸ nofun⟩)

theorem Stored.load (h : s.Stored) (hs : s.Sound) (howner : s.owner = .polling) :
    s.load.Stored := by
  rcases hs.exists_inner howner nofun with ⟨-, inner, hinner, hok⟩
  have hempty := fun hidle =>
    (h.alive inner hinner).empty (.inl ⟨hidle, howner ▸ nofun⟩)
  unfold Transfer.load
  rw [touch_of_some hinner]
  cases hstate : inner.state
  case idle =>
    exact h.owner_move hinner hinner rfl ⟨rfl, rfl, rfl, rfl, rfl⟩
      (howner ▸ rfl) nofun nofun (fun hidle _ => hempty hidle)
      (fun _ => howner ▸ rfl)
  case abandoned =>
    rw [hstate] at hok
    exact hok.elim
  all_goals
    exact h.owner_move hinner hinner rfl ⟨rfl, rfl, rfl, rfl, rfl⟩
      (howner ▸ rfl) nofun nofun (fun hidle _ => hempty hidle)
      (fun _ => howner ▸ rfl)

/-- The state byte goes idle while the result is still to be taken. -/
theorem Stored.store (h : s.Stored) (hs : s.Sound) (howner : s.owner = .storing) :
    s.store.Stored := by
  rcases hs.exists_inner howner nofun with ⟨-, inner, hinner, hstate, -⟩
  have hresult : Owner.result? { inner with state := .idle } .taking =
      s.owner.result? inner := by
    rw [howner]
    simp [Owner.result?, hstate]
  unfold Transfer.store
  rw [touch_of_some hinner]
  refine h.owner_move hinner rfl rfl ⟨rfl, rfl, rfl, rfl, rfl⟩ hresult nofun
    nofun ?_ (fun _ => howner ▸ rfl)
  intro _ htaking
  exact absurd rfl htaking

/-- The buffer is there when `take_completed` runs. -/
theorem Stored.holds_of_taking (h : s.Stored) (hinner : s.inner = some inner)
    (hquiet : s.busy = false) (howner : s.owner = .taking) :
    s.result? inner =
        some (inner.platformData.status, inner.platformData.actualLen) ∧
      Holds inner inner.platformData.actualLen := by
  have hresult : s.result? inner =
      some (inner.platformData.status, inner.platformData.actualLen) :=
    result?_of_owner (handler_result?_of_not_busy hquiet _) (howner ▸ rfl)
  exact ⟨hresult, (h.alive inner hinner).result _ hresult⟩

theorem Stored.takeCompleted (h : s.Stored) (hs : s.Sound)
    (howner : s.owner = .taking) : s.takeCompleted.Stored := by
  rcases hs.exists_inner howner nofun with ⟨-, inner, hinner, hstate, hbusy⟩
  have hin := h.alive inner hinner
  rcases h.holds_of_taking hinner hbusy howner with ⟨hresult, memory, hbuf, hlen⟩
  have hreported : s.reported = s.returned ++
      [Completion.ofResult inner.platformData.status
        (memory.take inner.platformData.actualLen)] := by
    have hhistory := hin.history (howner ▸ rfl)
    rw [hresult] at hhistory
    rw [hhistory]
    simp [completion, hbuf]
  have hidle : (if inner.state = .completed then
      some (inner.platformData.status, inner.platformData.actualLen)
      else none) = none := by
    rw [hstate]
    rfl
  unfold Transfer.takeCompleted
  rw [exclusive_of_some hinner hbusy]
  simp only [hbuf, hlen, if_true]
  refine h.of_inner rfl rfl ?_ (.of_result (result?_of_owner ?_ hidle) ?_ nofun
    (fun _ => nofun) (fun _ => rfl) ?_)
  · exact hreported ▸ List.prefix_refl _
  · exact handler_result?_of_not_busy hbusy _
  · intro len hlen
    exact absurd (hlen.symm.trans (kernel_of_not_busy hbusy)) nofun
  · rw [Option.map_none, Option.toList_none, List.append_nil]
    exact hreported

theorem Stored.cancel (h : s.Stored) (hs : s.Sound) (howner : s.owner = .ready) :
    s.cancel.Stored := by
  rcases hs.exists_inner howner nofun with ⟨-, inner, hinner, -⟩
  unfold Transfer.cancel
  rw [touch_of_some hinner]
  exact h

theorem Stored.drop (h : s.Stored) (hs : s.Sound)
    (howner : s.owner = .ready ∨ s.owner = .unwinding) : s.drop.Stored := by
  rcases hs.exists_inner_of_drop howner with ⟨-, inner, hinner, -⟩
  have hplain : s.owner ≠ .taking ∧
      s.owner.result? inner = Owner.abandoning.result? inner := by
    rcases howner with hready | hunwinding
    · rw [hready]
      exact ⟨nofun, rfl⟩
    · rw [hunwinding]
      exact ⟨nofun, rfl⟩
  rcases hplain with ⟨htaking, hresult⟩
  have hempty : inner.state = .idle -> inner.platformData.buf = none := fun hidle =>
    (h.alive inner hinner).empty (.inl ⟨hidle, htaking⟩)
  unfold Transfer.drop
  rw [touch_of_some hinner]
  split
  · exact h.owner_move hinner hinner rfl ⟨rfl, rfl, rfl, rfl, rfl⟩
      hresult.symm nofun nofun (fun hidle _ => hempty hidle) nofun
  · exact h.owner_move hinner hinner rfl ⟨rfl, rfl, rfl, rfl, rfl⟩
      hresult.symm nofun nofun (fun hidle _ => hempty hidle) nofun

theorem Stored.cancelDropped (h : s.Stored) (hs : s.Sound)
    (howner : s.owner = .cancelling) : s.cancelDropped.Stored := by
  rcases hs.exists_inner howner nofun with ⟨-, inner, hinner, -⟩
  unfold Transfer.cancelDropped
  rw [touch_of_some hinner]
  refine h.owner_move hinner hinner rfl ⟨rfl, rfl, rfl, rfl, rfl⟩
    (howner ▸ rfl) nofun nofun ?_ nofun
  intro hidle _
  exact (h.alive inner hinner).empty (.inl ⟨hidle, howner ▸ nofun⟩)

/-- A completed result that nobody polled is dropped with the handle. -/
theorem Stored.abandon (h : s.Stored) (hs : s.Sound)
    (howner : s.owner = .abandoning) : s.abandon.Stored := by
  rcases hs.exists_inner howner nofun with ⟨-, inner, hinner, hok⟩
  have hin := h.alive inner hinner
  have hmove : forall (owner : Owner), owner = .gone ∨ owner = .freeing ->
      (inner.state = .completed -> s.busy = false) ->
      Stored { s.setState inner .abandoned with owner := owner } := by
    intro owner howner' hquiet
    have hresult : owner.result? { inner with state := .abandoned } = none := by
      rcases howner' with rfl | rfl <;> rfl
    have hserving : owner.serving = false := by
      rcases howner' with rfl | rfl <;> rfl
    refine h.of_inner rfl rfl h.returned (hin.move rfl rfl rfl rfl ?_ ?_ ?_ ?_)
    · by_cases hcompleted : inner.state = .completed
      · exact .inr ⟨result?_of_owner
          (handler_result?_of_not_busy (hquiet hcompleted) _) hresult, hserving⟩
      · refine .inl (result?_congr rfl rfl (hresult.trans ?_))
        rw [howner]
        simp [Owner.result?, hcompleted]
    · rcases howner' with rfl | rfl <;> nofun
    · rintro (⟨hidle, -⟩ | ⟨data, hdata⟩)
      · cases hidle
      · rw [show owner = .submitting data from hdata] at hserving
        cases hserving
    · intro hserves
      rw [show owner.serving = true from hserves] at hserving
      cases hserving
  unfold Transfer.abandon
  rw [touch_of_some hinner]
  cases hstate : inner.state <;> rw [hstate] at hok
  case pending => exact hmove .gone (.inl rfl) (hstate ▸ nofun)
  case abandoned => exact hok.elim
  case idle => exact hmove .freeing (.inr rfl) (hstate ▸ nofun)
  case completed => exact hmove .freeing (.inr rfl) fun _ => hok.left

theorem Stored.free (h : s.Stored) (hs : s.Sound) (howner : s.owner = .freeing) :
    s.free.Stored := by
  rcases hs.exists_inner howner nofun with ⟨-, inner, hinner, -⟩
  unfold Transfer.free freeBox
  rw [touch_of_some hinner]
  exact ⟨h.overwritten, h.returned, nofun⟩

/-!
## The kernel and the callback
-/

/-- While somebody else has the request, the owner has neither a result nor a
buffer on its way. -/
theorem OwnerOk.result?_of_busy (hbusy : s.busy = true)
    (hok : s.OwnerOk inner.state s.owner) :
    inner.state ≠ .idle ∧ s.owner.result? inner = none ∧
      (forall len, s.owner ≠ .filled len) ∧
      (forall data, s.owner ≠ .submitting data) := by
  rcases hok.of_busy hbusy with ⟨-, ⟨hstate, hcompleted⟩ | ⟨hstate, hgone⟩⟩
  · have hlater : new.OwnerOk .completed s.owner := hcompleted new rfl rfl
    have hnone : (if inner.state = .completed then
        some (inner.platformData.status, inner.platformData.actualLen)
        else none) = none := by
      rw [hstate]
      rfl
    rw [hstate]
    cases howner : s.owner <;> rw [howner] at hlater
    case submitting data => exact absurd hlater.left nofun
    case filled len => exact absurd hlater.left nofun
    case taking => exact absurd hlater.left nofun
    case notifying n =>
      cases n with
      | cloneWaker => exact absurd hlater.left nofun
      | swapState => exact absurd hlater.left nofun
      | _ => exact ⟨nofun, hnone, nofun, nofun⟩
    all_goals exact ⟨nofun, hnone, nofun, nofun⟩
  · rw [hgone, hstate]
    refine ⟨nofun, ?_, nofun, nofun⟩
    simp [Owner.result?, hstate]

/-- A step of the kernel or the callback: the history grows by a completion when
the kernel reports one. -/
theorem Stored.handler_move (h : s.Stored) {s' : Transfer}
    {inner' : TransferInner} (r? : Option (IOReturn × Nat))
    (new : List Completion)
    (hinner : s.inner = some inner) (hinner' : s'.inner = some inner')
    (hbusy : s.busy = true) (hok : s.OwnerOk inner.state s.owner)
    (hstate : inner'.state ≠ .idle) (howner : s'.owner = s.owner)
    (hoverwritten : s'.overwritten = s.overwritten) (hreturned : s'.returned = s.returned)
    (hreported : s'.reported = s.reported ++ new)
    (hkernel : s'.kernel = none) (hresult : s'.result? inner' = r?)
    (hholds : forall r, r? = some r -> Holds inner' r.snd)
    (hnew : ((s.result? inner).map (completion inner)).toList ++ new =
      (r?.map (completion inner')).toList) : s'.Stored := by
  rcases hok.result?_of_busy hbusy with ⟨-, -, hfilled, hsubmitting⟩
  refine h.of_inner hinner' hoverwritten ?_
    { kernel := ?_, filled := ?_, result := ?_, empty := ?_, history := ?_ }
  · rw [hreturned, hreported]
    exact h.returned.trans (List.prefix_append _ _)
  · rw [hkernel]
    nofun
  · rw [howner]
    exact fun len hlen => absurd hlen (hfilled len)
  · rw [hresult]
    exact hholds
  · rintro (⟨hidle, -⟩ | ⟨data, hdata⟩)
    · exact absurd hidle hstate
    · exact absurd (howner ▸ hdata) (hsubmitting data)
  · intro hserves
    rw [hreported, hreturned, hresult,
      (h.alive inner hinner).history (howner ▸ hserves), List.append_assoc, hnew]

theorem length_overwrite {bytes memory : List UInt8}
    (h : bytes.length ≤ memory.length) :
    (overwrite bytes memory).length = memory.length := by
  rw [overwrite, List.length_take, List.length_append, List.length_drop]
  omega

theorem take_overwrite {bytes memory : List UInt8}
    (h : bytes.length ≤ memory.length) :
    (overwrite bytes memory).take bytes.length = bytes := by
  rw [overwrite, List.take_take, Nat.min_eq_left h, List.take_left]

theorem Stored.complete (h : s.Stored) (hs : s.Sound) {len : Nat}
    (hkernel : s.kernel = some len) (hhandler : s.handler = none)
    (result : IOReturn) {bytes : List UInt8} (hlen : bytes.length ≤ len) :
    (s.complete result bytes).Stored := by
  have hbusy := busy_of_kernel hkernel
  rcases hs.exists_inner_of_busy hbusy with ⟨inner, hinner⟩
  have hok := hs.alive inner hinner
  rcases (h.alive inner hinner).kernel len hkernel with ⟨memory, hbuf, hfits⟩
  have hroom : bytes.length ≤ memory.length := Nat.le_trans hlen hfits
  have hbefore : s.result? inner = none :=
    result?_of_owner (hhandler ▸ rfl) (hok.result?_of_busy hbusy).right.left
  unfold Transfer.complete
  rw [touch_of_some hinner]
  refine h.handler_move (some (result, bytes.length)) _ hinner rfl hbusy hok
    (hok.result?_of_busy hbusy).left rfl rfl rfl rfl rfl rfl ?_ ?_
  · intro r hr
    cases hr
    refine ⟨overwrite bytes memory, ?_, ?_⟩
    · show inner.platformData.buf.map _ = _
      rw [hbuf]
      rfl
    · rw [length_overwrite hroom]
      exact hroom
  · rw [hbefore]
    simp [completion, hbuf, take_overwrite hroom]

theorem Stored.writeResult (h : s.Stored) (hs : s.Sound) {result : IOReturn}
    {len : Nat} (hhandler : s.handler = some (.called result len)) :
    (s.writeResult result len).Stored := by
  rcases hs.of_holds hhandler rfl with ⟨hkernel, hbusy, inner, hinner⟩
  have hok := hs.alive inner hinner
  have hbefore : s.result? inner = some (result, len) := by
    unfold result?
    rw [hhandler]
    rfl
  have hholds := (h.alive inner hinner).result _ hbefore
  unfold Transfer.writeResult
  rw [touch_of_some hinner]
  refine h.handler_move (some (result, len)) [] hinner rfl hbusy hok
    (hok.result?_of_busy hbusy).left rfl rfl rfl (List.append_nil _).symm
    (Option.isNone_iff_eq_none.mp (Option.isSome_eq_false_iff.mp hkernel)) rfl ?_
    ?_
  · intro r hr
    cases hr
    exact hholds
  · rw [hbefore, List.append_nil]
    rfl

/-- A callback that is about to swap the state byte has written its result. -/
theorem result?_of_swapping {n : Notify}
    (hhandler : s.handler = some (.notifying n))
    (hn : n = .cloneWaker ∨ n = .swapState) (inner : TransferInner) :
    s.result? inner =
      some (inner.platformData.status, inner.platformData.actualLen) := by
  unfold result?
  rw [hhandler]
  rcases hn with rfl | rfl <;> rfl

theorem Owner.result?_of_completed (hstate : inner.state = .completed)
    (owner : Owner) : owner.result? inner =
      some (inner.platformData.status, inner.platformData.actualLen) := by
  unfold Owner.result?
  cases owner with
  | notifying n => cases n <;> simp [hstate]
  | _ => simp [hstate]

/-- A callback in `notify_completion` keeps the buffer and its result. -/
theorem Stored.handlerNotify (h : s.Stored) (hs : s.Sound) {n : Notify}
    (hhandler : s.handler = some (.notifying n)) : (s.handlerNotify n).Stored := by
  unfold Transfer.handlerNotify notify
  cases n with
  | cloneWaker =>
      rcases hs.of_holds hhandler rfl with ⟨hkernel, hbusy, inner, hinner⟩
      have hok := hs.alive inner hinner
      have hbefore := result?_of_swapping hhandler (.inl rfl) inner
      simp only [touch_of_some hinner]
      refine h.handler_move _ [] hinner hinner hbusy hok
        (hok.result?_of_busy hbusy).left rfl rfl rfl (List.append_nil _).symm
        (Option.isNone_iff_eq_none.mp (Option.isSome_eq_false_iff.mp hkernel)) rfl
        ?_ ?_
      · intro r hr
        cases hr
        exact (h.alive inner hinner).result _ hbefore
      · rw [hbefore, List.append_nil]
        rfl
  | swapState =>
      rcases hs.of_holds hhandler rfl with ⟨hkernel, hbusy, inner, hinner⟩
      have hok := hs.alive inner hinner
      have hbefore := result?_of_swapping hhandler (.inr rfl) inner
      have hmove : forall n, n = .wake ∨ n = .dropBox ->
          Stored { s.setState inner .completed with
            handler := some (.notifying n) } := by
        intro n hn
        refine h.handler_move _ [] hinner rfl hbusy hok nofun rfl rfl rfl
          (List.append_nil _).symm
          (Option.isNone_iff_eq_none.mp (Option.isSome_eq_false_iff.mp hkernel))
          (result?_of_owner ?_ (Owner.result?_of_completed rfl s.owner)) ?_ ?_
        · rcases hn with rfl | rfl <;> rfl
        · intro r hr
          cases hr
          exact (h.alive inner hinner).result _ hbefore
        · rw [hbefore, List.append_nil]
          rfl
      rcases hok.of_busy hbusy with ⟨-, ⟨hstate, -⟩ | ⟨hstate, -⟩⟩
      · simp only [hinner, hstate]
        exact hmove .wake (.inl rfl)
      · simp only [hinner, hstate]
        exact hmove .dropBox (.inr rfl)
  | wake =>
      refine ⟨h.overwritten, h.returned, ?_⟩
      intro inner hinner
      have hin := h.alive inner hinner
      refine hin.move rfl rfl rfl rfl (.inl ?_) (fun _ => id) hin.empty id
      unfold result?
      rw [hhandler]
      rfl
  | dropBox =>
      rcases Option.isSome_iff_exists.mp (hs.dropBox hhandler).right with
        ⟨inner, hinner⟩
      simp only [freeBox, touch_of_some hinner]
      exact ⟨h.overwritten, h.returned, nofun⟩

theorem step_sound {s' : Transfer} {a : TransferAct} (hs : s.Sound)
    (h : s.Stored) (hstep : step s a = some s') : s'.Sound := by
  cases performed_of_step hstep with
  | submit data howner => exact hs.submit howner data
  | fill howner => exact hs.fill howner
  | rejectLength howner => exact hs.rejectLength howner
  | accept howner => exact hs.accept howner
  | refuse res howner => exact hs.refuse howner res
  | ownerNotify howner => exact hs.ownerNotify howner
  | poll howner => exact hs.poll howner
  | load howner => exact hs.load howner
  | store howner => exact hs.store howner
  | takeCompleted howner =>
      refine hs.takeCompleted howner fun inner hinner => ?_
      rcases hs.exists_inner howner nofun with ⟨-, inner', hinner', -, hbusy⟩
      cases hinner.symm.trans hinner'
      exact (h.holds_of_taking hinner hbusy howner).right
  | cancel howner => exact hs.cancel howner
  | drop howner => exact hs.drop howner
  | cancelDropped howner => exact hs.cancelDropped howner
  | abandon howner => exact hs.abandon howner
  | free howner => exact hs.free howner
  | complete result hkernel hhandler _ =>
      exact hs.complete hkernel hhandler result _
  | writeResult hhandler => exact hs.writeResult hhandler
  | handlerNotify hhandler => exact hs.handlerNotify hhandler

theorem step_stored {s' : Transfer} {a : TransferAct} (hs : s.Sound)
    (h : s.Stored) (hstep : step s a = some s') : s'.Stored := by
  cases performed_of_step hstep with
  | submit data howner => exact h.submit hs howner data
  | fill howner => exact h.fill hs howner
  | rejectLength howner => exact h.rejectLength hs howner
  | accept howner => exact h.accept hs howner
  | refuse res howner => exact h.refuse hs howner res
  | ownerNotify howner => exact h.ownerNotify hs howner
  | poll howner => exact h.poll hs howner
  | load howner => exact h.load hs howner
  | store howner => exact h.store hs howner
  | takeCompleted howner => exact h.takeCompleted hs howner
  | cancel howner => exact h.cancel hs howner
  | drop howner => exact h.drop hs howner
  | cancelDropped howner => exact h.cancelDropped hs howner
  | abandon howner => exact h.abandon hs howner
  | free howner => exact h.free hs howner
  | complete result hkernel hhandler hlen =>
      exact h.complete hs hkernel hhandler result hlen
  | writeResult hhandler => exact h.writeResult hs hhandler
  | handlerNotify hhandler => exact h.handlerNotify hs hhandler

end Steps

/-!
## Runs
-/

theorem run_sound {actions : List TransferAct} {s : Transfer}
    (h : Transition.run step new actions = some s) : s.Sound ∧ s.Stored := by
  have hstart : new.Sound ∧ new.Stored := ⟨sound_new, stored_new⟩
  have hkeep : forall s a s', (s.Sound ∧ s.Stored) -> True ->
      step s a = some s' -> s'.Sound ∧ s'.Stored := by
    intro s a s' hinv _ hstep
    exact ⟨step_sound hinv.left hinv.right hstep,
      step_stored hinv.left hinv.right hstep⟩
  exact Transition.run_invariant_of_steps step (fun _ _ => True) hstart hkeep
    (fun _ _ _ _ _ => trivial) h

end Transfer
end Usb
end OpenMk3
