import OpenMk3.Device.PadMachine

/-!
# Releasing pads

A pad that reports a pressure at or below the off threshold goes off and tells
its release, except where the parser takes the entry for an empty slot.
-/

namespace OpenMk3
namespace Device

open Library Proto

/-- A pad that goes from on to off emits a release on the way. -/
theorem exists_release {opts : OpenOptions} (hraw : opts.rawPadStream = false)
    {s : PadState} {qs : List UInt16} (hon : s.on = true)
    (hoff : (Transducer.final (padStep opts) s qs).on = false) :
    exists e, e ∈ Transducer.trace (padStep opts) s qs ∧
      e.phase = .release := by
  induction qs generalizing s with
  | nil =>
      rw [Transducer.final_nil, hon] at hoff
      cases hoff
  | cons q rest ih =>
      rw [Transducer.final_cons] at hoff
      rw [Transducer.trace_cons]
      rcases padStep_cases hraw s q with ⟨h, _⟩ | ⟨h, _⟩ | ⟨_, _, hstep⟩ |
        ⟨_, _, hstep⟩
      · rw [hon] at h
        cases h
      · rw [hon] at h
        cases h
      · refine ⟨{ pressure := q, velocity := none, phase := .release },
          List.mem_append_left _ ?_, rfl⟩
        rw [hstep]
        exact List.mem_singleton.mpr rfl
      · have hheld : (padStep opts s q).1.on = true := by
          rw [hstep]
          exact hon
        rcases ih hheld hoff with ⟨e, he, hphase⟩
        exact ⟨e, List.mem_append_right _ he, hphase⟩

theorem padStep_off {opts : OpenOptions} (hraw : opts.rawPadStream = false)
    (s : PadState) {q : UInt16} (hoff : q ≤ opts.padOffThreshold)
    (hon : q < opts.padOnThreshold) : (padStep opts s q).1.on = false := by
  rcases padStep_cases hraw s q with ⟨_, h, _⟩ | ⟨h, _, hstep⟩ |
    ⟨_, _, hstep⟩ | ⟨_, h, _⟩
  · exact absurd hon (UInt16.not_lt.mpr h)
  · rw [hstep]
    exact h
  · rw [hstep]
  · exact absurd hoff (UInt16.not_le.mpr h)

/-!
## Entries of a frame
-/

theorem samplesIn_of_other {p : Fin padCount} {es : List PadEntry}
    (h : forall e, e ∈ es -> e.pad.toNat ≠ p.val) :
    (samplesIn es).filterMap (padSelect p) = [] := by
  apply List.filterMap_eq_nil_iff.mpr
  intro i hi
  rcases List.mem_map.mp hi with ⟨sample, hmem, hsample⟩
  rcases List.mem_filterMap.mp hmem with ⟨e, he, hes⟩
  rw [← hsample, padSelect, if_neg]
  intro hpad
  apply h e he
  rw [(PadEntry.pad_of_sample? hes).left, hpad]

theorem samplesIn_of_empty {e : PadEntry} (h : e.pad = 0 ∧ e.pressure = 0) :
    samplesIn [e] = [] := by
  rw [samplesIn, List.filterMap_cons_none (PadEntry.sample?_of_empty h)]
  rfl

theorem samplesIn_of_pad {e : PadEntry} {p : Fin padCount}
    (h : ¬ (e.pad = 0 ∧ e.pressure = 0)) (hpad : e.pad.toNat = p.val) :
    (samplesIn [e]).filterMap (padSelect p) = [e.pressure] := by
  rw [samplesIn, List.filterMap_cons_some (PadEntry.sample?_of_pad h hpad)]
  simp [padSelect]

/-!
## Releases over runs
-/

def stateAfter (opts : OpenOptions) (frames : List (List UInt8)) : DiffState :=
  Transducer.final (diffFrame opts) DiffState.default frames

def padsFrame (es : List PadEntry) : List UInt8 :=
  reportInPads :: es.flatMap PadEntry.toBytes

theorem padOn_diffFrame (opts : OpenOptions) (s : DiffState)
    (p : Fin padCount) (raw : List UInt8) :
    (diffFrame opts s raw).1.padOn.get p =
      (Transducer.final (padStep opts) (padView p s)
        ((decode raw).filterMap (padSelect p))).on := by
  have hview := padView_final opts p s [raw]
  rw [List.flatMap_singleton, Transducer.final_cons, Transducer.final_nil]
    at hview
  rw [← hview]
  rfl

theorem release_of_turned_off {opts : OpenOptions}
    (hraw : opts.rawPadStream = false) {s : DiffState} {p : Fin padCount}
    {raw : List UInt8} (hon : s.padOn.get p = true)
    (hoff : (diffFrame opts s raw).1.padOn.get p = false) :
    exists q v, Event.pad p q v .release ∈ (diffFrame opts s raw).2 := by
  have hevents := padEvents_trace opts p s [raw]
  rw [List.flatMap_singleton, Transducer.trace_cons, Transducer.trace_nil,
    List.append_nil] at hevents
  rw [padOn_diffFrame] at hoff
  have hview : (padView p s).on = true := hon
  rcases exists_release hraw hview hoff with ⟨e, he, hphase⟩
  rw [← hevents, mem_padEvents_iff, PadEvent.onPad, hphase] at he
  exact ⟨e.pressure, e.velocity, he⟩

/-- A pads frame runs its entries before a last one for a pad, then that one. -/
theorem padOn_of_entries (opts : OpenOptions) (s : DiffState)
    {p : Fin padCount} {body : List UInt8} {front back : List PadEntry}
    {e : PadEntry}
    (hvalid : forall e', e' ∈ chunksExact body -> e'.pad.toNat < padCount)
    (hentries : chunksExact body = front ++ e :: back)
    (hlast : forall e', e' ∈ back -> e'.pad.toNat ≠ p.val) :
    (diffFrame opts s (reportInPads :: body)).1.padOn.get p =
      (Transducer.final (padStep opts)
        (padView p (diffFrame opts s (padsFrame front)).1)
        ((samplesIn [e]).filterMap (padSelect p))).on := by
  have hfront : decode (padsFrame front) = samplesIn front := by
    rw [padsFrame, decode_pads, chunksExact_flatMap_toBytes]
    intro e' he'
    rw [chunksExact_flatMap_toBytes] at he'
    apply hvalid e'
    rw [hentries]
    exact List.mem_append_left _ he'
  have hview := padView_final opts p s [padsFrame front]
  rw [List.flatMap_singleton, Transducer.final_cons, Transducer.final_nil,
    hfront] at hview
  have hsplit : samplesIn (front ++ e :: back) =
      samplesIn front ++ (samplesIn [e] ++ samplesIn back) := by
    rw [samplesIn_append, ← List.singleton_append, samplesIn_append]
  rw [padOn_diffFrame, decode_pads hvalid, hentries, hsplit,
    List.filterMap_append, List.filterMap_append, samplesIn_of_other hlast,
    List.append_nil, Transducer.final_append, hview]

/--
After a frame whose last entry for a pad is at rest, the pad is off and its
release was told, if and only if that entry is not the one the parser takes for
an empty slot, or the pad was off already when the entry was reached.
-/
theorem released_iff {opts : OpenOptions} (hraw : opts.rawPadStream = false)
    (frames : List (List UInt8)) {body : List UInt8} {p : Fin padCount}
    {front back : List PadEntry} {e : PadEntry} {pads : PadsReport}
    (hparse : parse (reportInPads :: body) = .ok (.pads pads))
    (hentries : chunksExact body = front ++ e :: back)
    (hpad : e.pad.toNat = p.val)
    (hlast : forall e', e' ∈ back -> e'.pad.toNat ≠ p.val)
    (hoff : e.pressure ≤ opts.padOffThreshold)
    (hon : e.pressure < opts.padOnThreshold) :
    let s := stateAfter opts frames
    let after := diffFrame opts s (reportInPads :: body)
    (after.1.padOn.get p = false ∧ (s.padOn.get p = true ->
      exists q v, Event.pad p q v .release ∈ after.2)) <->
    (¬ (e.pad = 0 ∧ e.pressure = 0) ∨
      (stateAfter opts (frames ++ [padsFrame front])).padOn.get p = false) := by
  intro s after
  have hvalid : forall e', e' ∈ chunksExact body ->
      e'.pad.toNat < padCount := by
    rcases entries_of_parse hparse with ⟨body', hbody, hvalid⟩
    rw [(List.cons.inj hbody).right]
    exact hvalid
  have hafter := padOn_of_entries opts s hvalid hentries hlast
  have hbefore : stateAfter opts (frames ++ [padsFrame front]) =
      (diffFrame opts s (padsFrame front)).1 :=
    Transducer.final_snoc (diffFrame opts) DiffState.default frames _
  rw [hbefore]
  by_cases hempty : e.pad = 0 ∧ e.pressure = 0
  · rw [samplesIn_of_empty hempty] at hafter
    constructor
    · intro h
      exact Or.inr (hafter.symm.trans h.left)
    · intro h
      have hturned := hafter.trans (h.resolve_left (not_not_intro hempty))
      exact ⟨hturned, fun hs => release_of_turned_off hraw hs hturned⟩
  · rw [samplesIn_of_pad hempty hpad, Transducer.final_cons,
      Transducer.final_nil, padStep_off hraw _ hoff hon] at hafter
    constructor
    · intro _
      exact Or.inl hempty
    · intro _
      exact ⟨hafter, fun hs => release_of_turned_off hraw hs hafter⟩

/-- Pad five is pressed and then reports its rest. -/
theorem pad_five_released :
    let s := stateAfter OpenOptions.default [[0x02, 5, 0x00, 0x41]]
    let after := diffFrame OpenOptions.default s [0x02, 5, 0, 0]
    after.1.padOn.get 5 = false ∧
      (s.padOn.get 5 = true ->
        exists q v, Event.pad 5 q v .release ∈ after.2) :=
  (@released_iff OpenOptions.default rfl [[0x02, 5, 0x00, 0x41]] [5, 0, 0] 5
    [] [] { pad := 5, lo := 0, hi := 0 } _ rfl rfl rfl nofun (by decide)
    (by decide)).mpr (Or.inl (by decide))

/-- Pad zero is pressed, reports its rest, and hangs. -/
theorem pad_zero_hangs :
    let s := stateAfter OpenOptions.default [[0x02, 0, 0x00, 0x41]]
    let after := diffFrame OpenOptions.default s [0x02, 0, 0, 0]
    parse [0x02, 0, 0, 0] = .ok (.pads { samples := [] }) ∧
      chunksExact [0, 0, 0] = [{ pad := 0, lo := 0, hi := 0 }] ∧
      (PadEntry.pressure { pad := 0, lo := 0, hi := 0 }) ≤
        OpenOptions.default.padOffThreshold ∧
      (PadEntry.pressure { pad := 0, lo := 0, hi := 0 }) <
        OpenOptions.default.padOnThreshold ∧
      s.padOn.get 0 = true ∧
      after.1.padOn.get 0 = true ∧ after.2 = [] := by
  decide

end Device
end OpenMk3
