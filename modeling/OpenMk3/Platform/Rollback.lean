import OpenMk3.Platform.Claim

/-!
# Rollback of the device claim

Whether `capture_and_suspend` leaves other processes as it found them when it
fails.  The guard undoes everything, but it is only built on success: an early
return keeps whatever was suspended or booted out before the refused signal.
-/

namespace OpenMk3
namespace Platform

open Library

namespace Effect

def stopped? : Effect -> Option Int
  | sigstop pid true => some pid
  | _ => none

def isBootout : Effect -> Bool
  | bootout _ true => true
  | _ => false

end Effect

/-- The pids a trace suspended, in order. -/
def stoppedBy (trace : List Effect) : List Int :=
  trace.filterMap Effect.stopped?

def bootedOutBy (trace : List Effect) : Bool :=
  trace.any Effect.isBootout

/-- Every suspension and a successful bootout are undone later in the trace. -/
structure Undone (os : Os) (trace : List Effect) : Prop where
  stops : forall pre pid post, trace = pre ++ .sigstop pid true :: post ->
    .sigcont pid ∈ post
  bootout : forall pre target post,
    trace = pre ++ .bootout target true :: post ->
      .bootstrap ("gui/" ++ toString os.uid)
        ("/Library/LaunchAgents/" ++ agentService ++ ".plist") ∈ post

/-- The guard of a trace resumes exactly what the trace suspended. -/
def Reversible (os : Os) (trace : List Effect) (state : MacOsClaimState) :
    Prop :=
  state.drop os = (stoppedBy trace).map Effect.sigcont ++
    if bootedOutBy trace then
      [.bootstrap ("gui/" ++ toString os.uid)
        ("/Library/LaunchAgents/" ++ agentService ++ ".plist")]
    else []

/-- What the claim's error and success exits owe other processes. -/
def RollsBack (os : Os) : Prop :=
  match captureAndSuspend os with
  | (trace, .error _) => Undone os trace
  | (trace, .ok state) => Reversible os trace state

namespace Os

def accepts (os : Os) (name : String) : Bool :=
  (os.sigstop name).isNone

/-- The agent runs and `launchctl` boots it out. -/
def bootsOut (os : Os) : Bool :=
  (pgrep os niAgent).isSome && os.bootout

/-- The apps found running, in the order they are signalled. -/
def runningApps (os : Os) (apps : List String) : List String :=
  apps.filter fun app => (pgrep os app).isSome

/-- The processes to be suspended: the agent unless it is booted out, then the
apps. -/
def targets (os : Os) : List String :=
  (if (pgrep os niAgent).isSome && !os.bootout then [niAgent] else []) ++
    os.runningApps conflictingApps

end Os

/-!
## What the locals record
-/

/-- The locals agree with the trace, and nothing in it undoes anything. -/
structure Recorded (s : Claiming) : Prop where
  stopped : s.state.stoppedPids = stoppedBy s.trace
  booted : s.state.agentWasBootable = bootedOutBy s.trace
  noSigcont : forall pid, .sigcont pid ∉ s.trace
  noBootstrap : forall domain plist, .bootstrap domain plist ∉ s.trace

theorem stoppedBy_append (xs ys : List Effect) :
    stoppedBy (xs ++ ys) = stoppedBy xs ++ stoppedBy ys :=
  List.filterMap_append

theorem bootedOutBy_append (xs ys : List Effect) :
    bootedOutBy (xs ++ ys) = (bootedOutBy xs || bootedOutBy ys) :=
  List.any_append

namespace Recorded

variable {s : Claiming}

theorem start : Recorded {} where
  stopped := rfl
  booted := rfl
  noSigcont _ := List.not_mem_nil
  noBootstrap _ _ := List.not_mem_nil

/-- An effect that undoes nothing is recorded with what it suspended or booted
out. -/
theorem record (h : Recorded s) (e : Effect) {state : MacOsClaimState}
    (hstopped : state.stoppedPids = s.state.stoppedPids ++ stoppedBy [e])
    (hbooted : state.agentWasBootable =
      (s.state.agentWasBootable || bootedOutBy [e]))
    (hsigcont : forall pid, e ≠ .sigcont pid)
    (hbootstrap : forall domain plist, e ≠ .bootstrap domain plist) :
    Recorded { state := state, trace := s.trace ++ [e] } where
  stopped := by
    rw [hstopped, stoppedBy_append, h.stopped]
  booted := by
    rw [hbooted, bootedOutBy_append, h.booted]
  noSigcont pid := by
    have hprior := h.noSigcont pid
    have hne := hsigcont pid
    simp [hprior, hne.symm]
  noBootstrap domain plist := by
    have hprior := h.noBootstrap domain plist
    have hne := hbootstrap domain plist
    simp [hprior, hne.symm]

theorem suspend (h : Recorded s) (os : Os) (name : String) (pid : Int) :
    Recorded (s.suspend os name pid).1 := by
  unfold Claiming.suspend
  cases os.sigstop name with
  | none =>
      exact h.record (.sigstop pid true) rfl (Bool.or_false _).symm (by simp)
        (by simp)
  | some error =>
      exact h.record (.sigstop pid false) (List.append_nil _).symm
        (Bool.or_false _).symm (by simp) (by simp)

theorem claimApp (h : Recorded s) (os : Os) (app : String) :
    Recorded (s.claimApp os app).1 := by
  unfold Claiming.claimApp
  cases pgrep os app with
  | none =>
      exact h
  | some pid =>
      exact h.suspend os app pid

theorem claimAgent (os : Os) : Recorded (Claiming.claimAgent os {}).1 := by
  unfold Claiming.claimAgent
  cases pgrep os niAgent with
  | none =>
      exact start
  | some pid =>
      cases hbootout : os.bootout with
      | true =>
          exact start.record (.bootout _ true) rfl rfl (by simp) (by simp)
      | false =>
          apply suspend
          exact start.record (.bootout _ false) rfl rfl (by simp) (by simp)

/-- A trace that undoes nothing is undone only when it did nothing. -/
theorem undone_iff (h : Recorded s) (os : Os) :
    Undone os s.trace <->
      s.state.stoppedPids = [] ∧ s.state.agentWasBootable = false := by
  rw [h.stopped, h.booted]
  constructor
  · intro hundone
    constructor
    · unfold stoppedBy
      rw [List.filterMap_eq_nil_iff]
      intro e he
      cases e with
      | sigstop pid accepted =>
          cases accepted with
          | false =>
              rfl
          | true =>
              rcases List.append_of_mem he with ⟨pre, post, htrace⟩
              have hmem := hundone.stops pre pid post htrace
              exact absurd (by simp [htrace, hmem]) (h.noSigcont pid)
      | _ =>
          rfl
    · unfold bootedOutBy
      rw [List.any_eq_false]
      intro e he hbootout
      cases e with
      | bootout target succeeded =>
          cases succeeded with
          | false =>
              cases hbootout
          | true =>
              rcases List.append_of_mem he with ⟨pre, post, htrace⟩
              have hmem := hundone.bootout pre target post htrace
              have hin := List.mem_append_right pre
                (List.mem_cons_of_mem (Effect.bootout target true) hmem)
              exact absurd (htrace ▸ hin) (h.noBootstrap _ _)
      | _ =>
          cases hbootout
  · intro hnothing
    constructor
    · intro pre pid post htrace
      have hnil := hnothing.left
      rw [htrace, stoppedBy_append] at hnil
      simp [stoppedBy, Effect.stopped?] at hnil
    · intro pre target post htrace
      have hfalse := hnothing.right
      rw [htrace, bootedOutBy_append] at hfalse
      simp [bootedOutBy, Effect.isBootout] at hfalse

theorem reversible (h : Recorded s) (os : Os) :
    Reversible os (s.trace ++ killMidi os) s.state := by
  have hkilled : forall e, e ∈ killMidi os -> exists pid, e = .sigkill pid := by
    intro e he
    rcases List.mem_filterMap.mp he with ⟨name, _, heq⟩
    rcases Option.map_eq_some_iff.mp heq with ⟨pid, _, rfl⟩
    exact ⟨pid, rfl⟩
  have hstopped : stoppedBy (killMidi os) = [] := by
    unfold stoppedBy
    rw [List.filterMap_eq_nil_iff]
    intro e he
    rcases hkilled e he with ⟨pid, rfl⟩
    rfl
  have hbooted : bootedOutBy (killMidi os) = false := by
    unfold bootedOutBy
    rw [List.any_eq_false]
    intro e he
    rcases hkilled e he with ⟨pid, rfl⟩
    exact Bool.false_ne_true
  rw [Reversible, MacOsClaimState.drop, stoppedBy_append, hstopped,
    List.append_nil, bootedOutBy_append, hbooted, Bool.or_false, h.stopped,
    h.booted]

end Recorded

/-!
## The apps
-/

section Apps

variable (os : Os)

/-- Where a refused app ends the loop, nothing was suspended just when the first
running app refused. -/
theorem claimApps_error {apps : List String} {s s' : Claiming} {e : ClaimError}
    (h : Attempts.perform (Claiming.claimApp os) s apps = (s', some e)) :
    (s'.state.stoppedPids = [] ∧ s'.state.agentWasBootable = false) <->
      (s.state.stoppedPids = [] ∧ s.state.agentWasBootable = false) ∧
        exists app rest, os.runningApps apps = app :: rest ∧
          os.accepts app = false := by
  induction apps generalizing s with
  | nil =>
      cases h
  | cons app rest ih =>
      rw [Attempts.perform, Claiming.claimApp] at h
      cases hpid : pgrep os app with
      | none =>
          rw [hpid] at h
          have hskip : os.runningApps (app :: rest) = os.runningApps rest := by
            simp [Os.runningApps, hpid]
          rw [hskip]
          exact ih h
      | some pid =>
          have hhead : os.runningApps (app :: rest) =
              app :: os.runningApps rest := by
            simp [Os.runningApps, hpid]
          rw [hhead]
          cases hsig : os.sigstop app with
          | none =>
              simp only [hpid, Claiming.suspend, hsig] at h
              have hno := (ih h).not.mpr (by simp)
              constructor
              · intro hnil
                exact absurd hnil hno
              · intro hrefused
                rcases hrefused.right with ⟨app', rest', heq, haccepts⟩
                cases heq
                rw [Os.accepts, hsig] at haccepts
                cases haccepts
          | some error =>
              simp only [hpid, Claiming.suspend, hsig] at h
              cases h
              have haccepts : os.accepts app = false := by
                rw [Os.accepts, hsig]
                rfl
              constructor
              · intro hnil
                exact ⟨hnil, app, _, rfl, haccepts⟩
              · intro hrefused
                exact hrefused.left

theorem claimApps_error_isNone (s : Claiming) (apps : List String) :
    (Attempts.perform (Claiming.claimApp os) s apps).2 = none <->
      forall app, app ∈ os.runningApps apps -> os.accepts app = true := by
  have hstate : forall (s : Claiming) (app : String),
      (s.claimApp os app).2 = (Claiming.claimApp os {} app).2 := by
    intro s app
    unfold Claiming.claimApp
    cases pgrep os app with
    | none =>
        rfl
    | some pid =>
        unfold Claiming.suspend
        cases os.sigstop app <;> rfl
  rw [Attempts.perform_error hstate, List.findSome?_eq_none_iff]
  apply forall_congr'
  intro app
  rw [Os.runningApps, List.mem_filter, and_imp]
  apply imp_congr_right
  intro _
  unfold Claiming.claimApp Os.accepts
  cases pgrep os app with
  | none =>
      simp
  | some pid =>
      cases hsig : os.sigstop app <;> simp [Claiming.suspend, hsig]

/-- The rollback of the claim once the agent is out of the way. -/
theorem rollsBack_of_claimAgent {s : Claiming}
    (h : Claiming.claimAgent os {} = (s, none)) :
    RollsBack os <->
      (forall app, app ∈ os.runningApps conflictingApps ->
        os.accepts app = true) ∨
      (s.state.stoppedPids = [] ∧ s.state.agentWasBootable = false) ∧
        exists app rest, os.runningApps conflictingApps = app :: rest ∧
          os.accepts app = false := by
  have hagent : Recorded s := by
    have hrecorded := Recorded.claimAgent os
    rw [h] at hrecorded
    exact hrecorded
  have happs : Recorded (Attempts.perform (Claiming.claimApp os) s
      conflictingApps).1 :=
    Attempts.perform_invariant (fun _ app _ hs => hs.claimApp os app) hagent
  have hnone := claimApps_error_isNone os s conflictingApps
  rw [RollsBack, captureAndSuspend, h]
  simp only
  cases hperform : Attempts.perform (Claiming.claimApp os) s conflictingApps with
  | mk s' e =>
      rw [hperform] at happs hnone
      cases e with
      | none =>
          exact iff_of_true (happs.reversible os) (Or.inl (hnone.mp rfl))
      | some e =>
          have hrefused := hnone.not.mp nofun
          rw [or_iff_right hrefused, ← claimApps_error os hperform]
          exact happs.undone_iff os

end Apps

/-!
## The exact condition
-/

/-- The claim can be undone at either exit just when no process to be suspended
refuses, or the first of them does and the agent was not booted out. -/
theorem rollsBack_iff (os : Os) :
    RollsBack os <->
      (forall name, name ∈ os.targets -> os.accepts name = true) ∨
      os.bootsOut = false ∧ exists name rest, os.targets = name :: rest ∧
        os.accepts name = false := by
  cases hpid : pgrep os niAgent with
  | none =>
      have hagent : Claiming.claimAgent os {} = ({}, none) := by
        rw [Claiming.claimAgent, hpid]
      rw [rollsBack_of_claimAgent os hagent]
      simp [Os.targets, Os.bootsOut, hpid]
  | some pid =>
      cases hbootout : os.bootout with
      | true =>
          have hbooted : exists s, Claiming.claimAgent os {} = (s, none) ∧
              s.state.agentWasBootable = true := by
            rw [Claiming.claimAgent, hpid, hbootout]
            exact ⟨_, rfl, rfl⟩
          rcases hbooted with ⟨s, hagent, hstate⟩
          rw [rollsBack_of_claimAgent os hagent, hstate]
          simp [Os.targets, Os.bootsOut, hpid, hbootout]
      | false =>
          have htargets : os.targets =
              niAgent :: os.runningApps conflictingApps := by
            simp [Os.targets, hpid, hbootout]
          have hboots : os.bootsOut = false := by
            simp [Os.bootsOut, hbootout]
          rw [htargets, hboots]
          cases hsig : os.sigstop niAgent with
          | none =>
              have haccepts : os.accepts niAgent = true := by
                rw [Os.accepts, hsig]
                rfl
              have hstopped : exists s,
                  Claiming.claimAgent os {} = (s, none) ∧
                    s.state.stoppedPids = [pid] := by
                simp only [Claiming.claimAgent, hpid, hbootout,
                  Claiming.suspend, hsig]
                exact ⟨_, rfl, rfl⟩
              rcases hstopped with ⟨s, hagent, hstate⟩
              rw [rollsBack_of_claimAgent os hagent, hstate]
              simp [haccepts]
          | some error =>
              have haccepts : os.accepts niAgent = false := by
                rw [Os.accepts, hsig]
                rfl
              have hrecorded := Recorded.claimAgent os
              have hrefused : exists s e,
                  Claiming.claimAgent os {} = (s, some e) ∧
                    s.state = {} := by
                simp only [Claiming.claimAgent, hpid, hbootout,
                  Claiming.suspend, hsig]
                exact ⟨_, _, rfl, rfl⟩
              rcases hrefused with ⟨s, e, hagent, hstate⟩
              rw [hagent] at hrecorded
              rw [RollsBack, captureAndSuspend, hagent]
              have hundone := (hrecorded.undone_iff os).mpr
                (by rw [hstate]; exact ⟨rfl, rfl⟩)
              exact iff_of_true hundone
                (Or.inr ⟨rfl, niAgent, _, rfl, haccepts⟩)

/-- The agent is booted out and the one running app refuses its signal. -/
private def refusingApp : Os where
  uid := 501
  pgrepOutput name :=
    if name = niAgent then some ['7', '1', '\n']
    else if name = "Maschine 2" then some ['4', '2', '\n']
    else some []
  bootout := true
  sigstop _ := some "Operation not permitted"

theorem refusingApp_not_rollsBack : Not (forall os, RollsBack os) := by
  intro h
  have hundone := h refusingApp
  have htrace : captureAndSuspend refusingApp =
      ([.bootout ("gui/501/" ++ agentService) true, .sigstop 42 false],
        .error (.command
          "kill(42, SIGSTOP) failed: Operation not permitted")) := by
    decide
  rw [RollsBack, htrace] at hundone
  have hmem := hundone.bootout [] _ _ rfl
  exact absurd hmem (by decide)

end Platform
end OpenMk3
