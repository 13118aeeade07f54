import Mathlib.Algebra.Ring.Int.Defs
import OpenMk3.Library.Attempts

/-!
# Device claim on macOS

`MacOsClaimState::capture_and_suspend` and the guard's `Drop`.  The commands and
signals of the operating system are oracles with arbitrary answers, and what was
done to other processes is a trace of effects.  A signal that is refused leaves
the function with an early return, before the guard exists.
-/

namespace OpenMk3
namespace Platform

open Library

def niAgent : String := "NIHostIntegrationAgent"

def agentService : String := "com.native-instruments.NIHostIntegrationAgent"

/-- Other processes that hold the device's USB interfaces. -/
def conflictingApps : List String :=
  ["NIHardwareAgent", "Maschine 2", "Maschine", "Komplete Kontrol"]

inductive ClaimError where
  | unsupportedPlatform (platform : String)
  | command (message : String)
deriving DecidableEq, Repr

inductive Effect where
  | bootout (target : String) (succeeded : Bool)
  | sigstop (pid : Int) (accepted : Bool)
  | sigkill (pid : Int)
  | sigcont (pid : Int)
  | bootstrap (domain plist : String)
deriving DecidableEq, Repr

/-- The answers of the operating system.  Each name is looked up once, so what
`kill` answers for the process found is indexed by the name; the answer is the
error text of a refused signal. -/
structure Os where
  uid : Nat
  pgrepOutput : String -> Option (List Char)
  bootout : Bool
  sigstop : String -> Option String

/-!
## Finding a process
-/

/-- Characters that `str::trim` removes. -/
def isWhitespace (c : Char) : Bool :=
  let n := c.toNat
  (9 ≤ n ∧ n ≤ 13) ∨ n = 0x20 ∨ n = 0x85 ∨ n = 0xa0 ∨ n = 0x1680 ∨
    (0x2000 ≤ n ∧ n ≤ 0x200a) ∨ n = 0x2028 ∨ n = 0x2029 ∨ n = 0x202f ∨
    n = 0x205f ∨ n = 0x3000

def trim (text : List Char) : List Char :=
  ((text.dropWhile isWhitespace).reverse.dropWhile isWhitespace).reverse

def digit? (c : Char) : Option Nat :=
  if 48 ≤ c.toNat ∧ c.toNat ≤ 57 then some (c.toNat - 48) else none

def parseDigits (text : List Char) : Option Nat :=
  if text = [] then none
  else text.foldlM (fun n c => (digit? c).map fun d => 10 * n + d) 0

/-- `str::parse` into a `pid_t`. -/
def parsePid (text : List Char) : Option Int := do
  let n <-
    match text with
    | '-' :: digits => (parseDigits digits).map fun n => -(n : Int)
    | '+' :: digits => (parseDigits digits).map fun n => (n : Int)
    | digits => (parseDigits digits).map fun n => (n : Int)
  if -2 ^ 31 ≤ n ∧ n < 2 ^ 31 then some n else none

/-- The first line, without the line break that ends it. -/
def firstLine (text : List Char) : Option (List Char) :=
  if text = [] then none else some (text.takeWhile (· ≠ '\n'))

def pgrep (os : Os) (name : String) : Option Int := do
  let s <- os.pgrepOutput name
  let l <- firstLine s
  parsePid (trim l)

/-!
## Claim and guard
-/

structure MacOsClaimState where
  agentWasBootable : Bool := false
  stoppedPids : List Int := []
deriving DecidableEq, Repr

/-- The locals of `capture_and_suspend` and the effects so far. -/
structure Claiming where
  state : MacOsClaimState := {}
  trace : List Effect := []

namespace Claiming

def record (s : Claiming) (e : Effect) : Claiming :=
  { s with trace := s.trace ++ [e] }

/-- `sigstop(pid)?` and the push of the pid. -/
def suspend (os : Os) (s : Claiming) (name : String) (pid : Int) :
    Claiming × Option ClaimError :=
  match os.sigstop name with
  | none =>
      let s := s.record (.sigstop pid true)
      ({ s with state.stoppedPids := s.state.stoppedPids ++ [pid] }, none)
  | some error =>
      (s.record (.sigstop pid false),
        some (.command
          ("kill(" ++ toString pid ++ ", SIGSTOP) failed: " ++ error)))

/-- The agent is booted out where `launchctl` knows it and suspended
otherwise. -/
def claimAgent (os : Os) (s : Claiming) : Claiming × Option ClaimError :=
  match pgrep os niAgent with
  | none => (s, none)
  | some pid =>
      let target := "gui/" ++ toString os.uid ++ "/" ++ agentService
      let s := s.record (.bootout target os.bootout)
      if os.bootout then
        ({ s with state.agentWasBootable := true }, none)
      else s.suspend os niAgent pid

def claimApp (os : Os) (s : Claiming) (app : String) :
    Claiming × Option ClaimError :=
  match pgrep os app with
  | none => (s, none)
  | some pid => s.suspend os app pid

end Claiming

/-- launchd restarts both, so they are not part of the guard. -/
def killMidi (os : Os) : List Effect :=
  ["MIDIServer", "usbaudiod"].filterMap fun name =>
    (pgrep os name).map Effect.sigkill

/-- `capture_and_suspend`: its effects, and the guard state or the error. -/
def captureAndSuspend (os : Os) :
    List Effect × Except ClaimError MacOsClaimState :=
  match Claiming.claimAgent os {} with
  | (s, some e) => (s.trace, .error e)
  | (s, none) =>
      match Attempts.perform (Claiming.claimApp os) s conflictingApps with
      | (s, some e) => (s.trace, .error e)
      | (s, none) =>
          (s.trace ++ killMidi os, .ok s.state)

/-- The effects of `Drop` for the guard state. -/
def MacOsClaimState.drop (os : Os) (state : MacOsClaimState) : List Effect :=
  state.stoppedPids.map Effect.sigcont ++
    if state.agentWasBootable then
      [.bootstrap ("gui/" ++ toString os.uid)
        ("/Library/LaunchAgents/" ++ agentService ++ ".plist")]
    else []

end Platform
end OpenMk3
