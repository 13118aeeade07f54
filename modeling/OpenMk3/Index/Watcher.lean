import OpenMk3.Library.Transition
import OpenMk3.Nks.Types

/-!
# The library watcher

The thread of `LibraryWatcher::start`: one step for each message taken off the
channel, with the instant the clock shows when the message is processed.
Instants and durations count nanoseconds.
-/

namespace OpenMk3
namespace Index

open Library Nks

/-!
## Paths
-/

/-- A name as the operating system gives it, not always UTF-8. -/
abbrev OsString : Type := List UInt8

/-- A path by its components, the last one being the file name. -/
abbrev PathBuf : Type := List OsString

abbrev dot : UInt8 := 46

/-- The bytes of `"nksf"`, the only name that `to_str` turns into that text. -/
def nksf : OsString := [110, 107, 115, 102]

def isInteresting (p : PathBuf) : Bool :=
  p.getLast?.bind (extensionOf dot) = some nksf

/-!
## Messages
-/

/-- `notify::EventKind`, without the details of each kind. -/
inductive EventKind where
  | any
  | access
  | create
  | modify
  | remove
  | other
deriving DecidableEq, Repr

/-- The kinds that `start` acts on. -/
def EventKind.isChange : EventKind -> Bool
  | modify | create | remove => true
  | _ => false

structure WatchEvent where
  kind : EventKind
  paths : List PathBuf
deriving DecidableEq, Repr

/-- What `recv_timeout` returns. -/
inductive Message where
  | event (ev : WatchEvent)
  | watchError
  | timeout
  | disconnected
deriving DecidableEq, Repr

/-- One pass of the loop: the message, and the clock when it is processed. -/
structure Pass where
  message : Message
  now : Nat
deriving DecidableEq, Repr

/-!
## The loop
-/

structure WatchLoop where
  pending : List PathBuf
  deadline : Option Nat
  -- The loop has ended, or its thread has panicked.
  ended : Bool
  -- What `on_batch` has been called with.
  batches : List (List PathBuf)
deriving DecidableEq, Repr

namespace WatchLoop

def start : WatchLoop :=
  { pending := [], deadline := none, ended := false, batches := [] }

def idleTimeout : Nat := 60 * 1000000000

/-- The timeout computed at the head of the loop. -/
def timeout (s : WatchLoop) (now : Nat) : Nat :=
  match s.deadline with
  | some d => d - now
  | none => idleTimeout

def due (s : WatchLoop) (now : Nat) : Bool :=
  match s.deadline with
  | some d => d ≤ now
  | none => false

variable (debounce lastInstant : Nat)

/-- `Instant::now() + debounce`; a sum after the last instant the platform can
represent is a panic. -/
def postpone (s : WatchLoop) (now : Nat) : WatchLoop :=
  if now + debounce ≤ lastInstant then
    { s with deadline := some (now + debounce) }
  else { s with ended := true }

def deliver (s : WatchLoop) : WatchLoop :=
  { s with batches := s.batches ++ [s.pending], pending := [], deadline := none }

/-- One pass; a loop that has ended takes no message. -/
def step : Transition WatchLoop Pass := fun s p =>
  if s.ended then none
  else
    match p.message with
    | .event ev =>
        if ev.kind.isChange then
          some (postpone debounce lastInstant
            { s with pending := s.pending ++ ev.paths.filter isInteresting } p.now)
        else some s
    | .watchError => some s
    | .timeout =>
        if !s.pending.isEmpty && s.due p.now then some s.deliver else some s
    | .disconnected => some { s with ended := true }

end WatchLoop

end Index
end OpenMk3
