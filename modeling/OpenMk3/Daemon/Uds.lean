import OpenMk3.Library.Json

/-!
# The daemon's socket

The operations and replies of the `msctl` socket, and what `serve` writes on a
connection.  The reader and the writer of `serde_json` are parameters, and so is
the handler behind the channel: what it replies to the operation of a request,
if it replies.
-/

namespace OpenMk3
namespace Daemon

open Library

structure BrowseArgs where
  text : Option String
  vendor : Option String
  type : Option String
  limit : Option UInt32

inductive Op where
  | status
  | scanLibraries
  | browse (args : BrowseArgs)
  | load (presetId : Int)

structure Reply where
  ok : Bool
  payload : Json

/-- A reply whose payload is an error text. -/
def errorReply (text : String) : Reply :=
  { ok := false, payload := .object [("error", .string text)] }

/-- `serde_json`, as `serve` uses it: an error is the text it is displayed as. -/
structure Serde where
  fromStr : String -> Except String Op
  toString : Reply -> Option (List UInt8)

/-- What the handler replies to the operation of request `n`, when it does. -/
abbrev Handler := Nat -> Op -> Option Reply

variable (serde : Serde) (handler : Handler)

/-- The reply to a line that is no operation, assembled by hand. -/
def malformed (e : String) : List UInt8 :=
  utf8 "\x7b\"ok\":false,\"payload\":\x7b\"error\":\"" ++ utf8 e ++ utf8 "\"\x7d\x7d\n"

/-- What is written for request `n` of a connection. -/
def answer (n : Nat) (line : String) : List UInt8 :=
  match serde.fromStr line with
  | .error e => malformed e
  | .ok op =>
      let reply := (handler n op).getD (errorReply "no reply")
      (serde.toString reply).getD [] ++ [Ascii.newline]

/-- What is written on a connection, for the lines read from it. -/
def serve (lines : List String) : List UInt8 :=
  (lines.mapIdx (answer serde handler)).flatten

theorem serve_snoc (lines : List String) (line : String) :
    serve serde handler (lines ++ [line]) =
      serve serde handler lines ++ answer serde handler lines.length line := by
  unfold serve
  rw [List.mapIdx_append]
  simp

end Daemon
end OpenMk3
