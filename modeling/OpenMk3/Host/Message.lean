import OpenMk3.Library.Json
import OpenMk3.Library.Occurrence

/-!
# The pluginhost's messages

The plugin host's side of the pipe: `read_message` with its field scanner, and
the string extractor that the main loop applies to a body.  A position in a
line is the rest of the line behind it; a slice is taken from there.
-/

namespace OpenMk3
namespace Host

open Library Ascii

/-- A message, its body still encoded. -/
structure IpcMessage where
  id : UInt64
  kind : List UInt8
  bodyJson : List UInt8
deriving DecidableEq

/-!
## The field scanner
-/

/-- `std::isspace` in the C locale. -/
def isspace (b : UInt8) : Bool := b == 32 || (9 <= b && b <= 13)

/-- A string from behind its opening quote, with its closing quote; the slice
stops at the end of the line. -/
def quotedValue : List UInt8 -> List UInt8
  | [] => []
  | [c] => [c]
  | c :: d :: rest =>
      if c = quote then [c]
      else if c = backslash then c :: d :: quotedValue rest
      else c :: quotedValue (d :: rest)

def nextDepth (depth : Nat) (c : UInt8) : Nat :=
  if c = lbrace then depth + 1
  else if c = rbrace then depth - 1
  else depth

/-- An object from behind its opening brace, at `depth` open braces.  Braces in
strings count. -/
def bracedValue (depth : Nat) : List UInt8 -> List UInt8
  | [] => []
  | c :: rest =>
      if depth = 0 then []
      else c :: bracedValue (nextDepth depth c) rest

/-- Anything else, up to a comma or a closing brace. -/
def bareValue (text : List UInt8) : List UInt8 :=
  text.takeWhile fun c => c != comma && c != rbrace

/-- The slice that starts behind a colon and blanks. -/
def fieldValue (text : List UInt8) : List UInt8 :=
  match text.dropWhile isspace with
  | [] => []
  | c :: rest =>
      if c = quote then c :: quotedValue rest
      else if c = lbrace then c :: bracedValue 1 rest
      else bareValue (c :: rest)

def quoted (key : String) : List UInt8 := [quote] ++ utf8 key ++ [quote]

/-- The slice of a line that `find_field` finds for a key. -/
def findField (line : List UInt8) (key : String) : Option (List UInt8) := do
  let behindKey <- after (quoted key) line
  let behindColon <- after [colon] behindKey
  some (fieldValue behindColon)

def unquote (s : List UInt8) : List UInt8 :=
  if s.length >= 2 && s.head? == some quote && s.getLast? == some quote then
    (s.drop 1).dropLast
  else s

/-- `std::stoull`; `none` where it throws. -/
def stoull (s : List UInt8) : Option UInt64 :=
  let s := s.dropWhile isspace
  let negative := s.head? == some 45
  let s := if negative || s.head? == some 43 then s.drop 1 else s
  let digits := s.takeWhile isDigit
  let n := decimalValue digits
  if digits = [] then none
  else if n < 2 ^ 64 then
    some (if negative then - UInt64.ofNat n else UInt64.ofNat n)
  else none

/-!
## Reading a message
-/

/-- The next line of stdin and what is left; `none` at the end. -/
def getline (input : List UInt8) : Option (List UInt8 × List UInt8) :=
  if input = [] then none
  else
    some (input.takeWhile (· != newline),
      (input.dropWhile (· != newline)).drop 1)

/-- The message and what is left of stdin; an empty kind at the end. -/
def readMessage (input : List UInt8) : IpcMessage × List UInt8 :=
  match getline input with
  | none => ({ id := 0, kind := [], bodyJson := [] }, [])
  | some (line, rest) =>
      ({ id := ((findField line "id").bind stoull).getD 0
         kind := ((findField line "kind").map unquote).getD []
         bodyJson := (findField line "body").getD (utf8 "\x7b\x7d") }, rest)

/-- A string from behind its opening quote: a backslash stands for the byte
behind it. -/
def readChars : List UInt8 -> List UInt8
  | [] => []
  | [c] => if c = quote then [] else [c]
  | c :: d :: rest =>
      if c = quote then []
      else if c = backslash then d :: readChars rest
      else c :: readChars (d :: rest)

/-- `read_string`, at the default that every caller leaves in place. -/
def readString (body : List UInt8) (key : String) : List UInt8 :=
  match after (quoted key ++ [colon, quote]) body with
  | none => []
  | some rest => readChars rest

/-- `std::stoi`; `none` where it throws. -/
def stoi (s : List UInt8) : Option Int :=
  let s := s.dropWhile isspace
  let negative := s.head? == some 45
  let s := if negative || s.head? == some 43 then s.drop 1 else s
  let digits := s.takeWhile isDigit
  let magnitude : Int := decimalValue digits
  let n := if negative then -magnitude else magnitude
  if digits = [] then none
  else if -2 ^ 31 <= n && n < 2 ^ 31 then some n
  else none

/-- What stands behind a field name and its colon. -/
def behindField (body : List UInt8) (key : String) : Option (List UInt8) :=
  after (quoted key ++ [colon]) body

/-- `read_int`, at its default. -/
def readInt (body : List UInt8) (key : String) : Int :=
  ((behindField body key).bind stoi).getD 0

end Host
end OpenMk3
