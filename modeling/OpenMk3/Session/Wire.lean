import OpenMk3.Library.Json
import OpenMk3.Library.Lines
import OpenMk3.Library.Text
import OpenMk3.Session.Plugin

/-!
# Envelopes on the wire

What `call` writes to the child's stdin for a request: the compact text of its
envelope, with the fields in the order of the struct, and a newline.  And what
`read_loop` makes of the bytes on the child's stdout.
-/

namespace OpenMk3
namespace Session

open Library

namespace Envelope

/-- The envelope as `Serialize` presents it. -/
def toJson (env : Envelope Json) : Json :=
  .object [("id", .number (decimal env.id.toNat)), ("kind", .string env.kind),
    ("body", env.body)]

def line (env : Envelope Json) : List UInt8 :=
  env.toJson.render ++ [Ascii.newline]

/-- A field of type `u64`. -/
def u64? : Json -> Option UInt64
  | .number literal =>
      if literal ≠ [] && literal.all isDigit && decimalValue literal < 2 ^ 64 then
        some (UInt64.ofNat (decimalValue literal))
      else none
  | _ => none

def string? : Json -> Option String
  | .string s => some s
  | _ => none

def ofValues? (id kind body : Json) : Option (Envelope Json) := do
  let id <- u64? id
  let kind <- string? kind
  some { id := id, kind := kind, body := body }

/-- `Deserialize`: each field once, others ignored; or the fields in a row. -/
def ofJson? : Json -> Option (Envelope Json)
  | .object fields =>
      let values (name : String) : List Json :=
        fields.filterMap fun field => if field.1 = name then some field.2 else none
      match values "id", values "kind", values "body" with
      | [id], [kind], [body] => ofValues? id kind body
      | _, _, _ => none
  | .array [id, kind, body] => ofValues? id kind body
  | _ => none

theorem u64?_decimal (id : UInt64) : u64? (.number (decimal id.toNat)) = some id := by
  have hdigits : (decimal id.toNat).all isDigit = true :=
    List.all_eq_true.mpr fun _ h => isDigit_of_mem_decimal h
  have hlt := id.toNat_lt
  simp [u64?, decimal_ne_nil, hdigits, decimalValue_decimal, hlt]

theorem ofJson?_toJson (env : Envelope Json) : ofJson? env.toJson = some env := by
  show ofValues? (.number (decimal env.id.toNat)) (.string env.kind) env.body = some env
  rw [ofValues?, u64?_decimal]
  rfl

end Envelope

/-- `BufReader::read_line`: the line with its newline, and what is left of the
output; nothing at its end, or where the line is not UTF-8. -/
def readLine (stdout : List UInt8) : Option (String × List UInt8) :=
  let front := stdout.takeWhile (· != Ascii.newline)
  let back := stdout.dropWhile (· != Ascii.newline)
  if stdout = [] then none
  else (String.fromUTF8? ⟨(front ++ back.take 1).toArray⟩).map fun line => (line, back.drop 1)

/-- One iteration of `read_loop` up to the parsed line, with `serde_json` as a
parameter; nothing where the loop breaks off. -/
def readLoop (fromStr : String -> Option Json) (stdout : List UInt8) :
    Option (Line Json × List UInt8) := do
  let (line, rest) <- readLine stdout
  let trimmed := String.ofList (trim isWhitespace line.toList)
  match (fromStr trimmed).bind Envelope.ofJson? with
  | some env => some (.envelope env, rest)
  | none => some (.nonJson, rest)

/-- A terminated line of UTF-8 is read whole. -/
theorem readLine_append {line : String} {text : List UInt8} (hline : Ascii.newline ∉ text)
    (hutf8 : utf8 line = text ++ [Ascii.newline]) (rest : List UInt8) :
    readLine (text ++ Ascii.newline :: rest) = some (line, rest) := by
  have hbytes : (⟨(text ++ [Ascii.newline]).toArray⟩ : ByteArray) = line.toUTF8 := by
    rw [<- hutf8]
    rfl
  have hdecode : String.fromUTF8? line.toUTF8 = some line := dif_pos line.isValidUTF8
  have hne : text ++ Ascii.newline :: rest ≠ [] := by
    simp
  rw [readLine, if_neg hne, takeWhile_append_mark hline, dropWhile_append_mark hline,
    List.take_succ_cons, List.take_zero, hbytes, hdecode]
  rfl

namespace SessionManager

/-- The body of a load request; a map holds its keys in order. -/
def loadBody (bundle stateBase64 : String) : Json :=
  .object [("bundle", .string bundle), ("state_base64", .string stateBase64)]

def loadRequest (id : UInt64) (bundle stateBase64 : String) : Envelope Json :=
  { id := id, kind := "load", body := loadBody bundle stateBase64 }

end SessionManager

end Session
end OpenMk3
