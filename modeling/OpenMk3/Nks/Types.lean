import Mathlib.Data.UInt
import Mathlib.Data.List.Basic

/-!
# NKS preset files

The metadata of a preset file and the errors of its parser, as declared in the
`nks-parse` crate.  MessagePack decoding is a parameter: the crate only relies
on it as a function of the decoded bytes.
-/

namespace OpenMk3
namespace Nks

/-- A path by its components, the last one being the file name. -/
abbrev Path := List String

/-- `Path::extension` of a file name, by its characters or its bytes: what follows
the last dot, unless nothing comes before that dot. -/
def extensionOf {α : Type} [DecidableEq α] (dot : α) (name : List α) :
    Option (List α) :=
  let back := name.reverse
  match back.dropWhile fun c => c ≠ dot with
  | [] => none
  | [_] => none
  | _ :: _ :: _ =>
      if name = [dot, dot] then none
      else some (back.takeWhile fun c => c ≠ dot).reverse

/-!
## Summary and controller chunks
-/

structure NksSummary where
  author : Option String := none
  vendor : Option String := none
  comment : Option String := none
  name : Option String := none
  bankchain : Option (List String) := none
  types : Option (List (List String)) := none
  modes : Option (List String) := none
  deviceType : Option String := none
  uuid : Option String := none
deriving DecidableEq, Repr

/-- Controller assignments, kept as the raw MessagePack bytes. -/
structure NksController where
  raw : List UInt8
deriving DecidableEq, Repr

/-!
## Plugin identification
-/

/-- The recognized keys of a `PLID` chunk before classification. -/
structure RawPlid where
  vst3Uid : Option (List Int64) := none
  vst3PluginName : Option String := none
  vst2Magic : Option Int64 := none
  auType : Option UInt32 := none
  auSubtype : Option UInt32 := none
  auManufacturer : Option UInt32 := none
  auName : Option String := none
  pluginName : Option String := none
deriving DecidableEq, Repr

inductive NksPluginId where
  | vst3 (uid : Vector Int32 4) (name : Option String)
  | vst2 (magic : UInt32)
  | audioUnit (ty subtype manufacturer : UInt32) (name : Option String)
  | unknown
deriving DecidableEq, Repr

/-- The classification at the end of `NksPluginId::deserialize`: a VST3 uid of
four words wins over an AU triple, which wins over a VST2 magic. -/
def NksPluginId.ofRaw (raw : RawPlid) : NksPluginId :=
  match raw.vst3Uid with
  | some [v0, v1, v2, v3] =>
      .vst3 #v[v0.toInt32, v1.toInt32, v2.toInt32, v3.toInt32]
        (raw.vst3PluginName <|> raw.pluginName)
  | _ =>
      match raw.auType, raw.auSubtype, raw.auManufacturer with
      | some t, some s, some m =>
          .audioUnit t s m (raw.auName <|> raw.pluginName)
      | _, _, _ =>
          match raw.vst2Magic with
          | some m => .vst2 m.toUInt64.toUInt32
          | none => .unknown

/-!
## Files and errors
-/

structure NksFile where
  path : Path
  summary : NksSummary
  plugin : NksPluginId
  controller : Option NksController
  pchkOffset : Nat
  pchkLen : Nat
deriving DecidableEq, Repr

inductive IoErrorKind where
  | notFound
  | permissionDenied
  | unexpectedEof
  | other
deriving DecidableEq, Repr

inductive NksError (ε : Type) where
  | io (kind : IoErrorKind)
  | notNks
  | missingChunk (id : String)
  | msgPack (e : ε)
deriving DecidableEq, Repr

/-- `rmp_serde::from_slice` at the two types the parser asks for. -/
structure MsgPack (ε : Type) where
  summary : List UInt8 -> Except ε NksSummary
  plid : List UInt8 -> Except ε RawPlid

def MsgPack.plugin {ε : Type} (dec : MsgPack ε) (buf : List UInt8) :
    Except ε NksPluginId :=
  (dec.plid buf).map NksPluginId.ofRaw

/-- A decoder that knows the empty map only. -/
def emptyMapDecoder : MsgPack Unit :=
  { summary := fun buf => if buf = [0x80] then .ok {} else .error ()
    plid := fun buf => if buf = [0x80] then .ok {} else .error () }

/-- The contents of the files that exist. -/
abbrev Files := Path -> Option (List UInt8)

end Nks
end OpenMk3
