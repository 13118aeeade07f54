import OpenMk3.Library.Hex
import OpenMk3.Nks.Types

/-!
# Indexed metadata

What the scanner derives from a parsed preset before it writes any row.
-/

namespace OpenMk3
namespace Index

open Library Nks

/-- The join key stored in `plugin_ref`, as the scanner formats it. -/
def pluginKey : NksPluginId -> String
  | .vst3 uid _ =>
      "vst3:" ++ hex uid[0].toUInt32 ++ hex uid[1].toUInt32 ++
        hex uid[2].toUInt32 ++ hex uid[3].toUInt32
  | .audioUnit ty subtype manufacturer _ =>
      "au:" ++ hex ty ++ ":" ++ hex subtype ++ ":" ++ hex manufacturer
  | .vst2 magic => "vst2:" ++ hex magic
  | .unknown => "unknown"

/-- The values of a preset's rows, apart from its id and its file. -/
structure Metadata where
  name : String
  vendor : String
  author : String
  comment : String
  pluginRef : String
  bankChain : String
  types : List (String × String)
  modes : List String
deriving DecidableEq, Repr

def Metadata.ofNks (nks : NksFile) : Metadata :=
  { name := nks.summary.name.getD ""
    vendor := nks.summary.vendor.getD ""
    author := nks.summary.author.getD ""
    comment := nks.summary.comment.getD ""
    pluginRef := pluginKey nks.plugin
    bankChain := " / ".intercalate (nks.summary.bankchain.getD [])
    types := (nks.summary.types.getD []).map fun pair =>
      (pair.head?.getD "", pair[1]?.getD "")
    modes := nks.summary.modes.getD [] }

end Index
end OpenMk3
