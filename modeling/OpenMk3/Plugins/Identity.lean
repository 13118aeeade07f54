import OpenMk3.Index.Rows
import OpenMk3.Plugins.Registry

/-!
# Plugin identity

The scanner's key strings and the registry's lookups agree, and both identify
a plugin by its format and identifiers only.
-/

namespace OpenMk3
namespace Plugins

open Library Nks

/-- The stored string is the key that a lookup of the same plugin uses. -/
theorem lookupKey_eq_pluginKey {plid : NksPluginId} (h : plid ≠ .unknown) :
    lookupKey plid = some { key := Index.pluginKey plid } := by
  cases plid with
  | unknown =>
      exact absurd rfl h
  | vst3 uid name =>
      simp only [lookupKey, PluginKey.fromVst3Uid, Index.pluginKey,
        get_map_toUInt32]
      rfl
  | vst2 magic =>
      rfl
  | audioUnit ty subtype manufacturer name =>
      rfl

theorem pluginKey_eq_iff {a b : NksPluginId} (ha : a ≠ .unknown)
    (hb : b ≠ .unknown) :
    Index.pluginKey a = Index.pluginKey b <-> SamePlugin a b := by
  rw [<- lookupKey_eq_iff ha, lookupKey_eq_pluginKey ha,
    lookupKey_eq_pluginKey hb]
  simp

/-- The words of a VST3 uid identify a plugin modulo 2^32, however they were
stored. -/
theorem identifies_ofRaw_iff {raw : RawPlid} {v0 v1 v2 v3 : Int64}
    (h : raw.vst3Uid = some [v0, v1, v2, v3]) (e : PluginEntry) :
    Identifies (NksPluginId.ofRaw raw) e <->
      exists v, e = .vst3 v ∧ Congruent (v.classUid.get 0) v0.toInt ∧
        Congruent (v.classUid.get 1) v1.toInt ∧
          Congruent (v.classUid.get 2) v2.toInt ∧
            Congruent (v.classUid.get 3) v3.toInt := by
  unfold NksPluginId.ofRaw
  rw [h]
  cases e with
  | audioUnit a =>
      simp [Identifies]
  | vst3 v =>
      constructor
      · intro hwords
        exact ⟨v, rfl, congruent_toInt32.mp (hwords 0),
          congruent_toInt32.mp (hwords 1), congruent_toInt32.mp (hwords 2),
          congruent_toInt32.mp (hwords 3)⟩
      · intro hwords
        rcases hwords with ⟨v', heq, h0, h1, h2, h3⟩
        cases heq
        rintro ⟨_ | _ | _ | _ | i, hi⟩
        · exact congruent_toInt32.mpr h0
        · exact congruent_toInt32.mpr h1
        · exact congruent_toInt32.mpr h2
        · exact congruent_toInt32.mpr h3
        · exact absurd hi (by omega)

/-- Resolution finds the last scanned plugin with a preset's format and
identifiers, and the stored key strings are the keys it looks up. -/
theorem plugin_identity :
    (forall (vst3s : List Vst3Plugin) (aus : List AuPlugin)
      (plid : NksPluginId) (entry : PluginEntry),
      (Registry.scan vst3s aus).resolve plid = some entry <->
        Identifies plid entry ∧ exists front back,
          Registry.entries vst3s aus = front ++ entry :: back ∧
            forall e, e ∈ back -> Not (Identifies plid e)) ∧
      (forall (vst3s : List Vst3Plugin) (aus : List AuPlugin)
        (plid : NksPluginId),
        (exists entry,
          (Registry.scan vst3s aus).resolve plid = some entry) <->
            exists e, e ∈ Registry.entries vst3s aus ∧ Identifies plid e) ∧
      (forall (raw : RawPlid) (v0 v1 v2 v3 : Int64) (e : PluginEntry),
        raw.vst3Uid = some [v0, v1, v2, v3] ->
          (Identifies (NksPluginId.ofRaw raw) e <->
            exists v, e = .vst3 v ∧ Congruent (v.classUid.get 0) v0.toInt ∧
              Congruent (v.classUid.get 1) v1.toInt ∧
                Congruent (v.classUid.get 2) v2.toInt ∧
                  Congruent (v.classUid.get 3) v3.toInt)) ∧
      (forall plid : NksPluginId, plid ≠ .unknown ->
        lookupKey plid = some { key := Index.pluginKey plid }) ∧
      forall a b : NksPluginId, a ≠ .unknown -> b ≠ .unknown ->
        (Index.pluginKey a = Index.pluginKey b <-> SamePlugin a b) := by
  refine ⟨?_, ?_, ?_, ?_, ?_⟩
  · intro vst3s aus plid entry
    exact Registry.resolve_eq_some_iff
  · intro vst3s aus plid
    exact Registry.resolve_isSome_iff
  · intro raw v0 v1 v2 v3 e h
    exact identifies_ofRaw_iff h e
  · intro plid h
    exact lookupKey_eq_pluginKey h
  · intro a b ha hb
    exact pluginKey_eq_iff ha hb

end Plugins
end OpenMk3
