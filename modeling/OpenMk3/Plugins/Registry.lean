import OpenMk3.Library.Hex
import OpenMk3.Library.Search
import OpenMk3.Nks.Types

/-!
# Plugin registry

The keys under which scanned plugins are stored, and the resolution of a
preset's plugin id to a scanned plugin.
-/

namespace OpenMk3
namespace Plugins

open Library Nks

/-!
## Scanned plugins
-/

structure Vst3Plugin where
  bundle : Path
  name : String
  vendor : String
  classUid : Vector UInt32 4
  categories : List String
deriving DecidableEq, Repr

structure AuPlugin where
  ty : UInt32
  subtype : UInt32
  manufacturer : UInt32
  name : String
  manufacturerName : String
deriving DecidableEq, Repr

inductive PluginEntry where
  | vst3 (v : Vst3Plugin)
  | audioUnit (a : AuPlugin)
deriving DecidableEq, Repr

/-!
## Keys
-/

structure PluginKey where
  key : String
deriving DecidableEq, Hashable, Repr

namespace PluginKey

def fromVst3Uid (uid : Vector UInt32 4) : PluginKey :=
  { key := "vst3:" ++ hex (uid.get 0) ++ hex (uid.get 1) ++ hex (uid.get 2) ++
      hex (uid.get 3) }

def fromAu (ty subtype manu : UInt32) : PluginKey :=
  { key := "au:" ++ hex ty ++ ":" ++ hex subtype ++ ":" ++ hex manu }

def fromVst2 (magic : UInt32) : PluginKey :=
  { key := "vst2:" ++ hex magic }

end PluginKey

/-- The key that `resolve` looks up; an unknown plugin has none. -/
def lookupKey : NksPluginId -> Option PluginKey
  | .vst3 uid _ => some (PluginKey.fromVst3Uid (uid.map Int32.toUInt32))
  | .audioUnit ty subtype manufacturer _ =>
      some (PluginKey.fromAu ty subtype manufacturer)
  | .vst2 magic => some (PluginKey.fromVst2 magic)
  | .unknown => none

def PluginEntry.key : PluginEntry -> PluginKey
  | .vst3 v => PluginKey.fromVst3Uid v.classUid
  | .audioUnit a => PluginKey.fromAu a.ty a.subtype a.manufacturer

/-!
## The registry
-/

structure Registry where
  byKey : Std.HashMap PluginKey PluginEntry

namespace Registry

/-- The registry of the plugins that the two platform scans found. -/
def scan (vst3s : List Vst3Plugin) (aus : List AuPlugin) : Registry :=
  let byKey := vst3s.foldl
    (fun m v => m.insert (PluginKey.fromVst3Uid v.classUid) (.vst3 v)) ∅
  { byKey := aus.foldl
      (fun m a => m.insert (PluginKey.fromAu a.ty a.subtype a.manufacturer)
        (.audioUnit a)) byKey }

def resolve (r : Registry) (plid : NksPluginId) : Option PluginEntry :=
  match lookupKey plid with
  | some key => r.byKey[key]?
  | none => none

/-- The entries in the order of their insertion. -/
def entries (vst3s : List Vst3Plugin) (aus : List AuPlugin) :
    List PluginEntry :=
  vst3s.map .vst3 ++ aus.map .audioUnit

theorem scan_eq_foldl (vst3s : List Vst3Plugin) (aus : List AuPlugin) :
    (scan vst3s aus).byKey =
      (entries vst3s aus).foldl (fun m e => m.insert e.key e) ∅ := by
  unfold entries
  rw [List.foldl_append, List.foldl_map, List.foldl_map]
  rfl

theorem scan_getElem? (vst3s : List Vst3Plugin) (aus : List AuPlugin)
    (key : PluginKey) :
    (scan vst3s aus).byKey[key]? =
      (entries vst3s aus).findRev? fun e => e.key == key := by
  rw [scan_eq_foldl]
  have hfold := getElem?_foldl_insert PluginEntry.key id (entries vst3s aus)
    (∅ : Std.HashMap PluginKey PluginEntry) key
  rw [Std.HashMap.getElem?_empty, Option.or_none, Option.map_id] at hfold
  exact hfold

end Registry

/-!
## Keys and identifiers
-/

theorem vector4_ext {α : Type} {u v : Vector α 4} (h0 : u.get 0 = v.get 0)
    (h1 : u.get 1 = v.get 1) (h2 : u.get 2 = v.get 2)
    (h3 : u.get 3 = v.get 3) : u = v := by
  apply Vector.ext
  intro i hi
  match i, hi with
  | 0, _ => exact h0
  | 1, _ => exact h1
  | 2, _ => exact h2
  | 3, _ => exact h3

theorem fromVst3Uid_inj {u v : Vector UInt32 4} :
    PluginKey.fromVst3Uid u = PluginKey.fromVst3Uid v <-> u = v := by
  constructor
  · intro h
    have htext := congrArg (fun k => k.key.toList) h
    simp only [PluginKey.fromVst3Uid, String.toList_append, hex_toList,
      List.append_assoc, List.append_cancel_left_eq, hexWord_append_inj,
      hexWord_inj] at htext
    rcases htext with ⟨h0, h1, h2, h3⟩
    exact vector4_ext h0 h1 h2 h3
  · intro h
    rw [h]

theorem fromAu_inj {ty subtype manu ty' subtype' manu' : UInt32} :
    PluginKey.fromAu ty subtype manu = PluginKey.fromAu ty' subtype' manu' <->
      ty = ty' ∧ subtype = subtype' ∧ manu = manu' := by
  constructor
  · intro h
    have htext := congrArg (fun k => k.key.toList) h
    simpa only [PluginKey.fromAu, String.toList_append, hex_toList,
      List.append_assoc, List.append_cancel_left_eq, hexWord_append_inj,
      hexWord_inj] using htext
  · intro h
    rw [h.left, h.right.left, h.right.right]

theorem fromVst2_inj {m n : UInt32} :
    PluginKey.fromVst2 m = PluginKey.fromVst2 n <-> m = n := by
  constructor
  · intro h
    have htext := congrArg (fun k => k.key.toList) h
    simpa only [PluginKey.fromVst2, String.toList_append, hex_toList,
      List.append_cancel_left_eq, hexWord_inj] using htext
  · intro h
    rw [h]

/-- The text before the first colon of a key. -/
def PluginKey.format (k : PluginKey) : List Char :=
  k.key.toList.takeWhile fun c => c ≠ ':'

theorem PluginKey.ne_of_format {j k : PluginKey} (h : j.format ≠ k.format) :
    j ≠ k := fun heq => h (congrArg PluginKey.format heq)

@[simp] theorem fromVst3Uid_format (u : Vector UInt32 4) :
    (PluginKey.fromVst3Uid u).format = ['v', 's', 't', '3'] := by
  simp [PluginKey.format, PluginKey.fromVst3Uid]

@[simp] theorem fromAu_format (ty subtype manu : UInt32) :
    (PluginKey.fromAu ty subtype manu).format = ['a', 'u'] := by
  simp [PluginKey.format, PluginKey.fromAu]

@[simp] theorem fromVst2_format (m : UInt32) :
    (PluginKey.fromVst2 m).format = ['v', 's', 't', '2'] := by
  simp [PluginKey.format, PluginKey.fromVst2]

/-!
## Identifiers
-/

/-- Agreement on the format and its identifiers; names do not count. -/
def SamePlugin : NksPluginId -> NksPluginId -> Prop
  | .vst3 u _, .vst3 v _ => u = v
  | .vst2 m, .vst2 n => m = n
  | .audioUnit t s m _, .audioUnit t' s' m' _ => t = t' ∧ s = s' ∧ m = m'
  | _, _ => False

theorem toUInt32_injective : Function.Injective Int32.toUInt32 := by
  intro x y h
  rw [<- Int32.toInt32_toUInt32 x, h, Int32.toInt32_toUInt32]

theorem lookupKey_eq_iff {a b : NksPluginId} (ha : a ≠ .unknown) :
    lookupKey a = lookupKey b <-> SamePlugin a b := by
  have hmap : forall u v : Vector Int32 4,
      u.map Int32.toUInt32 = v.map Int32.toUInt32 <-> u = v :=
    fun u v => Vector.map_inj_right fun x y h => toUInt32_injective h
  cases a with
  | unknown =>
      exact absurd rfl ha
  | vst3 u name =>
      cases b with
      | vst3 v name' =>
          simp [lookupKey, SamePlugin, fromVst3Uid_inj, hmap]
      | vst2 n =>
          simp [lookupKey, SamePlugin, PluginKey.ne_of_format]
      | audioUnit t s m name' =>
          simp [lookupKey, SamePlugin, PluginKey.ne_of_format]
      | unknown =>
          simp [lookupKey, SamePlugin]
  | vst2 m =>
      cases b with
      | vst3 v name' =>
          simp [lookupKey, SamePlugin, PluginKey.ne_of_format]
      | vst2 n =>
          simp [lookupKey, SamePlugin, fromVst2_inj]
      | audioUnit t s m' name' =>
          simp [lookupKey, SamePlugin, PluginKey.ne_of_format]
      | unknown =>
          simp [lookupKey, SamePlugin]
  | audioUnit t s m name =>
      cases b with
      | vst3 v name' =>
          simp [lookupKey, SamePlugin, PluginKey.ne_of_format]
      | vst2 n =>
          simp [lookupKey, SamePlugin, PluginKey.ne_of_format]
      | audioUnit t' s' m' name' =>
          simp [lookupKey, SamePlugin, fromAu_inj]
      | unknown =>
          simp [lookupKey, SamePlugin]

/-- A word holds an integer modulo 2^32. -/
def Congruent (w : UInt32) (n : Int) : Prop :=
  (w.toNat : Int) % 2 ^ 32 = n % 2 ^ 32

/-- A scanned plugin has the format and the identifiers of a preset's id. -/
def Identifies : NksPluginId -> PluginEntry -> Prop
  | .vst3 uid _, .vst3 v =>
      forall i, Congruent (v.classUid.get i) (uid.get i).toInt
  | .audioUnit ty subtype manufacturer _, .audioUnit a =>
      a.ty = ty ∧ a.subtype = subtype ∧ a.manufacturer = manufacturer
  | _, _ => False

theorem toUInt32_toNat (v : Int32) :
    (v.toUInt32.toNat : Int) = v.toInt % 2 ^ 32 := by
  have hlt := v.toBitVec.isLt
  rw [<- Int32.toInt_toBitVec, <- UInt32.toNat_toBitVec,
    Int32.toBitVec_toUInt32, BitVec.toInt_eq_toNat_cond]
  split <;> omega

theorem congruent_iff {w : UInt32} {v : Int32} :
    Congruent w v.toInt <-> w = v.toUInt32 := by
  have hw := w.toNat_lt
  unfold Congruent
  rw [<- toUInt32_toNat, <- UInt32.toNat_inj]
  omega

theorem congruent_toInt32 {w : UInt32} {v : Int64} :
    Congruent w v.toInt32.toInt <-> Congruent w v.toInt := by
  have hbmod : v.toInt32.toInt % 2 ^ 32 = v.toInt % 2 ^ 32 := by
    rw [Int64.toInt_toInt32]
    exact Int.bmod_emod
  unfold Congruent
  rw [hbmod]

theorem get_map_toUInt32 (uid : Vector Int32 4) (i : Fin 4) :
    (uid.map Int32.toUInt32).get i = (uid.get i).toUInt32 :=
  Vector.getElem_map _ i.isLt

/-- The stored keys that a lookup matches are those of the same plugin. -/
theorem key_eq_iff_identifies {plid : NksPluginId} {key : PluginKey}
    (h : lookupKey plid = some key) (e : PluginEntry) :
    e.key = key <-> Identifies plid e := by
  cases plid with
  | unknown =>
      cases h
  | vst2 magic =>
      cases h
      cases e with
      | vst3 v =>
          simp [PluginEntry.key, Identifies, PluginKey.ne_of_format]
      | audioUnit a =>
          simp [PluginEntry.key, Identifies, PluginKey.ne_of_format]
  | vst3 uid name =>
      cases h
      cases e with
      | vst3 v =>
          rw [PluginEntry.key, fromVst3Uid_inj]
          constructor
          · intro huid i
            rw [congruent_iff, huid, get_map_toUInt32]
          · intro hwords
            have hget : forall i, v.classUid.get i =
                (uid.map Int32.toUInt32).get i := fun i => by
              rw [get_map_toUInt32]
              exact congruent_iff.mp (hwords i)
            exact vector4_ext (hget 0) (hget 1) (hget 2) (hget 3)
      | audioUnit a =>
          simp [PluginEntry.key, Identifies, PluginKey.ne_of_format]
  | audioUnit ty subtype manufacturer name =>
      cases h
      cases e with
      | vst3 v =>
          simp [PluginEntry.key, Identifies, PluginKey.ne_of_format]
      | audioUnit a =>
          simp [PluginEntry.key, Identifies, fromAu_inj]

theorem lookupKey_eq_none_iff {plid : NksPluginId} :
    lookupKey plid = none <-> plid = .unknown := by
  cases plid with
  | unknown =>
      simp [lookupKey]
  | vst3 uid name =>
      simp [lookupKey]
  | vst2 magic =>
      simp [lookupKey]
  | audioUnit ty subtype manufacturer name =>
      simp [lookupKey]

namespace Registry

theorem resolve_eq_some_iff {vst3s : List Vst3Plugin} {aus : List AuPlugin}
    {plid : NksPluginId} {entry : PluginEntry} :
    (scan vst3s aus).resolve plid = some entry <->
      Identifies plid entry ∧ exists front back,
        entries vst3s aus = front ++ entry :: back ∧
          forall e, e ∈ back -> Not (Identifies plid e) := by
  unfold resolve
  cases hkey : lookupKey plid with
  | none =>
      rw [lookupKey_eq_none_iff.mp hkey]
      simp [Identifies]
  | some key =>
      dsimp only
      rw [scan_getElem?, findRev?_eq_some_iff]
      simp only [beq_iff_eq, beq_eq_false_iff_ne, ne_eq,
        key_eq_iff_identifies hkey]

theorem resolve_isSome_iff {vst3s : List Vst3Plugin} {aus : List AuPlugin}
    {plid : NksPluginId} :
    (exists entry, (scan vst3s aus).resolve plid = some entry) <->
      exists e, e ∈ entries vst3s aus ∧ Identifies plid e := by
  constructor
  · intro h
    rcases h with ⟨entry, hentry⟩
    rcases resolve_eq_some_iff.mp hentry with ⟨hid, front, back, hsplit, _⟩
    exact ⟨entry, by rw [hsplit]; simp, hid⟩
  · intro h
    rcases h with ⟨e, hmem, hid⟩
    unfold resolve
    cases hkey : lookupKey plid with
    | none =>
        rw [lookupKey_eq_none_iff.mp hkey] at hid
        cases hid
    | some key =>
        dsimp only
        rw [scan_getElem?, List.findRev?_eq_find?_reverse,
          <- Option.isSome_iff_exists, List.find?_isSome]
        refine ⟨e, List.mem_reverse.mpr hmem, ?_⟩
        rw [beq_iff_eq]
        exact (key_eq_iff_identifies hkey e).mpr hid

end Registry

end Plugins
end OpenMk3
