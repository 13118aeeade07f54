import OpenMk3.Index.Scanner
import OpenMk3.Library.Fallible
import OpenMk3.Library.Text
import OpenMk3.Plugins.Registry

/-!
# Class ids

The class id of a `moduleinfo.json` and the scan of the VST3 bundles that reads
it.  The text is cut at byte offsets, so that a computation here may panic
instead of returning `None`.
-/

namespace OpenMk3
namespace Plugins

open Library Nks

/-!
## Numbers
-/

/-- One step of the number parser; nothing when 32 bits are exceeded. -/
def addDigit16 (n : Nat) (c : Char) : Option Nat := do
  let x <- toDigit16 c
  if 16 * n + x < 2 ^ 32 then some (16 * n + x) else none

/-- `u32::from_str_radix` in base 16. -/
def fromStrRadix16 (src : List Char) : Option UInt32 :=
  match src with
  | [] => none
  | ['+'] => none
  | '+' :: digits => (digits.foldlM addDigit16 0).map UInt32.ofNat
  | digits => (digits.foldlM addDigit16 0).map UInt32.ofNat

/-!
## Class ids
-/

/-- `trim_start_matches("0x")`. -/
def trimStart0x : List Char -> List Char
  | '0' :: 'x' :: rest => trimStart0x rest
  | cs => cs

/-- `None` at once, without a panic. -/
def returned {α : Type} (x : Option α) : OptionT Option α := OptionT.mk (some x)

def word? (s : List Char) (start stop : Nat) : OptionT Option UInt32 :=
  OptionT.mk ((sliceText? s start stop).map fromStrRadix16)

/-- `parse_cid`, which panics where a slice does. -/
def parseCid (cid : String) : OptionT Option (Vector UInt32 4) :=
  let s := trimStart0x cid.toList
  if byteLength s ≠ 32 then returned none
  else do
    let w0 <- word? s 0 8
    let w1 <- word? s 8 16
    let w2 <- word? s 16 24
    let w3 <- word? s 24 32
    pure #v[w0, w1, w2, w3]

/-!
## Bundles
-/

structure FactoryInfo where
  vendor : String

structure ClassInfo where
  name : String
  category : String
  cid : String
  subCategories : List String

structure ModuleInfo where
  factory : FactoryInfo
  classes : List ClassInfo

/-- The outside of a scan: the home directory, the file system, and the reader
of `moduleinfo.json`. -/
structure Bundles where
  home : Option Path
  isPresent : Path -> Bool
  readDir : Path -> Option (List Path)
  readToString : Path -> Option String
  fromStr : String -> Option ModuleInfo

namespace Bundles

def expand (env : Bundles) : Path -> Path
  | "~" :: rest =>
      match env.home with
      | some home => home ++ rest
      | none => "~" :: rest
  | p => p

/-- The first class of a bundle that is an audio module, with the vendor. -/
def audioModule (env : Bundles) (bundle : Path) : Option (FactoryInfo × ClassInfo) := do
  let text <- env.readToString (bundle ++ ["Contents", "moduleinfo.json"])
  let info <- env.fromStr text
  let class_ <- info.classes.find? fun c => c.category == "Audio Module Class"
  some (info.factory, class_)

def tryReadModuleinfo (env : Bundles) (bundle : Path) : OptionT Option Vst3Plugin := do
  let (factory, class_) <- returned (env.audioModule bundle)
  let cid <- parseCid class_.cid
  pure
    { bundle := bundle
      name := class_.name
      vendor := factory.vendor
      classUid := cid
      categories := class_.category :: class_.subCategories }

/-- One entry of a directory. -/
def scanEntry (env : Bundles) (out : List Vst3Plugin) (p : Path) :
    Option (List Vst3Plugin) :=
  if p.getLast?.bind Index.extension = some "vst3" then
    (env.tryReadModuleinfo p).run.map fun pl => out ++ pl.toList
  else some out

def scanRoot (env : Bundles) (out : List Vst3Plugin) (root : Path) :
    Option (List Vst3Plugin) :=
  let root := env.expand root
  if env.isPresent root then
    match env.readDir root with
    | none => some out
    | some entries => entries.foldlM env.scanEntry out
  else some out

def roots : List Path :=
  [["/", "Library", "Audio", "Plug-Ins", "VST3"],
    ["~", "Library", "Audio", "Plug-Ins", "VST3"]]

/-- `scan_mac_system_and_user`; nothing when it panics. -/
def scanMacSystemAndUser (env : Bundles) : Option (List Vst3Plugin) :=
  roots.foldlM env.scanRoot []

end Bundles

/-!
## What an id is
-/

def digitsValue (ds : List Nat) : Nat := ds.foldl (fun n d => 16 * n + d) 0

def HasValue (digits : List Char) (v : Nat) : Prop :=
  exists ds : List Nat, digits.map toDigit16 = ds.map some ∧ digitsValue ds = v

/-- Eight hexadecimal digits spell a word. -/
def Spells (group : List Char) (w : UInt32) : Prop :=
  group.length = 8 ∧ HasValue group w.toNat

/-- An optional `0x`, then the four words. -/
def IsClassId (cid : String) (uid : Vector UInt32 4) : Prop :=
  exists lead groups, cid.toList = lead ++ groups.flatten ∧
    (lead = [] ∨ lead = ['0', 'x']) ∧ List.Forall₂ Spells groups uid.toList

/-- The parser returns, and returns the words of the id if it is one. -/
def ParsesExactly (cid : String) : Prop :=
  exists r, (parseCid cid).run = some r ∧ forall uid, r = some uid <-> IsClassId cid uid

/-!
## When the parser is exact
-/

/-- A group that the number parser takes: eight digits, or a plus sign and
seven. -/
def IsGroup (group : List Char) : Prop :=
  group.length = 8 ∧
    exists sign digits, group = sign ++ digits ∧ (sign = [] ∨ sign = ['+']) ∧
      forall c, c ∈ digits -> (toDigit16 c).isSome

/-- Behind some groups, a character straddles the end of the next one. -/
def Straddles (s : List Char) : Prop :=
  exists groups front c back, s = List.flatten groups ++ (front ++ c :: back) ∧
    (forall g, g ∈ groups -> IsGroup g) ∧
    byteLength front < 8 ∧ 8 < byteLength front + c.utf8Size

/-- The slices panic. -/
def Splits (cid : String) : Prop :=
  byteLength (trimStart0x cid.toList) = 32 ∧ Straddles (trimStart0x cid.toList)

/-- The four groups are taken although the text is no id. -/
def TakenLoosely (cid : String) : Prop :=
  (exists groups : List (List Char), groups.length = 4 ∧
    trimStart0x cid.toList = groups.flatten ∧ forall g, g ∈ groups -> IsGroup g) ∧
  ('+' ∈ cid.toList ∨ ['0', 'x', '0', 'x'] <+: cid.toList)

/-!
## Numbers
-/

theorem utf8Size_of_toDigit16 {c : Char} (h : (toDigit16 c).isSome) :
    c.utf8Size = 1 := by
  have hle : c.val ≤ 0x7f := by
    rcases isSome_toDigit16 h with hc | hc | hc
    · exact UInt32.le_trans hc.right (by decide)
    · exact UInt32.le_trans hc.right (by decide)
    · exact UInt32.le_trans hc.right (by decide)
  exact if_pos hle

theorem byteLength_of_digits {cs : List Char}
    (h : forall c, c ∈ cs -> (toDigit16 c).isSome) : byteLength cs = cs.length := by
  induction cs with
  | nil =>
      rfl
  | cons c cs ih =>
      rw [byteLength_cons, utf8Size_of_toDigit16 (h c (by simp)),
        ih (fun d hd => h d (by simp [hd])), List.length_cons, Nat.add_comm]

theorem foldl_lt {ds : List Nat} {n k : Nat} (hds : forall d, d ∈ ds -> d < 16)
    (hn : n < 16 ^ k) :
    ds.foldl (fun n d => 16 * n + d) n < 16 ^ (k + ds.length) := by
  induction ds generalizing n k with
  | nil =>
      exact hn
  | cons d ds ih =>
      have hd := hds d (by simp)
      have hnext : 16 * n + d < 16 ^ (k + 1) := by
        rw [Nat.pow_succ]
        omega
      rw [List.length_cons, Nat.add_comm ds.length, <- Nat.add_assoc]
      exact ih (fun d hd => hds d (by simp [hd])) hnext

theorem HasValue.lt {digits : List Char} {v : Nat} (h : HasValue digits v) :
    v < 16 ^ digits.length := by
  rcases h with ⟨ds, hds, rfl⟩
  have hlt : forall d, d ∈ ds -> d < 16 := by
    intro d hd
    have hmem : some d ∈ digits.map toDigit16 := by
      rw [hds]
      exact List.mem_map_of_mem hd
    rcases List.mem_map.mp hmem with ⟨c, -, hc⟩
    exact toDigit16_lt hc
  have hlen := congrArg List.length hds
  rw [List.length_map, List.length_map] at hlen
  rw [hlen, <- Nat.zero_add ds.length]
  exact foldl_lt hlt (by decide)

theorem HasValue.lt_word {digits : List Char} {v : Nat} (h : HasValue digits v)
    (hlen : digits.length ≤ 8) : v < 2 ^ 32 :=
  Nat.lt_of_lt_of_le h.lt (Nat.pow_le_pow_right (by decide) hlen)

theorem HasValue.isSome {digits : List Char} {v : Nat} (h : HasValue digits v) :
    forall c, c ∈ digits -> (toDigit16 c).isSome := by
  rcases h with ⟨ds, hds, -⟩
  intro c hc
  have hmem : toDigit16 c ∈ ds.map some := by
    rw [<- hds]
    exact List.mem_map_of_mem hc
  rcases List.mem_map.mp hmem with ⟨d, -, hd⟩
  exact Option.isSome_of_eq_some hd.symm

theorem exists_hasValue {digits : List Char}
    (h : forall c, c ∈ digits -> (toDigit16 c).isSome) :
    exists v, HasValue digits v := by
  refine ⟨_, digits.filterMap toDigit16, ?_, rfl⟩
  induction digits with
  | nil =>
      rfl
  | cons c digits ih =>
      rcases Option.isSome_iff_exists.mp (h c (by simp)) with ⟨x, hx⟩
      rw [List.filterMap_cons_some hx, List.map_cons, List.map_cons, hx,
        ih fun d hd => h d (by simp [hd])]

/-- While no more than eight digits are read, nothing overflows. -/
theorem foldlM_addDigit16 {cs : List Char} {n k v : Nat} (hn : n < 16 ^ k)
    (hk : k + cs.length ≤ 8) :
    cs.foldlM addDigit16 n = some v <->
      exists ds : List Nat, cs.map toDigit16 = ds.map some ∧
        ds.foldl (fun n d => 16 * n + d) n = v := by
  induction cs generalizing n k with
  | nil =>
      constructor
      · rintro ⟨⟩
        exact ⟨[], rfl, rfl⟩
      · rintro ⟨ds, hds, rfl⟩
        rw [List.map_nil, eq_comm, List.map_eq_nil_iff] at hds
        rw [hds]
        rfl
  | cons c cs ih =>
      rw [List.length_cons] at hk
      rw [List.foldlM_cons]
      cases hc : toDigit16 c with
      | none =>
          simp only [addDigit16, hc, Option.bind_eq_bind, Option.bind_none]
          constructor
          · nofun
          · rintro ⟨ds, hds, -⟩
            cases ds <;> simp [hc] at hds
      | some x =>
          have hx := toDigit16_lt hc
          have hpow : 16 ^ (k + 1) ≤ 16 ^ 8 :=
            Nat.pow_le_pow_right (by decide) (by omega)
          have hnext : 16 * n + x < 16 ^ (k + 1) := by
            rw [Nat.pow_succ]
            omega
          have hword : 16 * n + x < 2 ^ 32 :=
            Nat.lt_of_lt_of_le hnext hpow
          simp only [addDigit16, hc, Option.bind_eq_bind, Option.bind_some, if_pos hword]
          rw [ih hnext (by omega)]
          constructor
          · rintro ⟨ds, hds, hv⟩
            exact ⟨x :: ds, by rw [List.map_cons, List.map_cons, hc, hds], hv⟩
          · rintro ⟨ds, hds, hv⟩
            cases ds with
            | nil =>
                simp at hds
            | cons d ds =>
                rw [List.map_cons, List.map_cons, hc] at hds
                injection hds with hd hds
                cases hd
                exact ⟨ds, hds, hv⟩

theorem map_foldlM_addDigit16 {cs : List Char} {w : UInt32} (hlen : cs.length ≤ 8) :
    (cs.foldlM addDigit16 0).map UInt32.ofNat = some w <-> HasValue cs w.toNat := by
  have hfold {v : Nat} : cs.foldlM addDigit16 0 = some v <-> HasValue cs v :=
    foldlM_addDigit16 (by decide : 0 < 16 ^ 0) (by omega)
  constructor
  · intro h
    rcases Option.map_eq_some_iff.mp h with ⟨v, hv, rfl⟩
    have hvalue := hfold.mp hv
    rw [UInt32.toNat_ofNat_of_lt' (hvalue.lt_word hlen)]
    exact hvalue
  · intro h
    rw [hfold.mpr h, Option.map_some, UInt32.ofNat_toNat]

/-- The number parser takes an optional plus sign and at least one digit. -/
theorem fromStrRadix16_eq_some_iff {g : List Char} {w : UInt32} (hlen : g.length ≤ 8) :
    fromStrRadix16 g = some w <-> exists sign digits, g = sign ++ digits ∧
      (sign = [] ∨ sign = ['+']) ∧ digits ≠ [] ∧ HasValue digits w.toNat := by
  constructor
  · intro h
    unfold fromStrRadix16 at h
    split at h
    · cases h
    · cases h
    · next digits hne =>
        rw [List.length_cons] at hlen
        refine ⟨['+'], digits, rfl, Or.inr rfl, ?_,
          (map_foldlM_addDigit16 (by omega)).mp h⟩
        rintro rfl
        exact hne rfl
    · next hne _ _ =>
        exact ⟨[], g, rfl, Or.inl rfl, hne, (map_foldlM_addDigit16 hlen).mp h⟩
  · rintro ⟨sign, digits, rfl, rfl | rfl, hne, hvalue⟩
    · have hplus : forall rest, digits ≠ '+' :: rest := by
        rintro rest rfl
        exact absurd (hvalue.isSome '+' (by simp)) (by decide)
      show fromStrRadix16 digits = some w
      unfold fromStrRadix16
      split
      · exact absurd rfl hne
      · exact absurd rfl (hplus [])
      · exact absurd rfl (hplus _)
      · exact (map_foldlM_addDigit16 hlen).mpr hvalue
    · rw [List.length_append] at hlen
      show fromStrRadix16 ('+' :: digits) = some w
      cases digits with
      | nil =>
          exact absurd rfl hne
      | cons c digits =>
          exact (map_foldlM_addDigit16 (Nat.le_of_add_left_le hlen)).mpr hvalue

/-!
## Groups
-/

/-- A group of eight bytes that the number parser takes. -/
def Reads (group : List Char) (w : UInt32) : Prop :=
  byteLength group = 8 ∧ fromStrRadix16 group = some w

theorem length_le_byteLength (cs : List Char) : cs.length ≤ byteLength cs := by
  induction cs with
  | nil =>
      exact Nat.le_refl 0
  | cons c cs ih =>
      have hpos := c.utf8Size_pos
      rw [List.length_cons, byteLength_cons]
      omega

theorem byteLength_sign {sign digits : List Char} (hsign : sign = [] ∨ sign = ['+'])
    (hdigits : forall c, c ∈ digits -> (toDigit16 c).isSome) :
    byteLength (sign ++ digits) = (sign ++ digits).length := by
  rw [byteLength_append, List.length_append, byteLength_of_digits hdigits]
  rcases hsign with rfl | rfl
  · rfl
  · rfl

theorem Reads.isGroup {group : List Char} {w : UInt32} (h : Reads group w) :
    IsGroup group := by
  have hle : group.length ≤ 8 := h.left ▸ length_le_byteLength group
  rcases (fromStrRadix16_eq_some_iff hle).mp h.right with
    ⟨sign, digits, rfl, hsign, -, hvalue⟩
  have hlen := byteLength_sign hsign hvalue.isSome
  exact ⟨hlen ▸ h.left, sign, digits, rfl, hsign, hvalue.isSome⟩

theorem IsGroup.reads {group : List Char} (h : IsGroup group) :
    exists w, Reads group w := by
  rcases h with ⟨hlen, sign, digits, rfl, hsign, hdigits⟩
  rcases exists_hasValue hdigits with ⟨v, hvalue⟩
  have hle : digits.length ≤ 8 := by
    rw [List.length_append] at hlen
    omega
  have hne : digits ≠ [] := by
    rintro rfl
    rcases hsign with rfl | rfl
    · exact absurd hlen (by decide)
    · exact absurd hlen (by decide)
  refine ⟨UInt32.ofNat v, ?_, ?_⟩
  · rw [byteLength_sign hsign hdigits, hlen]
  · refine (fromStrRadix16_eq_some_iff (Nat.le_of_eq hlen)).mpr
      ⟨sign, digits, rfl, hsign, hne, ?_⟩
    rw [UInt32.toNat_ofNat_of_lt' (hvalue.lt_word hle)]
    exact hvalue

/-- Without a plus sign, taking a group is reading its eight digits. -/
theorem spells_iff {group : List Char} {w : UInt32} :
    Spells group w <-> Reads group w ∧ '+' ∉ group := by
  constructor
  · rintro ⟨hlen, hvalue⟩
    have hne : group ≠ [] := by
      rintro rfl
      exact absurd hlen (by decide)
    refine ⟨⟨?_, ?_⟩, ?_⟩
    · rw [byteLength_of_digits hvalue.isSome, hlen]
    · exact (fromStrRadix16_eq_some_iff (Nat.le_of_eq hlen)).mpr
        ⟨[], group, rfl, Or.inl rfl, hne, hvalue⟩
    · intro hplus
      exact absurd (hvalue.isSome '+' hplus) (by decide)
  · rintro ⟨hreads, hplus⟩
    have hlen := hreads.isGroup.left
    rcases (fromStrRadix16_eq_some_iff (Nat.le_of_eq hlen)).mp hreads.right with
      ⟨sign, digits, rfl, rfl | rfl, -, hvalue⟩
    · exact ⟨hlen, hvalue⟩
    · exact absurd (List.mem_append_left _ List.mem_cons_self) hplus

/-- The words of the next `k` groups from a byte offset on. -/
def wordsAt : Nat -> Nat -> List Char -> OptionT Option (List UInt32)
  | 0, _, _ => pure []
  | k + 1, start, s => do
      let w <- word? s start (start + 8)
      let ws <- wordsAt k (start + 8) s
      pure (w :: ws)

/-- The three outcomes of the next group. -/
theorem wordsAt_succ (k : Nat) (front cs : List Char) :
    (wordsAt (k + 1) (byteLength front) (front ++ cs)).run =
      match splitAt? 8 cs with
      | none => none
      | some (group, _) =>
          match fromStrRadix16 group with
          | none => some none
          | some w => (wordsAt k (byteLength front + 8) (front ++ cs)).run.map
              fun ws => ws.map (w :: ·) := by
  simp only [wordsAt, word?, sliceText?_append_left]
  cases splitAt? 8 cs with
  | none =>
      rfl
  | some parts =>
      rcases parts with ⟨group, rest⟩
      rw [Option.map_some, Option.map_some]
      simp only
      cases fromStrRadix16 group with
      | none =>
          rfl
      | some w =>
          show (wordsAt k (byteLength front + 8) (front ++ cs) >>= fun ws =>
            pure (w :: ws)).run = _
          rw [OptionT.run_bind]
          cases (wordsAt k (byteLength front + 8) (front ++ cs)).run with
          | none =>
              rfl
          | some r =>
              cases r with
              | none =>
                  rfl
              | some ws =>
                  rfl

theorem straddles_of_splitAt?_eq_none {cs : List Char} (hlen : 8 ≤ byteLength cs)
    (h : splitAt? 8 cs = none) : Straddles cs := by
  rcases (splitAt?_eq_none_iff hlen).mp h with ⟨front, c, back, hcs, hlt, hgt⟩
  exact ⟨[], front, c, back, hcs, nofun, hlt, hgt⟩

theorem IsGroup.byteLength {group : List Char} (h : IsGroup group) :
    byteLength group = 8 :=
  h.reads.choose_spec.left

/-- Behind a group, the rest of the text is as before. -/
theorem straddles_iff {cs group rest : List Char}
    (h : splitAt? 8 cs = some (group, rest)) :
    Straddles cs <-> IsGroup group ∧ Straddles rest := by
  rcases splitAt?_eq_some h with ⟨rfl, hlen⟩
  constructor
  · rintro ⟨groups, front, c, back, hcs, hgroups, hlt, hgt⟩
    cases groups with
    | nil =>
        have hle : 8 ≤ Library.byteLength (group ++ rest) := by
          rw [byteLength_append]
          omega
        have hnone := (splitAt?_eq_none_iff hle).mpr ⟨front, c, back, hcs, hlt, hgt⟩
        rw [h] at hnone
        cases hnone
    | cons g groups =>
        have hg := hgroups g (by simp)
        have hsplit := splitAt?_append g (groups.flatten ++ (front ++ c :: back))
        rw [hg.byteLength, <- List.append_assoc, <- List.flatten_cons, <- hcs, h] at hsplit
        cases hsplit
        exact ⟨hg, groups, front, c, back, rfl, fun g' hg' => hgroups g' (by simp [hg']),
          hlt, hgt⟩
  · rintro ⟨hg, groups, front, c, back, rfl, hgroups, hlt, hgt⟩
    refine ⟨group :: groups, front, c, back, ?_, ?_, hlt, hgt⟩
    · rw [List.flatten_cons, List.append_assoc]
    · intro g hmem
      rcases List.mem_cons.mp hmem with rfl | hmem
      · exact hg
      · exact hgroups g hmem

/-- The groups panic exactly where a character straddles the end of one. -/
theorem wordsAt_eq_none_iff {k : Nat} (front : List Char) {cs : List Char}
    (h : byteLength cs = 8 * k) :
    (wordsAt k (byteLength front) (front ++ cs)).run = none <-> Straddles cs := by
  induction k generalizing front cs with
  | zero =>
      constructor
      · nofun
      · rintro ⟨groups, piece, c, back, rfl, -, -, hgt⟩
        simp only [byteLength_append, byteLength_cons] at h
        omega
  | succ k ih =>
      rw [wordsAt_succ]
      cases hsplit : splitAt? 8 cs with
      | none =>
          have hstraddles := straddles_of_splitAt?_eq_none (by omega) hsplit
          exact iff_of_true rfl hstraddles
      | some parts =>
          rcases parts with ⟨group, rest⟩
          rw [straddles_iff hsplit]
          rcases splitAt?_eq_some hsplit with ⟨rfl, hgroup⟩
          have hrest : byteLength rest = 8 * k := by
            rw [byteLength_append] at h
            omega
          cases hread : fromStrRadix16 group with
          | none =>
              simp only [hread]
              refine iff_of_false nofun ?_
              rintro ⟨hg, -⟩
              rcases hg.reads with ⟨w, -, hw⟩
              rw [hread] at hw
              cases hw
          | some w =>
              have hg : IsGroup group := Reads.isGroup ⟨hgroup, hread⟩
              have hnext := ih (front ++ group) hrest
              rw [byteLength_append, hgroup, List.append_assoc] at hnext
              simp only [hread, Option.map_eq_none_iff, hnext, hg, true_and]

theorem wordsAt_eq_some_iff {k : Nat} (front : List Char) {cs : List Char}
    {ws : List UInt32} (h : byteLength cs = 8 * k) :
    (wordsAt k (byteLength front) (front ++ cs)).run = some (some ws) <->
      exists groups, cs = groups.flatten ∧ List.Forall₂ Reads groups ws := by
  induction k generalizing front cs ws with
  | zero =>
      have hle := length_le_byteLength cs
      have hcs : cs = [] := List.length_eq_zero_iff.mp (by omega)
      constructor
      · rintro ⟨⟩
        exact ⟨[], hcs, List.Forall₂.nil⟩
      · rintro ⟨groups, hgroups, hreads⟩
        cases hreads with
        | nil =>
            rfl
        | cons hread hreads =>
            rw [hgroups, List.flatten_cons, byteLength_append, hread.left] at h
            omega
  | succ k ih =>
      rw [wordsAt_succ]
      constructor
      · intro hrun
        cases hsplit : splitAt? 8 cs with
        | none =>
            simp [hsplit] at hrun
        | some parts =>
            rcases parts with ⟨group, rest⟩
            rcases splitAt?_eq_some hsplit with ⟨rfl, hgroup⟩
            cases hread : fromStrRadix16 group with
            | none =>
                simp [hsplit, hread] at hrun
            | some w =>
                simp only [hsplit, hread] at hrun
                rcases Option.map_eq_some_iff.mp hrun with ⟨tail, htail, heq⟩
                rcases Option.map_eq_some_iff.mp heq with ⟨ws', rfl, rfl⟩
                have hrest : byteLength rest = 8 * k := by
                  rw [byteLength_append] at h
                  omega
                rw [<- hgroup, <- byteLength_append, <- List.append_assoc] at htail
                rcases (ih (front ++ group) hrest).mp htail with ⟨groups, rfl, hreads⟩
                exact ⟨group :: groups, by rw [List.flatten_cons],
                  List.Forall₂.cons ⟨hgroup, hread⟩ hreads⟩
      · rintro ⟨groups, rfl, hreads⟩
        cases hreads with
        | nil =>
            simp at h
        | @cons group w groups ws' hread hreads =>
            have hsplit := splitAt?_append group groups.flatten
            rw [hread.left] at hsplit
            rw [List.flatten_cons] at h ⊢
            simp only [hsplit, hread.right]
            have hrest : byteLength groups.flatten = 8 * k := by
              rw [byteLength_append, hread.left] at h
              omega
            have hnext := (ih (front ++ group) hrest).mpr ⟨groups, rfl, hreads⟩
            rw [byteLength_append, hread.left, List.append_assoc] at hnext
            rw [hnext]
            rfl

/-- The four slices are the groups one after the other. -/
theorem parseCid_eq_wordsAt {cid : String}
    (h : byteLength (trimStart0x cid.toList) = 32) :
    Vector.toList <$> parseCid cid = wordsAt 4 0 (trimStart0x cid.toList) := by
  unfold parseCid
  simp only [h, ne_eq, not_true, if_false, map_bind, map_pure, wordsAt, bind_assoc,
    pure_bind]
  rfl

theorem parseCid_run_of_ne {cid : String}
    (h : byteLength (trimStart0x cid.toList) ≠ 32) :
    (parseCid cid).run = some none := by
  unfold parseCid
  rw [if_pos h]
  rfl

/-- The parser panics exactly where a group ends inside a character. -/
theorem parseCid_eq_none_iff {cid : String} :
    (parseCid cid).run = none <-> Splits cid := by
  by_cases h : byteLength (trimStart0x cid.toList) = 32
  · have hwords : (wordsAt 4 0 (trimStart0x cid.toList)).run = none <-> _ :=
      wordsAt_eq_none_iff [] h
    rw [<- parseCid_eq_wordsAt h, OptionT.run_map] at hwords
    rw [Splits, and_iff_right h, <- hwords]
    exact Option.map_eq_none_iff.symm
  · rw [parseCid_run_of_ne h]
    exact iff_of_false nofun fun hsplits => h hsplits.left

theorem parseCid_eq_some_iff {cid : String} {uid : Vector UInt32 4} :
    (parseCid cid).run = some (some uid) <->
      exists groups, trimStart0x cid.toList = groups.flatten ∧
        List.Forall₂ Reads groups uid.toList := by
  by_cases h : byteLength (trimStart0x cid.toList) = 32
  · have hwords : (wordsAt 4 0 (trimStart0x cid.toList)).run = some (some uid.toList) <-> _ :=
      wordsAt_eq_some_iff [] h
    rw [<- parseCid_eq_wordsAt h, OptionT.run_map] at hwords
    rw [<- hwords]
    constructor
    · intro hrun
      rw [hrun]
      rfl
    · intro hrun
      rcases Option.map_eq_some_iff.mp hrun with ⟨r, hr, hlist⟩
      rcases Option.map_eq_some_iff.mp hlist with ⟨uid', rfl, huid⟩
      rw [hr, Vector.toList_inj.mp huid]
  · rw [parseCid_run_of_ne h]
    refine iff_of_false nofun ?_
    rintro ⟨groups, hgroups, hreads⟩
    have hbytes : forall {gs : List (List Char)} {ws : List UInt32},
        List.Forall₂ Reads gs ws -> byteLength gs.flatten = 8 * ws.length := by
      intro gs ws hall
      induction hall with
      | nil =>
          rfl
      | cons hread _ ih =>
          rw [List.flatten_cons, byteLength_append, hread.left, ih, List.length_cons]
          omega
    rw [hgroups, hbytes hreads, Vector.length_toList] at h
    exact h rfl

/-!
## Leading zeros and signs
-/

theorem not_prefix_of_digits {cs : List Char}
    (h : forall c, c ∈ cs -> (toDigit16 c).isSome) (rest : List Char) :
    cs ≠ '0' :: 'x' :: rest := by
  rintro rfl
  exact absurd (h 'x' (by simp)) (by decide)

theorem trimStart0x_of_ne {cs : List Char} (h : forall rest, cs ≠ '0' :: 'x' :: rest) :
    trimStart0x cs = cs := by
  unfold trimStart0x
  split
  · exact absurd rfl (h _)
  · rfl

theorem trimStart0x_spec (cs : List Char) :
    exists lead, cs = lead ++ trimStart0x cs ∧ '+' ∉ lead ∧
      (['0', 'x', '0', 'x'] <+: cs ∨ lead = [] ∨ lead = ['0', 'x']) := by
  by_cases h : exists rest, cs = '0' :: 'x' :: rest
  · rcases h with ⟨rest, rfl⟩
    by_cases hagain : exists rest', rest = '0' :: 'x' :: rest'
    · rcases trimStart0x_spec rest with ⟨lead, hlead, hplus, -⟩
      rcases hagain with ⟨rest', hrest'⟩
      refine ⟨'0' :: 'x' :: lead, ?_, by simp [hplus], Or.inl ⟨rest', by rw [hrest']; rfl⟩⟩
      rw [trimStart0x, List.cons_append, List.cons_append, <- hlead]
    · have hrest := trimStart0x_of_ne fun rest' h => hagain ⟨rest', h⟩
      refine ⟨['0', 'x'], ?_, by decide, Or.inr (Or.inr rfl)⟩
      rw [trimStart0x, hrest]
      rfl
  · have hcs := trimStart0x_of_ne fun rest h' => h ⟨rest, h'⟩
    exact ⟨[], by rw [hcs, List.nil_append], by simp, Or.inr (Or.inl rfl)⟩
termination_by cs.length

theorem spells_flatten {groups : List (List Char)} {ws : List UInt32} :
    List.Forall₂ Spells groups ws <->
      List.Forall₂ Reads groups ws ∧ '+' ∉ groups.flatten := by
  induction groups generalizing ws with
  | nil =>
      constructor
      · rintro ⟨⟩
        exact ⟨List.Forall₂.nil, by simp⟩
      · rintro ⟨⟨⟩, -⟩
        exact List.Forall₂.nil
  | cons group groups ih =>
      cases ws with
      | nil =>
          exact iff_of_false nofun (fun h => nomatch h.left)
      | cons w ws =>
          simp only [List.forall₂_cons, ih, spells_iff, List.flatten_cons,
            List.mem_append, not_or]
          tauto

theorem digits_of_spells {groups : List (List Char)} {ws : List UInt32}
    (h : List.Forall₂ Spells groups ws) :
    forall c, c ∈ groups.flatten -> (toDigit16 c).isSome := by
  induction h with
  | nil =>
      simp
  | cons hspells _ ih =>
      intro c hc
      rcases List.mem_append.mp hc with hc | hc
      · exact hspells.right.isSome c hc
      · exact ih c hc

/-- The parser's answer is right when no sign and no second `0x` helped. -/
theorem isClassId_iff {cid : String} {uid : Vector UInt32 4} :
    IsClassId cid uid <-> (parseCid cid).run = some (some uid) ∧
      '+' ∉ cid.toList ∧ Not (['0', 'x', '0', 'x'] <+: cid.toList) := by
  rw [parseCid_eq_some_iff]
  constructor
  · rintro ⟨lead, groups, hcid, hlead, hspells⟩
    have hdigits := digits_of_spells hspells
    have htrim := trimStart0x_of_ne (not_prefix_of_digits hdigits)
    rcases spells_flatten.mp hspells with ⟨hreads, hplus⟩
    rw [hcid]
    rcases hlead with rfl | rfl
    · refine ⟨⟨groups, htrim, hreads⟩, hplus, ?_⟩
      rintro ⟨rest, hrest⟩
      exact not_prefix_of_digits hdigits _ hrest.symm
    · refine ⟨⟨groups, htrim, hreads⟩, by simpa using hplus, ?_⟩
      rintro ⟨rest, hrest⟩
      injection hrest with _ hrest
      injection hrest with _ hrest
      exact not_prefix_of_digits hdigits _ hrest.symm
  · rintro ⟨⟨groups, htrim, hreads⟩, hplus, hzero⟩
    rcases trimStart0x_spec cid.toList with ⟨lead, hcid, -, htwice | hlead⟩
    · exact absurd htwice hzero
    · rw [htrim] at hcid
      rw [hcid, List.mem_append, not_or] at hplus
      exact ⟨lead, groups, hcid, hlead, spells_flatten.mpr ⟨hreads, hplus.right⟩⟩

theorem exists_uid {groups : List (List Char)} (hlen : groups.length = 4)
    (h : forall g, g ∈ groups -> IsGroup g) :
    exists uid : Vector UInt32 4, List.Forall₂ Reads groups uid.toList := by
  have hall : forall gs : List (List Char), (forall g, g ∈ gs -> IsGroup g) ->
      exists ws, List.Forall₂ Reads gs ws := by
    intro gs hgs
    induction gs with
    | nil =>
        exact ⟨[], List.Forall₂.nil⟩
    | cons g gs ih =>
        rcases (hgs g (by simp)).reads with ⟨w, hw⟩
        rcases ih fun g' hg' => hgs g' (by simp [hg']) with ⟨ws, hws⟩
        exact ⟨w :: ws, List.Forall₂.cons hw hws⟩
  rcases hall groups h with ⟨ws, hws⟩
  have hws4 : ws.toArray.size = 4 := by
    rw [List.size_toArray, <- hws.length_eq, hlen]
  exact ⟨⟨ws.toArray, hws4⟩, hws⟩

theorem isGroup_of_mem {groups : List (List Char)} {ws : List UInt32}
    (h : List.Forall₂ Reads groups ws) : forall g, g ∈ groups -> IsGroup g := by
  induction h with
  | nil =>
      nofun
  | cons hread _ ih =>
      intro g hg
      rcases List.mem_cons.mp hg with rfl | hg
      · exact hread.isGroup
      · exact ih g hg

theorem takenLoosely_iff {cid : String} :
    TakenLoosely cid <-> (exists uid, (parseCid cid).run = some (some uid)) ∧
      ('+' ∈ cid.toList ∨ ['0', 'x', '0', 'x'] <+: cid.toList) := by
  refine and_congr_left fun _ => ?_
  constructor
  · rintro ⟨groups, hlen, htrim, hgroups⟩
    rcases exists_uid hlen hgroups with ⟨uid, huid⟩
    exact ⟨uid, parseCid_eq_some_iff.mpr ⟨groups, htrim, huid⟩⟩
  · rintro ⟨uid, hrun⟩
    rcases parseCid_eq_some_iff.mp hrun with ⟨groups, htrim, hreads⟩
    refine ⟨groups, ?_, htrim, isGroup_of_mem hreads⟩
    rw [hreads.length_eq, Vector.length_toList]

theorem parsesExactly_iff (cid : String) :
    ParsesExactly cid <-> Not (Splits cid) ∧ Not (TakenLoosely cid) := by
  rw [<- parseCid_eq_none_iff, takenLoosely_iff]
  constructor
  · rintro ⟨r, hr, hexact⟩
    refine ⟨by rw [hr]; nofun, ?_⟩
    rintro ⟨⟨uid, huid⟩, hloose⟩
    rw [hr] at huid
    cases huid
    rcases (isClassId_iff.mp ((hexact uid).mp rfl)).right with ⟨hplus, hzero⟩
    exact hloose.elim hplus hzero
  · rintro ⟨hreturns, hstrict⟩
    rcases Option.ne_none_iff_exists'.mp hreturns with ⟨r, hr⟩
    refine ⟨r, hr, fun uid => ?_⟩
    rw [isClassId_iff, hr, Option.some_inj]
    constructor
    · rintro rfl
      refine ⟨rfl, ?_, ?_⟩
      · intro hplus
        exact hstrict ⟨⟨uid, hr⟩, Or.inl hplus⟩
      · intro hzero
        exact hstrict ⟨⟨uid, hr⟩, Or.inr hzero⟩
    · rintro ⟨h, -⟩
      exact h

/-!
## Scans
-/

namespace Bundles

variable (env : Bundles)

def isVst3 (p : Path) : Bool := p.getLast?.bind Index.extension = some "vst3"

/-- The bundles below a root. -/
def bundlesOf (root : Path) : List Path :=
  if env.isPresent (env.expand root) then
    ((env.readDir (env.expand root)).getD []).filter isVst3
  else []

/-- The class id that a scan reads from a bundle. -/
def classId (bundle : Path) : Option String :=
  (env.audioModule bundle).map fun m => m.2.cid

theorem tryReadModuleinfo_eq_none_iff (bundle : Path) :
    (env.tryReadModuleinfo bundle).run = none <->
      exists cid, env.classId bundle = some cid ∧ Splits cid := by
  unfold tryReadModuleinfo classId
  cases env.audioModule bundle with
  | none =>
      exact iff_of_false nofun (by simp)
  | some m =>
      rcases m with ⟨factory, class_⟩
      simp only [Option.map_some, Option.some_inj, exists_eq_left', <- parseCid_eq_none_iff]
      show (parseCid class_.cid >>= _ : OptionT Option Vst3Plugin).run = none <-> _
      rw [OptionT.run_bind]
      cases (parseCid class_.cid).run with
      | none =>
          exact iff_of_true rfl rfl
      | some r =>
          cases r with
          | none =>
              exact iff_of_false nofun nofun
          | some uid =>
              exact iff_of_false nofun nofun

theorem scanEntry_eq_none_iff (out : List Vst3Plugin) (p : Path) :
    env.scanEntry out p = none <->
      isVst3 p = true ∧ exists cid, env.classId p = some cid ∧ Splits cid := by
  unfold scanEntry isVst3
  rw [decide_eq_true_iff, <- tryReadModuleinfo_eq_none_iff]
  split_ifs with hvst3
  · rw [Option.map_eq_none_iff, and_iff_right hvst3]
  · exact iff_of_false nofun fun h => hvst3 h.left

theorem scanRoot_eq_none_iff (out : List Vst3Plugin) (root : Path) :
    env.scanRoot out root = none <-> exists bundle, bundle ∈ env.bundlesOf root ∧
      exists cid, env.classId bundle = some cid ∧ Splits cid := by
  unfold scanRoot bundlesOf
  simp only
  split_ifs with hpresent
  · cases env.readDir (env.expand root) with
    | none =>
        simp
    | some entries =>
        rw [Option.getD_some, Fallible.foldlM_eq_none_iff env.scanEntry_eq_none_iff]
        simp only [List.mem_filter, and_assoc]
  · simp

/-- A scan is aborted exactly by a bundle whose class id splits a character. -/
theorem scan_eq_none_iff :
    env.scanMacSystemAndUser = none <->
      exists bundle, bundle ∈ roots.flatMap env.bundlesOf ∧
        exists cid, env.classId bundle = some cid ∧ Splits cid := by
  unfold scanMacSystemAndUser
  rw [Fallible.foldlM_eq_none_iff env.scanRoot_eq_none_iff]
  simp only [List.mem_flatMap]
  tauto

end Bundles

/-- The parser is exact except for ids that split a character or are taken
loosely, and the former abort the scan that reads them. -/
theorem class_id_parsing (cid : String) (env : Bundles) :
    (ParsesExactly cid <-> Not (Splits cid) ∧ Not (TakenLoosely cid)) ∧
    (env.scanMacSystemAndUser = none <->
      exists bundle, bundle ∈ Bundles.roots.flatMap env.bundlesOf ∧
        exists id, env.classId bundle = some id ∧ Splits id) :=
  ⟨parsesExactly_iff cid, env.scan_eq_none_iff⟩

theorem class_id_parsing_panics :
    Not (ParsesExactly "0123456é89abcdef0123456789abcde") := by
  rintro ⟨r, hr, -⟩
  have hpanics : (parseCid "0123456é89abcdef0123456789abcde").run = none := by
    decide
  rw [hpanics] at hr
  cases hr

end Plugins
end OpenMk3
