import OpenMk3.Library.Text
import OpenMk3.Plugins.Registry

/-!
# The auval listing

The parser of the component list that `auval -a` prints.  A line is cut twice:
at runs of white space for the codes, at single white space for the names.
-/

namespace OpenMk3
namespace Plugins

open Library

def fromBeBytes (bytes : List UInt8) : UInt32 :=
  UInt32.ofNat (bytes.foldl (fun n b => 256 * n + b.toNat) 0)

def fourcc (s : List Char) : Option UInt32 :=
  let b := utf8Bytes s
  if b.length ≠ 4 then none else some (fromBeBytes b)

/-- The manufacturer's name and the component's. -/
def auvalNames (rest : List Char) : List Char × List Char :=
  match splitOnce? [':', ' '] rest with
  | some (m, n) => (trim isWhitespace m, trim isWhitespace n)
  | none => ([], trim isWhitespace rest)

/-- The body of the loop of `parse_auval`; nothing where it continues. -/
def parseAuvalLine (line : List Char) : Option AuPlugin :=
  let line := trim isWhitespace line
  if line.isEmpty || ['-', '-'].isPrefixOf line then none
  else
    match splitWords isWhitespace line with
    | ty :: subty :: manu :: _ :: _ => do
        let ty <- fourcc ty
        let subtype <- fourcc subty
        let manufacturer <- fourcc manu
        let rest := ((splitN isWhitespace 4 line)[3]?).getD []
        let (manufacturerName, name) := auvalNames rest
        some
          { ty := ty
            subtype := subtype
            manufacturer := manufacturer
            name := String.ofList name
            manufacturerName := String.ofList manufacturerName }
    | _ => none

def parseAuval (text : String) : List AuPlugin :=
  (lines text.toList).filterMap parseAuvalLine

/-!
## Listings
-/

def IsCode (code : List Char) : Prop :=
  byteLength code = 4 ∧ forall c, c ∈ code -> isWhitespace c = false

def IsGap (gap : List Char) : Prop :=
  gap ≠ [] ∧ (forall c, c ∈ gap -> isWhitespace c = true) ∧ '\n' ∉ gap

def IsName (name : List Char) : Prop :=
  name ≠ [] ∧ trim isWhitespace name = name ∧ '\n' ∉ name

/-- A line of the documented form. -/
structure Component where
  ty : List Char
  subtype : List Char
  manufacturer : List Char
  manufacturerName : List Char
  name : List Char
  -- the white space behind the three codes and behind the dash
  gaps : List Char × List Char × List Char × List Char
  codes : IsCode ty ∧ IsCode subtype ∧ IsCode manufacturer
  noRule : Not (['-', '-'] <+: ty)
  gaps_isGap : IsGap gaps.1 ∧ IsGap gaps.2.1 ∧ IsGap gaps.2.2.1 ∧ IsGap gaps.2.2.2
  names : IsName manufacturerName ∧ IsName name
  noColon : Not ([':', ' '] <:+: manufacturerName)

namespace Component

/-- The codes and the white space behind each. -/
def head (c : Component) : List Char :=
  c.ty ++ (c.gaps.1 ++ (c.subtype ++ (c.gaps.2.1 ++ (c.manufacturer ++ c.gaps.2.2.1))))

/-- The dash and the names. -/
def tail (c : Component) : List Char :=
  '-' :: (c.gaps.2.2.2 ++ (c.manufacturerName ++ (':' :: ' ' :: c.name)))

def text (c : Component) : List Char := c.head ++ c.tail

/-- What the line says. -/
def plugin (c : Component) : AuPlugin :=
  { ty := fromBeBytes (utf8Bytes c.ty)
    subtype := fromBeBytes (utf8Bytes c.subtype)
    manufacturer := fromBeBytes (utf8Bytes c.manufacturer)
    name := String.ofList c.name
    manufacturerName := String.ofList c.manufacturerName }

end Component

/-- A line of a listing: a component, or a blank line or rule. -/
inductive AuvalLine where
  | component (c : Component)
  | blank (text : List Char) (hblank : forall c, c ∈ text -> isWhitespace c = true)
      (hline : '\n' ∉ text)
  | rule (text : List Char) (hrule : ['-', '-'] <+: text) (hline : '\n' ∉ text)

namespace AuvalLine

def text : AuvalLine -> List Char
  | component c => c.text
  | blank text _ _ => text
  | rule text _ _ => text

def component? : AuvalLine -> Option Component
  | component c => some c
  | blank _ _ _ => none
  | rule _ _ _ => none

end AuvalLine

/-- The text of a listing. -/
def listing (ls : List AuvalLine) : String :=
  String.ofList (['\n'].intercalate (ls.map AuvalLine.text))

def AuPlugin.codes (p : AuPlugin) : UInt32 × UInt32 × UInt32 :=
  (p.ty, p.subtype, p.manufacturer)

/-!
## A component's line
-/

theorem fourcc_of_isCode {code : List Char} (h : IsCode code) :
    fourcc code = some (fromBeBytes (utf8Bytes code)) := by
  unfold fourcc
  simp only [utf8Bytes_length, h.left, ne_eq, not_true, if_false]

theorem IsCode.ne_nil {code : List Char} (h : IsCode code) : code ≠ [] := by
  rintro rfl
  exact absurd h.left (by decide)

theorem IsGap.countP {gap : List Char} (h : IsGap gap) : 1 ≤ gap.countP isWhitespace := by
  rw [List.countP_eq_length.mpr h.right.left]
  exact List.length_pos_iff.mpr h.left

/-- A name ends in a character that is not white space. -/
theorem IsName.last {name : List Char} (h : IsName name) :
    exists front last, name = front ++ [last] ∧ isWhitespace last = false := by
  rcases h with ⟨hne, htrim, -⟩
  refine ⟨name.dropLast, name.getLast hne, (List.dropLast_append_getLast hne).symm, ?_⟩
  have hlast : trim isWhitespace name ≠ [] := by
    rw [htrim]
    exact hne
  have hnot := List.rdropWhile_last_not isWhitespace _ hlast
  rw [Bool.not_eq_true] at hnot
  rw [<- hnot]
  congr 1
  exact List.getLast_congr _ _ htrim.symm

/-- What is left when the white space of a name is counted out. -/
theorem IsName.countP {name : List Char} (h : IsName name) :
    1 ≤ name.countP fun c => !isWhitespace c := by
  rcases h.last with ⟨front, last, rfl, hlast⟩
  rw [List.countP_append, List.countP_singleton, hlast]
  exact Nat.le_add_left _ _

namespace Component

variable (c : Component)

theorem text_eq : c.text =
    c.ty ++ (c.gaps.1 ++ (c.subtype ++ (c.gaps.2.1 ++ (c.manufacturer ++
      (c.gaps.2.2.1 ++ (['-'] ++ (c.gaps.2.2.2 ++
        (c.manufacturerName ++ (':' :: ' ' :: c.name))))))))) := by
  simp [text, head, tail]

theorem trim_text : trim isWhitespace c.text = c.text := by
  rcases c.names.right.last with ⟨front, last, hname, hlast⟩
  cases hty : c.ty with
  | nil =>
      exact absurd hty c.codes.left.ne_nil
  | cons first ty =>
      have hfirst : isWhitespace first = false :=
        c.codes.left.right first (by simp [hty])
      have hends : trim isWhitespace (first :: ((ty ++ (c.gaps.1 ++ (c.subtype ++
          (c.gaps.2.1 ++ (c.manufacturer ++ (c.gaps.2.2.1 ++ (['-'] ++ (c.gaps.2.2.2 ++
            (c.manufacturerName ++ (':' :: ' ' :: front)))))))))) ++ [last])) = _ :=
        trim_of_ends hfirst hlast
      rw [text_eq, hty, hname]
      simpa using hends

theorem not_rule : Not (['-', '-'] <+: c.text) := by
  rintro ⟨rest, hrest⟩
  rw [text_eq] at hrest
  have hcode := c.codes.left
  have hrule := c.noRule
  generalize c.ty = ty at hrest hcode hrule
  match ty with
  | [] =>
      exact hcode.ne_nil rfl
  | [d] =>
      injection hrest with hd _
      subst hd
      exact absurd hcode.left (by decide)
  | d :: e :: ty =>
      injection hrest with hd hrest
      injection hrest with he _
      subst hd he
      exact hrule ⟨ty, rfl⟩

theorem splitWords_text :
    splitWords isWhitespace c.text = c.ty :: c.subtype :: c.manufacturer :: ['-'] ::
      splitWords isWhitespace (c.manufacturerName ++ (':' :: ' ' :: c.name)) := by
  rcases c.gaps_isGap with ⟨h1, h2, h3, h4⟩
  rcases c.codes with ⟨hty, hsubtype, hmanufacturer⟩
  have hdash : forall d, d ∈ ['-'] -> isWhitespace d = false :=
    List.forall_mem_singleton.mpr (by decide)
  rw [text_eq, splitWords_word _ hty.ne_nil hty.right h1.left h1.right.left,
    splitWords_word _ hsubtype.ne_nil hsubtype.right h2.left h2.right.left,
    splitWords_word _ hmanufacturer.ne_nil hmanufacturer.right h3.left h3.right.left,
    splitWords_word _ (List.cons_ne_nil _ _) hdash h4.left h4.right.left]

/-- Cutting at single white space leaves the dash in front of the names. -/
theorem splitN_text : exists rest,
    (splitN isWhitespace 4 c.text)[3]? = some rest ∧ c.tail <:+ rest := by
  have hcount : 3 ≤ c.head.countP isWhitespace := by
    have h1 := c.gaps_isGap.left.countP
    have h2 := c.gaps_isGap.right.left.countP
    have h3 := c.gaps_isGap.right.right.left.countP
    simp only [head, List.countP_append]
    omega
  have htext : 3 ≤ c.text.countP isWhitespace := by
    rw [text, List.countP_append]
    omega
  exact ⟨_, splitN_getElem? 3 htext, suffix_afterSeparator c.tail hcount⟩

/-- The names that are read hold the dash as well: counting what is not white
space, they cannot both be right. -/
theorem auvalNames_ne {rest : List Char} (h : c.tail <:+ rest) :
    auvalNames rest ≠ (c.manufacturerName, c.name) := by
  have hcount := h.sublist.countP_le (p := fun d => !isWhitespace d)
  have hm := c.names.left.countP
  have hmark : List.countP (fun d => !isWhitespace d) [':', ' '] = 1 := by
    decide
  have htail : c.manufacturerName.countP (fun d => !isWhitespace d) + 1 +
      c.name.countP (fun d => !isWhitespace d) <
        c.tail.countP fun d => !isWhitespace d := by
    have hdash : List.countP (fun d => !isWhitespace d) ['-'] = 1 := by
      decide
    have hsplit : c.tail = ['-'] ++ (c.gaps.2.2.2 ++ (c.manufacturerName ++
        ([':', ' '] ++ c.name))) := rfl
    rw [hsplit, List.countP_append, List.countP_append, List.countP_append,
      List.countP_append, hdash, hmark]
    omega
  unfold auvalNames
  intro heq
  split at heq
  · next m n hsplit =>
      injection heq with hmanufacturer hname
      rw [splitOnce?_eq_some hsplit, List.countP_append, List.countP_append, hmark,
        <- countP_trim m, <- countP_trim n, hmanufacturer, hname] at hcount
      omega
  · injection heq with hmanufacturer _
    exact c.names.left.left hmanufacturer.symm

theorem parseAuvalLine_text : exists p, parseAuvalLine c.text = some p ∧
    p.codes = c.plugin.codes ∧ p ≠ c.plugin := by
  rcases c.splitN_text with ⟨rest, hrest, hsuffix⟩
  have hne : c.text.isEmpty = false := by
    rw [List.isEmpty_eq_false_iff, text_eq]
    exact List.append_ne_nil_of_left_ne_nil c.codes.left.ne_nil _
  have hrule : ['-', '-'].isPrefixOf c.text = false := by
    rw [Bool.eq_false_iff, ne_eq, List.isPrefixOf_iff_prefix]
    exact c.not_rule
  unfold parseAuvalLine
  simp only [c.trim_text, hne, hrule, c.splitWords_text, hrest,
    fourcc_of_isCode c.codes.left, fourcc_of_isCode c.codes.right.left,
    fourcc_of_isCode c.codes.right.right, Bool.or_false, Bool.false_eq_true, if_false,
    Option.bind_eq_bind, Option.bind_some, Option.getD_some]
  refine ⟨_, rfl, rfl, ?_⟩
  intro heq
  injection heq with _ _ _ hname hmanufacturer
  rw [String.ofList_inj] at hname hmanufacturer
  exact c.auvalNames_ne hsuffix (Prod.ext hmanufacturer hname)

end Component

/-!
## The listing
-/

theorem parseAuvalLine_stripCr (line : List Char) :
    parseAuvalLine (stripCr line) = parseAuvalLine line := by
  have htrim : trim isWhitespace (stripCr line) = trim isWhitespace line := by
    unfold stripCr
    split_ifs with hcr
    · rcases List.getLast?_eq_some_iff.mp hcr with ⟨front, rfl⟩
      rw [List.dropLast_concat, trim_concat front (by decide)]
    · rfl
  unfold parseAuvalLine
  rw [htrim]

theorem parseAuvalLine_of_blank {text : List Char}
    (h : forall c, c ∈ text -> isWhitespace c = true) : parseAuvalLine text = none := by
  unfold parseAuvalLine
  rw [trim_eq_nil h]
  rfl

theorem parseAuvalLine_of_rule {text : List Char} (h : ['-', '-'] <+: text) :
    parseAuvalLine text = none := by
  rcases h with ⟨rest, rfl⟩
  have hdash : isWhitespace '-' = false := by
    decide
  have hdashes : ['-', '-'].isPrefixOf (trim isWhitespace (['-', '-'] ++ rest)) = true := by
    rw [List.isPrefixOf_iff_prefix, trim, List.cons_append,
      List.dropWhile_cons_of_neg (by simp [hdash])]
    exact prefix_rdropWhile ['-'] rest hdash
  unfold parseAuvalLine
  simp only [hdashes, Bool.or_true, if_true]

theorem IsCode.newline {code : List Char} (h : IsCode code) : '\n' ∉ code := by
  intro hmem
  have hwhite : isWhitespace '\n' = true := by
    decide
  rw [h.right _ hmem] at hwhite
  cases hwhite

theorem newline_notMem_text (l : AuvalLine) : '\n' ∉ l.text := by
  cases l with
  | component c =>
      rcases c.gaps_isGap with ⟨h1, h2, h3, h4⟩
      rcases c.codes with ⟨hty, hsubtype, hmanufacturer⟩
      show '\n' ∉ c.text
      rw [Component.text_eq]
      simp [hty.newline, hsubtype.newline, hmanufacturer.newline, h1.right.right,
        h2.right.right, h3.right.right, h4.right.right, c.names.left.right.right,
        c.names.right.right.right]
  | blank text _ hline =>
      exact hline
  | rule text _ hline =>
      exact hline

theorem parseAuval_listing (ls : List AuvalLine) :
    parseAuval (listing ls) = (ls.map AuvalLine.text).filterMap parseAuvalLine := by
  unfold parseAuval listing
  rw [String.toList_ofList]
  refine filterMap_lines rfl parseAuvalLine_stripCr ?_
  intro text htext
  rcases List.mem_map.mp htext with ⟨l, -, rfl⟩
  exact newline_notMem_text l

theorem entries_of_components (ls : List AuvalLine) :
    List.Forall₂ (fun p c => AuPlugin.codes p = c.plugin.codes ∧ p ≠ c.plugin)
      ((ls.map AuvalLine.text).filterMap parseAuvalLine)
      (ls.filterMap AuvalLine.component?) := by
  induction ls with
  | nil =>
      exact List.Forall₂.nil
  | cons l ls ih =>
      rw [List.map_cons]
      cases l with
      | component c =>
          rcases c.parseAuvalLine_text with ⟨p, hp, hentry⟩
          have hline : parseAuvalLine (AuvalLine.component c).text = some p := hp
          rw [List.filterMap_cons_some hline]
          exact List.Forall₂.cons hentry ih
      | blank text hblank hnewline =>
          have hline : parseAuvalLine (AuvalLine.blank text hblank hnewline).text = none :=
            parseAuvalLine_of_blank hblank
          rw [List.filterMap_cons_none hline]
          exact ih
      | rule text hrule hnewline =>
          have hline : parseAuvalLine (AuvalLine.rule text hrule hnewline).text = none :=
            parseAuvalLine_of_rule hrule
          rw [List.filterMap_cons_none hline]
          exact ih

/-- Every component of a listing gives one entry with its codes, and none of
these entries has both names right. -/
theorem auval_listing (ls : List AuvalLine) :
    List.Forall₂ (fun p c => AuPlugin.codes p = c.plugin.codes ∧ p ≠ c.plugin)
      (parseAuval (listing ls)) (ls.filterMap AuvalLine.component?) ∧
    (parseAuval (listing ls) =
        (ls.filterMap AuvalLine.component?).map Component.plugin <->
      ls.filterMap AuvalLine.component? = []) := by
  have hentries : List.Forall₂ (fun p c => AuPlugin.codes p = c.plugin.codes ∧ p ≠ c.plugin)
      (parseAuval (listing ls)) (ls.filterMap AuvalLine.component?) := by
    rw [parseAuval_listing]
    exact entries_of_components ls
  refine ⟨hentries, ?_⟩
  generalize parseAuval (listing ls) = ps at hentries ⊢
  generalize ls.filterMap AuvalLine.component? = cs at hentries ⊢
  cases hentries with
  | nil =>
      simp
  | cons hentry _ =>
      refine iff_of_false ?_ (List.cons_ne_nil _ _)
      intro heq
      injection heq with hhead _
      exact hentry.right hhead

theorem auval_listing_sample :
    parseAuval "aumu  NIMX  -NI-  -  Native Instruments: Massive X" ≠
      [{ ty := 0x61756d75
         subtype := 0x4e494d58
         manufacturer := 0x2d4e492d
         name := "Massive X"
         manufacturerName := "Native Instruments" }] := by
  decide

end Plugins
end OpenMk3
