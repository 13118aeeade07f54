import Mathlib.Data.List.DropRight
import Mathlib.Logic.Function.Iterate
import Mathlib.Tactic.SplitIfs

/-!
# Texts

Characters and the bytes of their UTF-8 encoding.  A text is cut at byte
offsets, which a character of several bytes may straddle; around characters
that separate its words; at a pattern; and at the ends of its lines.
-/

namespace OpenMk3
namespace Library

/-!
## Byte offsets
-/

/-- The length in bytes. -/
def byteLength : List Char -> Nat
  | [] => 0
  | c :: cs => c.utf8Size + byteLength cs

@[simp] theorem byteLength_nil : byteLength [] = 0 := rfl

@[simp] theorem byteLength_cons (c : Char) (cs : List Char) :
    byteLength (c :: cs) = c.utf8Size + byteLength cs := rfl

@[simp] theorem byteLength_append (xs ys : List Char) :
    byteLength (xs ++ ys) = byteLength xs + byteLength ys := by
  induction xs with
  | nil =>
      simp
  | cons c xs ih =>
      simp [ih, Nat.add_assoc]

/-- The UTF-8 encoding. -/
def utf8Bytes (cs : List Char) : List UInt8 := cs.flatMap String.utf8EncodeChar

theorem utf8Bytes_length (cs : List Char) : (utf8Bytes cs).length = byteLength cs := by
  induction cs with
  | nil =>
      rfl
  | cons c cs ih =>
      rw [utf8Bytes, List.flatMap_cons, List.length_append,
        String.length_utf8EncodeChar, byteLength_cons, <- ih, utf8Bytes]

theorem utf8Bytes_append (xs ys : List Char) :
    utf8Bytes (xs ++ ys) = utf8Bytes xs ++ utf8Bytes ys :=
  List.flatMap_append

theorem le_toNat_ofNat {n : Nat} (hge : 128 <= n) (hlt : n < 256) :
    128 <= (UInt8.ofNat n).toNat := by
  rwa [UInt8.toNat_ofNat', Nat.mod_eq_of_lt hlt]

/-- The bytes of a character beyond ASCII are beyond ASCII. -/
theorem le_of_mem_utf8EncodeChar {c : Char} {b : UInt8} (h : 128 <= c.toNat)
    (hb : b ∈ String.utf8EncodeChar c) : 128 <= b.toNat := by
  have hone : Not (c.val.toNat <= 0x7f) := Nat.not_le.mpr h
  unfold String.utf8EncodeChar at hb
  simp only [hone, if_false] at hb
  split_ifs at hb with htwo hthree
  · simp only [List.mem_cons, List.not_mem_nil, or_false] at hb
    rcases hb with rfl | rfl <;>
      exact le_toNat_ofNat (by omega) (by omega)
  · simp only [List.mem_cons, List.not_mem_nil, or_false] at hb
    rcases hb with rfl | rfl | rfl <;>
      exact le_toNat_ofNat (by omega) (by omega)
  · simp only [List.mem_cons, List.not_mem_nil, or_false] at hb
    rcases hb with rfl | rfl | rfl | rfl <;>
      exact le_toNat_ofNat (by omega) (by omega)

/-- The text before a byte offset and the text from there on; nothing when the
offset is inside a character or past the end. -/
def splitAt? : Nat -> List Char -> Option (List Char × List Char)
  | 0, cs => some ([], cs)
  | _ + 1, [] => none
  | n + 1, c :: cs =>
      if c.utf8Size ≤ n + 1 then
        (splitAt? (n + 1 - c.utf8Size) cs).map fun parts => (c :: parts.1, parts.2)
      else none

/-- `&s[start..end]`; nothing where that panics. -/
def sliceText? (cs : List Char) (start stop : Nat) : Option (List Char) := do
  let (_, rest) <- splitAt? start cs
  if start ≤ stop then do
    let (middle, _) <- splitAt? (stop - start) rest
    some middle
  else none

theorem splitAt?_append (xs ys : List Char) :
    splitAt? (byteLength xs) (xs ++ ys) = some (xs, ys) := by
  induction xs with
  | nil =>
      cases ys <;> rfl
  | cons c xs ih =>
      have hpos := c.utf8Size_pos
      obtain ⟨n, hn⟩ : exists n, c.utf8Size + byteLength xs = n + 1 :=
        ⟨c.utf8Size + byteLength xs - 1, by omega⟩
      have hrest : n + 1 - c.utf8Size = byteLength xs := by
        omega
      rw [byteLength_cons, hn, List.cons_append, splitAt?, if_pos (by omega), hrest, ih]
      rfl

/-- A split cuts the text at its offset. -/
theorem splitAt?_eq_some {n : Nat} {cs xs ys : List Char}
    (h : splitAt? n cs = some (xs, ys)) : cs = xs ++ ys ∧ byteLength xs = n := by
  induction cs generalizing n xs ys with
  | nil =>
      cases n with
      | zero =>
          cases h
          exact ⟨rfl, rfl⟩
      | succ n =>
          cases h
  | cons c cs ih =>
      cases n with
      | zero =>
          cases h
          exact ⟨rfl, rfl⟩
      | succ n =>
          rw [splitAt?] at h
          split_ifs at h with hsize
          rcases Option.map_eq_some_iff.mp h with ⟨⟨xs', ys'⟩, hsplit, heq⟩
          cases heq
          rcases ih hsplit with ⟨hcs, hlen⟩
          refine ⟨by rw [hcs, List.cons_append], ?_⟩
          show c.utf8Size + byteLength xs' = n + 1
          omega

/-- There is no split inside the text exactly where a character straddles the
offset. -/
theorem splitAt?_eq_none_iff {n : Nat} {cs : List Char} (hn : n ≤ byteLength cs) :
    splitAt? n cs = none <-> exists front c back, cs = front ++ c :: back ∧
      byteLength front < n ∧ n < byteLength front + c.utf8Size := by
  constructor
  · intro h
    induction cs generalizing n with
    | nil =>
        cases n with
        | zero =>
            cases h
        | succ n =>
            simp at hn
    | cons c cs ih =>
        cases n with
        | zero =>
            cases h
        | succ n =>
            rw [splitAt?] at h
            split_ifs at h with hsize
            · have hrest : splitAt? (n + 1 - c.utf8Size) cs = none :=
                Option.map_eq_none_iff.mp h
              rw [byteLength_cons] at hn
              rcases ih (by omega) hrest with ⟨front, d, back, rfl, hlt, hgt⟩
              refine ⟨c :: front, d, back, rfl, ?_, ?_⟩
              · rw [byteLength_cons]
                omega
              · rw [byteLength_cons]
                omega
            · exact ⟨[], c, cs, rfl, by simp, by simpa using hsize⟩
  · rintro ⟨front, c, back, rfl, hlt, hgt⟩
    cases hsplit : splitAt? n (front ++ c :: back) with
    | none =>
        rfl
    | some parts =>
        exfalso
        rcases splitAt?_eq_some hsplit with ⟨hcs, hlen⟩
        rcases List.append_eq_append_iff.mp hcs with
          ⟨mid, hxs, hback⟩ | ⟨mid, hfront, hys⟩
        · rw [hxs, byteLength_append] at hlen
          cases mid with
          | nil =>
              simp at hlen
              omega
          | cons d mid =>
              injection hback with hd _
              subst hd
              rw [byteLength_cons] at hlen
              omega
        · rw [hfront, byteLength_append] at hlt
          omega

/-- A slice behind a front. -/
theorem sliceText?_append_left (front cs : List Char) (n : Nat) :
    sliceText? (front ++ cs) (byteLength front) (byteLength front + n) =
      (splitAt? n cs).map Prod.fst := by
  unfold sliceText?
  rw [splitAt?_append front cs]
  simp only [Option.bind_eq_bind, Option.bind_some, Nat.le_add_right, if_true,
    Nat.add_sub_cancel_left]
  cases splitAt? n cs <;> rfl

/-!
## Separators
-/

/-- `char::is_whitespace`. -/
def isWhitespace (c : Char) : Bool :=
  let n := c.toNat
  (9 ≤ n && n ≤ 13) || n == 0x20 || n == 0x85 || n == 0xa0 || n == 0x1680 ||
    (0x2000 ≤ n && n ≤ 0x200a) || n == 0x2028 || n == 0x2029 || n == 0x202f ||
    n == 0x205f || n == 0x3000

section Separators

universe u

variable {α : Type u} (p : α -> Bool)

/-- The text between the separators at its two ends. -/
def trim (cs : List α) : List α := (cs.dropWhile p).rdropWhile p

/-- The words of a text, however many separators stand between them. -/
def splitWords (cs : List α) : List (List α) :=
  (cs.splitOnP p).filter fun word => !word.isEmpty

/-- The text behind the first separator. -/
def afterSeparator (cs : List α) : List α := (cs.dropWhile fun c => !p c).tail

/-- At most `n` pieces, cut at single separators; the last is all that is left. -/
def splitN : Nat -> List α -> List (List α)
  | 0, _ => []
  | 1, cs => [cs]
  | n + 2, cs =>
      if cs.any p then
        (cs.takeWhile fun c => !p c) :: splitN (n + 1) (afterSeparator p cs)
      else [cs]

variable {p}

theorem countP_dropWhile (cs : List α) :
    (cs.dropWhile p).countP (fun c => !p c) = cs.countP fun c => !p c := by
  induction cs with
  | nil =>
      rfl
  | cons c cs ih =>
      cases hc : p c with
      | true =>
          rw [List.dropWhile_cons_of_pos hc, List.countP_cons_of_neg (by simp [hc]), ih]
      | false =>
          rw [List.dropWhile_cons_of_neg (by simp [hc])]

theorem countP_rdropWhile (cs : List α) :
    (cs.rdropWhile p).countP (fun c => !p c) = cs.countP fun c => !p c := by
  rw [List.rdropWhile, List.countP_reverse, countP_dropWhile, List.countP_reverse]

/-- Trimming drops separators only. -/
theorem countP_trim (cs : List α) :
    (trim p cs).countP (fun c => !p c) = cs.countP fun c => !p c := by
  rw [trim, countP_rdropWhile, countP_dropWhile]

theorem trim_of_ends {first last : α} {middle : List α} (hfirst : p first = false)
    (hlast : p last = false) :
    trim p (first :: (middle ++ [last])) = first :: (middle ++ [last]) := by
  rw [trim, List.dropWhile_cons_of_neg (by simp [hfirst]), <- List.cons_append,
    List.rdropWhile_concat_neg _ _ _ (by simp [hlast])]

/-- What stands in front of a character that is no separator is not trimmed from
behind. -/
theorem prefix_rdropWhile (front : List α) {c : α} (back : List α) (hc : p c = false) :
    front ++ [c] <+: (front ++ [c] ++ back).rdropWhile p := by
  induction back using List.reverseRecOn with
  | nil =>
      have hkept : (front ++ [c] ++ []).rdropWhile p = front ++ [c] := by
        rw [List.append_nil, List.rdropWhile_concat_neg _ _ _ (by simp [hc])]
      exact ⟨[], by rw [hkept, List.append_nil]⟩
  | append_singleton back d ih =>
      rw [<- List.append_assoc, List.rdropWhile_concat]
      split_ifs with hd
      · exact ih
      · rw [List.append_assoc]
        exact List.prefix_append _ _

theorem trim_concat {last : α} (cs : List α) (hlast : p last = true) :
    trim p (cs ++ [last]) = trim p cs := by
  rw [trim, trim, List.dropWhile_append]
  split_ifs with hempty
  · rw [List.isEmpty_iff.mp hempty, List.dropWhile_cons_of_pos hlast]
    rfl
  · rw [List.rdropWhile_concat_pos _ _ _ hlast]

theorem trim_eq_nil {cs : List α} (h : forall c, c ∈ cs -> p c = true) :
    trim p cs = [] := by
  rw [trim, List.dropWhile_eq_nil_iff.mpr h]
  rfl

theorem splitWords_cons {c : α} (cs : List α) (hc : p c = true) :
    splitWords p (c :: cs) = splitWords p cs := by
  rw [splitWords, List.splitOnP_cons_eq_if_modifyHead, if_pos hc]
  rfl

theorem splitWords_append {gap : List α} (cs : List α)
    (h : forall c, c ∈ gap -> p c = true) :
    splitWords p (gap ++ cs) = splitWords p cs := by
  induction gap with
  | nil =>
      rfl
  | cons c gap ih =>
      rw [List.cons_append, splitWords_cons _ (h c (by simp)),
        ih fun d hd => h d (by simp [hd])]

/-- A word, the gap behind it and what follows. -/
theorem splitWords_word {word gap : List α} (cs : List α) (hne : word ≠ [])
    (hword : forall c, c ∈ word -> p c = false) (hgap : gap ≠ [])
    (h : forall c, c ∈ gap -> p c = true) :
    splitWords p (word ++ (gap ++ cs)) = word :: splitWords p cs := by
  cases gap with
  | nil =>
      exact absurd rfl hgap
  | cons sep gap =>
      have hrest := splitWords_append cs fun c hc => h c (List.mem_cons_of_mem sep hc)
      rw [<- hrest, List.cons_append, splitWords,
        List.splitOnP_append_cons_of_forall_mem hword sep (h sep (by simp)),
        List.filter_cons_of_pos (by simpa using hne)]
      rfl

theorem afterSeparator_cons_pos {c : α} (cs : List α) (hc : p c = true) :
    afterSeparator p (c :: cs) = cs := by
  rw [afterSeparator, List.dropWhile_cons_of_neg (by simp [hc]), List.tail_cons]

theorem afterSeparator_cons_neg {c : α} (cs : List α) (hc : p c = false) :
    afterSeparator p (c :: cs) = afterSeparator p cs := by
  rw [afterSeparator, List.dropWhile_cons_of_pos (by simp [hc]), afterSeparator]

theorem countP_afterSeparator (cs : List α) :
    (afterSeparator p cs).countP p = cs.countP p - 1 := by
  induction cs with
  | nil =>
      rfl
  | cons c cs ih =>
      cases hc : p c with
      | true =>
          rw [afterSeparator_cons_pos cs hc, List.countP_cons_of_pos hc,
            Nat.add_sub_cancel]
      | false =>
          rw [afterSeparator_cons_neg cs hc, ih, List.countP_cons_of_neg (by simp [hc])]

/-- The last piece is what follows the separators before it. -/
theorem splitN_getElem? (n : Nat) {cs : List α} (h : n ≤ cs.countP p) :
    (splitN p (n + 1) cs)[n]? = some ((afterSeparator p)^[n] cs) := by
  induction n generalizing cs with
  | zero =>
      rfl
  | succ n ih =>
      have hany : cs.any p = true := by
        rw [List.any_eq_true, <- List.countP_pos_iff]
        omega
      have hcount := countP_afterSeparator (p := p) cs
      rw [splitN, if_pos hany, List.getElem?_cons_succ, ih (by omega),
        Function.iterate_succ_apply]

theorem afterSeparator_append {front : List α} (back : List α) (h : 0 < front.countP p) :
    afterSeparator p (front ++ back) = afterSeparator p front ++ back := by
  induction front with
  | nil =>
      exact absurd h (Nat.lt_irrefl 0)
  | cons c front ih =>
      cases hc : p c with
      | true =>
          rw [List.cons_append, afterSeparator_cons_pos _ hc, afterSeparator_cons_pos _ hc]
      | false =>
          rw [List.countP_cons_of_neg (by simp [hc])] at h
          rw [List.cons_append, afterSeparator_cons_neg _ hc, afterSeparator_cons_neg _ hc,
            ih h]

/-- Behind some separators, what comes after more of them is still there. -/
theorem suffix_afterSeparator {n : Nat} {front : List α} (back : List α)
    (h : n ≤ front.countP p) : back <:+ (afterSeparator p)^[n] (front ++ back) := by
  induction n generalizing front with
  | zero =>
      exact List.suffix_append front back
  | succ n ih =>
      have hcount := countP_afterSeparator (p := p) front
      rw [Function.iterate_succ_apply, afterSeparator_append back (by omega)]
      exact ih (by omega)

end Separators

/-!
## Patterns
-/

section Patterns

universe u

variable {α : Type u} [DecidableEq α]

/-- The text before the first occurrence of a pattern and the text behind it. -/
def splitOnce? (pat : List α) : List α -> Option (List α × List α)
  | [] => if pat = [] then some ([], []) else none
  | c :: cs =>
      if pat <+: c :: cs then some ([], (c :: cs).drop pat.length)
      else (splitOnce? pat cs).map fun parts => (c :: parts.1, parts.2)

theorem splitOnce?_eq_some {pat cs front back : List α}
    (h : splitOnce? pat cs = some (front, back)) : cs = front ++ (pat ++ back) := by
  induction cs generalizing front with
  | nil =>
      rw [splitOnce?] at h
      split_ifs at h with hpat
      cases h
      rw [hpat]
      rfl
  | cons c cs ih =>
      rw [splitOnce?] at h
      split_ifs at h with hpat
      · cases h
        rcases hpat with ⟨back, hback⟩
        rw [<- hback, List.drop_left' rfl, List.nil_append]
      · rcases Option.map_eq_some_iff.mp h with ⟨⟨front', back'⟩, hsplit, heq⟩
        cases heq
        rw [ih hsplit, List.cons_append]

end Patterns

/-!
## Lines
-/

def stripCr (line : List Char) : List Char :=
  if line.getLast? = some '\r' then line.dropLast else line

/-- The lines of a text; the last one may lack its newline. -/
def lines (cs : List Char) : List (List Char) :=
  let pieces := cs.splitOn '\n'
  pieces.dropLast.map stripCr ++
    pieces.getLast?.toList.filter fun last => !last.isEmpty

/-- Where neither a carriage return nor an empty line matters, the lines are
those that the text was joined from. -/
theorem filterMap_lines {β : Type} {f : List Char -> Option β} (hnil : f [] = none)
    (hcr : forall line, f (stripCr line) = f line) {texts : List (List Char)}
    (h : forall text, text ∈ texts -> '\n' ∉ text) :
    (lines (['\n'].intercalate texts)).filterMap f = texts.filterMap f := by
  by_cases hne : texts = []
  · rw [hne]
    rfl
  · rw [lines, List.splitOn_intercalate '\n' h hne]
    have hmap : f ∘ stripCr = f := funext hcr
    conv_rhs => rw [<- List.dropLast_append_getLast hne]
    rw [List.filterMap_append, List.filterMap_append, List.filterMap_map, hmap,
      List.getLast?_eq_getLast_of_ne_nil hne]
    congr 1
    cases texts.getLast hne with
    | nil =>
        simp [hnil]
    | cons c cs =>
        rfl

end Library
end OpenMk3
