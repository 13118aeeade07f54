import OpenMk3.Library.Hex
import OpenMk3.Library.Json
import OpenMk3.Library.Text

/-!
# Reading JSON texts

The grammar of compact texts, which a conforming reader reads back as the values
they denote: integers of 64 bits, and strings with the short escapes and the
codes of single characters.  A reader by recursive descent conforms.
-/

namespace OpenMk3
namespace Library
namespace JsonReader

/-!
## The grammar
-/

/-- The letters behind a backslash, and the characters that they stand for. -/
def shortEscapes : List (Char × Char) :=
  [('"', '"'), ('\\', '\\'), ('/', '/'), ('b', '\x08'), ('f', '\x0c'), ('n', '\n'),
    ('r', '\r'), ('t', '\t')]

/-- The code that hexadecimal digits give. -/
def code? (digits : List Char) : Option Nat :=
  digits.foldlM (fun n d => (toDigit16 d).map fun x => 16 * n + x) 0

/-- The ways a string may hold a character. -/
inductive CharText (c : Char) : List Char -> Prop where
  | verbatim (hcontrol : 32 <= c.toNat) (hquote : c ≠ '"') (hbackslash : c ≠ '\\') :
      CharText c [c]
  | short {name : Char} (h : shortEscapes.lookup name = some c) :
      CharText c ['\\', name]
  | code {digits : List Char} (hlength : digits.length = 4)
      (hcode : code? digits = some c.toNat) : CharText c ('\\' :: 'u' :: digits)

inductive CharsText : List Char -> List Char -> Prop where
  | nil : CharsText [] []
  | cons {c : Char} {cs text rest : List Char} (hc : CharText c text)
      (hcs : CharsText cs rest) : CharsText (c :: cs) (text ++ rest)

def StringText (s : String) (text : List Char) : Prop :=
  exists chars, CharsText s.toList chars ∧ text = '"' :: (chars ++ ['"'])

section Items

variable {α : Type} (P : α -> List Char -> Prop) (close : Char)

/-- Items with commas between them, up to the closing bracket. -/
inductive Items : List α -> List Char -> Prop where
  | last {a : α} {text : List Char} (ha : P a text) : Items [a] (text ++ [close])
  | cons {a : α} {items : List α} {text rest : List Char} (ha : P a text)
      (hitems : Items items rest) : Items (a :: items) (text ++ ',' :: rest)

/-- What stands behind an opening bracket. -/
inductive Body : List α -> List Char -> Prop where
  | empty : Body [] [close]
  | items {items : List α} {text : List Char} (hitems : Items P close items text) :
      Body items text

end Items

section Values

variable (P : Json -> List Char -> Prop)

def FieldText (field : String × Json) (text : List Char) : Prop :=
  exists name value, StringText field.1 name ∧ P field.2 value ∧
    text = name ++ ':' :: value

/-- A value, with the texts of the values inside it left open. -/
inductive ValueText : Json -> List Char -> Prop where
  | null : ValueText .null ['n', 'u', 'l', 'l']
  | true : ValueText (.bool true) ['t', 'r', 'u', 'e']
  | false : ValueText (.bool false) ['f', 'a', 'l', 's', 'e']
  | number {n : Nat} (h : n < 2 ^ 64) :
      ValueText (.number (decimal n)) (Nat.toDigits 10 n)
  | string {s : String} {text : List Char} (h : StringText s text) :
      ValueText (.string s) text
  | array {items : List Json} {text : List Char} (h : Body P ']' items text) :
      ValueText (.array items) ('[' :: text)
  | object {fields : List (String × Json)} {text : List Char}
      (h : Body (FieldText P) '\x7d' fields text) :
      ValueText (.object fields) ('\x7b' :: text)

end Values

/-- The compact texts of a value of at most the depth. -/
def IsText : Nat -> Json -> List Char -> Prop
  | 0 => fun _ _ => False
  | depth + 1 => ValueText (IsText depth)

/-- A reader takes every text for the value it denotes, down to the depth of 127
where readers may stop. -/
def Conforms (fromStr : String -> Option Json) : Prop :=
  forall v text, IsText 127 v text.toList -> fromStr text = some v

/-!
## What a text holds
-/

theorem Items.imp {α : Type} {P Q : α -> List Char -> Prop} {close : Char}
    (h : forall a text, P a text -> Q a text) {items : List α} {text : List Char}
    (hitems : Items P close items text) : Items Q close items text := by
  induction hitems with
  | last ha =>
      exact .last (h _ _ ha)
  | cons ha _ ih =>
      exact .cons (h _ _ ha) ih

theorem Body.imp {α : Type} {P Q : α -> List Char -> Prop} {close : Char}
    (h : forall a text, P a text -> Q a text) {items : List α} {text : List Char}
    (hbody : Body P close items text) : Body Q close items text := by
  cases hbody with
  | empty =>
      exact .empty
  | items hitems =>
      exact .items (hitems.imp h)

theorem ValueText.imp {P Q : Json -> List Char -> Prop}
    (h : forall v text, P v text -> Q v text) {v : Json} {text : List Char}
    (hvalue : ValueText P v text) : ValueText Q v text := by
  cases hvalue with
  | null =>
      exact .null
  | true =>
      exact .true
  | false =>
      exact .false
  | number hn =>
      exact .number hn
  | string hs =>
      exact .string hs
  | array hbody =>
      exact .array (hbody.imp h)
  | object hbody =>
      refine .object (hbody.imp ?_)
      rintro field text ⟨name, value, hname, hvalue, htext⟩
      exact ⟨name, value, hname, h _ _ hvalue, htext⟩

theorem IsText.succ {depth : Nat} {v : Json} {text : List Char}
    (h : IsText depth v text) : IsText (depth + 1) v text := by
  induction depth generalizing v text with
  | zero =>
      exact h.elim
  | succ depth ih =>
      exact ValueText.imp (fun _ _ => ih) h

theorem IsText.mono {m n : Nat} (hle : m <= n) {v : Json} {text : List Char}
    (h : IsText m v text) : IsText n v text := by
  induction hle with
  | refl =>
      exact h
  | step _ ih =>
      exact ih.succ

theorem IsText.ne_nil {depth : Nat} {v : Json} {text : List Char}
    (h : IsText depth v text) : text ≠ [] := by
  cases depth with
  | zero =>
      exact h.elim
  | succ depth =>
      cases h with
      | number hn =>
          exact Nat.toDigits_ne_nil
      | string hs =>
          rcases hs with ⟨chars, -, rfl⟩
          exact List.cons_ne_nil _ _
      | _ =>
          exact List.cons_ne_nil _ _

theorem Body.ends {α : Type} {P : α -> List Char -> Prop} {close : Char} {items : List α}
    {text : List Char} (h : Body P close items text) :
    exists middle, text = middle ++ [close] := by
  cases h with
  | empty =>
      exact ⟨[], rfl⟩
  | items hitems =>
      induction hitems with
      | last _ =>
          exact ⟨_, rfl⟩
      | @cons a items text rest _ _ ih =>
          rcases ih with ⟨middle, rfl⟩
          exact ⟨text ++ ',' :: middle, by simp⟩

/-- The text of an object is between braces. -/
theorem IsText.object_ends {depth : Nat} {fields : List (String × Json)}
    {text : List Char} (h : IsText depth (.object fields) text) :
    exists middle, text = '\x7b' :: (middle ++ ['\x7d']) := by
  cases depth with
  | zero =>
      exact h.elim
  | succ depth =>
      cases h with
      | object hbody =>
          rcases hbody.ends with ⟨middle, rfl⟩
          exact ⟨middle, rfl⟩

/-- A text without control characters. -/
def Printable (text : List Char) : Prop := forall c, c ∈ text -> 32 <= c.toNat

instance (text : List Char) : Decidable (Printable text) :=
  List.decidableBAll _ text

theorem Printable.append {xs ys : List Char} (hx : Printable xs) (hy : Printable ys) :
    Printable (xs ++ ys) := by
  intro c hc
  exact (List.mem_append.mp hc).elim (hx c) (hy c)

theorem Printable.cons {c : Char} {cs : List Char} (hc : 32 <= c.toNat)
    (hcs : Printable cs) : Printable (c :: cs) := by
  intro d hd
  rcases List.mem_cons.mp hd with rfl | hd
  · exact hc
  · exact hcs d hd

theorem printable_of_code? {digits : List Char} {n : Nat} (h : code? digits = some n) :
    Printable digits := by
  have hfold : forall (ds : List Char) (start : Nat),
      ds.foldlM (fun n d => (toDigit16 d).map fun x => 16 * n + x) start = some n ->
        Printable ds := by
    intro ds
    induction ds with
    | nil =>
        intro start _ c hc
        cases hc
    | cons d ds ih =>
        intro start hds
        rw [List.foldlM_cons] at hds
        rcases Option.bind_eq_some_iff.mp hds with ⟨m, hm, hrest⟩
        refine Printable.cons ?_ (ih m hrest)
        have hd : (toDigit16 d).isSome := by
          rw [Option.isSome_iff_exists]
          rcases Option.map_eq_some_iff.mp hm with ⟨x, hx, -⟩
          exact ⟨x, hx⟩
        rcases isSome_toDigit16 hd with hrange | hrange | hrange
        · exact (by decide : 32 <= '0'.toNat).trans (UInt32.le_iff_toNat_le.mp hrange.left)
        · exact (by decide : 32 <= 'a'.toNat).trans (UInt32.le_iff_toNat_le.mp hrange.left)
        · exact (by decide : 32 <= 'A'.toNat).trans (UInt32.le_iff_toNat_le.mp hrange.left)
  exact hfold digits 0 h

theorem mem_of_lookup {α β : Type} [BEq α] [LawfulBEq α] {pairs : List (α × β)} {a : α}
    {b : β} (h : pairs.lookup a = some b) : (a, b) ∈ pairs := by
  rcases List.lookup_eq_some_iff.mp h with ⟨front, back, rfl, -⟩
  simp

theorem CharText.printable {c : Char} {text : List Char} (h : CharText c text) :
    Printable text := by
  cases h with
  | verbatim hcontrol hquote hbackslash =>
      exact Printable.cons hcontrol (by simp [Printable])
  | short hname =>
      have hnames : forall entry, entry ∈ shortEscapes -> 32 <= entry.1.toNat := by
        decide
      exact Printable.cons (by decide)
        (Printable.cons (hnames _ (mem_of_lookup hname)) (by simp [Printable]))
  | code hlength hcode =>
      exact Printable.cons (by decide)
        (Printable.cons (by decide) (printable_of_code? hcode))

theorem CharsText.printable {cs text : List Char} (h : CharsText cs text) :
    Printable text := by
  induction h with
  | nil =>
      simp [Printable]
  | cons hc _ ih =>
      exact hc.printable.append ih

theorem StringText.printable {s : String} {text : List Char} (h : StringText s text) :
    Printable text := by
  rcases h with ⟨chars, hchars, rfl⟩
  exact Printable.cons (by decide) (hchars.printable.append (by decide))

theorem Items.printable {α : Type} {P : α -> List Char -> Prop} {close : Char}
    (hclose : 32 <= close.toNat) (hP : forall a text, P a text -> Printable text)
    {items : List α} {text : List Char} (h : Items P close items text) :
    Printable text := by
  induction h with
  | last ha =>
      exact (hP _ _ ha).append (Printable.cons hclose (by simp [Printable]))
  | cons ha _ ih =>
      exact (hP _ _ ha).append (Printable.cons (by decide) ih)

theorem Body.printable {α : Type} {P : α -> List Char -> Prop} {close : Char}
    (hclose : 32 <= close.toNat) (hP : forall a text, P a text -> Printable text)
    {items : List α} {text : List Char} (h : Body P close items text) :
    Printable text := by
  cases h with
  | empty =>
      exact Printable.cons hclose (by simp [Printable])
  | items hitems =>
      exact hitems.printable hclose hP

theorem isDigit_of_mem_toDigits {n : Nat} {c : Char} (h : c ∈ Nat.toDigits 10 n) :
    c.isDigit = true :=
  Nat.isDigit_of_mem_toDigits (by decide) (by decide) h

theorem IsText.printable {depth : Nat} {v : Json} {text : List Char}
    (h : IsText depth v text) : Printable text := by
  induction depth generalizing v text with
  | zero =>
      exact h.elim
  | succ depth ih =>
      have hfield : forall field text, FieldText (IsText depth) field text ->
          Printable text := by
        rintro field text ⟨name, value, hname, hvalue, rfl⟩
        exact hname.printable.append (Printable.cons (by decide) (ih hvalue))
      cases h with
      | null =>
          decide
      | true =>
          decide
      | false =>
          decide
      | number hn =>
          intro c hc
          have hrange := toNat_of_isDigit (isDigit_of_mem_toDigits hc)
          omega
      | string hs =>
          exact hs.printable
      | array hbody =>
          exact Printable.cons (by decide) (hbody.printable (by decide) fun _ _ => ih)
      | object hbody =>
          exact Printable.cons (by decide) (hbody.printable (by decide) hfield)

/-!
## A reader
-/

section Reader

-- No part of a text is longer than this.
variable (fuel : Nat)

/-- A character from behind its backslash. -/
def readEscape : List Char -> Option (Char × List Char)
  | [] => none
  | name :: rest =>
      if name = 'u' then
        match code? (rest.take 4) with
        | some n => if n.isValidChar then some (Char.ofNat n, rest.drop 4) else none
        | none => none
      else (shortEscapes.lookup name).map fun c => (c, rest)

def readChar : List Char -> Option (Char × List Char)
  | [] => none
  | c :: rest =>
      if c = '\\' then readEscape rest
      else if 32 <= c.toNat then some (c, rest)
      else none

/-- A string from behind its opening quote. -/
def readChars : Nat -> List Char -> Option (List Char × List Char)
  | 0, _ => none
  | fuel + 1, text =>
      if text.head? = some '"' then some ([], text.tail)
      else do
        let (c, rest) <- readChar text
        let (cs, rest) <- readChars fuel rest
        some (c :: cs, rest)

def readString : List Char -> Option (String × List Char)
  | '"' :: rest => (readChars fuel rest).map fun read => (String.ofList read.1, read.2)
  | _ => none

/-- The rest of a list of items, behind its opening bracket. -/
def readItems {α : Type} (read : List Char -> Option (α × List Char)) (close : Char) :
    Nat -> List Char -> Option (List α × List Char)
  | 0, _ => none
  | fuel + 1, text => do
      let (a, rest) <- read text
      match rest with
      | [] => none
      | c :: rest =>
          if c = close then some ([a], rest)
          else if c = ',' then do
            let (items, rest) <- readItems read close fuel rest
            some (a :: items, rest)
          else none

/-- What stands behind an opening bracket. -/
def readBody {α : Type} (read : List Char -> Option (α × List Char)) (close : Char)
    (text : List Char) : Option (List α × List Char) :=
  if text.head? = some close then some ([], text.tail)
  else readItems read close fuel text

def readField (read : List Char -> Option (Json × List Char)) (text : List Char) :
    Option ((String × Json) × List Char) := do
  let (name, rest) <- readString fuel text
  match rest with
  | ':' :: rest => do
      let (value, rest) <- read rest
      some ((name, value), rest)
  | _ => none

def readNumber (text : List Char) : Option (Json × List Char) :=
  let digits := text.takeWhile Char.isDigit
  if digits = [] then none
  else some (.number (digits.map Char.toUInt8), text.dropWhile Char.isDigit)

def readWord : List Char -> Option (Json × List Char)
  | 'n' :: 'u' :: 'l' :: 'l' :: rest => some (.null, rest)
  | 't' :: 'r' :: 'u' :: 'e' :: rest => some (.bool true, rest)
  | 'f' :: 'a' :: 'l' :: 's' :: 'e' :: rest => some (.bool false, rest)
  | _ => none

/-- A value of at most the depth and the text behind it. -/
def readValue : Nat -> List Char -> Option (Json × List Char)
  | 0, _ => none
  | _ + 1, [] => none
  | depth + 1, c :: rest =>
      if c = '"' then
        (readString fuel (c :: rest)).map fun read => (.string read.1, read.2)
      else if c = '[' then
        (readBody fuel (readValue depth) ']' rest).map fun read => (.array read.1, read.2)
      else if c = '\x7b' then
        (readBody fuel (readField fuel (readValue depth)) '\x7d' rest).map fun read =>
          (.object read.1, read.2)
      else if c.isDigit then readNumber (c :: rest)
      else readWord (c :: rest)

end Reader

def read (text : String) : Option Json :=
  match readValue text.toList.length 127 text.toList with
  | some (v, []) => some v
  | _ => none

/-!
## What the reader takes
-/

theorem CharText.length_pos {c : Char} {text : List Char} (h : CharText c text) :
    0 < text.length := by
  cases h <;> simp

theorem readChar_append {c : Char} {text : List Char} (h : CharText c text)
    (rest : List Char) : readChar (text ++ rest) = some (c, rest) := by
  cases h with
  | verbatim hcontrol hquote hbackslash =>
      rw [List.singleton_append, readChar, if_neg hbackslash, if_pos hcontrol]
  | short hname =>
      rename_i name
      have hu : name ≠ 'u' := by
        rintro rfl
        cases hname
      show readEscape (name :: rest) = _
      rw [readEscape, if_neg hu, hname]
      rfl
  | code hlength hcode =>
      rename_i digits
      show readEscape ('u' :: (digits ++ rest)) = _
      have hvalid : c.toNat.isValidChar := c.valid
      rw [readEscape, if_pos rfl, List.take_left' hlength, List.drop_left' hlength, hcode]
      simp only [hvalid, if_true, Char.ofNat_toNat]

theorem CharText.head?_ne {c : Char} {text : List Char} (h : CharText c text)
    (rest : List Char) : (text ++ rest).head? ≠ some '"' := by
  cases h with
  | verbatim hcontrol hquote hbackslash =>
      simpa using hquote
  | short hname =>
      simp
  | code hlength hcode =>
      simp

theorem readChars_append {cs text : List Char} (h : CharsText cs text) {fuel : Nat}
    (hfuel : text.length < fuel) (rest : List Char) :
    readChars fuel (text ++ '"' :: rest) = some (cs, rest) := by
  induction h generalizing fuel with
  | nil =>
      cases fuel with
      | zero =>
          cases hfuel
      | succ fuel =>
          rfl
  | cons hc hcs ih =>
      rename_i c cs text more
      cases fuel with
      | zero =>
          cases hfuel
      | succ fuel =>
          have hpos := hc.length_pos
          rw [List.length_append] at hfuel
          have hmore : more.length < fuel := by
            omega
          rw [List.append_assoc, readChars, if_neg (hc.head?_ne _), readChar_append hc]
          simp only [Option.bind_eq_bind, Option.bind_some, ih hmore]

theorem readString_append {s : String} {text : List Char} (h : StringText s text)
    {fuel : Nat} (hfuel : text.length <= fuel) (rest : List Char) :
    readString fuel (text ++ rest) = some (s, rest) := by
  rcases h with ⟨chars, hchars, rfl⟩
  have hlength : chars.length < fuel := by
    simp only [List.length_cons, List.length_append] at hfuel
    omega
  have hread := readChars_append hchars hlength rest
  show (readChars fuel (chars ++ ['"'] ++ rest)).map _ = _
  rw [List.append_assoc, List.singleton_append, hread, Option.map_some, String.ofList_toList]

/-- Behind a value there is no digit. -/
def Ends (rest : List Char) : Prop := forall c, rest.head? = some c -> c.isDigit = false

theorem readItems_append {α : Type} {P : α -> List Char -> Prop}
    {read : List Char -> Option (α × List Char)} {close : Char}
    (hclose : close.isDigit = false ∧ close ≠ ',') {n : Nat}
    (hread : forall a text rest, P a text -> text.length <= n -> Ends rest ->
      read (text ++ rest) = some (a, rest))
    {items : List α} {text : List Char} (h : Items P close items text) {fuel : Nat}
    (hfuel : text.length <= fuel) (hn : text.length <= n) (rest : List Char) :
    readItems read close fuel (text ++ rest) = some (items, rest) := by
  induction h generalizing fuel with
  | last ha =>
      rename_i a text
      rw [List.length_append] at hfuel hn
      cases fuel with
      | zero =>
          simp at hfuel
      | succ fuel =>
          have hends : Ends ([close] ++ rest) := by
            rintro c ⟨⟩
            exact hclose.left
          rw [List.append_assoc, readItems, hread _ _ _ ha (by omega) hends]
          simp
  | cons ha hitems ih =>
      rename_i a items text more
      rw [List.length_append, List.length_cons] at hfuel hn
      cases fuel with
      | zero =>
          omega
      | succ fuel =>
          have hends : Ends (',' :: more ++ rest) := by
            rintro c ⟨⟩
            rfl
          have hmore : more.length <= fuel := by
            omega
          rw [List.append_assoc, readItems, hread _ _ _ ha (by omega) hends]
          simp only [Option.bind_eq_bind, Option.bind_some, List.cons_append,
            if_neg hclose.right.symm, if_true, ih hmore (by omega)]

theorem readField_append {P : Json -> List Char -> Prop}
    {read : List Char -> Option (Json × List Char)} {n : Nat}
    (hread : forall v text rest, P v text -> text.length <= n -> Ends rest ->
      read (text ++ rest) = some (v, rest))
    {field : String × Json} {text rest : List Char} (h : FieldText P field text)
    (hn : text.length <= n) (hends : Ends rest) :
    readField n read (text ++ rest) = some (field, rest) := by
  rcases h with ⟨name, value, hname, hvalue, rfl⟩
  rw [List.length_append, List.length_cons] at hn
  have hlength : name.length <= n := by
    omega
  have hname' := readString_append hname hlength (':' :: (value ++ rest))
  rw [List.append_assoc, List.cons_append, readField, hname']
  simp only [Option.bind_eq_bind, Option.bind_some, hread _ _ _ hvalue (by omega) hends]

theorem readNumber_append (n : Nat) {rest : List Char} (hends : Ends rest) :
    readNumber (Nat.toDigits 10 n ++ rest) = some (.number (decimal n), rest) := by
  have hdigits : forall c, c ∈ Nat.toDigits 10 n -> c.isDigit = true :=
    fun c hc => isDigit_of_mem_toDigits hc
  have htake : (Nat.toDigits 10 n ++ rest).takeWhile Char.isDigit = Nat.toDigits 10 n := by
    rw [List.takeWhile_append_of_pos hdigits]
    cases rest with
    | nil =>
        simp
    | cons c rest =>
        rw [List.takeWhile_cons_of_neg (by simp [hends c rfl]), List.append_nil]
  have hdrop : (Nat.toDigits 10 n ++ rest).dropWhile Char.isDigit = rest := by
    rw [List.dropWhile_append_of_pos hdigits]
    cases rest with
    | nil =>
        rfl
    | cons c rest =>
        rw [List.dropWhile_cons_of_neg (by simp [hends c rfl])]
  unfold readNumber
  simp only [htake, hdrop, Nat.toDigits_ne_nil, if_false]
  rfl

/-- A value does not start with a closing bracket. -/
theorem IsText.head?_ne {depth : Nat} {v : Json} {text : List Char}
    (h : IsText depth v text) (rest : List Char) : (text ++ rest).head? ≠ some ']' := by
  cases depth with
  | zero =>
      exact h.elim
  | succ depth =>
      cases h with
      | number hn =>
          rename_i n
          intro hhead
          cases hdigits : Nat.toDigits 10 n with
          | nil =>
              exact Nat.toDigits_ne_nil hdigits
          | cons c cs =>
              have hc := isDigit_of_mem_toDigits (n := n) (c := c) (by simp [hdigits])
              rw [hdigits] at hhead
              injection hhead with hhead
              subst hhead
              cases hc
      | string hs =>
          rcases hs with ⟨chars, -, rfl⟩
          simp
      | _ =>
          simp

theorem Items.head?_ne {α : Type} {P : α -> List Char -> Prop} {close : Char}
    (hP : forall a text rest, P a text -> (text ++ rest).head? ≠ some close)
    {items : List α} {text : List Char} (h : Items P close items text)
    (rest : List Char) : (text ++ rest).head? ≠ some close := by
  cases h with
  | last ha =>
      rw [List.append_assoc]
      exact hP _ _ _ ha
  | cons ha _ =>
      rw [List.append_assoc]
      exact hP _ _ _ ha

theorem readBody_append {α : Type} {P : α -> List Char -> Prop}
    {read : List Char -> Option (α × List Char)} {close : Char}
    (hclose : close.isDigit = false ∧ close ≠ ',') {fuel : Nat}
    (hP : forall a text rest, P a text -> (text ++ rest).head? ≠ some close)
    (hread : forall a text rest, P a text -> text.length <= fuel -> Ends rest ->
      read (text ++ rest) = some (a, rest))
    {items : List α} {text : List Char} (h : Body P close items text)
    (hfuel : text.length <= fuel) (rest : List Char) :
    readBody fuel read close (text ++ rest) = some (items, rest) := by
  cases h with
  | empty =>
      exact if_pos rfl
  | items hitems =>
      rw [readBody, if_neg (hitems.head?_ne hP rest)]
      exact readItems_append hclose hread hitems hfuel hfuel rest

theorem readValue_append {depth fuel : Nat} {v : Json} {text rest : List Char}
    (h : IsText depth v text) (hfuel : text.length <= fuel) (hends : Ends rest) :
    readValue fuel depth (text ++ rest) = some (v, rest) := by
  induction depth generalizing v text rest with
  | zero =>
      exact h.elim
  | succ depth ih =>
      have hvalue : forall v text rest, IsText depth v text -> text.length <= fuel ->
          Ends rest -> readValue fuel depth (text ++ rest) = some (v, rest) :=
        fun _ _ _ => ih
      cases h with
      | null =>
          rfl
      | true =>
          rfl
      | false =>
          rfl
      | number hn =>
          rename_i n
          have hread := readNumber_append n hends
          cases hdigits : Nat.toDigits 10 n with
          | nil =>
              exact absurd hdigits Nat.toDigits_ne_nil
          | cons c cs =>
              have hc : c.isDigit = true := isDigit_of_mem_toDigits (n := n) (by simp [hdigits])
              have hquote : c ≠ '"' := by
                rintro rfl
                cases hc
              have hbracket : c ≠ '[' := by
                rintro rfl
                cases hc
              have hbrace : c ≠ '\x7b' := by
                rintro rfl
                cases hc
              rw [hdigits] at hread
              rw [List.cons_append, readValue, if_neg hquote, if_neg hbracket,
                if_neg hbrace, if_pos hc]
              exact hread
      | string hs =>
          rename_i s
          have hread := readString_append hs hfuel rest
          rcases hs with ⟨chars, hchars, rfl⟩
          show (readString fuel ('"' :: (chars ++ ['"']) ++ rest)).map _ = _
          rw [hread]
          rfl
      | array hbody =>
          rename_i items text
          have hread := readBody_append (by decide) (fun _ _ _ h => h.head?_ne _) hvalue hbody
            (Nat.le_of_succ_le hfuel) rest
          show (readBody fuel (readValue fuel depth) ']' (text ++ rest)).map _ = _
          rw [hread]
          rfl
      | object hbody =>
          rename_i fields text
          have hhead : forall field text rest, FieldText (IsText depth) field text ->
              (text ++ rest).head? ≠ some '\x7d' := by
            rintro field text rest ⟨name, value, ⟨chars, -, rfl⟩, -, rfl⟩
            simp
          have hread := readBody_append (by decide) hhead
            (fun _ _ _ => readField_append hvalue) hbody (Nat.le_of_succ_le hfuel) rest
          show (readBody fuel (readField fuel (readValue fuel depth)) '\x7d'
            (text ++ rest)).map _ = _
          rw [hread]
          rfl

theorem conforms_read : Conforms read := by
  intro v text h
  have hends : Ends [] := by
    rintro c ⟨⟩
  have hread := readValue_append h (Nat.le_refl _) hends
  rw [List.append_nil] at hread
  rw [read, hread]

end JsonReader
end Library
end OpenMk3
