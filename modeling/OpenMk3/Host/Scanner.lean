import Mathlib.Tactic.ByContra
import OpenMk3.Host.Message

/-!
# Printed strings under the scanner

What the scanner and the extractor do with strings that a JSON serializer
printed.  Escaping adds no brace, so brace counting stops inside a printed
string where it would stop inside the string itself; the extractor undoes every
escape except the names of control characters; and no field name occurs inside
a printed string.
-/

namespace OpenMk3
namespace Host

open Library Ascii

/-!
## Brace counting
-/

/-- The open braces behind a text; at zero the scan has stopped. -/
def depthAfter (depth : Nat) : List UInt8 -> Nat
  | [] => depth
  | c :: rest => if depth = 0 then 0 else depthAfter (nextDepth depth c) rest

def IsBrace (b : UInt8) : Prop := b = lbrace ∨ b = rbrace

instance (b : UInt8) : Decidable (IsBrace b) :=
  inferInstanceAs (Decidable (b = lbrace ∨ b = rbrace))

def Braceless (text : List UInt8) : Prop :=
  forall c, c ∈ text -> Not (IsBrace c)

instance (text : List UInt8) : Decidable (Braceless text) :=
  List.decidableBAll _ text

@[simp] theorem bracedValue_zero (text : List UInt8) :
    bracedValue 0 text = [] := by
  cases text <;> rfl

@[simp] theorem depthAfter_zero (text : List UInt8) : depthAfter 0 text = 0 := by
  cases text <;> rfl

theorem bracedValue_cons {depth : Nat} (h : depth ≠ 0) (c : UInt8)
    (rest : List UInt8) :
    bracedValue depth (c :: rest) =
      c :: bracedValue (nextDepth depth c) rest :=
  if_neg h

theorem depthAfter_cons {depth : Nat} (h : depth ≠ 0) (c : UInt8)
    (rest : List UInt8) :
    depthAfter depth (c :: rest) = depthAfter (nextDepth depth c) rest :=
  if_neg h

theorem bracedValue_append (depth : Nat) (xs ys : List UInt8) :
    bracedValue depth (xs ++ ys) =
      bracedValue depth xs ++ bracedValue (depthAfter depth xs) ys := by
  induction xs generalizing depth with
  | nil =>
      rfl
  | cons c xs ih =>
      by_cases h : depth = 0
      · subst h
        simp
      · rw [List.cons_append, bracedValue_cons h, bracedValue_cons h,
          depthAfter_cons h, ih]
        rfl

theorem depthAfter_append (depth : Nat) (xs ys : List UInt8) :
    depthAfter depth (xs ++ ys) = depthAfter (depthAfter depth xs) ys := by
  induction xs generalizing depth with
  | nil =>
      rfl
  | cons c xs ih =>
      by_cases h : depth = 0
      · subst h
        simp
      · rw [List.cons_append, depthAfter_cons h, depthAfter_cons h, ih]

theorem bracedValue_prefix (depth : Nat) (text : List UInt8) :
    bracedValue depth text <+: text := by
  induction text generalizing depth with
  | nil =>
      exact List.prefix_rfl
  | cons c text ih =>
      by_cases h : depth = 0
      · subst h
        simp
      · rw [bracedValue_cons h]
        exact List.prefix_cons_inj c |>.mpr (ih _)

theorem nextDepth_of_not_isBrace {c : UInt8} (h : Not (IsBrace c)) (depth : Nat) :
    nextDepth depth c = depth := by
  unfold nextDepth
  rw [if_neg (fun hc => h (Or.inl hc)), if_neg (fun hc => h (Or.inr hc))]

theorem depthAfter_of_braceless {text : List UInt8}
    (h : Braceless text) (depth : Nat) :
    depthAfter depth text = depth := by
  induction text with
  | nil =>
      rfl
  | cons c text ih =>
      by_cases hdepth : depth = 0
      · subst hdepth
        simp
      · rw [depthAfter_cons hdepth, nextDepth_of_not_isBrace (h c (by simp))]
        exact ih (fun d hd => h d (by simp [hd]))

theorem bracedValue_of_braceless {text : List UInt8}
    (h : Braceless text) {depth : Nat}
    (hdepth : depth ≠ 0) : bracedValue depth text = text := by
  induction text with
  | nil =>
      rfl
  | cons c text ih =>
      rw [bracedValue_cons hdepth, nextDepth_of_not_isBrace (h c (by simp)),
        ih (fun d hd => h d (by simp [hd]))]

/-- A condition on the parts of a text short of the whole, byte by byte. -/
theorem forall_front_cons_iff {c : UInt8} {rest : List UInt8}
    {P : List UInt8 -> Prop} (hnil : P []) :
    (forall front back, c :: rest = front ++ back -> back ≠ [] -> P front) <->
      forall front back, rest = front ++ back -> back ≠ [] -> P (c :: front) := by
  constructor
  · intro h front back heq hback
    exact h (c :: front) back (by rw [heq]; rfl) hback
  · intro h front back heq hback
    cases front with
    | nil =>
        exact hnil
    | cons d front =>
        injection heq with hhead htail
        subst hhead
        exact h front back htail hback

theorem count_cons_lbrace (depth : Nat) (front : List UInt8) :
    (lbrace :: front).count rbrace <= depth + (lbrace :: front).count lbrace <->
      front.count rbrace <= depth + 1 + front.count lbrace := by
  rw [List.count_cons_self, List.count_cons_of_ne (by decide)]
  omega

theorem count_cons_rbrace (depth : Nat) (front : List UInt8) :
    (rbrace :: front).count rbrace <= depth + (rbrace :: front).count lbrace <->
      front.count rbrace + 1 <= depth + front.count lbrace := by
  rw [List.count_cons_self, List.count_cons_of_ne (by decide)]

/-- Brace counting runs over the whole text exactly when no part of it short of
the whole closes more braces than it opens. -/
theorem bracedValue_eq_self_iff (depth : Nat) (text : List UInt8) :
    bracedValue (depth + 1) text = text <->
      forall front back, text = front ++ back -> back ≠ [] ->
        front.count rbrace <= depth + front.count lbrace := by
  induction text generalizing depth with
  | nil =>
      constructor
      · intro _ front back heq hback
        exact absurd (List.append_eq_nil_iff.mp heq.symm).2 hback
      · intro _
        rfl
  | cons c text ih =>
      rw [bracedValue_cons (Nat.succ_ne_zero depth), List.cons_inj_right,
        forall_front_cons_iff (by simp)]
      by_cases hopen : c = lbrace
      · subst hopen
        refine (ih (depth + 1)).trans ?_
        simp only [count_cons_lbrace]
      · by_cases hclose : c = rbrace
        · subst hclose
          simp only [count_cons_rbrace]
          cases depth with
          | zero =>
              show bracedValue 0 text = text <-> _
              rw [bracedValue_zero]
              constructor
              · rintro rfl front back heq hback
                exact absurd (List.append_eq_nil_iff.mp heq.symm).2 hback
              · intro h
                by_contra hne
                have hnil := h [] text rfl (fun heq => hne heq.symm)
                simp at hnil
          | succ depth =>
              refine (ih depth).trans ?_
              have hsucc : forall n m, n + 1 <= depth + 1 + m <-> n <= depth + m := by
                omega
              simp only [hsucc]
        · have hbrace : Not (IsBrace c) := fun h => h.elim hopen hclose
          rw [nextDepth_of_not_isBrace hbrace]
          refine (ih depth).trans ?_
          simp only [List.count_cons_of_ne hopen, List.count_cons_of_ne hclose]

/-!
## Escapes under the scan
-/

theorem not_isBrace_of_isNameByte {b : UInt8} (h : IsNameByte b) :
    Not (IsBrace b) := by
  rintro (rfl | rfl)
  · revert h
    decide
  · revert h
    decide

/-- A byte is printed as it is, or without any brace. -/
theorem escapeByte_verbatim_or_braceless (b : UInt8) :
    escapeByte b = [b] ∨ Not (IsBrace b) ∧ Braceless (escapeByte b) := by
  have hbackslash : Not (IsBrace backslash) := by
    decide
  have hprinted := escaped_escapeByte b
  generalize escapeByte b = printed at hprinted
  cases hprinted with
  | verbatim hcontrol hquote hbackslash =>
      exact Or.inl rfl
  | marked hmark =>
      have hb : Not (IsBrace b) := by
        rcases hmark with rfl | rfl <;> decide
      refine Or.inr ⟨hb, ?_⟩
      intro c hc
      rcases List.mem_pair.mp hc with rfl | rfl
      · exact hbackslash
      · exact hb
  | named hcontrol hname =>
      have hb : Not (IsBrace b) := by
        rintro (rfl | rfl)
        · revert hcontrol
          decide
        · revert hcontrol
          decide
      refine Or.inr ⟨hb, ?_⟩
      intro c hc
      rcases List.mem_cons.mp hc with rfl | hc
      · exact hbackslash
      · exact not_isBrace_of_isNameByte (hname c hc)

theorem depthAfter_escape (depth : Nat) (text : List UInt8) :
    depthAfter depth (escape text) = depthAfter depth text := by
  induction text generalizing depth with
  | nil =>
      rfl
  | cons b text ih =>
      by_cases h : depth = 0
      · subst h
        simp
      · rw [depthAfter_cons h, escape_cons, depthAfter_append, <- ih]
        rcases escapeByte_verbatim_or_braceless b with hb | ⟨hb, hprinted⟩
        · rw [hb, depthAfter_cons h]
          rfl
        · rw [depthAfter_of_braceless hprinted, nextDepth_of_not_isBrace hb]

/-- Scanning a printed string stops where scanning the string itself stops. -/
theorem bracedValue_escape (depth : Nat) (text : List UInt8) :
    bracedValue depth (escape text) = escape (bracedValue depth text) := by
  induction text generalizing depth with
  | nil =>
      rfl
  | cons b text ih =>
      by_cases h : depth = 0
      · subst h
        simp
      · rw [bracedValue_cons h, escape_cons, escape_cons, bracedValue_append,
          <- ih]
        rcases escapeByte_verbatim_or_braceless b with hb | ⟨hb, hprinted⟩
        · rw [hb, bracedValue_cons h, depthAfter_cons h]
          rfl
        · rw [bracedValue_of_braceless hprinted h,
            depthAfter_of_braceless hprinted, nextDepth_of_not_isBrace hb]

/-!
## Strings read back
-/

/-- What the extractor makes of a printed byte: a control character comes back
as its name. -/
def reread (b : UInt8) : List UInt8 :=
  if IsControl b then (escapeByte b).drop 1 else [b]

theorem readChars_cons {c : UInt8} (hquote : c ≠ quote)
    (hbackslash : c ≠ backslash) (rest : List UInt8) :
    readChars (c :: rest) = c :: readChars rest := by
  cases rest with
  | nil =>
      simp [readChars, hquote]
  | cons d rest =>
      simp [readChars, hquote, hbackslash]

theorem readChars_quote (rest : List UInt8) : readChars (quote :: rest) = [] := by
  cases rest <;> simp [readChars]

theorem readChars_backslash (c : UInt8) (rest : List UInt8) :
    readChars (backslash :: c :: rest) = c :: readChars rest := rfl

theorem readChars_append_of_isNameByte {name : List UInt8}
    (h : forall c, c ∈ name -> IsNameByte c) (rest : List UInt8) :
    readChars (name ++ rest) = name ++ readChars rest := by
  induction name with
  | nil =>
      rfl
  | cons c name ih =>
      have hc := h c (by simp)
      show readChars (c :: (name ++ rest)) = _
      rw [readChars_cons hc.ne_quote hc.ne_backslash, ih (fun d hd => h d (by simp [hd]))]
      rfl

theorem readChars_escapeByte (b : UInt8) (rest : List UInt8) :
    readChars (escapeByte b ++ rest) = reread b ++ readChars rest := by
  have hprinted := escaped_escapeByte b
  unfold reread
  generalize escapeByte b = printed at hprinted
  cases hprinted with
  | verbatim hcontrol hquote hbackslash =>
      rw [if_neg hcontrol]
      exact readChars_cons hquote hbackslash rest
  | marked hmark =>
      have hcontrol : Not (IsControl b) := by
        rcases hmark with rfl | rfl <;> decide
      rw [if_neg hcontrol]
      exact readChars_backslash b rest
  | named hcontrol hname =>
      rename_i c name
      rw [if_pos hcontrol]
      show readChars (backslash :: c :: (name ++ rest)) = c :: name ++ readChars rest
      rw [readChars_backslash,
        readChars_append_of_isNameByte (fun d hd => hname d (by simp [hd]))]
      rfl

theorem readChars_escape (text rest : List UInt8) :
    readChars (escape text ++ rest) = text.flatMap reread ++ readChars rest := by
  induction text with
  | nil =>
      rfl
  | cons b text ih =>
      rw [escape_cons, List.append_assoc, readChars_escapeByte, ih,
        List.flatMap_cons, List.append_assoc]

theorem not_isControl_of_mem_reread {b c : UInt8} (h : c ∈ reread b) :
    Not (IsControl c) := by
  have hprinted := escaped_escapeByte b
  unfold reread at h
  by_cases hb : IsControl b
  · rw [if_pos hb] at h
    generalize escapeByte b = printed at hprinted h
    cases hprinted with
    | verbatim hcontrol hquote hbackslash =>
        exact absurd hb hcontrol
    | marked hmark =>
        exfalso
        revert hb
        rcases hmark with rfl | rfl <;> decide
    | named hcontrol hname =>
        exact not_isControl_of_isNameByte (hname c h)
  · rw [if_neg hb] at h
    rwa [List.mem_singleton.mp h]

/-- A part of a string comes back as the whole string exactly when it is the
whole and holds no control character. -/
theorem flatMap_reread_eq_iff {part text : List UInt8} (hpart : part <+: text) :
    part.flatMap reread = text <->
      part = text ∧ forall b, b ∈ text -> Not (IsControl b) := by
  have hself : forall xs : List UInt8, (forall b, b ∈ xs -> Not (IsControl b)) ->
      xs.flatMap reread = xs := by
    intro xs hxs
    have hsame : forall b, b ∈ xs -> reread b = [b] := fun b hb => if_neg (hxs b hb)
    rw [List.flatMap_congr hsame]
    simp
  constructor
  · intro h
    have hcontrol : forall b, b ∈ text -> Not (IsControl b) := by
      intro b hb
      rw [<- h] at hb
      rcases List.mem_flatMap.mp hb with ⟨a, -, hmem⟩
      exact not_isControl_of_mem_reread hmem
    have hcame := hself part (fun b hb => hcontrol b (hpart.subset hb))
    exact ⟨hcame.symm.trans h, hcontrol⟩
  · rintro ⟨rfl, hcontrol⟩
    exact hself part hcontrol

/-!
## Keys behind printed strings
-/

section Keys

/-- A key as it may occur in a text: none of its bytes is a quote, a backslash
or the comma behind a string. -/
def IsKey (key : List UInt8) : Prop :=
  forall c, c ∈ key -> c ≠ quote ∧ c ≠ backslash ∧ c ≠ comma

instance (key : List UInt8) : Decidable (IsKey key) :=
  List.decidableBAll _ key

variable {key : List UInt8} (hkey : IsKey key) (more : List UInt8)

include hkey

theorem differs_escape (text : List UInt8) :
    differs (key ++ quote :: colon :: more) (escape text ++ [quote, comma]) =
      true := by
  induction text generalizing key with
  | nil =>
      cases key with
      | nil =>
          rfl
      | cons a key =>
          exact differs_cons_of_ne (hkey a (by simp)).1 _ _
  | cons b text ih =>
      have hprinted := escaped_escapeByte b
      rw [escape_cons]
      generalize escapeByte b = printed at hprinted
      cases hprinted with
      | verbatim hcontrol hquote hbackslash =>
          cases key with
          | nil =>
              exact differs_cons_of_ne (Ne.symm hquote) _ _
          | cons a key =>
              have hkey' : IsKey key := fun c hc => hkey c (by simp [hc])
              have hrest := ih hkey'
              exact Bool.or_eq_true_iff.mpr (Or.inr hrest)
      | marked hmark =>
          cases key with
          | nil =>
              exact differs_cons_of_ne (by decide) _ _
          | cons a key =>
              exact differs_cons_of_ne (hkey a (by simp)).2.1 _ _
      | named hcontrol hname =>
          cases key with
          | nil =>
              exact differs_cons_of_ne (by decide) _ _
          | cons a key =>
              exact differs_cons_of_ne (hkey a (by simp)).2.1 _ _

/-- No field name starts inside a printed string: behind every quote of its
text the name would have to go on with a quote that has no backslash. -/
theorem clearOf_escape (text : List UInt8) :
    clearOf (quote :: (key ++ quote :: colon :: more))
      (escape text ++ [quote, comma]) = true := by
  have hback : forall rest, differs (quote :: (key ++ quote :: colon :: more))
      (backslash :: rest) = true :=
    fun rest => differs_cons_of_ne (by decide) _ _
  induction text with
  | nil =>
      refine Bool.and_eq_true_iff.mpr ⟨?_, by rfl⟩
      refine Bool.or_eq_true_iff.mpr (Or.inr ?_)
      cases key with
      | nil =>
          rfl
      | cons a key =>
          exact differs_cons_of_ne (hkey a (by simp)).2.2 _ _
  | cons b text ih =>
      have hprinted := escaped_escapeByte b
      rw [escape_cons, List.append_assoc]
      generalize escapeByte b = printed at hprinted
      cases hprinted with
      | verbatim hcontrol hquote hbackslash =>
          exact Bool.and_eq_true_iff.mpr
            ⟨differs_cons_of_ne (Ne.symm hquote) _ _, ih⟩
      | marked hmark =>
          refine Bool.and_eq_true_iff.mpr ⟨hback _, ?_⟩
          refine Bool.and_eq_true_iff.mpr ⟨?_, ih⟩
          rcases hmark with rfl | rfl
          · exact Bool.or_eq_true_iff.mpr
              (Or.inr (differs_escape hkey more text))
          · exact hback _
      | named hcontrol hname =>
          refine Bool.and_eq_true_iff.mpr ⟨hback _, ?_⟩
          refine clearOf_append (clearOf_of_forall_ne ?_) ih
          rintro c hc rfl
          exact absurd (hname _ hc) (by decide)

theorem clearOf_quote_escape (text : List UInt8) :
    clearOf (quote :: (key ++ quote :: colon :: more))
      (quote :: (escape text ++ [quote, comma])) = true :=
  Bool.and_eq_true_iff.mpr
    ⟨Bool.or_eq_true_iff.mpr (Or.inr (differs_escape hkey more text)),
      clearOf_escape hkey more text⟩

end Keys

end Host
end OpenMk3
