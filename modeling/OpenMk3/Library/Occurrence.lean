import Mathlib.Data.List.Basic

/-!
# Behind the first occurrence

Substring search, as what is left of a text behind the first place where a
word occurs.  A stretch of text is clear of a word when no occurrence can start
in it, whatever follows; search passes over such a stretch.
-/

namespace OpenMk3
namespace Library

universe u

variable {α : Type u} [DecidableEq α]

/-- The rest of a text behind the first occurrence of `word`. -/
def after (word : List α) : List α -> Option (List α)
  | [] => if word = [] then some [] else none
  | c :: text =>
      if word.isPrefixOf (c :: text) then some ((c :: text).drop word.length)
      else after word text

/-- The two lists are different at a place where both have an element. -/
def differs : List α -> List α -> Bool
  | a :: as, b :: bs => a != b || differs as bs
  | _, _ => false

/-- Whatever follows `text`, no occurrence of `word` starts in it. -/
def clearOf (word : List α) : List α -> Bool
  | [] => true
  | c :: text => differs word (c :: text) && clearOf word text

theorem after_append_self (word text : List α) :
    after word (word ++ text) = some text := by
  cases word with
  | nil =>
      cases text with
      | nil =>
          rfl
      | cons c text =>
          simp [after]
  | cons a word =>
      have hprefix : (a :: word).isPrefixOf (a :: (word ++ text)) = true :=
        List.isPrefixOf_iff_prefix.mpr (List.prefix_append (a :: word) text)
      show after (a :: word) (a :: (word ++ text)) = some text
      rw [after, if_pos hprefix]
      simp

theorem differs_append_left {as bs : List α} (h : differs as bs = true)
    (more : List α) : differs as (bs ++ more) = true := by
  induction as generalizing bs with
  | nil =>
      exact absurd h Bool.false_ne_true
  | cons a as ih =>
      cases bs with
      | nil =>
          exact absurd h Bool.false_ne_true
      | cons b bs =>
          rcases Bool.or_eq_true_iff.mp h with hab | htail
          · exact Bool.or_eq_true_iff.mpr (Or.inl hab)
          · exact Bool.or_eq_true_iff.mpr (Or.inr (ih htail))

theorem not_prefix_of_differs {as bs : List α} (h : differs as bs = true) :
    Not (as <+: bs) := by
  induction as generalizing bs with
  | nil =>
      exact absurd h Bool.false_ne_true
  | cons a as ih =>
      cases bs with
      | nil =>
          exact absurd h Bool.false_ne_true
      | cons b bs =>
          intro hprefix
          rcases List.cons_prefix_cons.mp hprefix with ⟨rfl, htail⟩
          rcases Bool.or_eq_true_iff.mp h with haa | hdiffers
          · exact (bne_iff_ne.mp haa) rfl
          · exact ih hdiffers htail

theorem differs_cons_of_ne {a b : α} (h : a ≠ b) (as bs : List α) :
    differs (a :: as) (b :: bs) = true :=
  Bool.or_eq_true_iff.mpr (Or.inl (bne_iff_ne.mpr h))

/-- Search passes over a stretch that is clear of the word. -/
theorem after_append_of_clearOf {word text : List α}
    (h : clearOf word text = true) (more : List α) :
    after word (text ++ more) = after word more := by
  induction text with
  | nil =>
      rfl
  | cons c text ih =>
      rcases Bool.and_eq_true_iff.mp h with ⟨hhead, htail⟩
      have hnot : Not (word.isPrefixOf (c :: (text ++ more)) = true) := by
        intro hprefix
        exact not_prefix_of_differs (differs_append_left hhead more)
          (List.isPrefixOf_iff_prefix.mp hprefix)
      show after word (c :: (text ++ more)) = after word more
      rw [after, if_neg hnot]
      exact ih htail

/-- A text that is clear of the word as far as it goes, given what would have
followed, does not hold it. -/
theorem after_eq_none_of_clearOf_append {word text more : List α}
    (hword : word ≠ []) (h : clearOf word (text ++ more) = true) :
    after word text = none := by
  induction text with
  | nil =>
      exact if_neg hword
  | cons c text ih =>
      rcases Bool.and_eq_true_iff.mp h with ⟨hhead, htail⟩
      have hnot : Not (word.isPrefixOf (c :: text) = true) := by
        intro hprefix
        exact not_prefix_of_differs hhead
          ((List.isPrefixOf_iff_prefix.mp hprefix).trans
            (List.prefix_append (c :: text) more))
      rw [after, if_neg hnot]
      exact ih htail

theorem clearOf_append {word as bs : List α} (has : clearOf word as = true)
    (hbs : clearOf word bs = true) : clearOf word (as ++ bs) = true := by
  induction as with
  | nil =>
      exact hbs
  | cons a as ih =>
      rcases Bool.and_eq_true_iff.mp has with ⟨hhead, htail⟩
      exact Bool.and_eq_true_iff.mpr
        ⟨differs_append_left hhead bs, ih htail⟩

/-- A stretch without the first element of the word is clear of it. -/
theorem clearOf_of_forall_ne {a : α} {word text : List α}
    (h : forall b, b ∈ text -> a ≠ b) : clearOf (a :: word) text = true := by
  induction text with
  | nil =>
      rfl
  | cons c text ih =>
      exact Bool.and_eq_true_iff.mpr
        ⟨differs_cons_of_ne (h c (by simp)) word text,
          ih (fun b hb => h b (by simp [hb]))⟩

end Library
end OpenMk3
