import Mathlib.Data.List.Basic

/-!
# Terminated lines

Texts written one behind the other, each with a terminator.  While no text
holds the terminator, what is written determines the texts.
-/

namespace OpenMk3
namespace Library

universe u

variable {α : Type u}

def terminated (mark : α) (texts : List (List α)) : List α :=
  texts.flatMap fun text => text ++ [mark]

theorem terminated_append (mark : α) (xs ys : List (List α)) :
    terminated mark (xs ++ ys) = terminated mark xs ++ terminated mark ys :=
  List.flatMap_append

theorem terminated_singleton (mark : α) (text : List α) :
    terminated mark [text] = text ++ [mark] := by
  simp [terminated]

theorem append_mark_inj {mark : α} {xs ys xs' ys' : List α} (hx : mark ∉ xs)
    (hx' : mark ∉ xs') (h : xs ++ mark :: ys = xs' ++ mark :: ys') :
    xs = xs' ∧ ys = ys' := by
  induction xs generalizing xs' with
  | nil =>
      cases xs' with
      | nil =>
          injection h with _ hys
          exact ⟨rfl, hys⟩
      | cons c xs' =>
          injection h with hc _
          exact absurd (hc ▸ List.mem_cons_self) hx'
  | cons c xs ih =>
      cases xs' with
      | nil =>
          injection h with hc _
          exact absurd (hc ▸ List.mem_cons_self) hx
      | cons c' xs' =>
          injection h with hc htail
          subst hc
          rcases ih (fun hm => hx (by simp [hm])) (fun hm => hx' (by simp [hm])) htail
            with ⟨rfl, hys⟩
          exact ⟨rfl, hys⟩

section Front

variable [BEq α] [LawfulBEq α] {mark : α} {text : List α} (h : mark ∉ text)
  (rest : List α)

include h

/-- What stands before the first mark. -/
theorem takeWhile_append_mark :
    (text ++ mark :: rest).takeWhile (· != mark) = text := by
  have hfront : forall c, c ∈ text -> (c != mark) = true :=
    fun c hc => bne_iff_ne.mpr fun heq => h (heq ▸ hc)
  rw [List.takeWhile_append_of_pos hfront, List.takeWhile_cons_of_neg (by simp),
    List.append_nil]

theorem dropWhile_append_mark :
    (text ++ mark :: rest).dropWhile (· != mark) = mark :: rest := by
  have hfront : forall c, c ∈ text -> (c != mark) = true :=
    fun c hc => bne_iff_ne.mpr fun heq => h (heq ▸ hc)
  rw [List.dropWhile_append_of_pos hfront, List.dropWhile_cons_of_neg (by simp)]

end Front

/-- What follows some of the lines is the rest of the lines. -/
theorem rest_terminated {mark : α} {texts lines : List (List α)} {rest : List α}
    (htexts : forall text, text ∈ texts -> mark ∉ text)
    (hlines : forall line, line ∈ lines -> mark ∉ line)
    (h : terminated mark texts ++ rest = terminated mark lines) :
    exists others, lines = texts ++ others ∧ rest = terminated mark others := by
  induction texts generalizing lines with
  | nil =>
      exact ⟨lines, rfl, h⟩
  | cons text texts ih =>
      cases lines with
      | nil =>
          simp [terminated] at h
      | cons line lines =>
          have hsplit : text ++ mark :: (terminated mark texts ++ rest) =
              line ++ mark :: terminated mark lines := by
            simpa [terminated] using h
          rcases append_mark_inj (htexts text (by simp)) (hlines line (by simp)) hsplit
            with ⟨rfl, htail⟩
          rcases ih (fun t ht => htexts t (by simp [ht]))
            (fun l hl => hlines l (by simp [hl])) htail with ⟨others, rfl, hrest⟩
          exact ⟨others, rfl, hrest⟩

end Library
end OpenMk3
