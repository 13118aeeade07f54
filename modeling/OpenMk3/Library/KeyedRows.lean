import Mathlib.Data.List.Nodup
import Mathlib.Data.List.Perm.Basic

/-!
# Rows with keys

Lists of rows that are addressed by a key: the rows of a key, and the
replacement of all of them by new ones.
-/

namespace OpenMk3
namespace Library

universe u v

variable {row row' : Type u} {κ : Type v} [DecidableEq κ]

/-- The rows with a key, in order. -/
def rowsAt (key : row -> κ) (k : κ) (rows : List row) : List row :=
  rows.filter fun r => key r = k

/-- The rows with all those of one key replaced by `news`. -/
def replaceRows (key : row -> κ) (k : κ) (news rows : List row) : List row :=
  (rows.filter fun r => key r ≠ k) ++ news

variable {key : row -> κ} {k : κ} {news rows : List row}

theorem mem_replaceRows_iff {r : row} :
    r ∈ replaceRows key k news rows <-> r ∈ rows ∧ key r ≠ k ∨ r ∈ news := by
  simp [replaceRows]

theorem rowsAt_eq_nil (h : forall r, r ∈ rows -> key r ≠ k) :
    rowsAt key k rows = [] := by
  unfold rowsAt
  rw [List.filter_eq_nil_iff]
  intro r hr
  simpa using h r hr

theorem rowsAt_cons (r : row) (rest : List row) :
    rowsAt key k (r :: rest) =
      if key r = k then r :: rowsAt key k rest else rowsAt key k rest := by
  simp [rowsAt, List.filter_cons]

/-- Where keys are all different, a key has one row. -/
theorem rowsAt_of_mem (h : (rows.map key).Nodup) {r : row} (hr : r ∈ rows) :
    rowsAt key (key r) rows = [r] := by
  induction rows with
  | nil =>
      cases hr
  | cons first rest ih =>
      rw [List.map_cons, List.nodup_cons] at h
      rw [rowsAt_cons]
      rcases List.mem_cons.mp hr with heq | hrest
      · have hnone : rowsAt key (key r) rest = [] := by
          apply rowsAt_eq_nil
          intro r' hr' hkey
          apply h.left
          rw [<- heq, <- hkey]
          exact List.mem_map_of_mem hr'
        rw [heq] at hnone ⊢
        rw [if_pos rfl, hnone]
      · have hne : key first ≠ key r := fun hkey =>
          h.left (hkey ▸ List.mem_map_of_mem hrest)
        rw [if_neg hne, ih h.right hrest]

theorem rowsAt_perm {rows' : List row} (h : rows.Perm rows') :
    (rowsAt key k rows).Perm (rowsAt key k rows') := h.filter _

/-- Replacing the rows of one key leaves the rows of the others. -/
theorem rowsAt_replaceRows (hnews : forall r, r ∈ news -> key r = k) (k' : κ) :
    rowsAt key k' (replaceRows key k news rows) =
      if k' = k then news else rowsAt key k' rows := by
  have hold : (rows.filter fun r => key r ≠ k).filter (fun r => key r = k') =
      if k' = k then [] else rowsAt key k' rows := by
    rw [List.filter_filter]
    split
    · rename_i hk
      rw [List.filter_eq_nil_iff]
      intro r _
      simp [hk]
    · rename_i hk
      apply List.filter_congr
      intro r _
      by_cases hr : key r = k'
      · simp [hr, hk]
      · simp [hr]
  unfold replaceRows
  rw [rowsAt, List.filter_append, hold]
  split
  · rename_i hk
    rw [List.nil_append, List.filter_eq_self]
    intro r hr
    simpa [hk] using hnews r hr
  · rename_i hk
    have hnone : news.filter (fun r => key r = k') = [] := by
      rw [List.filter_eq_nil_iff]
      intro r hr
      simpa [hnews r hr] using fun heq : k = k' => hk heq.symm
    rw [hnone, List.append_nil]

theorem replaceRows_perm {rows' : List row} (h : rows.Perm rows') :
    (replaceRows key k news rows).Perm (replaceRows key k news rows') :=
  (h.filter _).append_right news

theorem map_replaceRows {key' : row' -> κ} (f : row -> row')
    (hf : forall r, key' (f r) = key r) :
    (replaceRows key k news rows).map f =
      replaceRows key' k (news.map f) (rows.map f) := by
  unfold replaceRows
  rw [List.map_append, List.filter_map]
  simp [Function.comp_def, hf]

/-- Rows whose keys are all different stay so when one is replaced. -/
theorem replaceRows_nodup {r : row} (hr : key r = k)
    (h : (rows.map key).Nodup) :
    ((replaceRows key k [r] rows).map key).Nodup := by
  unfold replaceRows
  rw [List.map_append]
  apply List.Nodup.append
  · exact List.Nodup.sublist (List.filter_sublist.map key) h
  · simp
  · intro k' hk' hmem
    rw [List.map_singleton, List.mem_singleton, hr] at hmem
    rcases List.mem_map.mp hk' with ⟨r', hr', hkey⟩
    have hne : key r' ≠ k := by simpa using (List.mem_filter.mp hr').right
    exact hne (hkey.trans hmem)

end Library
end OpenMk3
