import Mathlib.Data.List.Basic

/-!
# First and last matches

The last element of a list with a property, read from the front: a later match
wins over an earlier one, as a later insertion into a map does.  The first
element with an image under a partial function, as the list grows at its end.
-/

namespace OpenMk3
namespace Library

universe u v

variable {α : Type u}

theorem findRev?_cons (p : α -> Bool) (a : α) (rest : List α) :
    (a :: rest).findRev? p =
      (rest.findRev? p).or (if p a = true then some a else none) := by
  simp [List.find?_append, List.find?_singleton]

theorem findRev?_eq_some_iff {p : α -> Bool} {xs : List α} {a : α} :
    xs.findRev? p = some a <->
      p a = true ∧ exists front back, xs = front ++ a :: back ∧
        forall b, b ∈ back -> p b = false := by
  rw [List.findRev?_eq_find?_reverse, List.find?_eq_some_iff_append]
  constructor
  · intro h
    rcases h with ⟨hp, back, front, hsplit, hback⟩
    refine ⟨hp, front.reverse, back.reverse, ?_, ?_⟩
    · rw [<- List.reverse_inj, hsplit]
      simp
    · intro b hb
      simpa using hback b (List.mem_reverse.mp hb)
  · intro h
    rcases h with ⟨hp, front, back, hsplit, hback⟩
    refine ⟨hp, back.reverse, front.reverse, ?_, ?_⟩
    · rw [hsplit]
      simp
    · intro b hb
      simpa using hback b (List.mem_reverse.mp hb)

theorem findRev?_eq_getLast? (p : α -> Bool) (xs : List α) :
    xs.findRev? p = (xs.filter p).getLast? := by
  simp

/-- A map filled in order holds, at a key, the last value inserted there. -/
theorem getElem?_foldl_insert {κ ν : Type v} [BEq κ] [LawfulBEq κ] [Hashable κ]
    (key : α -> κ) (value : α -> ν) (xs : List α) (m : Std.HashMap κ ν) (k : κ) :
    (xs.foldl (fun m a => m.insert (key a) (value a)) m)[k]? =
      ((xs.findRev? fun a => key a == k).map value).or m[k]? := by
  induction xs generalizing m with
  | nil =>
      rfl
  | cons a rest ih =>
      rw [List.foldl_cons, ih, findRev?_cons, Std.HashMap.getElem?_insert]
      cases rest.findRev? fun a => key a == k with
      | some b =>
          rfl
      | none =>
          cases hkey : key a == k with
          | true =>
              rfl
          | false =>
              rfl

/-!
## Growing lists
-/

theorem getElem?_of_prefix {xs ys : List α} {n : Nat} {a : α}
    (h : xs <+: ys) (hx : xs[n]? = some a) : ys[n]? = some a := by
  rcases h with ⟨rest, rfl⟩
  have hlt : n < xs.length := (List.getElem?_eq_some_iff.mp hx).1
  rw [List.getElem?_append_left hlt, hx]

theorem getElem?_snoc {xs : List α} {a b : α} {i : Nat} :
    (xs ++ [a])[i]? = some b <-> xs[i]? = some b ∨ i = xs.length ∧ a = b := by
  constructor
  · intro h
    rcases Nat.lt_or_ge i xs.length with hlt | hge
    · rw [List.getElem?_append_left hlt] at h
      exact .inl h
    · rw [List.getElem?_append_right hge, List.getElem?_singleton] at h
      rcases Option.ite_none_right_eq_some.mp h with ⟨hi, hab⟩
      exact .inr ⟨by omega, Option.some.inj hab⟩
  · intro h
    rcases h with hold | ⟨rfl, rfl⟩
    · exact getElem?_of_prefix (List.prefix_append xs [a]) hold
    · exact List.getElem?_concat_length ..

section FirstMatch

variable {ι : Type v} {f : α -> Option ι}

/-- The first image under `f`, with the position it comes from. -/
def firstMatch (f : α -> Option ι) (xs : List α) : Option (Nat × ι) :=
  xs.zipIdx.findSome? fun p => (f p.1).map fun b => (p.2, b)

theorem firstMatch_snoc (xs : List α) (a : α) :
    firstMatch f (xs ++ [a]) =
      (firstMatch f xs).or ((f a).map fun b => (xs.length, b)) := by
  simp [firstMatch, List.zipIdx_append, List.findSome?_append]

theorem firstMatch_snoc_of_none (xs : List α) {a : α} (h : f a = none) :
    firstMatch f (xs ++ [a]) = firstMatch f xs := by
  rw [firstMatch_snoc, h, Option.map_none, Option.or_none]

theorem firstMatch_append_of_some {xs : List α} {p : Nat × ι}
    (h : firstMatch f xs = some p) (rest : List α) :
    firstMatch f (xs ++ rest) = some p := by
  rw [firstMatch] at h
  rw [firstMatch, List.zipIdx_append, List.findSome?_append, h, Option.some_or]

theorem exists_firstMatch {xs : List α} {a : α} (ha : a ∈ xs) {b : ι}
    (hb : f a = some b) : exists p, firstMatch f xs = some p := by
  rcases List.append_of_mem ha with ⟨front, back, rfl⟩
  have hfront : exists p, firstMatch f (front ++ [a]) = some p := by
    rw [firstMatch_snoc, hb]
    cases firstMatch f front with
    | none => exact ⟨_, rfl⟩
    | some p => exact ⟨p, rfl⟩
  rcases hfront with ⟨p, hp⟩
  rw [List.append_cons]
  exact ⟨p, firstMatch_append_of_some hp back⟩

theorem firstMatch_eq_none {xs : List α} (h : forall a, a ∈ xs -> f a = none) :
    firstMatch f xs = none := by
  rw [firstMatch, List.findSome?_eq_none_iff]
  intro p hp
  rw [h p.1 (List.fst_mem_of_mem_zipIdx hp)]
  rfl

theorem firstMatch_eq_some {xs : List α} {n : Nat} {a : α} {b : ι}
    (ha : xs[n]? = some a) (hb : f a = some b)
    (hfirst : forall m a', m < n -> xs[m]? = some a' -> f a' = none) :
    firstMatch f xs = some (n, b) := by
  rcases List.getElem?_eq_some_iff.mp ha with ⟨hlt, hget⟩
  have hbefore : firstMatch f (xs.take n) = none := by
    apply firstMatch_eq_none
    intro a' hmem
    rcases List.mem_take_iff_getElem.mp hmem with ⟨m, hm, hget'⟩
    apply hfirst m a' (by omega)
    rw [List.getElem?_eq_getElem (by omega), hget']
  have hupto : firstMatch f (xs.take n ++ [a]) = some (n, b) := by
    rw [firstMatch_snoc, hbefore, hb, List.length_take,
      Nat.min_eq_left (Nat.le_of_lt hlt)]
    rfl
  have hsplit : xs = (xs.take n ++ [a]) ++ xs.drop (n + 1) := by
    rw [List.append_assoc, List.singleton_append, <- hget,
      <- List.drop_eq_getElem_cons hlt, List.take_append_drop]
  rw [hsplit]
  exact firstMatch_append_of_some hupto _

end FirstMatch

end Library
end OpenMk3
