import Mathlib.Data.Set.Function

/-!
# Write-back copies

A live copy of some values is drawn on and, now and then, its dirty locations
are copied to another place.  The other copy is covered when every location
where the two differ is dirty.  Updates that mark what they change keep the
cover, and copying the dirty locations of a covered copy makes the two equal.
-/

namespace OpenMk3
namespace Library

universe u v

variable {location : Type u} {value : Type v}
  {live live' live'' other other' : location -> value}
  {dirty dirty' dirty'' : Set location}

/-- The two copies agree outside the dirty locations. -/
def Covered (live other : location -> value) (dirty : Set location) : Prop :=
  Set.EqOn live other (Set.compl dirty)

/-- An update changes no value without marking it and forgets no mark. -/
structure Marks (live live' : location -> value)
    (dirty dirty' : Set location) : Prop where
  changed : Set.EqOn live' live (Set.compl dirty')
  kept : dirty ⊆ dirty'

namespace Marks

theorem refl (live : location -> value) (dirty : Set location) :
    Marks live live dirty dirty :=
  ⟨Set.eqOn_refl live _, Set.Subset.refl dirty⟩

theorem trans (h : Marks live live' dirty dirty')
    (h' : Marks live' live'' dirty' dirty'') :
    Marks live live'' dirty dirty'' := by
  constructor
  · intro p hp
    have hp' : p ∈ Set.compl dirty' := fun hmem => hp (h'.kept hmem)
    exact (h'.changed hp).trans (h.changed hp')
  · exact h.kept.trans h'.kept

end Marks

namespace Covered

theorem refl (live : location -> value) (dirty : Set location) :
    Covered live live dirty :=
  Set.eqOn_refl live _

theorem marks (h : Covered live other dirty)
    (hmarks : Marks live live' dirty dirty') : Covered live' other dirty' := by
  intro p hp
  have hp' : p ∈ Set.compl dirty := fun hmem => hp (hmarks.kept hmem)
  exact (hmarks.changed hp).trans (h hp')

/-- Copying the dirty locations of a covered copy makes it the live one. -/
theorem eq_of_copied (h : Covered live other dirty)
    (hcopied : Set.EqOn other' live dirty)
    (hkept : Set.EqOn other' other (Set.compl dirty)) : other' = live := by
  funext p
  by_cases hp : p ∈ dirty
  · exact hcopied hp
  · exact (hkept hp).trans (h hp).symm

/-- A copy stays covered exactly when it differs from a covered one only on
dirty locations. -/
theorem iff_of_covered (h : Covered live other dirty) :
    Covered live other' dirty <-> Covered other other' dirty := by
  constructor
  · intro h' p hp
    exact (h hp).symm.trans (h' hp)
  · intro h' p hp
    exact (h hp).trans (h' hp)

end Covered

end Library
end OpenMk3
