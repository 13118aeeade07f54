import OpenMk3.Library.KeyedRows

/-!
# Leases

Keys that are renewed from time to time and dropped by a sweep once they have
not been renewed for long enough.  Under a clock that does not run back, a sweep
keeps exactly the keys renewed recently: no earlier sweep has dropped one that
a later sweep would keep.
-/

namespace OpenMk3
namespace Library

universe u

variable {key : Type u} [DecidableEq key]

/-- The keys, each with the time it was last renewed. -/
abbrev Leases (key : Type u) : Type u :=
  List (key × Nat)

/-- The time of the last renewal of a key. -/
def lastRenewal (renewals : List (key × Nat)) (k : key) : Option Nat :=
  (rowsAt Prod.fst k renewals).getLast?.map Prod.snd

theorem lastRenewal_snoc (renewals : List (key × Nat)) (k k' : key) (time : Nat) :
    lastRenewal (renewals ++ [(k, time)]) k' =
      if k' = k then some time else lastRenewal renewals k' := by
  unfold lastRenewal rowsAt
  rw [List.filter_append]
  by_cases hk : k' = k
  · simp [hk]
  · simp [hk, Ne.symm hk]

namespace Leases

def renew (k : key) (now : Nat) (t : Leases key) : Leases key :=
  replaceRows Prod.fst k [(k, now)] t

def sweep (ttl now : Nat) (t : Leases key) : Leases key :=
  t.filter fun l => decide (now - l.snd < ttl)

/-- Every key in the table is there with its last renewal, and a key that is not
there has not been renewed for the time to live. -/
structure Current (ttl clock : Nat) (renewals : List (key × Nat))
    (t : Leases key) : Prop where
  nodup : (t.map Prod.fst).Nodup
  renewed : forall k time, (k, time) ∈ t -> lastRenewal renewals k = some time
  kept : forall k time, lastRenewal renewals k = some time ->
    (k, time) ∈ t ∨ ttl ≤ clock - time

variable {ttl clock now : Nat} {renewals : List (key × Nat)} {t : Leases key}

theorem current_nil (ttl clock : Nat) :
    Current ttl clock [] ([] : Leases key) where
  nodup := List.nodup_nil
  renewed := nofun
  kept := nofun

theorem Current.renew (h : Current ttl clock renewals t) (hnow : clock ≤ now)
    (k : key) : Current ttl now (renewals ++ [(k, now)]) (t.renew k now) where
  nodup := replaceRows_nodup rfl h.nodup
  renewed k' time hmem := by
    rw [lastRenewal_snoc]
    rcases mem_replaceRows_iff.mp hmem with ⟨hold, hne⟩ | hnew
    · rw [if_neg hne]
      exact h.renewed k' time hold
    · cases List.mem_singleton.mp hnew
      rw [if_pos rfl]
  kept k' time hlast := by
    rw [lastRenewal_snoc] at hlast
    split at hlast
    · next hk =>
        cases hlast
        rw [hk]
        exact .inl (mem_replaceRows_iff.mpr (.inr (List.mem_singleton.mpr rfl)))
    · next hk =>
        rcases h.kept k' time hlast with hmem | hold
        · exact .inl (mem_replaceRows_iff.mpr (.inl ⟨hmem, hk⟩))
        · exact .inr (by omega)

theorem Current.later (h : Current ttl clock renewals t) (hnow : clock ≤ now) :
    Current ttl now renewals t where
  nodup := h.nodup
  renewed := h.renewed
  kept k time hlast := by
    rcases h.kept k time hlast with hmem | hold
    · exact .inl hmem
    · exact .inr (by omega)

/-- A sweep keeps the keys whose last renewal is recent, and no others. -/
theorem Current.mem_sweep_iff (h : Current ttl clock renewals t)
    (hnow : clock ≤ now) (k : key) (time : Nat) :
    (k, time) ∈ t.sweep ttl now <->
      lastRenewal renewals k = some time ∧ now - time < ttl := by
  unfold sweep
  rw [List.mem_filter, decide_eq_true_iff]
  constructor
  · rintro ⟨hmem, hlt⟩
    exact ⟨h.renewed k time hmem, hlt⟩
  · rintro ⟨hlast, hlt⟩
    rcases h.kept k time hlast with hmem | hold
    · exact ⟨hmem, hlt⟩
    · omega

theorem Current.sweep (h : Current ttl clock renewals t) (hnow : clock ≤ now) :
    Current ttl now renewals (t.sweep ttl now) where
  nodup := h.nodup.sublist (List.filter_sublist.map Prod.fst)
  renewed k time hmem := ((h.mem_sweep_iff hnow k time).mp hmem).left
  kept k time hlast := by
    by_cases hlt : now - time < ttl
    · exact .inl ((h.mem_sweep_iff hnow k time).mpr ⟨hlast, hlt⟩)
    · exact .inr (Nat.le_of_not_lt hlt)

end Leases

end Library
end OpenMk3
