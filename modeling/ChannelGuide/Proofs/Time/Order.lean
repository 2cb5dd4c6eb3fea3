import Mathlib.Order.Bounds.Defs
import Mathlib.Order.WellFounded
import ChannelGuide.Time.Instant

/-!
Instants in a line. The order of ticks is a linear order, and every set of instants that is bounded
below and not empty has a least member, though not every tick is an instant.
-/
namespace ChannelGuide.Instant

instance : LinearOrder Instant where
  le_refl := le_refl
  le_trans _ _ _ := Int.le_trans
  lt_iff_le_not_ge a b := by
    simp only [le_iff, lt_iff]
    omega
  le_antisymm _ _ hab hba := ext_iff.mpr (Int.le_antisymm hab hba)
  le_total a b := Int.le_total a.ticks b.ticks
  toDecidableLE := inferInstance
  toDecidableLT := inferInstance
  toDecidableEq := inferInstance

theorem exists_isLeast {S : Set Instant} {t : Instant} (bound : ∀ u ∈ S, t ≤ u)
    (inhabited : S.Nonempty) : ∃ s, IsLeast S s := by
  -- not every tick is an instant, so the member with the fewest ticks above the bound is taken
  let above (u : Instant) : Nat := (u.ticks - t.ticks).toNat
  obtain ⟨s, member, fewest⟩ := WellFounded.has_min (measure above).wf S inhabited
  refine ⟨s, member, fun u hu => ?_⟩
  have hs : t.ticks ≤ s.ticks := bound s member
  have hu' : t.ticks ≤ u.ticks := bound u hu
  have least : ¬ (u.ticks - t.ticks).toNat < (s.ticks - t.ticks).toNat := fewest u hu
  rw [le_iff]
  omega

end ChannelGuide.Instant
