import Mathlib.Data.List.Sort
import ChannelGuide.Register

/-!
What registers hold: a register is known by its elements, and putting elements into one adds no
others.
-/
namespace ChannelGuide.Register

variable {α : Type} {key : α → UInt64}

theorem eq_of_mem_iff {xs ys : List α} (hx : xs.Pairwise fun a b => key a < key b)
    (hy : ys.Pairwise fun a b => key a < key b) (same : ∀ x, x ∈ xs ↔ x ∈ ys) : xs = ys := by
  have irrefl : Std.Irrefl fun a b : α => key a < key b := ⟨fun _ => UInt64.lt_irrefl _⟩
  have antisymm : Std.Antisymm fun a b : α => key a < key b :=
    ⟨fun _ _ before after => absurd (UInt64.lt_trans before after) (UInt64.lt_irrefl _)⟩
  exact hx.eq_of_mem_iff hy same

theorem mem_or_mem_of_mem_insertAll {r : Register key} {xs : List α} {x : α}
    (member : x ∈ (r.insertAll xs).entries) : x ∈ r.entries ∨ x ∈ xs := by
  induction xs generalizing r with
  | nil => exact .inl member
  | cons y ys ih =>
      rcases ih member with earlier | later
      · rcases eq_or_mem_of_mem_placeByKey earlier with rfl | before
        · exact .inr List.mem_cons_self
        · exact .inl before
      · exact .inr (List.mem_cons_of_mem y later)

theorem mem_of_mem_ofList {xs : List α} {x : α}
    (member : x ∈ (ofList xs : Register key).entries) : x ∈ xs :=
  (mem_or_mem_of_mem_insertAll member).resolve_left List.not_mem_nil

section Apart
variable (apart : ∀ x y : α, key x = key y → x = y)
include apart

theorem mem_placeByKey {x z : α} {xs : List α} (member : z = x ∨ z ∈ xs) :
    z ∈ placeByKey key x xs := by
  induction xs with
  | nil => simpa [placeByKey] using member
  | cons y ys ih =>
      simp only [placeByKey]
      split
      · exact List.mem_cons.mpr member
      · split
        · next same =>
            -- only an element that is `x` already gives way to it
            rw [← apart x y same] at member
            simpa using member
        · rcases member with new | before
          · exact List.mem_cons_of_mem y (ih (.inl new))
          · rcases List.mem_cons.mp before with rfl | later
            · exact List.mem_cons_self
            · exact List.mem_cons_of_mem y (ih (.inr later))

theorem mem_insertAll_iff {r : Register key} {xs : List α} {z : α} :
    z ∈ (r.insertAll xs).entries ↔ z ∈ r.entries ∨ z ∈ xs := by
  refine ⟨mem_or_mem_of_mem_insertAll, ?_⟩
  induction xs generalizing r with
  | nil => exact fun member => member.resolve_right List.not_mem_nil
  | cons x xs ih =>
      rintro (before | member)
      · exact ih (.inl (mem_placeByKey apart (.inr before)))
      · rcases List.mem_cons.mp member with new | later
        · exact ih (.inl (mem_placeByKey apart (.inl new)))
        · exact ih (.inr later)

end Apart

theorem get?_of_mem {r : Register key} {x : α} (member : x ∈ r.entries) :
    r.get? (key x) = some x := (r.get?_eq_some_iff _ x).mpr ⟨member, rfl⟩

end ChannelGuide.Register
