import Mathlib.Data.List.Sort
import ChannelGuide.Broadcast

/-!
The order of airings is stable. Elements that air at the same time keep the order in which they
came, so it makes no difference whether elements are left out before they are put in order or
afterwards.
-/
namespace ChannelGuide

variable {α β : Type} {airing : α → Broadcast}

theorem inAiringOrder_eq_insertionSort (airing : α → Broadcast) (xs : List α) :
    inAiringOrder airing xs =
      xs.insertionSort fun a b => (airing a).NotAfter (airing b) := by
  have placed (x : α) (ys : List α) : placeInOrder airing x ys =
      ys.orderedInsert (fun a b => (airing a).NotAfter (airing b)) x := by
    induction ys with
    | nil => rfl
    | cons y ys ih => rw [placeInOrder, List.orderedInsert_cons, ih]
  induction xs with
  | nil => rfl
  | cons x xs ih =>
      rw [List.insertionSort_cons, ← ih]
      exact placed x _

/-- Elements that are made of others are put in order as those are. -/
theorem inAiringOrder_map (f : β → α) (xs : List β) :
    inAiringOrder airing (xs.map f) = (inAiringOrder (fun x => airing (f x)) xs).map f := by
  rw [inAiringOrder_eq_insertionSort, inAiringOrder_eq_insertionSort]
  exact (List.map_insertionSort _ _ f xs fun _ _ _ _ => Iff.rfl).symm

section Stable
variable {R : α → α → Prop}

/-- `a` airs before `b`, or at the same time and then stands to it as it did at first. -/
def KeepsTies (airing : α → Broadcast) (R : α → α → Prop) (a b : α) : Prop :=
  (airing a).NotAfter (airing b) ∧ ((airing b).NotAfter (airing a) → R a b)

theorem keepsTies_placeInOrder {x : α} {xs : List α} (first : ∀ y ∈ xs, R x y)
    (h : xs.Pairwise (KeepsTies airing R)) :
    (placeInOrder airing x xs).Pairwise (KeepsTies airing R) := by
  induction xs with
  | nil => exact List.pairwise_singleton _ _
  | cons y ys ih =>
      obtain ⟨head, tail⟩ := List.pairwise_cons.mp h
      rw [placeInOrder]
      split
      · next before =>
          refine List.pairwise_cons.mpr ⟨fun z hz => ⟨?_, fun _ => first z hz⟩, h⟩
          rcases List.mem_cons.mp hz with rfl | later
          · exact before
          · exact before.trans (head z later).1
      · next after =>
          have rest := ih (fun z hz => first z (List.mem_cons_of_mem y hz)) tail
          refine List.pairwise_cons.mpr ⟨fun z hz => ?_, rest⟩
          rcases List.mem_cons.mp ((placeInOrder_perm airing x ys).mem_iff.mp hz) with rfl | later
          · -- `y` airs strictly before `x`, so that `x` came first does not count
            exact ⟨(Broadcast.notAfter_total _ _).resolve_left after, fun tie => absurd tie after⟩
          · exact head z later

/-- What holds of the elements as they came still holds of those that air at the same time. -/
theorem keepsTies_inAiringOrder {xs : List α} (given : xs.Pairwise R) :
    (inAiringOrder airing xs).Pairwise (KeepsTies airing R) := by
  induction given with
  | nil => exact .nil
  | @cons x xs first _ ih =>
      refine keepsTies_placeInOrder (fun y hy => first y ?_) ih
      exact (inAiringOrder_perm airing xs).mem_iff.mp hy

end Stable

section Filter
variable (p : α → Bool)

theorem placeInOrder_of_first {x : α} {xs : List α}
    (first : ∀ y ∈ xs, (airing x).NotAfter (airing y)) : placeInOrder airing x xs = x :: xs := by
  cases xs with
  | nil => rfl
  | cons y ys => exact if_pos (first y List.mem_cons_self)

theorem filter_placeInOrder {x : α} {xs : List α}
    (sorted : xs.Pairwise fun a b => (airing a).NotAfter (airing b)) :
    (placeInOrder airing x xs).filter p =
      if p x then placeInOrder airing x (xs.filter p) else xs.filter p := by
  induction xs with
  | nil => rw [placeInOrder, List.filter_cons, List.filter_nil]; rfl
  | cons y ys ih =>
      obtain ⟨head, tail⟩ := List.pairwise_cons.mp sorted
      rw [placeInOrder]
      split
      · next before =>
          have first : ∀ z ∈ (y :: ys).filter p, (airing x).NotAfter (airing z) := by
            intro z hz
            rcases List.mem_cons.mp (List.mem_of_mem_filter hz) with rfl | later
            · exact before
            · exact before.trans (head z later)
          rw [List.filter_cons, placeInOrder_of_first first]
      · next after =>
          rw [List.filter_cons, ih tail]
          by_cases stays : p y
          · rw [if_pos stays, List.filter_cons_of_pos stays, placeInOrder, if_neg after]
            split <;> rfl
          · rw [if_neg stays, List.filter_cons_of_neg stays]

/-- Leaving elements out commutes with putting them in order. -/
theorem filter_inAiringOrder (xs : List α) :
    (inAiringOrder airing xs).filter p = inAiringOrder airing (xs.filter p) := by
  induction xs with
  | nil => rfl
  | cons x xs ih =>
      refine (filter_placeInOrder p (pairwise_inAiringOrder airing xs)).trans ?_
      rw [ih, List.filter_cons]
      split <;> rfl

/-- Where whatever comes before a member of a kind is of that kind too, it makes no difference
whether the first elements are taken, or the first of the kind. -/
theorem filter_take {p : α → Bool} {xs : List α} (closed : xs.Pairwise fun a b => p b → p a)
    (n : Nat) : (xs.take n).filter p = (xs.filter p).take n := by
  induction closed generalizing n with
  | nil => simp
  | @cons x xs head _ ih =>
      cases n with
      | zero => rfl
      | succ n =>
          by_cases kind : p x
          · rw [List.take_succ_cons, List.filter_cons_of_pos kind, List.filter_cons_of_pos kind, ih,
              List.take_succ_cons]
          · -- nothing after `x` is of the kind
            have none : ∀ y ∈ xs, ¬ p y := fun y hy later => kind (head y hy later)
            rw [List.take_succ_cons, List.filter_cons_of_neg kind, List.filter_cons_of_neg kind,
              List.filter_eq_nil_iff.mpr none, List.take_nil, List.filter_eq_nil_iff]
            exact fun y hy => none y (List.mem_of_mem_take hy)

end Filter
end ChannelGuide
