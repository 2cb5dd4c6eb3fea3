/-!
First members of a list. What is found from the front is the first member of which something holds;
what holds of more members holds of one no further back.
-/
namespace ChannelGuide

variable {α β : Type} {p q : α → Prop} {xs : List α} {x y : α} {place : Nat}

/-- The first member of a list of which `p` holds. -/
structure FirstOf (p : α → Prop) (xs : List α) (x : α) : Prop where
  holds : p x
  split : ∃ before after, xs = before ++ x :: after ∧ ∀ y ∈ before, ¬ p y

theorem firstOf_iff_find? [DecidablePred p] : FirstOf p xs x ↔ xs.find? (p ·) = some x := by
  rw [List.find?_eq_some_iff_append]
  constructor
  · rintro ⟨holds, before, after, split, none_before⟩
    refine ⟨decide_eq_true holds, before, after, split, fun y passed => ?_⟩
    simpa using none_before y passed
  · rintro ⟨holds, before, after, split, none_before⟩
    refine ⟨of_decide_eq_true holds, before, after, split, fun y passed => ?_⟩
    simpa using none_before y passed

theorem FirstOf.mem (h : FirstOf p xs x) : x ∈ xs := by
  obtain ⟨-, before, after, rfl, -⟩ := h
  exact List.mem_append_right before List.mem_cons_self

theorem FirstOf.unique [DecidablePred p] (hx : FirstOf p xs x) (hy : FirstOf p xs y) : x = y := by
  rw [firstOf_iff_find?] at hx hy
  exact Option.some.inj (hx.symm.trans hy)

theorem exists_firstOf_iff [DecidablePred p] : (∃ x, FirstOf p xs x) ↔ ∃ x ∈ xs, p x := by
  constructor
  · rintro ⟨x, first⟩
    exact ⟨x, first.mem, first.holds⟩
  · rintro ⟨x, member, holds⟩
    have found : (xs.find? (p ·)).isSome := List.find?_isSome.mpr ⟨x, member, decide_eq_true holds⟩
    obtain ⟨y, first⟩ := Option.isSome_iff_exists.mp found
    exact ⟨y, firstOf_iff_find?.mpr first⟩

theorem firstOf_map_iff [DecidablePred p] {f : β → α} {bs : List β} :
    FirstOf p (bs.map f) x ↔ ∃ b, FirstOf (fun b => p (f b)) bs b ∧ f b = x := by
  rw [firstOf_iff_find?, List.find?_map, Option.map_eq_some_iff]
  exact exists_congr fun b => and_congr_left fun _ => firstOf_iff_find?.symm

/-- The first one of lists put together is the first one of the first list that has any. -/
theorem firstOf_flatMap_iff [DecidablePred p] {f : β → List α} {bs : List β} :
    FirstOf p (bs.flatMap f) x ↔
      ∃ b, FirstOf (fun b => ∃ y ∈ f b, p y) bs b ∧ FirstOf p (f b) x := by
  rw [firstOf_iff_find?, List.find?_flatMap, List.findSome?_eq_some_iff]
  constructor
  · rintro ⟨before, b, after, split, found, none_before⟩
    have first := firstOf_iff_find?.mpr found
    refine ⟨b, ⟨⟨x, first.mem, first.holds⟩, before, after, split, ?_⟩, first⟩
    rintro other passed ⟨y, member, holds⟩
    exact List.find?_eq_none.mp (none_before other passed) y member (decide_eq_true holds)
  · rintro ⟨b, ⟨-, before, after, split, none_before⟩, first⟩
    refine ⟨before, b, after, split, firstOf_iff_find?.mp first, fun other passed => ?_⟩
    refine List.find?_eq_none.mpr fun y member holds => ?_
    exact none_before other passed ⟨y, member, of_decide_eq_true holds⟩

/-- The first member of a list of which `p` holds, with so many members before it. -/
structure FirstAt (p : α → Prop) (xs : List α) (place : Nat) (x : α) : Prop where
  holds : p x
  split : ∃ before after, xs = before ++ x :: after ∧ before.length = place ∧ ∀ y ∈ before, ¬ p y

theorem FirstOf.exists_firstAt (first : FirstOf p xs x) : ∃ place, FirstAt p xs place x := by
  obtain ⟨holds, before, after, split, none_before⟩ := first
  exact ⟨before.length, holds, before, after, split, rfl, none_before⟩

theorem FirstAt.firstOf (first : FirstAt p xs place x) : FirstOf p xs x := by
  obtain ⟨holds, before, after, split, -, none_before⟩ := first
  exact ⟨holds, before, after, split, none_before⟩

theorem FirstAt.getElem? (first : FirstAt p xs place x) : xs[place]? = some x := by
  obtain ⟨-, before, after, rfl, rfl, -⟩ := first
  simp

/-- What holds of more members holds of one at the same place or before it. -/
theorem FirstAt.exists_earlier [DecidablePred q] (first : FirstAt p xs place x)
    (more : ∀ y, p y → q y) : ∃ place' x', place' ≤ place ∧ FirstAt q xs place' x' := by
  have there := first.getElem?
  have some_member : ∃ y ∈ xs, q y := ⟨x, List.mem_of_getElem? there, more x first.holds⟩
  obtain ⟨x', first'⟩ := exists_firstOf_iff.mpr some_member
  obtain ⟨place', holds, before, after, rfl, rfl, none_before⟩ := first'.exists_firstAt
  refine ⟨before.length, x', Nat.not_lt.mp fun later => ?_, holds, before, after, rfl, rfl,
    none_before⟩
  -- if it were further back, the member there would be one of those before it
  rw [List.getElem?_append_left later] at there
  exact none_before x (List.mem_of_getElem? there) (more x first.holds)

end ChannelGuide
