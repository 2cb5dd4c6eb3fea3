import Mathlib.Data.List.Forall2
import Mathlib.Logic.Relation
import ChannelGuide.Catalogue.Fixture
import ChannelGuide.Proofs.Register

/-!
Which items a catalogue takes for equivalent. A catalogue may be told of equivalents in any number
of calls, with other changes in between. It keeps the connected components of what the calls name
together: its sets share no item, and the equivalents of an item are all to which a chain of calls
leads from it.
-/
namespace ChannelGuide

/-- One of the calls names both items. -/
def NamedTogether (calls : List (List ItemId)) (x y : ItemId) : Prop :=
  ∃ ids ∈ calls, x ∈ ids ∧ y ∈ ids

/-- A chain of calls, each sharing an item with the next, leads from one item to the other. The
chain may be empty, so an item is linked to itself even if no call names it. -/
def Linked (calls : List (List ItemId)) : ItemId → ItemId → Prop :=
  Relation.ReflTransGen (NamedTogether calls)

namespace Linked
variable {calls others : List (List ItemId)} {ids : List ItemId} {x y z : ItemId}

theorem refl (calls : List (List ItemId)) (x : ItemId) : Linked calls x x :=
  Relation.ReflTransGen.refl

theorem trans (hxy : Linked calls x y) (hyz : Linked calls y z) : Linked calls x z :=
  Relation.ReflTransGen.trans hxy hyz

theorem of_call (call : ids ∈ calls) (hx : x ∈ ids) (hy : y ∈ ids) : Linked calls x y :=
  Relation.ReflTransGen.single ⟨ids, call, hx, hy⟩

theorem symm (h : Linked calls x y) : Linked calls y x := by
  induction h with
  | refl => exact refl calls x
  | tail _ named ih =>
      obtain ⟨ids, call, hy, hz⟩ := named
      exact (of_call call hz hy).trans ih

theorem mono (more : ∀ x y, NamedTogether calls x y → NamedTogether others x y)
    (h : Linked calls x y) : Linked others x y := by
  induction h with
  | refl => exact refl others x
  | tail _ named ih => exact Relation.ReflTransGen.tail ih (more _ _ named)

theorem eq_or_named (h : Linked calls x y) : y = x ∨ ∃ ids ∈ calls, x ∈ ids := by
  rcases Relation.ReflTransGen.cases_head h with same | ⟨_, ⟨ids, call, hx, -⟩, -⟩
  · exact .inl same.symm
  · exact .inr ⟨ids, call, hx⟩

end Linked

/-- The item is linked to one of the given ones. -/
def LinkedToAny (calls : List (List ItemId)) (ids : List ItemId) (x : ItemId) : Prop :=
  ∃ a ∈ ids, Linked calls a x

section Calls
variable {calls : List (List ItemId)} {ids : List ItemId} {x y : ItemId}

/-- One more call links nothing but what is linked to the items that it names. -/
theorem linked_append_iff : Linked (calls ++ [ids]) x y ↔
    Linked calls x y ∨ LinkedToAny calls ids x ∧ LinkedToAny calls ids y := by
  constructor
  · intro h
    -- along the chain; a link of the new call starts and ends at one of its items
    induction h with
    | refl => exact .inl (Linked.refl calls x)
    | @tail y z _ named ih =>
        obtain ⟨set, call, hy, hz⟩ := named
        rcases List.mem_append.mp call with before | new
        · have link : Linked calls y z := .of_call before hy hz
          rcases ih with old | ⟨hx, a, ha, reaches⟩
          · exact .inl (old.trans link)
          · exact .inr ⟨hx, a, ha, reaches.trans link⟩
        · obtain rfl := List.mem_singleton.mp new
          refine .inr ⟨?_, z, hz, Linked.refl calls z⟩
          rcases ih with old | ⟨hx, -⟩
          · exact ⟨y, hy, old.symm⟩
          · exact hx
  · have before (a b : ItemId) : NamedTogether calls a b → NamedTogether (calls ++ [ids]) a b :=
      fun ⟨set, call, both⟩ => ⟨set, List.mem_append_left [ids] call, both⟩
    have new : ids ∈ calls ++ [ids] := List.mem_append_right calls (List.mem_singleton_self ids)
    rintro (old | ⟨⟨a, ha, to_x⟩, b, hb, to_y⟩)
    · exact old.mono before
    · have link : Linked (calls ++ [ids]) a b := .of_call new ha hb
      exact (to_x.symm.mono before).trans (link.trans (to_y.mono before))

end Calls

namespace IdSet

/-- The two sets share an item. -/
def Meets (s t : IdSet) : Prop := ∃ id ∈ s.entries, id ∈ t.entries

instance (s t : IdSet) : Decidable (s.Meets t) :=
  inferInstanceAs (Decidable (∃ id ∈ s.entries, _))

/-- The two sets share no item. -/
def Apart (s t : IdSet) : Prop := ∀ id ∈ s.entries, id ∉ t.entries

instance (s t : IdSet) : Decidable (s.Apart t) :=
  inferInstanceAs (Decidable (∀ id ∈ s.entries, _))

theorem mem_insertAll {s : IdSet} {ids : List ItemId} {id : ItemId} :
    id ∈ (s.insertAll ids).entries ↔ id ∈ s.entries ∨ id ∈ ids :=
  Register.mem_insertAll_iff fun _ _ same => congrArg ItemId.mk same

theorem mem_ofList {ids : List ItemId} {id : ItemId} :
    id ∈ (Register.ofList ids : IdSet).entries ↔ id ∈ ids := by
  rw [Register.ofList, mem_insertAll]
  exact or_iff_right List.not_mem_nil

theorem eq_of_mem_iff {s t : IdSet} (same : ∀ id, id ∈ s.entries ↔ id ∈ t.entries) : s = t := by
  obtain ⟨xs, ascending⟩ := s
  obtain ⟨ys, ascending'⟩ := t
  obtain rfl : xs = ys := Register.eq_of_mem_iff ascending ascending' same
  rfl

end IdSet

/-- If no two sets share an item, it makes no difference that the set that absorbs the others grows
on the way: exactly those are absorbed that share an item with it at first. -/
theorem absorb_of_apart {sets : List IdSet} (apart : sets.Pairwise IdSet.Apart) (joined : IdSet) :
    (absorb joined sets).2 = sets.filter (fun set => ¬ set.Meets joined) ∧
      ∀ id, id ∈ (absorb joined sets).1.entries ↔
        id ∈ joined.entries ∨ ∃ set ∈ sets, set.Meets joined ∧ id ∈ set.entries := by
  induction sets generalizing joined with
  | nil => simp [absorb]
  | cons set sets ih =>
      obtain ⟨apart_set, apart_rest⟩ := List.pairwise_cons.mp apart
      by_cases meets : set.Meets joined
      · -- what has been absorbed shares no item with the sets that follow
        have grown : ∀ s ∈ sets,
            (s.Meets (joined.insertAll set.entries) ↔ s.Meets joined) := by
          intro s member
          constructor
          · rintro ⟨id, hs, grown⟩
            rcases IdSet.mem_insertAll.mp grown with old | absorbed
            · exact ⟨id, hs, old⟩
            · exact absurd hs (apart_set s member id absorbed)
          · rintro ⟨id, hs, old⟩
            exact ⟨id, hs, IdSet.mem_insertAll.mpr (.inl old)⟩
        obtain ⟨kept, members⟩ := ih apart_rest (joined.insertAll set.entries)
        have step : absorb joined (set :: sets) = absorb (joined.insertAll set.entries) sets :=
          if_pos meets
        rw [step]
        constructor
        · rw [kept, List.filter_cons_of_neg (by simpa using meets)]
          exact List.filter_congr fun s member =>
            decide_eq_decide.mpr (not_congr (grown s member))
        · intro id
          rw [members, IdSet.mem_insertAll, or_assoc, List.exists_mem_cons_iff]
          refine or_congr_right (or_congr (and_iff_right meets).symm ?_)
          exact exists_congr fun s => and_congr_right fun member => by rw [grown s member]
      · obtain ⟨kept, members⟩ := ih apart_rest joined
        have step : absorb joined (set :: sets) =
            ((absorb joined sets).1, set :: (absorb joined sets).2) := if_neg meets
        rw [step]
        constructor
        · rw [List.filter_cons_of_pos (by simpa using meets), kept]
        · intro id
          rw [members, List.exists_mem_cons_iff]
          exact or_congr_right (or_iff_right fun found => meets found.1).symm

/-- The sets are the connected components of the items that the calls name. Sets without items, for
calls without items, may be among them. -/
structure Components (calls : List (List ItemId)) (sets : List IdSet) : Prop where
  apart : sets.Pairwise IdSet.Apart
  linked : ∀ set ∈ sets, ∀ x ∈ set.entries, ∀ y, y ∈ set.entries ↔ Linked calls x y
  named : ∀ ids ∈ calls, ∀ x ∈ ids, ∃ set ∈ sets, x ∈ set.entries

namespace Components
variable {calls : List (List ItemId)} {sets : List IdSet} {ids : List ItemId}

theorem nil : Components [] [] where
  apart := .nil
  linked _ member := absurd member List.not_mem_nil
  named _ call := absurd call List.not_mem_nil

theorem linkedToAny_iff (h : Components calls sets) (ids : List ItemId) (x : ItemId) :
    LinkedToAny calls ids x ↔
      x ∈ ids ∨ ∃ set ∈ sets, set.Meets (.ofList ids) ∧ x ∈ set.entries := by
  constructor
  · rintro ⟨a, ha, link⟩
    rcases link.eq_or_named with rfl | ⟨others, call, named⟩
    · exact .inl ha
    · obtain ⟨set, member, in_set⟩ := h.named others call a named
      refine .inr ⟨set, member, ⟨a, in_set, IdSet.mem_ofList.mpr ha⟩, ?_⟩
      exact (h.linked set member a in_set x).mpr link
  · rintro (hx | ⟨set, member, ⟨a, in_set, ha⟩, hx⟩)
    · exact ⟨x, hx, Linked.refl calls x⟩
    · exact ⟨a, IdSet.mem_ofList.mp ha, (h.linked set member a in_set x).mp hx⟩

/-- A set that is not absorbed is linked to no item of the new call. -/
theorem not_linkedToAny_of_kept (h : Components calls sets) {set : IdSet} (member : set ∈ sets)
    (kept : ¬ set.Meets (.ofList ids)) {x : ItemId} (hx : x ∈ set.entries) :
    ¬ LinkedToAny calls ids x := by
  rintro ⟨a, ha, link⟩
  exact kept ⟨a, (h.linked set member x hx a).mpr link.symm, IdSet.mem_ofList.mpr ha⟩

/-- One more call keeps the components, joining those that share an item with it. -/
theorem add (h : Components calls sets) (ids : List ItemId) :
    Components (calls ++ [ids])
      ((absorb (.ofList ids) sets).2 ++ [(absorb (.ofList ids) sets).1]) := by
  obtain ⟨kept_eq, members⟩ := absorb_of_apart h.apart (.ofList ids)
  have of_joined (x : ItemId) :
      x ∈ (absorb (.ofList ids) sets).1.entries ↔ LinkedToAny calls ids x := by
    rw [members, h.linkedToAny_iff, IdSet.mem_ofList]
  have of_kept {set : IdSet} : set ∈ (absorb (.ofList ids) sets).2 ↔
      set ∈ sets ∧ ¬ set.Meets (.ofList ids) := by
    rw [kept_eq, List.mem_filter, decide_eq_true_eq]
  constructor
  · refine List.pairwise_append.mpr ⟨?_, List.pairwise_singleton _ _, ?_⟩
    · rw [kept_eq]
      exact h.apart.filter _
    · intro set kept joined last x hx
      obtain ⟨member, unmet⟩ := of_kept.mp kept
      rw [List.mem_singleton.mp last, of_joined]
      exact h.not_linkedToAny_of_kept member unmet hx
  · intro set stored x hx y
    rw [linked_append_iff]
    rcases List.mem_append.mp stored with kept | last
    · obtain ⟨member, unmet⟩ := of_kept.mp kept
      rw [h.linked set member x hx y]
      exact (or_iff_left fun both => h.not_linkedToAny_of_kept member unmet hx both.1).symm
    · obtain rfl := List.mem_singleton.mp last
      rw [of_joined]
      obtain ⟨a, ha, to_x⟩ := (of_joined x).mp hx
      constructor
      · exact fun hy => .inr ⟨⟨a, ha, to_x⟩, hy⟩
      · rintro (old | ⟨-, hy⟩)
        · exact ⟨a, ha, to_x.trans old⟩
        · exact hy
  · intro others call x hx
    have of_new (new : LinkedToAny calls ids x) :
        ∃ set ∈ (absorb (.ofList ids) sets).2 ++ [(absorb (.ofList ids) sets).1],
          x ∈ set.entries :=
      ⟨_, List.mem_append_right _ (List.mem_singleton_self _), (of_joined x).mpr new⟩
    rcases List.mem_append.mp call with before | new
    · obtain ⟨set, member, in_set⟩ := h.named others before x hx
      by_cases meets : set.Meets (.ofList ids)
      · exact of_new ((h.linkedToAny_iff ids x).mpr (.inr ⟨set, member, meets, in_set⟩))
      · exact ⟨set, List.mem_append_left _ (of_kept.mpr ⟨member, meets⟩), in_set⟩
    · rw [List.mem_singleton.mp new] at hx
      exact of_new ⟨x, hx, Linked.refl calls x⟩

end Components

namespace Catalogue

/-- The catalogue has come about from an empty one. `calls` are the equivalences that it was told of
on the way, the first of them first. -/
inductive BuiltBy : List (List ItemId) → Catalogue → Prop
  | empty : BuiltBy [] .empty
  | channel {calls : List (List ItemId)} {c : Catalogue} (channel : Channel) :
      BuiltBy calls c → BuiltBy calls (c.addChannel channel)
  | item {calls : List (List ItemId)} {c : Catalogue} (item : Item) :
      BuiltBy calls c → BuiltBy calls (c.addItem item)
  | equivalence {calls : List (List ItemId)} {c : Catalogue} (ids : List ItemId) :
      BuiltBy calls c → BuiltBy (calls ++ [ids]) (c.addEquivalence ids)

variable {calls : List (List ItemId)} {c : Catalogue}

theorem BuiltBy.channels (built : BuiltBy calls c) (channels : List Channel) :
    BuiltBy calls (channels.foldl addChannel c) := by
  induction channels generalizing c with
  | nil => exact built
  | cons channel channels ih => exact ih (built.channel channel)

theorem BuiltBy.items (built : BuiltBy calls c) (items : List Item) :
    BuiltBy calls (items.foldl addItem c) := by
  induction items generalizing c with
  | nil => exact built
  | cons item items ih => exact ih (built.item item)

theorem BuiltBy.equivalences (built : BuiltBy calls c) (sets : List (List ItemId)) :
    BuiltBy (calls ++ sets) (sets.foldl addEquivalence c) := by
  induction sets generalizing calls c with
  | nil => exact (List.append_nil calls).symm ▸ built
  | cons ids sets ih =>
      rw [List.append_cons]
      exact ih (built.equivalence ids)

theorem builtBy_catalogue (fixture : Fixture) : BuiltBy fixture.equivalences fixture.catalogue :=
  ((BuiltBy.empty.channels fixture.channels).items fixture.items).equivalences fixture.equivalences

theorem BuiltBy.components (built : BuiltBy calls c) : Components calls c.equivalences := by
  induction built with
  | empty => exact .nil
  | channel _ _ ih => exact ih
  | item _ _ ih => exact ih
  | equivalence ids _ ih => exact ih.add ids

theorem mem_equivalentsOf_iff (h : Components calls c.equivalences) (x y : ItemId) :
    y ∈ (c.equivalentsOf x).entries ↔ Linked calls x y := by
  unfold equivalentsOf
  cases found : c.equivalences.find? fun set => x ∈ set.entries with
  | some set =>
      have in_set : x ∈ set.entries := by simpa using List.find?_some found
      exact h.linked set (List.mem_of_find?_eq_some found) x in_set y
  | none =>
      have unnamed : ¬ ∃ ids ∈ calls, x ∈ ids := by
        rintro ⟨ids, call, named⟩
        obtain ⟨set, member, in_set⟩ := h.named ids call x named
        simpa [in_set] using List.find?_eq_none.mp found set member
      rw [Option.getD_none, IdSet.mem_ofList, List.mem_singleton]
      constructor
      · rintro rfl
        exact Linked.refl calls y
      · exact fun link => link.eq_or_named.resolve_right unnamed

theorem equivalentsOf_of_unnamed (h : Components calls c.equivalences) {x : ItemId}
    (unnamed : ∀ ids ∈ calls, x ∉ ids) : c.equivalentsOf x = .ofList [x] := by
  refine IdSet.eq_of_mem_iff fun y => ?_
  rw [mem_equivalentsOf_iff h, IdSet.mem_ofList, List.mem_singleton]
  constructor
  · exact fun link => link.eq_or_named.resolve_right fun ⟨ids, call, hx⟩ => unnamed ids call hx
  · rintro rfl
    exact Linked.refl calls y

end Catalogue

/-- The same calls in any order, each with its items in any order. -/
def Reordered (calls others : List (List ItemId)) : Prop :=
  ∃ turned, List.Forall₂ List.Perm calls turned ∧ turned.Perm others

section Order
variable {calls others : List (List ItemId)} {x y : ItemId}

theorem namedTogether_iff_of_forall₂ (turned : List.Forall₂ List.Perm calls others) :
    NamedTogether calls x y ↔ NamedTogether others x y := by
  unfold NamedTogether
  induction turned with
  | nil => exact Iff.rfl
  | cons same _ ih =>
      rw [List.exists_mem_cons_iff, List.exists_mem_cons_iff, ih, same.mem_iff, same.mem_iff]

theorem Reordered.linked_iff (order : Reordered calls others) :
    Linked calls x y ↔ Linked others x y := by
  obtain ⟨turned, each, perm⟩ := order
  have same (a b : ItemId) : NamedTogether calls a b ↔ NamedTogether others a b := by
    rw [namedTogether_iff_of_forall₂ each]
    exact exists_congr fun ids => and_congr_left fun _ => perm.mem_iff
  exact ⟨Linked.mono fun a b => (same a b).mp, Linked.mono fun a b => (same a b).mpr⟩

end Order

/-- The sets of a catalogue share no item, and the equivalents of an item are all that a chain of
calls leads to from it; alone the item itself, if no call names it. So the order of the calls, and
of the items in each, makes no difference. -/
theorem equivalents_connected {calls : List (List ItemId)} {c : Catalogue}
    (built : Catalogue.BuiltBy calls c) :
    c.equivalences.Pairwise IdSet.Apart ∧
      (∀ x y, y ∈ (c.equivalentsOf x).entries ↔ Linked calls x y) ∧
      (∀ x, (∀ ids ∈ calls, x ∉ ids) → (c.equivalentsOf x).entries = [x]) ∧
      ∀ {others : List (List ItemId)} {d : Catalogue}, Reordered calls others →
        Catalogue.BuiltBy others d → ∀ x, d.equivalentsOf x = c.equivalentsOf x := by
  have components := built.components
  refine ⟨components.apart, Catalogue.mem_equivalentsOf_iff components, ?_, ?_⟩
  · intro x unnamed
    rw [Catalogue.equivalentsOf_of_unnamed components unnamed]
    rfl
  · intro others d order built_too x
    refine IdSet.eq_of_mem_iff fun y => ?_
    rw [Catalogue.mem_equivalentsOf_iff built_too.components,
      Catalogue.mem_equivalentsOf_iff components]
    exact order.linked_iff.symm

/-- The last of the calls joins two sets, and leaves out one that lies between them. -/
theorem equivalents_connected_joined :
    let calls : List (List ItemId) := [[⟨1⟩, ⟨2⟩], [⟨5⟩, ⟨6⟩], [], [⟨3⟩, ⟨4⟩], [⟨4⟩, ⟨1⟩, ⟨4⟩]]
    let others : List (List ItemId) := [[⟨4⟩, ⟨4⟩, ⟨1⟩], [⟨4⟩, ⟨3⟩], [⟨5⟩, ⟨6⟩], [⟨2⟩, ⟨1⟩], []]
    let c := (Fixture.mk [] [] calls).catalogue
    let d := (Fixture.mk [] [] others).catalogue
    (Catalogue.BuiltBy calls c ∧ Catalogue.BuiltBy others d ∧ Reordered calls others) ∧
    (c.equivalentsOf ⟨2⟩).entries = [⟨1⟩, ⟨2⟩, ⟨3⟩, ⟨4⟩] ∧
    c.equivalences.Pairwise IdSet.Apart ∧ Linked calls ⟨2⟩ ⟨3⟩ ∧ ¬ Linked calls ⟨2⟩ ⟨5⟩ ∧
    (c.equivalentsOf ⟨7⟩).entries = [⟨7⟩] ∧ d.equivalentsOf ⟨2⟩ = c.equivalentsOf ⟨2⟩ := by
  intro calls others c d
  have built : Catalogue.BuiltBy calls c := Catalogue.builtBy_catalogue ⟨[], [], calls⟩
  have built_too : Catalogue.BuiltBy others d := Catalogue.builtBy_catalogue ⟨[], [], others⟩
  have order : Reordered calls others := by
    refine ⟨[[⟨2⟩, ⟨1⟩], [⟨5⟩, ⟨6⟩], [], [⟨4⟩, ⟨3⟩], [⟨4⟩, ⟨4⟩, ⟨1⟩]], ?_, by decide⟩
    exact .cons (by decide) (.cons (by decide) (.cons (by decide) (.cons (by decide)
      (.cons (by decide) .nil))))
  have found : (c.equivalentsOf ⟨2⟩).entries = [⟨1⟩, ⟨2⟩, ⟨3⟩, ⟨4⟩] := by decide
  obtain ⟨apart, connected, alone, unordered⟩ := equivalents_connected built
  refine ⟨⟨built, built_too, order⟩, found, apart, ?_, ?_, ?_, unordered order built_too ⟨2⟩⟩
  · exact (connected ⟨2⟩ ⟨3⟩).mp (by rw [found]; decide)
  · exact fun link => absurd ((connected ⟨2⟩ ⟨5⟩).mpr link) (by rw [found]; decide)
  · exact alone ⟨7⟩ (by decide)

end ChannelGuide
