import Mathlib.Data.List.Nodup
import Mathlib.Data.List.Perm.Basic
import ChannelGuide.Catalogue.Sample
import ChannelGuide.Proofs.Equivalence.Preference

/-!
The order of preference as a choice. Choosing among the winners of two lists is choosing among all
their items, so it does not matter in which parts a set is looked at; and as long as no two items
have one number, it does not matter either in which order.
-/
namespace ChannelGuide

section Winner
variable {context : Option ItemId} {sources : SourcePrecedence}

/-- The one to be chosen of two; the first, unless the second is preferred. -/
def Item.winner (context : Option ItemId) (sources : SourcePrecedence) (a b : Item) : Item :=
  if b.Preferred context sources a then b else a

theorem Item.Preferred.trans {a b d : Item} (hab : a.Preferred context sources b)
    (hbd : b.Preferred context sources d) : a.Preferred context sources d := by
  rw [preferred_iff] at *
  omega

theorem Item.winner_assoc (a b d : Item) :
    winner context sources (winner context sources a b) d =
      winner context sources a (winner context sources b d) := by
  unfold winner
  by_cases hba : b.Preferred context sources a
  · by_cases hdb : d.Preferred context sources b
    · rw [if_pos hba, if_pos hdb, if_pos (hdb.trans hba)]
    · rw [if_pos hba, if_neg hdb, if_pos hba]
  · by_cases hdb : d.Preferred context sources b
    · rw [if_neg hba, if_pos hdb]
    · rw [if_neg hba, if_neg hdb, if_neg hba, if_neg (not_preferred_trans hdb hba)]

theorem mostPreferred?_cons (item : Item) (items : List Item) :
    mostPreferred? context sources (item :: items) =
      (some item).merge (Item.winner context sources) (mostPreferred? context sources items) := by
  rw [mostPreferred?]
  cases mostPreferred? context sources items with
  | none => rfl
  | some best => exact (apply_ite some _ _ _).symm

/-- The winner of two lists together is that of their winners. -/
theorem mostPreferred?_append (xs ys : List Item) :
    mostPreferred? context sources (xs ++ ys) = (mostPreferred? context sources xs).merge
      (Item.winner context sources) (mostPreferred? context sources ys) := by
  induction xs with
  | nil => exact Option.merge_none_left.symm
  | cons x xs ih =>
      rw [List.cons_append, mostPreferred?_cons, mostPreferred?_cons, ih]
      cases mostPreferred? context sources xs with
      | none => rw [Option.merge_none_left, Option.merge_none_right]
      | some best =>
          cases mostPreferred? context sources ys with
          | none => rfl
          | some other => exact congrArg some (Item.winner_assoc x best other).symm

theorem mostPreferred?_toList (chosen : Option Item) :
    mostPreferred? context sources chosen.toList = chosen := by
  cases chosen <;> rfl

/-- Where no two items have one number, no two can be chosen. -/
theorem Item.Choice.unique {items : List Item} {x y : Item} (apart : (items.map Item.id).Nodup)
    (hx : Item.Choice context sources items x) (hy : Item.Choice context sources items y) :
    x = y := by
  have over_x := hy.unbeaten x hx.member
  have over_y := hx.unbeaten y hy.member
  rw [preferred_iff] at over_x over_y
  have number : x.id.value = y.id.value := UInt64.toNat_inj.mp (by omega)
  exact List.inj_on_of_nodup_map apart hx.member hy.member (congrArg ItemId.mk number)

theorem mostPreferred?_perm {items items' : List Item} (apart : (items.map Item.id).Nodup)
    (reordered : items.Perm items') :
    mostPreferred? context sources items' = mostPreferred? context sources items := by
  cases chosen : mostPreferred? context sources items with
  | none =>
      rw [mostPreferred?_eq_none] at chosen ⊢
      subst chosen
      exact List.nil_perm.mp reordered
  | some best =>
      have choice := choice_of_mostPreferred? chosen
      have available : items' ≠ [] := by
        rintro rfl
        exact List.not_mem_nil (reordered.mem_iff.mp choice.member)
      obtain ⟨best', chosen'⟩ : ∃ best', mostPreferred? context sources items' = some best' :=
        exists_mostPreferred? available
      have choice' := (choice_of_mostPreferred? chosen').congr fun _ => reordered.mem_iff.symm
      rw [chosen', choice'.unique apart choice]

end Winner

/-- The publisher is ranked, and before the other one. -/
def SourcePrecedence.RanksBefore (sources : SourcePrecedence) (first second : Publisher) : Prop :=
  ∃ place, sources.rank? first = some place ∧
    ∀ other, sources.rank? second = some other → place < other

/-- What the winner of a list has over the other items of it: none is of a publisher that ranks
before its own, none may be read if it may not, and of those of one publisher it is the item that
was asked about, or else that with the lowest number. -/
structure Item.Wins (context : Option ItemId) (sources : SourcePrecedence) (items : List Item)
    (best : Item) : Prop where
  foremost : ∀ item ∈ items, ¬ sources.RanksBefore item.publisher best.publisher
  readable : (∃ item ∈ items, item.Readable sources) → best.Readable sources
  asked : ∀ item ∈ items, item.publisher = best.publisher → context = some item.id →
    context = some best.id
  lowest : context ≠ some best.id → ∀ item ∈ items, item.publisher = best.publisher →
    best.id.value ≤ item.id.value

section Wins
variable {context : Option ItemId} {sources : SourcePrecedence} {items : List Item} {best : Item}

theorem Item.rank_lt_of_ranksBefore {a b : Item}
    (before : sources.RanksBefore a.publisher b.publisher) : a.rank sources < b.rank sources := by
  obtain ⟨place, ranked, earlier⟩ := before
  have of_a : a.rank sources = place := by rw [rank, ranked]; rfl
  cases other : sources.rank? b.publisher with
  | none =>
      have inside : a.rank sources < sources.enabledSources.length :=
        rank_of_readable (List.isSome_idxOf?.mp (Option.isSome_of_eq_some ranked))
      have behind : b.rank sources = sources.enabledSources.length := by rw [rank, other]; rfl
      rw [behind]
      exact inside
  | some place' =>
      have of_b : b.rank sources = place' := by rw [rank, other]; rfl
      rw [of_a, of_b]
      exact earlier place' other

theorem Item.Choice.wins (choice : Item.Choice context sources items best) :
    Item.Wins context sources items best := by
  have same_rank {item : Item} (same : item.publisher = best.publisher) :
      item.rank sources = best.rank sources := by rw [rank, rank, same]
  constructor
  case foremost =>
    intro item among before
    exact choice.unbeaten item among (.inl (rank_lt_of_ranksBefore before))
  case readable =>
    rintro ⟨item, among, readable⟩
    refine Decidable.byContradiction fun unreadable => ?_
    exact choice.unbeaten item among (preferred_of_readable readable unreadable)
  case asked =>
    intro item among same asked
    refine Decidable.byContradiction fun other => ?_
    have nearer : item.distance context < best.distance context := by
      rw [distance, distance, if_pos asked.symm, if_neg (Ne.symm other)]
      exact Nat.zero_lt_one
    exact choice.unbeaten item among (.inr ⟨same_rank same, .inl nearer⟩)
  case lowest =>
    intro other item among same
    have farthest : best.distance context = 1 := if_neg (Ne.symm other)
    have unbeaten := choice.unbeaten item among
    have at_most := distance_le_one context item
    rw [preferred_iff, same_rank same] at unbeaten
    rw [UInt64.le_iff_toNat_le]
    omega

end Wins

/-- One item is chosen of all, whatever the parts in which they are looked at. If publishers take
precedence, it has its place by their order, by what was asked about and by its number; and as long
as all numbers differ, the order of the items makes no difference. -/
theorem precedenceMerger_consistent (context : Option ItemId) (sources : SourcePrecedence)
    (xs ys : List Item) :
    let merge (items : List Item) := precedenceMerger context items sources
    merge (xs ++ ys) = merge (merge xs ++ merge ys) ∧
    (merge xs = [] ↔ xs = []) ∧
    (xs ≠ [] → ∃ best ∈ xs, merge xs = [best] ∧
      (sources.precedenceEnabled = true → Item.Wins context sources xs best)) ∧
    (sources.precedenceEnabled = true → (xs.map Item.id).Nodup → ∀ xs', xs.Perm xs' →
      merge xs' = merge xs) := by
  intro merge
  by_cases precedence : sources.precedenceEnabled = true
  · have by_preference (items : List Item) :
        merge items = (mostPreferred? context sources items).toList := if_pos precedence
    simp only [by_preference]
    refine ⟨?_, ?_, fun available => ?_, fun _ apart xs' reordered => ?_⟩
    · rw [mostPreferred?_append, mostPreferred?_append, mostPreferred?_toList,
        mostPreferred?_toList]
    · rw [Option.toList_eq_nil_iff, mostPreferred?_eq_none]
    · obtain ⟨best, chosen⟩ : ∃ best, mostPreferred? context sources xs = some best :=
        exists_mostPreferred? available
      have choice := choice_of_mostPreferred? chosen
      exact ⟨best, choice.member, congrArg Option.toList chosen, fun _ => choice.wins⟩
    · rw [mostPreferred?_perm apart reordered]
  · have first (items : List Item) : merge items = items.head?.toList := if_neg precedence
    simp only [first, precedence]
    cases xs with
    | nil => cases ys <;> simp
    | cons x xs => simp

/-- Among two items of one publisher, one of a publisher that ranks behind and one that may not be
read, the item that was asked about wins in any order. -/
theorem precedenceMerger_consistent_asked :
    let sources : SourcePrecedence := ⟨[Sample.pa, Sample.ebs], true⟩
    let item (publisher : Publisher) (id : UInt64) : Item :=
      (Sample.entry publisher id (Sample.clock 9 0) (Sample.clock 10 0)).item
    let items := [item Sample.bbc 1, item Sample.ebs 2, item Sample.pa 4, item Sample.pa 7]
    (sources.precedenceEnabled = true ∧ items ≠ [] ∧ (items.map Item.id).Nodup) ∧
      Item.Wins (some ⟨7⟩) sources items (item Sample.pa 7) ∧
      precedenceMerger (some ⟨7⟩) items.reverse sources = [item Sample.pa 7] := by
  intro sources item items
  have chosen : precedenceMerger (some ⟨7⟩) items sources = [item Sample.pa 7] := by decide
  have apart : (items.map Item.id).Nodup := by decide
  obtain ⟨-, -, wins, any_order⟩ := precedenceMerger_consistent (some ⟨7⟩) sources items []
  obtain ⟨best, -, only, best_wins⟩ := wins (List.cons_ne_nil _ _)
  obtain rfl : item Sample.pa 7 = best := (List.cons.inj (chosen.symm.trans only)).1
  refine ⟨⟨rfl, List.cons_ne_nil _ _, apart⟩, best_wins rfl, ?_⟩
  exact (any_order rfl apart _ (List.reverse_perm items).symm).trans chosen

end ChannelGuide
