import ChannelGuide.Catalogue.Sample
import ChannelGuide.Proofs.Answer.Merged

/-!
Which items stand for their equivalents. Both executors choose among the same items by the same
order of preference, but the one that fills slots does not know which item was scheduled in them; so
within one publisher it takes the lowest number.
-/
namespace ChannelGuide

namespace Entry

def SameItem (x y : Entry) : Prop := x.item.id = y.item.id

/-- The same item, or one of the same publisher that has a lower number. -/
def SameItemOrLower (x y : Entry) : Prop :=
  x.item.id = y.item.id ∨ x.item.publisher = y.item.publisher ∧ x.item.id.value < y.item.id.value

end Entry

/-- For the slots of the item another one is chosen, though there is no readable equivalent of a
publisher that comes before its own. -/
def Catalogue.Displaces (c : Catalogue) (sources : SourcePrecedence) (item : Item) : Prop :=
  item.Displaced sources (c.equivalenceSet item sources.enabledSources)

instance (c : Catalogue) (sources : SourcePrecedence) (item : Item) :
    Decidable (c.Displaces sources item) := inferInstanceAs (Decidable (Item.Displaced _ _ _))

theorem Item.id_restrictedTo (item : Item) (slot : Broadcast) :
    (item.restrictedTo slot).id = item.id := by
  rw [restrictedTo_eq]

section Choices
variable {c : Catalogue} {sources : SourcePrecedence} {item : Item}
  (precedence : sources.precedenceEnabled = true)
  (known : c.items.get? item.id.value = some item) (readable : item.Readable sources)
include precedence known readable

theorem Catalogue.filling_id_eq_iff :
    (c.filling sources item).id = (c.mergedInto sources item).id ↔ ¬ c.Displaces sources item := by
  refine (c.filling_choice sources item).id_eq_iff
    (mergedInto_choice precedence known readable) List.mem_cons_self ?_ ?_
  · exact fun other among => readable_of_mem_equivalenceSet (fun _ => id) readable among
  · intro other among same
    obtain ⟨id, -, found⟩ := List.mem_filterMap.mp
      (List.mem_filter.mp ((mem_equivalenceSet known readable).mp among)).1
    have number : other.id.value = id.value := ((c.items.get?_eq_some_iff _ _).mp found).2
    rw [← number, same] at found
    exact Option.some.inj (found.symm.trans known)

theorem Catalogue.filling_id_eq_or_lower :
    (c.filling sources item).id = (c.mergedInto sources item).id ∨
      (c.filling sources item).publisher = (c.mergedInto sources item).publisher ∧
        (c.filling sources item).id.value < (c.mergedInto sources item).id.value := by
  have filling := c.filling_choice sources item
  have merged := mergedInto_choice precedence known readable
  obtain ⟨same_rank, lowest⟩ := filling.rank_eq merged
  have same_publisher := (Item.rank_eq_iff
    (readable_of_mem_equivalenceSet (fun _ => id) readable filling.member)
    (readable_of_mem_equivalenceSet (fun _ => id) readable merged.member)).mp same_rank
  rcases lowest.eq_or_lt with same | lower
  · exact .inl (congrArg ItemId.mk (UInt64.toNat_inj.mp same))
  · exact .inr ⟨same_publisher, UInt64.lt_iff_toNat_lt.mpr lower⟩

end Choices

section Entries
variable {c : Catalogue} {sources : SourcePrecedence} {e : Entry} {matcher : BroadcastMatcher}
  (precedence : sources.precedenceEnabled = true)
  (known : c.items.get? e.item.id.value = some e.item) (readable : e.item.Readable sources)
include precedence known readable

theorem sameItem_iff :
    (c.filledEntry matcher sources e).SameItem (e.merged (c.mergedItem sources)) ↔
      ¬ c.Displaces sources e.item := by
  rw [Entry.SameItem, Entry.merged, Item.id_restrictedTo]
  exact Catalogue.filling_id_eq_iff precedence known readable

theorem sameItemOrLower :
    (c.filledEntry matcher sources e).SameItemOrLower (e.merged (c.mergedItem sources)) := by
  rw [Entry.SameItemOrLower, Entry.merged, Item.id_restrictedTo, Item.publisher_restrictedTo]
  exact Catalogue.filling_id_eq_or_lower precedence known readable

end Entries

/-- Entry by entry, both executors show the same item, or the one that fills slots shows one of the
same publisher that has a lower number. They show the same items exactly if no item of the window is
displaced from its slots. -/
theorem same_items_iff {q : Query} {interval : Interval} (window : q.window = .interval interval)
    (merges : q.context.MergesEquivalents) (unlaid : q.overridePublisher = none) (c : Catalogue)
    (settings : Settings) :
    let store : SimulatedStore := ⟨c, .instant⟩
    let filled := (store.executeEquivalent settings q).outcome
    let merged := (store.executePlain settings q).outcome
    Run.SameFaultOr (QueryResult.EntryByEntry Entry.SameItemOrLower) filled merged ∧
      ((∃ r, filled = .ok r) →
        (Run.SameFaultOr (QueryResult.EntryByEntry Entry.SameItem) filled merged ↔
          ∀ channel ∈ c.channelsFor q.requestedIds,
            ∀ e ∈ (c.windowFor interval q.publisher channel).entries,
              ¬ c.Displaces q.context.sources e.item)) := by
  intro store filled merged
  have cases := answers_related_cases merges window unlaid c settings
  constructor
  · rcases cases Entry.SameItemOrLower with
      ⟨fault, left, right⟩ | ⟨access, r, r', left, right, related⟩
    · exact .inl ⟨fault, left, right⟩
    · have enabled := (Query.checkAccess_eq_ok.mp access).1
      refine .inr ⟨r, r', left, right, related.mpr fun channel _ e shown => ?_⟩
      exact sameItemOrLower merges.1 (get?_of_windowFor shown)
        (readable_of_windowFor enabled interval channel e shown)
  · rintro ⟨_, answered⟩
    rcases cases Entry.SameItem with ⟨fault, left, -⟩ | ⟨access, r, r', left, right, related⟩
    · cases left.symm.trans answered
    · have enabled := (Query.checkAccess_eq_ok.mp access).1
      rw [Run.sameFaultOr_iff_of_ok left right, related]
      refine forall₂_congr fun channel _ => forall₂_congr fun e shown => ?_
      exact sameItem_iff merges.1 (get?_of_windowFor shown)
        (readable_of_windowFor enabled interval channel e shown)

/-- With two films of which the better publisher's is shown, and nothing else equivalent. -/
theorem same_items_of_listings :
    let store : SimulatedStore := ⟨Sample.listings.catalogue, .instant⟩
    let q := { Sample.overlaidMorning ⟨⟨[Sample.bbc, Sample.pa], true⟩, false⟩ with
      overridePublisher := none }
    q.context.MergesEquivalents ∧ (∃ r, (store.executeEquivalent .standard q).outcome = .ok r) ∧
      Run.SameFaultOr (QueryResult.EntryByEntry Entry.SameItem)
        (store.executeEquivalent .standard q).outcome (store.executePlain .standard q).outcome := by
  intro store q
  have merges : q.context.MergesEquivalents := by decide
  have answered : ∃ r, (store.executeEquivalent .standard q).outcome = .ok r := ⟨_, rfl⟩
  obtain ⟨-, same⟩ := same_items_iff rfl merges rfl Sample.listings.catalogue .standard
  exact ⟨merges, answered, (same answered).mpr (by decide)⟩

/-- An equivalent that is not aired at all is shown for the item that is, as its number is lower. -/
theorem unaired_item_fills_slot :
    let store : SimulatedStore := ⟨Sample.cuts.catalogue, .instant⟩
    let q := Sample.firstChannel ⟨⟨[Sample.pa], true⟩, false⟩
    (q.overridePublisher = none ∧ q.context.MergesEquivalents ∧
      Settings.standard.matcher = .exactStartEnd) ∧
    ∃ s t, (store.executeEquivalent .standard q).outcome = .ok (.single s) ∧
      (store.executePlain .standard q).outcome = .ok (.single t) ∧
      s.entries.map (fun e => e.item.id) = [⟨1⟩] ∧ t.entries.map (fun e => e.item.id) = [⟨2⟩] :=
  ⟨by decide, _, _, rfl, rfl, rfl, rfl⟩

end ChannelGuide
