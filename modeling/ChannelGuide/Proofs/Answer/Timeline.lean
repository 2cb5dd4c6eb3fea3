import ChannelGuide.Catalogue.Sample
import ChannelGuide.Proofs.Answer.Merged
import ChannelGuide.Proofs.Overlay.Timeline

/-!
When what is on is on, where equivalents are merged. The executor that fills slots may show another
broadcast in a slot than was scheduled there; but without tolerance it is in the same slot, except
over a leap second at the end of a day.
-/
namespace ChannelGuide

namespace ChannelSchedule
variable {s t v w : ChannelSchedule}

def SameFrame (s t : ChannelSchedule) : Prop := s.channel = t.channel ∧ s.interval = t.interval

theorem sortedEntries_eq_nil_iff (s : ChannelSchedule) : s.sortedEntries = [] ↔ s.entries = [] := by
  have perm : s.sortedEntries.Perm s.entries := inAiringOrder_perm Entry.broadcast s.entries
  rw [← List.length_eq_zero_iff, perm.length_eq, List.length_eq_zero_iff]

theorem EntriesRelated.sortedEntries_eq_nil_iff {R : Entry → Entry → Prop}
    (h : s.EntriesRelated R t) : s.sortedEntries = [] ↔ t.sortedEntries = [] := by
  rw [ChannelSchedule.sortedEntries_eq_nil_iff, ChannelSchedule.sortedEntries_eq_nil_iff,
    ← List.length_eq_zero_iff, h.entries.length_eq, List.length_eq_zero_iff]

theorem EntriesRelated.sameFrame_laidUnder {R : Entry → Entry → Prop}
    (base : s.EntriesRelated R t) (overrides : v.EntriesRelated R w) :
    (s.laidUnder v).SameFrame (t.laidUnder w) := by
  refine ⟨base.channel, ?_⟩
  simp only [laidUnder, overrides.sortedEntries_eq_nil_iff, base.interval, overrides.interval]

theorem EntriesRelated.laidUnder (base : s.EntriesRelated Entry.SameSlot t)
    (overrides : v.EntriesRelated Entry.SameSlot w) :
    (s.laidUnder v).EntriesRelated Entry.SameSlot (t.laidUnder w) where
  channel := (base.sameFrame_laidUnder overrides).1
  interval := (base.sameFrame_laidUnder overrides).2
  entries := sameTimeline_overlay .kept (sameTimeline_sortedEntries base.entries)
    (sameTimeline_sortedEntries overrides.entries)

end ChannelSchedule

/-- The item that fills the slot of the airing has no broadcast there, but one that no time lies
between; so the slot is moved over a leap second. -/
def Catalogue.Moves (c : Catalogue) (sources : SourcePrecedence) (e : Entry) : Prop :=
  (c.filling sources e.item).Misses e.broadcast

instance (c : Catalogue) (sources : SourcePrecedence) (e : Entry) : Decidable (c.Moves sources e) :=
  inferInstanceAs (Decidable (Item.Misses _ _))

/-- No airing is moved of those that the query asks for, and those that it lays over them. -/
def Catalogue.KeepsSlots (c : Catalogue) (q : Query) (interval : Interval) : Prop :=
  ∀ channel ∈ c.channelsFor q.requestedIds, ∀ publisher ∈ q.publisher :: q.overridePublisher.toList,
    ∀ e ∈ (c.windowFor interval publisher channel).entries, ¬ c.Moves q.context.sources e

instance (c : Catalogue) (q : Query) (interval : Interval) : Decidable (c.KeepsSlots q interval) :=
  inferInstanceAs
    (Decidable (∀ channel ∈ c.channelsFor q.requestedIds, ∀ publisher ∈ _, ∀ e ∈ _, _))

theorem sameSlot_iff {c : Catalogue} {sources : SourcePrecedence} {e : Entry} :
    (c.filledEntry .exactStartEnd sources e).SameSlot (e.merged (c.mergedItem sources)) ↔
      ¬ c.Moves sources e := BroadcastMatcher.sameSlot_find?_iff

/-- Nothing is moved where no broadcast starts or ends in the leap second at the end of a day. -/
theorem Catalogue.keepsSlots_of_no_leap {c : Catalogue}
    (no_leap : ∀ e ∈ c.listed, ¬ e.start.EndsDay ∧ ¬ e.stop.EndsDay) (q : Query)
    (interval : Interval) : c.KeepsSlots q interval := by
  rintro channel - publisher - e shown ⟨missing, own, has, same_channel, starts, stops⟩
  have listed := (mem_airings.mp shown).1
  have own_listed : ⟨c.filling q.context.sources e.item, own⟩ ∈ c.listed :=
    mem_listed.mpr ⟨filling_mem_items (mem_listed.mp listed).1 _, has⟩
  have start := starts.eq_of_not_endsDay (no_leap e listed).1 (no_leap _ own_listed).1
  have stop := stops.eq_of_not_endsDay (no_leap e listed).2 (no_leap _ own_listed).2
  exact missing ⟨own, has, same_channel.symm, start.symm, stop.symm⟩

/-- Where equivalents are merged and slots are matched exactly, both executors answer for the same
channels and intervals. If no slot is moved, what they show is on at the same times; and without an
override, only then. -/
theorem executors_agree_on_timeline {q : Query} {interval : Interval}
    (window : q.window = .interval interval) (merges : q.context.MergesEquivalents) (c : Catalogue)
    {settings : Settings} (exact : settings.matcher = .exactStartEnd) :
    let store : SimulatedStore := ⟨c, .instant⟩
    let filled := (store.executeEquivalent settings q).outcome
    let merged := (store.executePlain settings q).outcome
    Run.SameFaultOr (QueryResult.Related ChannelSchedule.SameFrame) filled merged ∧
      (c.KeepsSlots q interval →
        Run.SameFaultOr (QueryResult.EntryByEntry Entry.SameSlot) filled merged) ∧
      (q.overridePublisher = none → (∃ r, filled = .ok r) →
        Run.SameFaultOr (QueryResult.EntryByEntry Entry.SameSlot) filled merged →
          c.KeepsSlots q interval) := by
  intro store filled merged
  refine ⟨?_, fun kept => ?_, fun unlaid ⟨_, answered⟩ same => ?_⟩
  · -- whatever both make of the airings, they make as many entries of them
    refine answers_related window fun channel _ => Query.shows_related
      (R := ChannelSchedule.EntriesRelated fun _ _ => True) ?_ ?_ fun publisher _ => ?_
    · exact fun s t related => ⟨related.channel, related.interval⟩
    · exact fun s t v w base overrides => base.sameFrame_laidUnder overrides
    · exact (entriesRelated_iff merges window _ publisher channel _).mpr fun _ _ => trivial
  · refine answers_related window fun channel known => Query.shows_related
      (R := ChannelSchedule.EntriesRelated Entry.SameSlot) ?_ ?_ fun publisher asked => ?_
    · exact fun s t related => related
    · exact fun s t v w base overrides => base.laidUnder overrides
    · rw [entriesRelated_iff merges window, exact]
      exact fun e shown => sameSlot_iff.mpr (kept channel known publisher asked e shown)
  · rcases answers_related_cases merges window unlaid c settings Entry.SameSlot with
      ⟨fault, left, -⟩ | ⟨-, r, r', left, right, related⟩
    · cases left.symm.trans answered
    · have each := related.mp ((Run.sameFaultOr_iff_of_ok left right).mp same)
      rw [exact] at each
      intro channel known publisher asked e shown
      rw [unlaid] at asked
      obtain rfl := List.mem_singleton.mp asked
      exact sameSlot_iff.mp (each channel known e shown)

/-- With a film that is shown as another publisher's, and with overrides. -/
theorem executors_agree_on_listings :
    let store : SimulatedStore := ⟨Sample.listings.catalogue, .instant⟩
    let q := Sample.overlaidMorning ⟨⟨[Sample.bbc, Sample.ebs, Sample.pa], true⟩, false⟩
    (q.context.MergesEquivalents ∧ Settings.standard.matcher = .exactStartEnd) ∧
    (∃ r, (store.executeEquivalent .standard q).outcome = .ok r) ∧
      Run.SameFaultOr (QueryResult.EntryByEntry Entry.SameSlot)
        (store.executeEquivalent .standard q).outcome (store.executePlain .standard q).outcome := by
  intro store q
  have merges : q.context.MergesEquivalents := by decide
  have answered : ∃ r, (store.executeEquivalent .standard q).outcome = .ok r := ⟨_, rfl⟩
  have exact : Settings.standard.matcher = .exactStartEnd := rfl
  obtain ⟨-, agree, -⟩ :=
    executors_agree_on_timeline rfl merges Sample.listings.catalogue exact
  exact ⟨⟨merges, exact⟩, answered, agree (by decide)⟩

/-- A slot that starts in the leap second is filled by a broadcast of the second after it. -/
theorem leap_second_moves_airing :
    let store : SimulatedStore := ⟨Sample.countdown.catalogue, .instant⟩
    let q := Sample.countdownNight ⟨⟨[Sample.bbc, Sample.pa], true⟩, false⟩
    (q.context.MergesEquivalents ∧ Settings.standard.matcher = .exactStartEnd) ∧
    ∃ s t, (store.executeEquivalent .standard q).outcome = .ok (.single s) ∧
      (store.executePlain .standard q).outcome = .ok (.single t) ∧
      s.entries.map Entry.start = [Sample.nightHour 1] ∧
      t.entries.map Entry.start = [Sample.leapSecond] ∧
      Sample.leapSecond < Sample.nightHour 1 :=
  ⟨by decide, _, _, rfl, rfl, rfl, rfl, by decide⟩

end ChannelGuide
