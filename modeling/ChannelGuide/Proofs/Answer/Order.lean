import ChannelGuide.Proofs.Answer.Unmerged
import ChannelGuide.Proofs.Overlay.Order

/-!
The order of overridden answers, from the catalogue to the result. Every schedule of an answer
without merging is one publisher's window with another's laid over, and a window of a well-kept
catalogue is well formed apart from a follow-on at its start whose airing is lost. That follow-on is
written first of all, even before an override that is on over the start of the window.
-/
namespace ChannelGuide

/-- The base publisher has a follow-on at the start of the window, over which an override of the
other publisher is on. -/
def Catalogue.OrphanUnderOverride (c : Catalogue) (interval : Interval)
    (base overriding : Publisher) (channel : ChannelId) : Prop :=
  (∃ f ∈ c.listed, f.ListedFor base channel ∧ f.broadcast.IsFollowOn ∧ f.start = interval.start) ∧
    ∃ v ∈ c.listed, v.ListedFor overriding channel ∧ v.start < interval.start ∧
      interval.start < v.stop

instance (c : Catalogue) (interval : Interval) (base overriding : Publisher) (channel : ChannelId) :
    Decidable (c.OrphanUnderOverride interval base overriding channel) :=
  inferInstanceAs (Decidable ((∃ f ∈ _, _ ∧ _ ∧ _) ∧ ∃ v ∈ _, _ ∧ _ ∧ _))

theorem Query.start_lt_stop {q : Query} {interval : Interval}
    (window : q.window = .interval interval) : interval.start < interval.stop := by
  have acceptable : q.window.Acceptable := q.window_acceptable
  rw [window] at acceptable
  exact acceptable

section Windows
variable {c : Catalogue} {interval : Interval} {base overriding : Publisher}
  {channel other : Channel} {merged : ChannelSchedule}

theorem orphan_and_earlier_iff (kept : c.WellKept) (open_window : interval.start < interval.stop)
    (same : channel.id = other.id) :
    ((∃ f, (c.windowFor interval base channel).Orphan interval.start f) ∧
        ∃ v ∈ (c.windowFor interval overriding other).entries, v.start < interval.start) ↔
      c.OrphanUnderOverride interval base overriding channel.id := by
  apply and_congr
  · exact exists_congr fun f => kept.orphan_iff open_window
  · rw [same]
    exact exists_congr fun v => kept.mem_windowFor_and_before

theorem windows_in_order_iff (kept : c.WellKept) (open_window : interval.start < interval.stop)
    (laid : (c.windowFor interval base channel).overlaidBy
      (c.windowFor interval overriding other) = .ok merged) :
    merged.entries.tail.Pairwise (fun a b => a.broadcast.NotAfter b.broadcast) ∧
      (merged.entries.Pairwise (fun a b => a.broadcast.NotAfter b.broadcast) ↔
        ¬ c.OrphanUnderOverride interval base overriding merged.channel.id) := by
  have same : channel.id = other.id := ChannelSchedule.channel_id_eq_of_overlaidBy laid
  have named : merged.channel = channel := ChannelSchedule.channel_of_overlaidBy laid
  have order := overlaidBy_in_order_iff (kept.wellFormedFrom_windowFor open_window)
    (kept.wellFormedFrom_windowFor open_window) laid
  rw [orphan_and_earlier_iff kept open_window same, ← named] at order
  exact order

end Windows

variable {store : SimulatedStore} {settings : Settings} {q : Query} {interval : Interval}
  {overriding : Publisher}

theorem exists_windows_of_answer (window : q.window = .interval interval)
    (overridden : q.overridePublisher = some overriding)
    (unmerged : ¬ q.context.MergesEquivalents) {r : QueryResult}
    (answered : (store.executeEquivalent settings q).outcome = .ok r ∨
      (store.executePlain settings q).outcome = .ok r)
    {s : ChannelSchedule} (member : s ∈ r.schedules) :
    ∃ channel other, (store.catalogue.windowFor interval q.publisher channel).overlaidBy
      (store.catalogue.windowFor interval overriding other) = .ok s := by
  cases composed_of_windows window unmerged answered s member with
  | base plain _ => exact absurd (overridden.symm.trans plain) (Option.some_ne_none _)
  | overlaid by_publisher offered upper laid =>
      obtain rfl := Option.some.inj (overridden.symm.trans by_publisher)
      obtain ⟨channel, rfl⟩ := offered
      obtain ⟨other, rfl⟩ := upper
      exact ⟨channel, other, laid⟩

/-- In every schedule of an overridden answer all but the first entry are in order. The first is,
too, unless it is a follow-on at the start of the window and an override is on over that start. -/
theorem overridden_in_order_iff (kept : store.catalogue.WellKept)
    (window : q.window = .interval interval) (overridden : q.overridePublisher = some overriding)
    (unmerged : ¬ q.context.MergesEquivalents) {r : QueryResult}
    (answered : (store.executeEquivalent settings q).outcome = .ok r ∨
      (store.executePlain settings q).outcome = .ok r) :
    ∀ s ∈ r.schedules,
      s.entries.tail.Pairwise (fun a b => a.broadcast.NotAfter b.broadcast) ∧
        (s.entries.Pairwise (fun a b => a.broadcast.NotAfter b.broadcast) ↔
          ¬ store.catalogue.OrphanUnderOverride interval q.publisher overriding s.channel.id) := by
  intro s member
  obtain ⟨channel, other, laid⟩ :=
    exists_windows_of_answer window overridden unmerged answered member
  exact windows_in_order_iff kept (Query.start_lt_stop window) laid

/-- From the instant of a follow-on on, with an override that starts later. -/
theorem overridden_in_order_from_followOn :
    let store : SimulatedStore :=
      ⟨(Sample.handover (Sample.clock 9 30) (Sample.clock 10 0)).catalogue, .instant⟩
    store.catalogue.WellKept ∧ ¬ Sample.fromHandover.context.MergesEquivalents ∧
    ∃ s, (store.executePlain .standard Sample.fromHandover).outcome = .ok (.single s) ∧
      s.entries.map (·.item.title) = ["Breakfast", "Film", "Live Football"] ∧
      s.entries.Pairwise (fun a b => a.broadcast.NotAfter b.broadcast) := by
  intro store
  have kept : store.catalogue.WellKept := ⟨by decide, by decide, by decide, by decide⟩
  have unmerged : ¬ Sample.fromHandover.context.MergesEquivalents := by decide
  obtain ⟨s, answered, titles, named⟩ :
      ∃ s, (store.executePlain .standard Sample.fromHandover).outcome = .ok (.single s) ∧
        s.entries.map (·.item.title) = ["Breakfast", "Film", "Live Football"] ∧
        s.channel.id = ⟨1⟩ := ⟨_, rfl, by decide, rfl⟩
  refine ⟨kept, unmerged, s, answered, titles, ?_⟩
  have law := overridden_in_order_iff kept rfl rfl unmerged (.inr answered) s List.mem_cons_self
  apply law.2.mpr
  rw [named]
  decide

/-- A follow-on at the start of the window comes before an override that has begun by then. -/
theorem followOn_before_running_override :
    let store : SimulatedStore :=
      ⟨(Sample.handover (Sample.clock 8 30) (Sample.clock 10 0)).catalogue, .instant⟩
    store.catalogue.WellKept ∧ ¬ Sample.fromHandover.context.MergesEquivalents ∧
    ∃ s, (store.executeEquivalent .standard Sample.fromHandover).outcome = .ok (.single s) ∧
      (store.executePlain .standard Sample.fromHandover).outcome = .ok (.single s) ∧
      s.entries.map (·.item.title) = ["Breakfast", "Live Football", "Film"] ∧
      ¬ s.entries.Pairwise (fun a b => a.broadcast.NotAfter b.broadcast) := by
  intro store
  have kept : store.catalogue.WellKept := ⟨by decide, by decide, by decide, by decide⟩
  exact ⟨kept, by decide, _, rfl, rfl, by decide, by decide⟩

/-- What ends before it starts is neither an airing nor a follow-on, so a catalogue that holds it can
be well kept otherwise. It is written before an override that starts later and ends later, though
its own start is later still; and no follow-on is at the start of the window. -/
theorem inverted_before_override :
    let c := Sample.backwards.catalogue
    let store : SimulatedStore := ⟨c, .instant⟩
    let q := Sample.fromHandover
    ((c.listed.filter (·.Airs)).Pairwise (fun a b => a.Beside b → a.Apart b) ∧
      (∀ f ∈ c.listed, ¬ f.broadcast.IsFollowOn) ∧ ¬ q.context.MergesEquivalents) ∧
    ∃ s, (store.executeEquivalent .standard q).outcome = .ok (.single s) ∧
      (store.executePlain .standard q).outcome = .ok (.single s) ∧
      s.entries.map (·.item.title) = ["Backwards", "Live Football"] ∧
      ¬ s.entries.Pairwise (fun a b => a.broadcast.NotAfter b.broadcast) :=
  ⟨by decide, _, rfl, rfl, by decide, by decide⟩

end ChannelGuide
