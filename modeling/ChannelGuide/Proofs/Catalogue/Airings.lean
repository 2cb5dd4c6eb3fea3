import Mathlib.Data.List.Pairwise
import ChannelGuide.Proofs.Catalogue.Fixture
import ChannelGuide.Proofs.Register
import ChannelGuide.Proofs.Schedule.Trimmed

/-!
What a catalogue lists, and what of it falls into a window. A window may lose the airing of a
follow-on that stands at its start; apart from that, what one publisher has on one channel is as
well formed in the window as it is in the catalogue.
-/
namespace ChannelGuide

namespace Broadcast
variable {i : Interval} {b : Broadcast}

theorem airsWithin_iff (upright : b.start ≤ b.stop) :
    b.AirsWithin i ↔ b.start < i.stop ∧ (i.start < b.stop ∨ b.IsFollowOn ∧ i.start ≤ b.start) := by
  have span : b.interval = ⟨b.start, b.stop, upright⟩ := dif_pos upright
  rw [AirsWithin, span, Interval.Overlaps, Interval.Contains]
  constructor
  · rintro (⟨running, before⟩ | ⟨followOn, running, before⟩)
    · exact ⟨before, .inl running⟩
    · exact ⟨before, .inr ⟨followOn, running⟩⟩
  · rintro ⟨before, running | ⟨followOn, running⟩⟩
    · exact .inl ⟨running, before⟩
    · exact .inr ⟨followOn, running, before⟩

end Broadcast

namespace Entry

/-- The entry is of this publisher and on this channel. -/
def ListedFor (publisher : Publisher) (channel : ChannelId) (e : Entry) : Prop :=
  e.item.publisher = publisher ∧ e.broadcast.channel = channel

instance (publisher : Publisher) (channel : ChannelId) (e : Entry) :
    Decidable (e.ListedFor publisher channel) := inferInstanceAs (Decidable (_ ∧ _))

/-- Both entries are of one publisher and on one channel. -/
def Beside (a b : Entry) : Prop :=
  a.item.publisher = b.item.publisher ∧ a.broadcast.channel = b.broadcast.channel

instance (a b : Entry) : Decidable (a.Beside b) := inferInstanceAs (Decidable (_ ∧ _))

variable {a b : Entry} {publisher : Publisher} {channel : ChannelId}

theorem Beside.symm (h : a.Beside b) : b.Beside a := ⟨h.1.symm, h.2.symm⟩

theorem ListedFor.beside (ha : a.ListedFor publisher channel) (hb : b.ListedFor publisher channel) :
    a.Beside b := ⟨ha.1.trans hb.1.symm, ha.2.trans hb.2.symm⟩

theorem Beside.listedFor (h : a.Beside b) (hb : b.ListedFor publisher channel) :
    a.ListedFor publisher channel := ⟨h.1.trans hb.1, h.2.trans hb.2⟩

end Entry

namespace Catalogue

/-- Every broadcast that the catalogue knows, with its item. -/
def listed (c : Catalogue) : List Entry :=
  c.items.entries.flatMap fun item => item.broadcasts.map (Entry.mk item)

/-- What the publisher has on the channel in the interval. -/
def windowFor (c : Catalogue) (interval : Interval) (publisher : Publisher) (channel : Channel) :
    ChannelSchedule where
  channel
  interval
  entries := c.airings channel.id publisher (Broadcast.AirsWithin interval)

variable {c : Catalogue} {channel : ChannelId} {publisher : Publisher}

theorem mem_listed {e : Entry} :
    e ∈ c.listed ↔ e.item ∈ c.items.entries ∧ e.broadcast ∈ e.item.broadcasts := by
  simp only [listed, List.mem_flatMap, List.mem_map]
  constructor
  · rintro ⟨item, known, b, own, rfl⟩
    exact ⟨known, own⟩
  · rintro ⟨known, own⟩
    exact ⟨e.item, known, e.broadcast, own, rfl⟩

/-- It makes no difference that the airings are filtered by item first and by broadcast then. -/
theorem airings_eq (c : Catalogue) (channel : ChannelId) (publisher : Publisher)
    (Airs : Broadcast → Prop) [DecidablePred Airs] :
    c.airings channel publisher Airs = inAiringOrder Entry.broadcast
      (c.listed.filter fun e => e.ListedFor publisher channel ∧ Airs e.broadcast) := by
  refine congrArg (inAiringOrder Entry.broadcast) ?_
  unfold listed
  induction c.items.entries with
  | nil => rfl
  | cons item items ih =>
      rw [List.flatMap_cons, List.filter_append, ← ih, List.filter_cons]
      split
      · next published =>
          rw [List.flatMap_cons, List.filter_append]
          congr 1
          simp [List.filter_map, Function.comp_def, Entry.ListedFor, of_decide_eq_true published]
      · next other =>
          have none : (item.broadcasts.map (Entry.mk item)).filter (fun e =>
              decide (e.ListedFor publisher channel ∧ Airs e.broadcast)) = [] := by
            simp_all [Entry.ListedFor]
          rw [none, List.nil_append]

theorem airings_perm (c : Catalogue) (channel : ChannelId) (publisher : Publisher)
    (Airs : Broadcast → Prop) [DecidablePred Airs] :
    (c.airings channel publisher Airs).Perm
      (c.listed.filter fun e => e.ListedFor publisher channel ∧ Airs e.broadcast) := by
  rw [airings_eq]
  exact inAiringOrder_perm Entry.broadcast _

theorem mem_airings {Airs : Broadcast → Prop} [DecidablePred Airs] {e : Entry} :
    e ∈ c.airings channel publisher Airs ↔
      e ∈ c.listed ∧ e.ListedFor publisher channel ∧ Airs e.broadcast := by
  rw [(c.airings_perm channel publisher Airs).mem_iff, List.mem_filter, decide_eq_true_eq]

/-- What holds between any two listed entries of a kind that are beside each other holds between any
two of a publisher's airings. -/
theorem pairwise_airings {Airs : Broadcast → Prop} [DecidablePred Airs] {kind : Entry → Bool}
    {R : Entry → Entry → Prop} (symm : ∀ a b, R a b → R b a)
    (each : (c.listed.filter kind).Pairwise fun a b => a.Beside b → R a b) :
    ((c.airings channel publisher Airs).filter kind).Pairwise R := by
  refine ((c.airings_perm channel publisher Airs).filter kind).symm.pairwise ?_ (symm _ _)
  refine (each.sublist (List.filter_sublist.filter kind)).imp_of_mem ?_
  intro a b ha hb related
  have of_a := of_decide_eq_true (List.mem_filter.mp (List.mem_filter.mp ha).1).2
  have of_b := of_decide_eq_true (List.mem_filter.mp (List.mem_filter.mp hb).1).2
  exact related (of_a.1.beside of_b.1)

/-- No broadcast is inverted. On one channel the airings of one publisher keep apart, and each of
its follow-ons trails one of them, alone at its instant. -/
structure WellKept (c : Catalogue) : Prop where
  upright : ∀ e ∈ c.listed, e.start ≤ e.stop
  apart : (c.listed.filter (·.Airs)).Pairwise fun a b => a.Beside b → a.Apart b
  trailing : ∀ f ∈ c.listed, f.broadcast.IsFollowOn →
    ∃ a ∈ c.listed, a.Beside f ∧ a.Airs ∧ a.stop = f.start
  single : (c.listed.filter (·.broadcast.IsFollowOn)).Pairwise fun f g =>
    f.Beside g → f.start ≠ g.start

namespace WellKept
variable {i : Interval} {named : Channel}

theorem mem_windowFor (kept : c.WellKept) {e : Entry} :
    e ∈ (c.windowFor i publisher named).entries ↔
      e ∈ c.listed ∧ e.ListedFor publisher named.id ∧
        e.start < i.stop ∧ (i.start < e.stop ∨ e.broadcast.IsFollowOn ∧ i.start ≤ e.start) := by
  rw [windowFor, mem_airings, and_congr_right_iff]
  intro listed
  rw [Broadcast.airsWithin_iff (kept.upright e listed)]
  rfl

theorem apart_of_ne (kept : c.WellKept) {a b : Entry} (ha : a ∈ c.listed) (hb : b ∈ c.listed)
    (a_airs : a.Airs) (b_airs : b.Airs) (beside : a.Beside b) (differ : a ≠ b) : a.Apart b := by
  have symm : Std.Symm fun a b : Entry => a.Beside b → a.Apart b :=
    ⟨fun a b apart beside => (apart beside.symm).symm⟩
  refine kept.apart.forall ?_ ?_ differ beside
  · exact List.mem_filter.mpr ⟨ha, decide_eq_true a_airs⟩
  · exact List.mem_filter.mpr ⟨hb, decide_eq_true b_airs⟩

/-- A follow-on at the start of a window has nothing of its publisher before it there: what is on
over the start would overlap the airing that ended at it. -/
theorem start_le_of_followOn (kept : c.WellKept) {f e : Entry} (hf : f ∈ c.listed)
    (of_f : f.ListedFor publisher named.id) (followOn : f.broadcast.IsFollowOn)
    (at_start : f.start = i.start) (he : e ∈ (c.windowFor i publisher named).entries) :
    i.start ≤ e.start := by
  by_contra begun
  have before : e.start < i.start := lt_of_not_ge begun
  obtain ⟨listed, of_e, -, running | ⟨-, later⟩⟩ := kept.mem_windowFor.mp he
  · have e_airs : e.Airs := before.trans running
    obtain ⟨a, ha, beside, a_airs, ended⟩ := kept.trailing f hf followOn
    have a_stop : a.stop = i.start := ended.trans at_start
    have differ : a ≠ e := fun same => (running.trans_eq (same ▸ a_stop)).ne rfl
    have together := (beside.listedFor of_f).beside of_e
    rcases kept.apart_of_ne ha listed a_airs e_airs together differ with gone | gone
    · exact absurd before (not_lt_of_ge (a_stop.ge.trans gone))
    · have past : i.start < a.stop := running.trans_le (gone.trans a_airs.le)
      exact past.ne a_stop.symm
  · exact begun later

theorem orphan_iff (kept : c.WellKept) (open_window : i.start < i.stop) {f : Entry} :
    (c.windowFor i publisher named).Orphan i.start f ↔
      f ∈ c.listed ∧ f.ListedFor publisher named.id ∧ f.broadcast.IsFollowOn ∧
        f.start = i.start := by
  constructor
  · intro orphan
    obtain ⟨listed, of_f, -⟩ := kept.mem_windowFor.mp orphan.member
    exact ⟨listed, of_f, orphan.isFollowOn, orphan.start_eq⟩
  · rintro ⟨listed, of_f, followOn, at_start⟩
    refine ⟨kept.mem_windowFor.mpr ⟨listed, of_f, ?_, .inr ⟨followOn, at_start.ge⟩⟩, followOn,
      at_start, ?_⟩
    · exact at_start.trans_lt open_window
    · exact fun e he => kept.start_le_of_followOn listed of_f followOn at_start he

theorem wellFormedFrom_windowFor (kept : c.WellKept) (open_window : i.start < i.stop) :
    (c.windowFor i publisher named).WellFormedFrom i.start where
  apart := pairwise_airings (fun _ _ => Or.symm) kept.apart
  upright e he := kept.upright e (kept.mem_windowFor.mp he).1
  trailing f hf followOn := by
    obtain ⟨listed, of_f, before_end, reaches⟩ := kept.mem_windowFor.mp hf
    have from_start : i.start ≤ f.start :=
      reaches.elim (fun running => running.le.trans followOn.ge) And.right
    rcases lt_or_eq_of_le from_start with later | at_start
    · obtain ⟨a, ha, beside, airs, ended⟩ := kept.trailing f listed followOn
      refine .inr ⟨a, kept.mem_windowFor.mpr ⟨ha, beside.listedFor of_f, ?_, ?_⟩, airs, ended⟩
      · exact airs.trans (ended.trans_lt before_end)
      · exact .inl (later.trans_eq ended.symm)
    · exact .inl ((kept.orphan_iff open_window).mpr ⟨listed, of_f, followOn, at_start.symm⟩)
  single := pairwise_airings (fun _ _ => Ne.symm) kept.single

/-- In a window, only what is on over its start begins before it. -/
theorem mem_windowFor_and_before (kept : c.WellKept) {e : Entry} :
    e ∈ (c.windowFor i publisher named).entries ∧ e.start < i.start ↔
      e ∈ c.listed ∧ e.ListedFor publisher named.id ∧ e.start < i.start ∧ i.start < e.stop := by
  rw [kept.mem_windowFor]
  constructor
  · rintro ⟨⟨listed, of_e, -, running | ⟨-, later⟩⟩, before⟩
    · exact ⟨listed, of_e, before, running⟩
    · exact absurd before (not_lt_of_ge later)
  · rintro ⟨listed, of_e, before, running⟩
    exact ⟨⟨listed, of_e, before.trans_le i.ordered, .inl running⟩, before⟩

end WellKept

section Building

theorem items_addChannels (c : Catalogue) (channels : List Channel) :
    (channels.foldl addChannel c).items = c.items := by
  induction channels generalizing c with
  | nil => rfl
  | cons channel channels ih => exact ih (c.addChannel channel)

theorem items_addItems (c : Catalogue) (items : List Item) :
    (items.foldl addItem c).items = c.items.insertAll items := by
  induction items generalizing c with
  | nil => rfl
  | cons item items ih => exact ih (c.addItem item)

theorem items_addEquivalences (c : Catalogue) (sets : List (List ItemId)) :
    (sets.foldl addEquivalence c).items = c.items := by
  induction sets generalizing c with
  | nil => rfl
  | cons set sets ih => exact ih (c.addEquivalence set)

end Building
end Catalogue

namespace Fixture
variable {fixture accepted : Fixture}

theorem item_mem_of_catalogue {item : Item} (known : item ∈ fixture.catalogue.items.entries) :
    item ∈ fixture.items := by
  rw [catalogue, Catalogue.items_addEquivalences, Catalogue.items_addItems,
    Catalogue.items_addChannels] at known
  exact Register.mem_of_mem_ofList known

/-- The catalogue of an accepted fixture lists no inverted broadcast. -/
theorem upright_of_accepted (ok : fixture.accepted = .ok accepted) :
    ∀ e ∈ accepted.catalogue.listed, e.start ≤ e.stop := by
  intro e listed
  obtain ⟨known, own⟩ := Catalogue.mem_listed.mp listed
  obtain ⟨rfl, sound⟩ := accepted_eq_ok_iff.mp ok
  exact sound.upright e.item (item_mem_of_catalogue known) e.broadcast own

end Fixture
end ChannelGuide
