import ChannelGuide.Catalogue.Fixture

/-!
What is wrong with a fixture. A fixture is sound or has one fault that it is refused for: of its
inverted broadcasts and unknown items the first one in the order in which they are looked at.
-/
namespace ChannelGuide.Fixture
variable {f g : Fixture} {fault : FixtureFault}

/-- No broadcast ends before it starts, and whatever is called equivalent is an item. -/
structure Sound (f : Fixture) : Prop where
  upright : ∀ item ∈ f.items, ∀ b ∈ item.broadcasts, b.start ≤ b.stop
  known : ∀ ids ∈ f.equivalences, ∀ id ∈ ids, ∃ item ∈ f.items, item.id = id

/-- Why a fixture is refused: the first item with an inverted broadcast, or if there is none the
first unknown item of the equivalences, list after list. -/
inductive Faulty (f : Fixture) : FixtureFault → Prop
  | inverted {before after : List Item} {item : Item} {b : Broadcast} :
      f.items = before ++ item :: after →
      (∀ other ∈ before, ∀ b ∈ other.broadcasts, b.start ≤ b.stop) →
      b ∈ item.broadcasts → b.stop < b.start →
      Faulty f (.invertedBroadcast item.id)
  | unknown {before after : List ItemId} {id : ItemId} :
      (∀ item ∈ f.items, ∀ b ∈ item.broadcasts, b.start ≤ b.stop) →
      f.equivalences.flatten = before ++ id :: after →
      (∀ other ∈ before, ∃ item ∈ f.items, item.id = other) →
      (∀ item ∈ f.items, item.id ≠ id) →
      Faulty f (.unknownItem id)

theorem not_hasInverted_iff {item : Item} :
    ¬ item.HasInverted ↔ ∀ b ∈ item.broadcasts, b.start ≤ b.stop := by
  simp [Item.HasInverted, Instant.le_iff, Instant.lt_iff]

theorem firstInverted_eq_none_iff :
    (f.items.find? fun item => item.HasInverted) = none ↔
      ∀ item ∈ f.items, ∀ b ∈ item.broadcasts, b.start ≤ b.stop := by
  simp only [List.find?_eq_none, decide_eq_true_eq, not_hasInverted_iff]

theorem firstUnknown_eq_none_iff :
    (f.equivalences.flatten.find? fun id => ∀ item ∈ f.items, item.id ≠ id) = none ↔
      ∀ ids ∈ f.equivalences, ∀ id ∈ ids, ∃ item ∈ f.items, item.id = id := by
  simp [List.find?_eq_none]

theorem fault?_eq_none_iff : f.fault? = none ↔ f.Sound := by
  rw [fault?]
  cases inverted : f.items.find? fun item => item.HasInverted with
  | some item =>
      simp only [reduceCtorEq, false_iff]
      intro sound
      rw [firstInverted_eq_none_iff.mpr sound.upright] at inverted
      exact absurd inverted (by simp)
  | none =>
      simp only [Option.map_eq_none_iff, firstUnknown_eq_none_iff]
      exact ⟨fun known => ⟨firstInverted_eq_none_iff.mp inverted, known⟩, Sound.known⟩

theorem firstInverted_eq_some_iff {item : Item} :
    (f.items.find? fun item => item.HasInverted) = some item ↔
      item.HasInverted ∧ ∃ before after, f.items = before ++ item :: after ∧
        ∀ other ∈ before, ∀ b ∈ other.broadcasts, b.start ≤ b.stop := by
  simp only [List.find?_eq_some_iff_append, decide_eq_true_eq, Bool.not_eq_true',
    decide_eq_false_iff_not, not_hasInverted_iff]

theorem firstUnknown_eq_some_iff {id : ItemId} :
    (f.equivalences.flatten.find? fun id => ∀ item ∈ f.items, item.id ≠ id) = some id ↔
      (∀ item ∈ f.items, item.id ≠ id) ∧
        ∃ before after, f.equivalences.flatten = before ++ id :: after ∧
          ∀ other ∈ before, ∃ item ∈ f.items, item.id = other := by
  rw [List.find?_eq_some_iff_append]
  simp

theorem fault?_eq_some_iff : f.fault? = some fault ↔ f.Faulty fault := by
  rw [fault?]
  constructor
  · intro found
    cases inverted : f.items.find? fun item => item.HasInverted with
    | some item =>
        obtain ⟨⟨b, broadcast, early⟩, before, after, items, upright⟩ :=
          firstInverted_eq_some_iff.mp inverted
        rw [inverted] at found
        obtain rfl := Option.some.inj found
        exact .inverted items upright broadcast early
    | none =>
        simp only [inverted] at found
        obtain ⟨id, unknown, rfl⟩ := Option.map_eq_some_iff.mp found
        obtain ⟨absent, before, after, ids, known⟩ := firstUnknown_eq_some_iff.mp unknown
        exact .unknown (firstInverted_eq_none_iff.mp inverted) ids known absent
  · intro faulty
    cases faulty with
    | inverted items upright broadcast early =>
        rw [firstInverted_eq_some_iff.mpr ⟨⟨_, broadcast, early⟩, _, _, items, upright⟩]
    | unknown upright ids known absent =>
        rw [firstInverted_eq_none_iff.mpr upright]
        exact Option.map_eq_some_iff.mpr
          ⟨_, firstUnknown_eq_some_iff.mpr ⟨absent, _, _, ids, known⟩, rfl⟩

theorem accepted_eq_ok_iff : f.accepted = .ok g ↔ g = f ∧ f.Sound := by
  rw [← fault?_eq_none_iff, accepted]
  cases f.fault? <;> simp [eq_comm]

theorem accepted_eq_error_iff : f.accepted = .error fault ↔ f.Faulty fault := by
  rw [← fault?_eq_some_iff, accepted]
  cases f.fault? <;> simp

end ChannelGuide.Fixture
