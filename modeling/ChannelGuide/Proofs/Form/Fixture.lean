import ChannelGuide.Catalogue.Sample
import ChannelGuide.Form.Fixture
import ChannelGuide.Proofs.Catalogue.Fixture
import ChannelGuide.Proofs.Form.Listing

/-!
Saved fixtures load again, and only sound ones load. A fixture that is not sound is refused for the
first item with a broadcast that ends before it starts, and for an equivalence with an unknown item
only if there is no such item. All this is judged as the timestamps are read, which tell no leap
second but at the end of a minute; a fixture that was loaded has no other.
-/
namespace ChannelGuide
open Json (Value Fields)

namespace Fixture
variable {f g : Fixture}

def writtenInstants (f : Fixture) : List Instant := f.items.flatMap Item.writtenInstants

def asRead (f : Fixture) : Fixture := { f with items := f.items.map Item.asRead }

theorem asRead_eq_self_iff : f.asRead = f ↔ Instant.AllWritable f.writtenInstants := by
  obtain ⟨channels, items, equivalences⟩ := f
  simp [asRead, writtenInstants, map_eq_self_iff, Item.asRead_eq_self_iff]

theorem ofJson?_toJson (f : Fixture) : ofJson? f.toJson = some f.asRead := by
  simp [ofJson?, toJson, Value.fields?_record, Value.list?_list_of_back Channel.ofJson?_toJson,
    Value.list?_list Item.ofJson?_toJson,
    Value.list?_list_of_back (Value.list?_list_of_back ItemId.ofJson?_toJson), asRead]

theorem isStorable_toJson (f : Fixture) (room : Nat) : f.toJson.isStorable (room + 5) = true := by
  simp [toJson]

theorem ofText_toText (f : Fixture) : ofText f.toText = f.asRead.accepted := by
  rw [ofText, toText, Value.ofText?_pretty (f.isStorable_toJson 0), Option.bind_some,
    ofJson?_toJson]

theorem writable_of_ofJson? {v : Value} (read : ofJson? v = some f) :
    Instant.AllWritable f.writtenInstants := by
  simp only [ofJson?, Option.bind_eq_bind, Option.bind_eq_some_iff, Option.some.injEq] at read
  obtain ⟨_, -, _, -, items, listed, _, -, rfl⟩ := read
  refine Instant.allWritable_flatMap.mpr fun item member => ?_
  obtain rfl | ⟨_, of_list⟩ := Fields.eq_or_exists_of_defaulted? listed
  · exact absurd member List.not_mem_nil
  · obtain ⟨_, of_item⟩ := Value.exists_of_mem_list? of_list member
    exact Item.writable_of_ofJson? of_item

theorem sound_of_ofText {text : String} (loaded : ofText text = .ok g) :
    g.Sound ∧ Instant.AllWritable g.writtenInstants := by
  unfold ofText at loaded
  split at loaded
  · next read =>
      obtain ⟨_, -, of_v⟩ := Option.bind_eq_some_iff.mp read
      obtain ⟨rfl, sound⟩ := accepted_eq_ok_iff.mp loaded
      exact ⟨sound, writable_of_ofJson? of_v⟩
  · exact absurd loaded (by simp)

end Fixture

/-- A fixture that is saved loads, as its timestamps are read, if it is sound as they are, and is
refused for its fault if it is not. They are read as they were if no instant of it is in a leap
second inside a minute; and whatever text is loaded, what comes of it is sound and has no such
instant, so it loads as itself when it is saved. -/
theorem saved_fixture_loads :
    (∀ f g : Fixture, Fixture.ofText f.toText = .ok g ↔ g = f.asRead ∧ f.asRead.Sound) ∧
    (∀ (f : Fixture) (fault : FixtureFault),
      Fixture.ofText f.toText = .error fault ↔ f.asRead.Faulty fault) ∧
    (∀ f : Fixture, f.asRead = f ↔ Instant.AllWritable f.writtenInstants) ∧
    ∀ (text : String) (f : Fixture),
      Fixture.ofText text = .ok f → f.Sound ∧ Instant.AllWritable f.writtenInstants := by
  refine ⟨fun f g => ?_, fun f fault => ?_, fun _ => Fixture.asRead_eq_self_iff,
    fun _ _ => Fixture.sound_of_ofText⟩
  · rw [f.ofText_toText, Fixture.accepted_eq_ok_iff]
  · rw [f.ofText_toText, Fixture.accepted_eq_error_iff]

theorem saved_fixture_loads_listings :
    Sample.listings.Sound ∧ Fixture.ofText Sample.listings.toText = .ok Sample.listings ∧
      Sample.faultyListings.Faulty (.invertedBroadcast ⟨40⟩) ∧
      Fixture.ofText Sample.faultyListings.toText = .error (.invertedBroadcast ⟨40⟩) := by
  obtain ⟨loads, refused, unchanged, -⟩ := saved_fixture_loads
  have sound : Sample.listings.Sound := Fixture.fault?_eq_none_iff.mp (by decide)
  have faulty : Sample.faultyListings.Faulty (.invertedBroadcast ⟨40⟩) :=
    Fixture.fault?_eq_some_iff.mp (by decide)
  have plain : Sample.listings.asRead = Sample.listings := by decide
  have plain_faulty : Sample.faultyListings.asRead = Sample.faultyListings := by decide
  refine ⟨sound, (loads _ _).mpr ⟨plain.symm, plain.symm ▸ sound⟩, faulty, (refused _ _).mpr ?_⟩
  rw [plain_faulty]
  exact faulty

/-- In order, and refused for not being so: what starts in the leap second is read as starting in
the second after it. -/
theorem sound_flash_is_refused :
    Sample.flash.Sound ∧
      Fixture.ofText Sample.flash.toText = .error (.invertedBroadcast ⟨50⟩) := by
  refine ⟨Fixture.fault?_eq_none_iff.mp (by decide), ?_⟩
  rw [Fixture.ofText_toText, Fixture.accepted_eq_error_iff, ← Fixture.fault?_eq_some_iff]
  decide

end ChannelGuide
