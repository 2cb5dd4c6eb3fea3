import ChannelGuide.Catalogue.Sample
import ChannelGuide.Proofs.Form.Answer
import ChannelGuide.Proofs.Form.Intervals
import ChannelGuide.Proofs.Form.Query

/-!
Texts of the guide's data are read as the data that they were written of, in either layout, where no
instant is in a leap second inside a minute, which no timestamp tells. The form of an answer does not
say which kind it is, and needs not to: no text is one of both kinds.
-/
namespace ChannelGuide
open Json (Value)

section ReadsBack
variable {α : Type} {toJson : α → Value} {ofJson? : Value → Option α} {instants : α → List Instant}
  {room : Nat}

/-- The texts of a value, compact or over several lines, are read as that value. -/
def ReadsBack (toJson : α → Value) (ofJson? : Value → Option α) : Prop :=
  ∀ x, (Value.ofText? (toJson x).compact).bind ofJson? = some x ∧
    (Value.ofText? (toJson x).pretty).bind ofJson? = some x

/-- They are if each of its instants has a timestamp of its own, and only then. -/
def ReadsBackIfWritable (toJson : α → Value) (ofJson? : Value → Option α)
    (instants : α → List Instant) : Prop :=
  ∀ x, ((Value.ofText? (toJson x).compact).bind ofJson? = some x ↔
      Instant.AllWritable (instants x)) ∧
    ((Value.ofText? (toJson x).pretty).bind ofJson? = some x ↔ Instant.AllWritable (instants x))

theorem read_texts {x : α} (kept : (toJson x).isStorable room = true) :
    (Value.ofText? (toJson x).compact).bind ofJson? = ofJson? (toJson x) ∧
      (Value.ofText? (toJson x).pretty).bind ofJson? = ofJson? (toJson x) := by
  rw [Value.ofText?_compact kept, Value.ofText?_pretty kept, Option.bind_some]
  exact ⟨rfl, rfl⟩

theorem ReadsBack.of_kept (room : Nat) (kept : ∀ x, (toJson x).isStorable room = true)
    (back : ∀ x, ofJson? (toJson x) = some x) : ReadsBack toJson ofJson? := by
  intro x
  rw [(read_texts (kept x)).1, (read_texts (kept x)).2]
  exact ⟨back x, back x⟩

theorem ReadsBackIfWritable.of_kept (room : Nat) (kept : ∀ x, (toJson x).isStorable room = true)
    (back : ∀ {x}, ofJson? (toJson x) = some x ↔ Instant.AllWritable (instants x)) :
    ReadsBackIfWritable toJson ofJson? instants := by
  intro x
  rw [(read_texts (kept x)).1, (read_texts (kept x)).2]
  exact ⟨back, back⟩

end ReadsBack

/-- Every kind of data survives its text, where no instant is in a leap second inside a minute. One
schedule is never read for a list of them, nor a list for one, though fields may be listed without
their names. What is read for an interval are two instants in order, alone or as a part of anything
that holds intervals. -/
theorem forms_read_back :
    (ReadsBack Publisher.toJson Publisher.ofJson? ∧
      ReadsBack ChannelId.toJson ChannelId.ofJson? ∧
      ReadsBack ItemId.toJson ItemId.ofJson? ∧
      ReadsBack Channel.toJson Channel.ofJson? ∧
      ReadsBackIfWritable Interval.toJson Interval.ofJson? Interval.writtenInstants ∧
      ReadsBackIfWritable Broadcast.toJson Broadcast.ofJson? Broadcast.writtenInstants ∧
      ReadsBackIfWritable Item.toJson Item.ofJson? Item.writtenInstants ∧
      ReadsBackIfWritable Entry.toJson Entry.ofJson? Entry.writtenInstants ∧
      ReadsBackIfWritable ChannelSchedule.toJson ChannelSchedule.ofJson?
        ChannelSchedule.writtenInstants ∧
      ReadsBackIfWritable Schedule.toJson Schedule.ofJson? Schedule.writtenInstants ∧
      ReadsBackIfWritable Slot.toJson Slot.ofJson? Slot.writtenInstants ∧
      ReadsBackIfWritable ChannelSlots.toJson ChannelSlots.ofJson? ChannelSlots.writtenInstants ∧
      ReadsBackIfWritable ScheduleSlots.toJson ScheduleSlots.ofJson? ScheduleSlots.writtenInstants ∧
      ReadsBack ChannelScope.toJson ChannelScope.ofJson? ∧
      ReadsBackIfWritable TimeBound.toJson TimeBound.ofJson? TimeBound.writtenInstants ∧
      ReadsBack SourcePrecedence.toJson SourcePrecedence.ofJson? ∧
      ReadsBack QueryContext.toJson QueryContext.ofJson? ∧
      ReadsBackIfWritable QueryResult.toJson QueryResult.ofJson? QueryResult.writtenInstants) ∧
    (∀ schedules, ChannelSchedule.ofJson? (QueryResult.list schedules).toJson = none) ∧
    (∀ schedule, (QueryResult.single schedule).toJson.list? ChannelSchedule.ofJson? = none) ∧
    (∀ v i, Interval.ofJson? v = some i ↔ Interval.Denoted v i.start i.stop) ∧
    (∀ v, Interval.ofJson? v = none ↔ ∀ start stop, Interval.Denoted v start stop → stop < start) ∧
    KeepsIntervals ChannelSchedule.ofJson? ChannelSchedule.intervals ∧
    KeepsIntervals Schedule.ofJson? Schedule.intervals ∧
    KeepsIntervals ChannelSlots.ofJson? ChannelSlots.intervals ∧
    KeepsIntervals ScheduleSlots.ofJson? ScheduleSlots.intervals ∧
    KeepsIntervals QueryResult.ofJson? QueryResult.intervals := by
  refine ⟨⟨?_, ?_, ?_, ?_, ?_, ?_, ?_, ?_, ?_, ?_, ?_, ?_, ?_, ?_, ?_, ?_, ?_, ?_⟩,
    ChannelSchedule.ofJson?_list, ChannelSchedule.list?_toJson,
    fun _ _ => Interval.ofJson?_eq_some_iff, fun _ => Interval.ofJson?_eq_none_iff,
    ChannelSchedule.keepsIntervals, Schedule.keepsIntervals, ChannelSlots.keepsIntervals,
    ScheduleSlots.keepsIntervals, QueryResult.keepsIntervals⟩
  · exact .of_kept 0 (fun p => p.isStorable_toJson) Publisher.ofJson?_toJson
  · exact .of_kept 0 (fun id => id.isStorable_toJson) ChannelId.ofJson?_toJson
  · exact .of_kept 0 (fun id => id.isStorable_toJson) ItemId.ofJson?_toJson
  · exact .of_kept 2 (fun c => c.isStorable_toJson 0) Channel.ofJson?_toJson
  · exact .of_kept 1 (fun i => i.isStorable_toJson 0) Interval.ofJson?_toJson_iff
  · exact .of_kept 1 (fun b => b.isStorable_toJson 0) Broadcast.ofJson?_toJson_iff
  · exact .of_kept 3 (fun item => item.isStorable_toJson 0) Item.ofJson?_toJson_iff
  · exact .of_kept 4 (fun e => e.isStorable_toJson 0) Entry.ofJson?_toJson_iff
  · exact .of_kept 6 (fun s => s.isStorable_toJson 0) ChannelSchedule.ofJson?_toJson_iff
  · exact .of_kept 8 (fun s => s.isStorable_toJson 0) Schedule.ofJson?_toJson_iff
  · exact .of_kept 5 (fun s => s.isStorable_toJson 0) Slot.ofJson?_toJson_iff
  · exact .of_kept 7 (fun s => s.isStorable_toJson 0) ChannelSlots.ofJson?_toJson_iff
  · exact .of_kept 9 (fun s => s.isStorable_toJson 0) ScheduleSlots.ofJson?_toJson_iff
  · exact .of_kept 2 (fun scope => scope.isStorable_toJson 0) ChannelScope.ofJson?_toJson
  · exact .of_kept 1 (fun bound => bound.isStorable_toJson 0) TimeBound.ofJson?_toJson_iff
  · exact .of_kept 2 (fun sources => sources.isStorable_toJson 0) SourcePrecedence.ofJson?_toJson
  · exact .of_kept 3 (fun context => context.isStorable_toJson 0) QueryContext.ofJson?_toJson
  · exact .of_kept 7 (fun r => r.isStorable_toJson 0) QueryResult.ofJson?_toJson_iff

theorem forms_read_back_twoSchedules :
    Instant.AllWritable Sample.twoSchedules.writtenInstants ∧
      (Value.ofText? Sample.twoSchedules.toJson.compact).bind QueryResult.ofJson? =
        some Sample.twoSchedules ∧
      Interval.ofJson? (.record
        [("start", (Sample.clock 10 0).toJson), ("end", (Sample.clock 9 0).toJson)]) = none := by
  obtain ⟨⟨-, -, -, -, -, -, -, -, -, -, -, -, -, -, -, -, -, answer⟩, -, -, -, refused, -⟩ :=
    forms_read_back
  have writable : Instant.AllWritable Sample.twoSchedules.writtenInstants := by decide
  refine ⟨writable, (answer _).1.mpr writable, (refused _).mpr fun start stop denoted => ?_⟩
  simp [Interval.Denoted, Value.fields?_record] at denoted
  rw [← denoted.1, ← denoted.2]
  decide

end ChannelGuide
