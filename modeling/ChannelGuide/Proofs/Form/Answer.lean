import ChannelGuide.Form.Answer
import ChannelGuide.Proofs.Form.Listing

/-!
An answer is read as what was written: nothing that is written of a list of schedules is the form of
one schedule, and nothing that is written of one schedule is a list.
-/
namespace ChannelGuide
open Json (Value)

namespace ChannelSchedule

/-- A schedule has none of the fields that a channel needs. -/
theorem channel_ofJson?_toJson (s : ChannelSchedule) : Channel.ofJson? s.toJson = none := by
  rfl

/-- A list that stood for a schedule would begin with its channel. -/
theorem ofJson?_list (schedules : List ChannelSchedule) :
    ofJson? (.list toJson schedules) = none := by
  cases schedules with
  | nil => rfl
  | cons s rest =>
      rw [ofJson?, Value.list, List.map_cons, Value.fields?]
      split
      · simp [channel_ofJson?_toJson]
      · rfl

theorem list?_toJson (s : ChannelSchedule) : s.toJson.list? ofJson? = none := rfl

end ChannelSchedule

namespace QueryResult

theorem isStorable_toJson (r : QueryResult) (room : Nat) :
    r.toJson.isStorable (room + 7) = true := by
  cases r with
  | single s => exact s.isStorable_toJson (room + 1)
  | list schedules => simp [toJson]

def writtenInstants (r : QueryResult) : List Instant :=
  r.schedules.flatMap ChannelSchedule.writtenInstants

theorem ofJson?_toJson_iff {r : QueryResult} :
    ofJson? r.toJson = some r ↔ Instant.AllWritable r.writtenInstants := by
  have kept : r.toJson.isStorable Json.storageDepth = true := r.isStorable_toJson 120
  rw [ofJson?, if_pos kept]
  cases r with
  | single s =>
      rw [toJson, ChannelSchedule.list?_toJson, Option.map_none, Option.or_none]
      simp [writtenInstants, schedules]
  | list schedules =>
      rw [toJson, ChannelSchedule.ofJson?_list, Option.map_none, Option.none_or]
      simp [writtenInstants, QueryResult.schedules, Value.list?_list_eq_self_iff]

end QueryResult
end ChannelGuide
