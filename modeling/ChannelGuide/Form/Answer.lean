import ChannelGuide.Answer.Steps
import ChannelGuide.Form.Query
import ChannelGuide.Json.Storage

/-!
The JSON form of an answer. Nothing in it says whether it is one schedule or a list, so a reader has
to keep the whole value and try one after the other.
-/
namespace ChannelGuide
open Json (Value)

namespace QueryResult

def toJson : QueryResult → Value
  | .single schedule => schedule.toJson
  | .list schedules => .list ChannelSchedule.toJson schedules

def ofJson? (v : Value) : Option QueryResult :=
  if v.isStorable Json.storageDepth then
    ((ChannelSchedule.ofJson? v).map single).or ((v.list? ChannelSchedule.ofJson?).map list)
  else none

end QueryResult
end ChannelGuide
