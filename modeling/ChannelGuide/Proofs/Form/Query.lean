import ChannelGuide.Form.Query
import ChannelGuide.Proofs.Form.Listing

/-!
The forms of the parts of a query lose nothing more. The one key of a scope or a bound tells its two
alternatives apart.
-/
namespace ChannelGuide
open Json (Value)

namespace ChannelScope

@[simp] theorem ofJson?_toJson (scope : ChannelScope) : ofJson? scope.toJson = some scope := by
  cases scope with
  | single id => simp [ofJson?, toJson]
  | multi ids => simp [ofJson?, toJson, Value.list?_list_of_back ChannelId.ofJson?_toJson]

@[simp] theorem isStorable_toJson (scope : ChannelScope) (room : Nat) :
    scope.toJson.isStorable (room + 2) = true := by
  cases scope <;> simp [toJson]

end ChannelScope

namespace TimeBound

def writtenInstants : TimeBound → List Instant
  | endsAt t => [t]
  | count _ => []

@[simp] theorem ofJson?_toJson_iff {bound : TimeBound} :
    ofJson? bound.toJson = some bound ↔ Instant.AllWritable bound.writtenInstants := by
  cases bound <;> simp [ofJson?, toJson, writtenInstants, Instant.asRead_eq_self_iff]

@[simp] theorem isStorable_toJson (bound : TimeBound) (room : Nat) :
    bound.toJson.isStorable (room + 1) = true := by
  cases bound <;> simp [toJson]

end TimeBound

namespace SourcePrecedence

@[simp] theorem ofJson?_toJson (sources : SourcePrecedence) :
    ofJson? sources.toJson = some sources := by
  simp [ofJson?, toJson, Value.fields?_record, Value.list?_list_of_back Publisher.ofJson?_toJson]

@[simp] theorem isStorable_toJson (sources : SourcePrecedence) (room : Nat) :
    sources.toJson.isStorable (room + 2) = true := by
  simp [toJson]

end SourcePrecedence

namespace QueryContext

@[simp] theorem ofJson?_toJson (context : QueryContext) :
    ofJson? context.toJson = some context := by
  simp [ofJson?, toJson, Value.fields?_record]

@[simp] theorem isStorable_toJson (context : QueryContext) (room : Nat) :
    context.toJson.isStorable (room + 3) = true := by
  simp [toJson]

end QueryContext
end ChannelGuide
