import ChannelGuide.Equivalence.Selection
import ChannelGuide.Query
import ChannelGuide.Schedule.Overlay
import ChannelGuide.Time.Wait

/-!
Why a query is not answered. A fault names its cause; what is said of it to an operator and to the
person who asked is decided here, once for each cause.
-/
namespace ChannelGuide

inductive Operation where
  | channels
  | schedule
  | overrideSchedule
  | equivalents
deriving DecidableEq, Repr

def Operation.name : Operation → String
  | .channels => "channel resolution"
  | .schedule => "schedule resolution"
  | .overrideSchedule => "override schedule resolution"
  | .equivalents => "equivalents resolution"

inductive ResolverFault where
  | unavailable (resolver reason : String)
  | rejected (reason : String)
deriving DecidableEq, Repr

def ResolverFault.message : ResolverFault → String
  | .unavailable resolver reason => s!"{resolver} unavailable: {reason}"
  | .rejected reason => s!"Request rejected: {reason}"

inductive AnswerFault where
  | channelNotFound (id : ChannelId)
  | forbidden (publisher : Publisher)
  /-- A number of broadcasts was asked of schedules that only know intervals. -/
  | countUnsupported
  | inconsistentMergeInput (bases overrides : Nat) (ids : List ChannelId)
      (overridePublisher : Publisher)
  | inconsistentSlot (slot : InconsistentSlot)
  | timedOut (operation : Operation) (limit : Wait)
  | query (fault : QueryFault)
  | resolver (fault : ResolverFault)
  | merge (fault : ChannelMismatch)
deriving DecidableEq

namespace AnswerFault

def countReason : String :=
  "'count' parameter not supported in non-equivalent schedule store. " ++
    "Please specify 'to' parameter in your request"

def idsText (ids : List ChannelId) : String :=
  "[" ++ ", ".intercalate (ids.map fun id => s!"ChannelId({id.value})") ++ "]"

def message : AnswerFault → String
  | .channelNotFound id => s!"Channel {id.value} not found"
  | .forbidden publisher => s!"Publisher {publisher.key} is not enabled for this application"
  | .countUnsupported => s!"Unsupported request: {countReason}"
  | .inconsistentMergeInput bases overrides ids overridePublisher =>
    s!"Original schedule should have same number of items as override: {bases} vs. " ++
      s!"{overrides}, {idsText ids} | {overridePublisher.key}"
  | .inconsistentSlot slot =>
    s!"Schedule entry on channel {slot.channel.value} is inconsistent: {slot.fault.message}"
  | .timedOut operation limit => s!"{operation.name} timed out after {limit.text}"
  | .query fault => s!"Invalid query: {fault.message}"
  | .resolver fault => s!"Resolution failed: {fault.message}"
  | .merge fault => s!"Merge failed: {fault.message}"

/-- What the person who asked is told. -/
def userMessage : AnswerFault → String
  | .channelNotFound id => s!"Unknown channel {id.value}"
  | .forbidden publisher => s!"Access to {publisher.key} is not permitted"
  | .countUnsupported => countReason
  | .query fault => fault.message
  | .timedOut _ _ => "Schedule lookup timed out"
  | _ => "Schedule lookup failed"

def isUserError : AnswerFault → Bool
  | .channelNotFound _ | .forbidden _ | .countUnsupported | .query _ => true
  | _ => false

/-- The fault behind the fault, and the one behind that. -/
def causes : AnswerFault → List String
  | .query fault => fault.message :: fault.cause?.toList
  | .resolver fault => [fault.message]
  | .merge fault => [fault.message]
  | _ => []

end AnswerFault
end ChannelGuide
