import ChannelGuide.Matching
import ChannelGuide.Time.Wait

/-!
What can be configured: how long collaborators may take, how long a query may be, how exactly
broadcasts are matched, and how the simulated store behaves. The environment may replace some of it;
a text there that is no number of its kind changes nothing.
-/
namespace ChannelGuide

structure Settings where
  channelLimit : Wait
  scheduleLimit : Wait
  longestQuery : Span
  matcher : BroadcastMatcher
  responseDelay : Wait
  failure : Option String
deriving DecidableEq, Repr

namespace Settings

def standard : Settings where
  channelLimit := .ofSeconds 60
  scheduleLimit := .ofSeconds 60
  longestQuery := .ofHours 24
  matcher := .exactStartEnd
  responseDelay := .zero
  failure := none

/-- Limits short enough to be waited for in a test. -/
def testing : Settings :=
  { standard with channelLimit := .ofSeconds 1, scheduleLimit := .ofSeconds 1 }

def development : Settings := { standard with responseDelay := ⟨50⟩ }

def word? (text : String) : Option Nat :=
  (Decimal.natural? text).bind fun n => if n < UInt64.size then some n else none

/-- The most hours whose milliseconds are a signed number of 64 bits. -/
def mostHours : Int := 2562047788015

def queryHours? (text : String) : Option Span :=
  (Decimal.integer? text).bind fun hours =>
    if 0 < hours ∧ hours ≤ mostHours then some (.ofHours hours) else none

def channelLimitName : String := "LINEUP_CHANNEL_TIMEOUT_SECS"

def scheduleLimitName : String := "LINEUP_SCHEDULE_TIMEOUT_SECS"

def longestQueryName : String := "LINEUP_MAX_QUERY_HOURS"

def responseDelayName : String := "LINEUP_SIMULATED_DELAY_MS"

def variableNames : List String :=
  [channelLimitName, scheduleLimitName, longestQueryName, responseDelayName]

def ofEnvironment (lookup : String → Option String) : Settings :=
  let number name := (lookup name).bind word?
  { standard with
    channelLimit := ((number channelLimitName).map Wait.ofSeconds).getD standard.channelLimit
    scheduleLimit := ((number scheduleLimitName).map Wait.ofSeconds).getD standard.scheduleLimit
    longestQuery := ((lookup longestQueryName).bind queryHours?).getD standard.longestQuery
    responseDelay := ((number responseDelayName).map Wait.mk).getD standard.responseDelay }

end Settings
end ChannelGuide
