import ChannelGuide.Catalogue.Store
import ChannelGuide.CommandLine.Arguments
import ChannelGuide.CommandLine.SystemFault
import ChannelGuide.Form.Answer
import ChannelGuide.Form.Fixture

/-!
What a command does. The files that it needs have been read before and come in as text or as what
the system had against them; what it prints comes out as text.
-/
namespace ChannelGuide.CommandLine

inductive CommandFault where
  | unreadable (path : String) (cause : SystemFault)
  | fixture (fault : FixtureFault)
  | boundMissing
  | query (fault : QueryFault)
  | answer (fault : AnswerFault)
  | logFile (path : String) (cause : SystemFault)
deriving DecidableEq

namespace CommandFault

def message : CommandFault → String
  | .unreadable path cause => s!"Cannot read fixture {path}: {cause.message}"
  | .fixture fault => fault.message
  | .boundMissing => "Either --to or --count is required"
  | .query fault => fault.message
  | .answer fault => if fault.isUserError then fault.userMessage else "Schedule query failed"
  | .logFile path cause => s!"Cannot prepare log file {path}: {cause.message}"

/-- The faults behind the fault, the nearest first. A person who asked the wrong question is not
told more than that. -/
def causes : CommandFault → List String
  | .unreadable _ cause => [cause.message]
  | .query fault => fault.cause?.toList
  | .answer fault => if fault.isUserError then [] else fault.message :: fault.causes
  | .logFile _ cause => [cause.message]
  | .fixture _ | .boundMissing => []

def chain (fault : CommandFault) : String := ": ".intercalate (fault.message :: fault.causes)

/-- One cause stands alone, several are numbered. -/
def causeLines : List String → List String
  | [] => []
  | [cause] => ["", "Caused by:", s!"    {cause}"]
  | causes => "" :: "Caused by:" :: causes.zipIdx.map fun (cause, n) => s!"    {n}: {cause}"

def report (fault : CommandFault) : String :=
  "\n".intercalate (s!"Error: {fault.message}" :: causeLines fault.causes)

end CommandFault

def Command.fixturePath : Command → String
  | .query arguments => arguments.fixture
  | .validate fixture => fixture

namespace QueryArguments

def bound (a : QueryArguments) : Except CommandFault TimeBound :=
  match a.stop, a.count with
  | some stop, _ => .ok (.endsAt stop)
  | none, some n => .ok (.count n)
  | none, none => .error .boundMissing

/-- Without an order of preference just the publishers of the query may be read. -/
def sources (a : QueryArguments) : SourcePrecedence :=
  if a.precedence = [] then ⟨a.publisher :: a.override.toList, false⟩ else ⟨a.precedence, true⟩

/-- The query for one channel, or for several if more than one is named. -/
def query (a : QueryArguments) : Except CommandFault Query := do
  let bound ← a.bound
  let context := { sources := a.sources, nonMerged := a.nonMerged }
  let query ← (match a.channels with
    | [id] => Query.single a.publisher id a.start bound context
    | ids => Query.multi a.publisher ids a.start bound context).mapError .query
  match a.override with
  | some publisher => .ok (query.withOverride publisher)
  | none => .ok query

def answer (a : QueryArguments) (settings : Settings) (fixture : Fixture) :
    Except CommandFault QueryResult := do
  let store := ⟨fixture.catalogue, .ofSettings settings⟩
  let query ← a.query
  let run := if a.plain then SimulatedStore.executePlain store settings query
    else SimulatedStore.executeEquivalent store settings query
  run.outcome.mapError .answer

end QueryArguments

def summary (path : String) (fixture : Fixture) : String :=
  s!"Fixture {path} is valid\n  Channels: {fixture.channels.length}\n" ++
    s!"  Items: {fixture.items.length} ({fixture.broadcastCount} broadcasts)\n" ++
    s!"  Equivalence sets: {fixture.equivalences.length}\n"

def fixtureOfFile (path : String) (content : Except SystemFault String) :
    Except CommandFault Fixture := do
  let text ← content.mapError (.unreadable path)
  (Fixture.ofText text).mapError .fixture

/-- What the command prints, given the environment and the content of its file. -/
def Command.output (command : Command) (lookup : String → Option String)
    (content : Except SystemFault String) : Except CommandFault String := do
  let fixture ← fixtureOfFile command.fixturePath content
  match command with
  | .query arguments =>
    let result ← arguments.answer (.ofEnvironment lookup) fixture
    .ok (result.toJson.pretty ++ "\n")
  | .validate path => .ok (summary path fixture)

/-- The name of the file that tells of the last run. -/
def runLogName : String := "lineup-last-run.log"

def defaultLogsDir : String := "logs"

def runLogPath (dir : String) : String :=
  if dir = "" || dir.endsWith "/" then dir ++ runLogName else dir ++ "/" ++ runLogName

def Invocation.logsPath (i : Invocation) : String := i.logsDir.getD defaultLogsDir

/-- Without its log file a command does not begin. -/
def Invocation.output (i : Invocation) (log : Except SystemFault Unit)
    (lookup : String → Option String) (content : Except SystemFault String) :
    Except CommandFault String := do
  log.mapError (.logFile (runLogPath i.logsPath))
  i.command.output lookup content

end ChannelGuide.CommandLine
