import ChannelGuide.LogLevel
import ChannelGuide.Query
import ChannelGuide.Settings

/-!
Reading the command line. Arguments are taken from left to right; the value of an option is judged
when the next option begins or the arguments end, and only then is asked what contradicts itself and
what is missing. The first fault found is the one reported.
-/
namespace ChannelGuide.CommandLine

/-- Why arguments are refused, or help is given instead. -/
inductive UsageFault where
  | missingRequiredArgument
  | unknownArgument
  | valueValidation
  | argumentConflict
  | invalidValue
  | tooManyValues
  | invalidSubcommand
  | missingSubcommand
  | helpOnMissing
  | helpRequested
deriving DecidableEq, Repr

def UsageFault.name : UsageFault → String
  | .missingRequiredArgument => "MissingRequiredArgument"
  | .unknownArgument => "UnknownArgument"
  | .valueValidation => "ValueValidation"
  | .argumentConflict => "ArgumentConflict"
  | .invalidValue => "InvalidValue"
  | .tooManyValues => "TooManyValues"
  | .invalidSubcommand => "InvalidSubcommand"
  | .missingSubcommand => "MissingSubcommand"
  | .helpOnMissing => "DisplayHelpOnMissingArgumentOrSubcommand"
  | .helpRequested => "DisplayHelp"

/-! ## What can be given -/

inductive Key where
  | fixture
  | channel
  | publisher
  | start
  | stop
  | count
  | override
  | precedence
  | nonMerged
  | plain
  | logLevel
  | logsDir
  | help
deriving DecidableEq, Repr

namespace Key

def long : Key → List Char
  | .fixture => "fixture".toList
  | .channel => "channel".toList
  | .publisher => "publisher".toList
  | .start => "from".toList
  | .stop => "to".toList
  | .count => "count".toList
  | .override => "override".toList
  | .precedence => "precedence".toList
  | .nonMerged => "non-merged".toList
  | .plain => "plain".toList
  | .logLevel => "log-level".toList
  | .logsDir => "logs-dir".toList
  | .help => "help".toList

def short? : Key → Option Char
  | .fixture => some 'f'
  | .channel => some 'c'
  | .publisher => some 'p'
  | .help => some 'h'
  | _ => none

def takesValue : Key → Bool
  | .nonMerged | .plain | .help => false
  | _ => true

end Key

/-- What has been read of the arguments of one command. -/
structure Draft where
  fixture : Option String := none
  channels : List ChannelId := []
  publisher : Option Publisher := none
  start : Option Instant := none
  stop : Option Instant := none
  count : Option UInt64 := none
  override : Option Publisher := none
  precedence : List Publisher := []
  nonMerged : Bool := false
  plain : Bool := false
  logLevel : Option LogLevel := none
  logsDir : Option String := none

/-- A value for an option that may be given once. -/
def once (old : Option α) (value : Except UsageFault α) : Except UsageFault (Option α) :=
  if old.isSome then .error .argumentConflict else value.map some

def word (text : String) : Except UsageFault UInt64 :=
  match Settings.word? text with
  | some n => .ok (UInt64.ofNat n)
  | none => .error .valueValidation

def instant (text : String) : Except UsageFault Instant :=
  match Instant.ofChars? .exact text.toList with
  | some t => .ok t
  | none => .error .valueValidation

def path (text : String) : Except UsageFault String :=
  if text = "" then .error .invalidValue else .ok text

def level (text : String) : Except UsageFault LogLevel :=
  match LogLevel.ofName? text false with
  | some level => .ok level
  | none => .error .invalidValue

def publishers (text : String) : List Publisher := (text.splitOn ",").map Publisher.mk

namespace Draft

def addValue (d : Draft) (key : Key) (text : String) : Except UsageFault Draft :=
  match key with
  | .fixture => (once d.fixture (path text)).map fun v => { d with fixture := v }
  | .channel => (word text).map fun n => { d with channels := d.channels ++ [⟨n⟩] }
  | .publisher => (once d.publisher (.ok ⟨text⟩)).map fun v => { d with publisher := v }
  | .start => (once d.start (instant text)).map fun v => { d with start := v }
  | .stop => (once d.stop (instant text)).map fun v => { d with stop := v }
  | .count => (once d.count (word text)).map fun v => { d with count := v }
  | .override => (once d.override (.ok ⟨text⟩)).map fun v => { d with override := v }
  | .precedence => .ok { d with precedence := d.precedence ++ publishers text }
  | .logLevel => (once d.logLevel (level text)).map fun v => { d with logLevel := v }
  | .logsDir => (once d.logsDir (path text)).map fun v => { d with logsDir := v }
  | .nonMerged | .plain | .help => .ok d

def addFlag (d : Draft) (key : Key) : Except UsageFault Draft :=
  match key with
  | .nonMerged =>
    if d.nonMerged then .error .argumentConflict else .ok { d with nonMerged := true }
  | .plain => if d.plain then .error .argumentConflict else .ok { d with plain := true }
  | .help => .error .helpRequested
  | _ => .ok d

end Draft

/-! ## The walk over the arguments -/

/-- What is still to be judged: an option without its value, or a value. -/
inductive Pending where
  | nothing
  | awaiting (key : Key)
  | option (key : Key) (text : String)
  | positional (text : String)

structure Scan where
  draft : Draft
  pending : Pending
  /-- A lone `--` has been passed: nothing after it is an option. -/
  trailing : Bool
  /-- A positional argument has been taken. -/
  positional : Bool

structure Grammar where
  keys : List Key
  /-- The command takes one positional argument, a path. -/
  takesPath : Bool

namespace Scan

def start : Scan := ⟨{}, .nothing, false, false⟩

def resolve (s : Scan) : Except UsageFault Scan :=
  match s.pending with
  | .nothing => .ok s
  | .awaiting _ => .error .invalidValue
  | .option key text =>
    (s.draft.addValue key text).map fun draft => { s with draft, pending := .nothing }
  | .positional text =>
    (path text).map fun text =>
      { s with draft := { s.draft with fixture := some text }, pending := .nothing }

/-- An option, with the value attached to it if there is one. -/
def option (s : Scan) (key : Key) (attached : Option String) : Except UsageFault Scan := do
  let s ← s.resolve
  match attached with
  | some text =>
    let draft ← s.draft.addValue key text
    .ok { s with draft }
  | none =>
    if key.takesValue then .ok { s with pending := .awaiting key }
    else
      let draft ← s.draft.addFlag key
      .ok { s with draft }

/-- `--name` or `--name=value`. -/
def long (g : Grammar) (s : Scan) (body : List Char) : Except UsageFault Scan :=
  let name := body.takeWhile (· ≠ '=')
  let attached := match body.dropWhile (· ≠ '=') with
    | [] => none
    | _ :: value => some (String.ofList value)
  match g.keys.find? fun key => key.long = name with
  | none => .error .unknownArgument
  | some key =>
    if !key.takesValue && attached.isSome then .error .tooManyValues else s.option key attached

/-- Short options after one dash; the first that takes a value takes the rest as its value. -/
def short (g : Grammar) (s : Scan) : List Char → Except UsageFault Scan
  | [] => .ok s
  | c :: rest =>
    match g.keys.find? fun key => key.short? = some c with
    | none => .error .unknownArgument
    | some key =>
      if key.takesValue then
        match rest with
        | [] => s.option key none
        | '=' :: value => s.option key (some (String.ofList value))
        | value => s.option key (some (String.ofList value))
      else do
        let s ← s.option key none
        short g s rest

/-- An argument that is no option and no option's value. -/
def plain (g : Grammar) (s : Scan) (arg : String) : Except UsageFault Scan :=
  if g.takesPath && !s.positional then
    s.resolve.map fun s => { s with pending := .positional arg, positional := true }
  else .error .unknownArgument

def step (g : Grammar) (s : Scan) (arg : String) : Except UsageFault Scan :=
  if s.trailing then s.plain g arg
  else match arg.toList with
    | ['-', '-'] => .ok { s with trailing := true }
    | '-' :: '-' :: body => s.long g body
    | '-' :: c :: rest => s.short g (c :: rest)
    | _ =>
      match s.pending with
      | .awaiting key => .ok { s with pending := .option key arg }
      | _ => s.plain g arg

def all (g : Grammar) (args : List String) : Except UsageFault Draft := do
  let s ← args.foldlM (step g) start
  let s ← s.resolve
  .ok s.draft

end Scan

/-! ## Commands -/

structure QueryArguments where
  fixture : String
  channels : List ChannelId
  publisher : Publisher
  start : Instant
  stop : Option Instant
  count : Option UInt64
  override : Option Publisher
  precedence : List Publisher
  nonMerged : Bool
  plain : Bool

inductive Command where
  | query (arguments : QueryArguments)
  | validate (fixture : String)

structure Invocation where
  command : Command
  logLevel : LogLevel
  logsDir : Option String

def queryKeys : List Key :=
  [ .fixture, .channel, .publisher, .start, .stop, .count, .override, .precedence, .nonMerged,
    .plain, .help ]

def validateKeys : List Key := [.help]

/-- Options that may stand before or after the command. -/
def globalKeys : List Key := [.logLevel, .logsDir]

/-- The query of a draft; contradictions are found before gaps. -/
def Draft.query (d : Draft) : Except UsageFault Command :=
  if d.stop.isSome ∧ d.count.isSome then .error .argumentConflict
  else match d.fixture, d.channels, d.publisher, d.start with
    | some fixture, channel :: channels, some publisher, some start =>
      .ok (.query
        { fixture, channels := channel :: channels, publisher, start, stop := d.stop
          count := d.count, override := d.override, precedence := d.precedence
          nonMerged := d.nonMerged, plain := d.plain })
    | _, _, _, _ => .error .missingRequiredArgument

def Draft.validate (d : Draft) : Except UsageFault Command :=
  match d.fixture with
  | some fixture => .ok (.validate fixture)
  | none => .error .missingRequiredArgument

inductive CommandName where
  | query
  | validate
  | help
deriving DecidableEq, Repr

def CommandName.ofText? : String → Option CommandName
  | "query" => some .query
  | "validate" => some .validate
  | "help" => some .help
  | _ => none

/-- What is given to one who asks for help: on the whole, or on the one command that is named. No
command has commands of its own. -/
def UsageFault.ofHelp : List String → UsageFault
  | [] => .helpRequested
  | [name] => if (CommandName.ofText? name).isSome then .helpRequested else .invalidSubcommand
  | _ => .invalidSubcommand

/-- The command that its own arguments make, and what they say about logging. -/
def CommandName.command (globals : List Key) (args : List String) :
    CommandName → Except UsageFault (Command × Draft)
  | .query => do
    let draft ← Scan.all ⟨queryKeys ++ globals, false⟩ args
    let command ← draft.query
    .ok (command, draft)
  | .validate => do
    let draft ← Scan.all ⟨validateKeys ++ globals, true⟩ args
    let command ← draft.validate
    .ok (command, draft)
  | .help => .error (.ofHelp args)

/-- The name that an argument is, if a command may be named here. -/
def Scan.commandName? (s : Scan) (arg : String) : Option CommandName :=
  match s.pending with
  | .awaiting _ => none
  | _ => if s.trailing then none else CommandName.ofText? arg

def Scan.stepBefore (globals : List Key) (s : Scan) (arg : String) : Except UsageFault Scan :=
  match s.step ⟨.help :: globals, false⟩ arg with
  | .error .unknownArgument =>
    if arg.startsWith "-" && arg ≠ "-" && !s.trailing then .error .unknownArgument
    else if s.trailing && (CommandName.ofText? arg).isSome then .error .unknownArgument
    else .error .invalidSubcommand
  | outcome => outcome

/-- Reads arguments up to the name of the command and leaves the rest to the command. What it says
about logging comes before what was said in front of it. -/
def invocation (globals : List Key) (s : Scan) : List String → Except UsageFault Invocation
  | [] => do
    let s ← s.resolve
    if s.draft.logLevel.isNone && s.draft.logsDir.isNone then .error .helpOnMissing
    else .error .missingSubcommand
  | arg :: args =>
    match s.commandName? arg with
    | some name => do
      let (command, draft) ← name.command globals args
      let s ← s.resolve
      .ok
        { command
          logLevel := (draft.logLevel.or s.draft.logLevel).getD .warn
          logsDir := draft.logsDir.or s.draft.logsDir }
    | none => do
      let s ← s.stepBefore globals arg
      invocation globals s args

def Invocation.ofArguments (args : List String) : Except UsageFault Invocation :=
  invocation globalKeys .start args

/-- The arguments of a command that stands alone, where nothing is said about logging. -/
def Command.ofArguments (args : List String) : Except UsageFault Command :=
  (invocation [] .start args).map Invocation.command

end ChannelGuide.CommandLine
