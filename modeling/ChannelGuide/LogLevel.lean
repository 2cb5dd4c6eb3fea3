/-!
How much a run tells of itself.
-/
namespace ChannelGuide

inductive LogLevel where
  | error
  | warn
  | info
  | debug
  | trace
deriving DecidableEq, Repr

namespace LogLevel

def all : List LogLevel := [.error, .warn, .info, .debug, .trace]

def name : LogLevel → String
  | .error => "error"
  | .warn => "warn"
  | .info => "info"
  | .debug => "debug"
  | .trace => "trace"

def logName (level : LogLevel) : String := level.name.map Char.toUpper

/-- The level of a name; ASCII capitals count as small letters if `ignoreCase`. -/
def ofName? (text : String) (ignoreCase : Bool) : Option LogLevel :=
  let text := if ignoreCase then text.map Char.toLower else text
  all.find? fun level => level.name = text

def unknownMessage (text : String) : String := s!"invalid variant: {text}"

end LogLevel
end ChannelGuide
