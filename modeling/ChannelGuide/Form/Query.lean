import ChannelGuide.Form.Listing
import ChannelGuide.Query

/-!
The JSON forms of the parts of a query. Scopes and bounds are objects whose one key names the
alternative; reading a scope does not judge it.
-/
namespace ChannelGuide
open Json (Value)

namespace ChannelScope

def toJson : ChannelScope → Value
  | .single id => .record [("Single", id.toJson)]
  | .multi ids => .record [("Multi", .list ChannelId.toJson ids)]

def ofJson? (v : Value) : Option ChannelScope :=
  match v.alternative? with
  | some ("Single", v) => (ChannelId.ofJson? v).map single
  | some ("Multi", v) => (v.list? ChannelId.ofJson?).map multi
  | _ => none

end ChannelScope

namespace TimeBound

def toJson : TimeBound → Value
  | .endsAt t => .record [("End", t.toJson)]
  | .count n => .record [("Count", .nat n.toNat)]

def ofJson? (v : Value) : Option TimeBound :=
  match v.alternative? with
  | some ("End", v) => (Instant.ofJson? v).map endsAt
  | some ("Count", v) => v.word?.map count
  | _ => none

end TimeBound

namespace SourcePrecedence

def toJson (s : SourcePrecedence) : Value := .record
  [ ("enabled_read_sources", .list Publisher.toJson s.enabledSources),
    ("precedence_enabled", .bool s.precedenceEnabled) ]

def ofJson? (v : Value) : Option SourcePrecedence := do
  let fields ← v.fields? ["enabled_read_sources", "precedence_enabled"]
  let enabledSources ← fields.required? "enabled_read_sources" (Value.list? Publisher.ofJson?)
  let precedenceEnabled ← fields.required? "precedence_enabled" Value.bool?
  some { enabledSources, precedenceEnabled }

end SourcePrecedence

namespace QueryContext

def toJson (c : QueryContext) : Value :=
  .record [("sources", c.sources.toJson), ("non_merged", .bool c.nonMerged)]

def ofJson? (v : Value) : Option QueryContext := do
  let fields ← v.fields? ["sources", "non_merged"]
  let sources ← fields.required? "sources" SourcePrecedence.ofJson?
  let nonMerged ← fields.defaulted? "non_merged" false Value.bool?
  some { sources, nonMerged }

end QueryContext
end ChannelGuide
