import ChannelGuide.Catalogue.Fixture
import ChannelGuide.Form.Listing
import ChannelGuide.Json.Writer
import ChannelGuide.Json.Reader

/-!
The text of fixtures. A fixture that is read is judged at once, so what comes out is accepted; a
fixture is written over several lines.
-/
namespace ChannelGuide
open Json (Value)

namespace Fixture

def toJson (f : Fixture) : Value := .record
  [ ("channels", .list Channel.toJson f.channels),
    ("items", .list Item.toJson f.items),
    ("equivalences", .list (.list ItemId.toJson) f.equivalences) ]

def ofJson? (v : Value) : Option Fixture := do
  let fields ← v.fields? ["channels", "items", "equivalences"]
  let channels ← fields.defaulted? "channels" [] (Value.list? Channel.ofJson?)
  let items ← fields.defaulted? "items" [] (Value.list? Item.ofJson?)
  let equivalences ← fields.defaulted? "equivalences" [] (Value.list? (Value.list? ItemId.ofJson?))
  some { channels, items, equivalences }

def ofText (text : String) : Except FixtureFault Fixture :=
  match (Value.ofText? text).bind ofJson? with
  | some fixture => fixture.accepted
  | none => .error .malformed

def toText (f : Fixture) : String := f.toJson.pretty

end Fixture
end ChannelGuide
