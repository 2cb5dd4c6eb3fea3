/-!
Publishers and the channels that they schedule. Both are known by what a publisher's systems call
them: a publisher by its key, a channel by its number.
-/
namespace ChannelGuide

structure Publisher where
  key : String
deriving DecidableEq, Repr

structure ChannelId where
  value : UInt64
deriving DecidableEq, Repr

structure Channel where
  id : ChannelId
  key : String
  title : String
  availableFrom : List Publisher
deriving DecidableEq, Repr

/-- A channel that is called by its key and that no publisher is known to offer. -/
def Channel.named (id : ChannelId) (key : String) : Channel :=
  { id, key, title := key, availableFrom := [] }

end ChannelGuide
