import ChannelGuide.Catalogue.Fixture

/-!
A small catalogue to try queries on: the morning of 1 March 2024 on two channels, as three
publishers tell it.
-/
namespace ChannelGuide.Sample

def day : Date := ⟨2024, 3, 1⟩

/-- The tick at which a minute of the day starts. -/
def tick (hour : Fin 24) (minute : Fin 60) : Int :=
  (day.dayNumber * Instant.secondsPerDay + (3600 * hour.val + 60 * minute.val : Nat))
    * Instant.ticksPerSecond

theorem tick_representable (hour : Fin 24) (minute : Fin 60) :
    Instant.Representable (tick hour minute) := by
  have first : Instant.firstTick = -16669202457600000000000 := by decide
  have last : Instant.lastTick = 16420533753599999999999 := by decide
  have number : day.dayNumber = 19783 := by decide
  have hhour := hour.isLt
  have hminute := minute.isLt
  simp only [Instant.Representable, tick, first, last, number, Instant.secondsPerDay,
    Instant.ticksPerSecond]
  omega

def clock (hour : Fin 24) (minute : Fin 60) : Instant :=
  ⟨tick hour minute, tick_representable hour minute⟩

def airing (channel : UInt64) (start stop : Instant) : Broadcast :=
  { channel := ⟨channel⟩, start, stop }

def pa : Publisher := ⟨"pa"⟩
def ebs : Publisher := ⟨"ebs"⟩
def bbc : Publisher := ⟨"bbc"⟩

/-- An item of one airing on the first channel, in the slot of that airing. -/
def entry (publisher : Publisher) (id : UInt64) (start stop : Instant) : Entry where
  item := { id := ⟨id⟩, publisher, title := "", broadcasts := [airing 1 start stop] }
  broadcast := airing 1 start stop

/-- What a publisher has on the first channel, from six to noon. -/
def schedule (entries : List Entry) : ChannelSchedule where
  channel := Channel.named ⟨1⟩ "bbcone"
  interval := ⟨clock 6 0, clock 12 0, by decide⟩
  entries := entries

/-- Nothing on the channel, from nine to the hour. -/
def silence (id : UInt64) (hour : Fin 24) (later : clock 9 0 ≤ clock hour 0) : ChannelSchedule :=
  ⟨Channel.named ⟨id⟩ "", ⟨clock 9 0, clock hour 0, later⟩, []⟩

def untilNoon (id : UInt64) : ChannelSchedule := silence id 12 (by decide)

def untilTen (id : UInt64) : ChannelSchedule := silence id 10 (by decide)

def listings : Fixture where
  channels :=
    [ { id := ⟨1⟩, key := "bbcone", title := "BBC One", availableFrom := [] },
      { id := ⟨2⟩, key := "bbctwo", title := "BBC Two", availableFrom := [] } ]
  items :=
    [ { id := ⟨10⟩, publisher := pa, title := "Breakfast"
        broadcasts := [airing 1 (clock 9 0) (clock 10 0), airing 1 (clock 10 0) (clock 10 0)] },
      { id := ⟨11⟩, publisher := pa, title := "Homes Under the Hammer"
        broadcasts := [airing 1 (clock 10 0) (clock 11 0)] },
      { id := ⟨12⟩, publisher := pa, title := "Film"
        broadcasts := [{ airing 2 (clock 9 0) (clock 11 0) with sourceId := some "pa:film" }] },
      { id := ⟨20⟩, publisher := ebs, title := "Live Football"
        broadcasts := [airing 1 (clock 9 30) (clock 9 45)] },
      { id := ⟨30⟩, publisher := bbc, title := "Film (BBC)"
        broadcasts := [{ airing 2 (clock 9 0) (clock 11 0) with sourceId := some "bbc:film" }] } ]
  equivalences := [[⟨12⟩, ⟨30⟩]]

def morning (publisher : Publisher) (ids : List ChannelId) (context : QueryContext) :
    Except QueryFault Query :=
  match ids with
  | [id] => Query.single publisher id (clock 9 0) (.endsAt (clock 12 0)) context
  | ids => Query.multi publisher ids (clock 9 0) (.endsAt (clock 12 0)) context

/-- What `pa` has on both channels from nine to noon, with what `ebs` has laid over. -/
def overlaidMorning (context : QueryContext) : Query where
  scope := .multi [⟨1⟩, ⟨2⟩]
  publisher := pa
  overridePublisher := some ebs
  start := clock 9 0
  bound := .endsAt (clock 12 0)
  context
  scope_acceptable := ⟨by decide, by decide⟩
  window_acceptable := by decide

/-- The listings with another film of `bbc` in the place of its own, and with its news. -/
def otherListings : Fixture where
  channels := listings.channels
  items := listings.items ++
    [ { id := ⟨30⟩, publisher := bbc, title := "Another Film"
        broadcasts := [airing 2 (clock 10 0) (clock 11 0)] },
      { id := ⟨1⟩, publisher := bbc, title := "News"
        broadcasts := [airing 1 (clock 9 0) (clock 10 0)] } ]
  equivalences := listings.equivalences

/-- `pa` has an hour from eight with a follow-on, then two hours more; `ebs` has what is given. -/
def handover (start stop : Instant) : Fixture where
  channels := [Channel.named ⟨1⟩ "bbcone"]
  items :=
    [ { id := ⟨1⟩, publisher := pa, title := "Breakfast"
        broadcasts := [airing 1 (clock 8 0) (clock 9 0),
          airing 1 (clock 9 0) (clock 9 0)] },
      { id := ⟨2⟩, publisher := pa, title := "Film"
        broadcasts := [airing 1 (clock 9 0) (clock 11 0)] },
      { id := ⟨10⟩, publisher := ebs, title := "Live Football"
        broadcasts := [airing 1 start stop] } ]
  equivalences := []

/-- `pa` has what ends before it starts, and `ebs` a broadcast that starts between the two. -/
def backwards : Fixture where
  channels := [Channel.named ⟨1⟩ "bbcone"]
  items :=
    [ { id := ⟨1⟩, publisher := pa, title := "Backwards"
        broadcasts := [airing 1 (clock 10 0) (clock 9 30)] },
      { id := ⟨10⟩, publisher := ebs, title := "Live Football"
        broadcasts := [airing 1 (clock 9 45) (clock 11 0)] } ]
  equivalences := []

/-- The first channel from nine to noon, which is where the follow-on of the handover stands. -/
def fromHandover : Query :=
  { overlaidMorning ⟨⟨[pa, ebs], false⟩, false⟩ with
    scope := .single ⟨1⟩, scope_acceptable := ChannelScope.acceptable_single ⟨1⟩ }

/-- What `pa` has on the first channel from nine to noon. -/
def firstChannel (context : QueryContext) : Query :=
  { overlaidMorning context with
    scope := .single ⟨1⟩, overridePublisher := none
    scope_acceptable := ChannelScope.acceptable_single ⟨1⟩ }

/-- `pa` has a film, and an equivalent of it that it airs nowhere. -/
def cuts : Fixture where
  channels := [Channel.named ⟨1⟩ "bbcone"]
  items :=
    [ { id := ⟨1⟩, publisher := pa, title := "Film (cut)", broadcasts := [] },
      { id := ⟨2⟩, publisher := pa, title := "Film"
        broadcasts := [airing 1 (clock 9 0) (clock 10 0)] } ]
  equivalences := [[⟨1⟩, ⟨2⟩]]

/-- The tick of a full hour of the night to 2017, counted from eleven in the evening. -/
def nightTick (hour : Fin 4) : Int :=
  (Date.dayNumber ⟨2017, 1, 1⟩ * Instant.secondsPerDay + 3600 * ((hour.val : Int) - 1))
    * Instant.ticksPerSecond

theorem nightTick_representable : ∀ hour, Instant.Representable (nightTick hour) := by decide

def nightHour (hour : Fin 4) : Instant := ⟨nightTick hour, nightTick_representable hour⟩

/-- The leap second that ended 2016. -/
def leapSecond : Instant := ⟨nightTick 1 - Instant.nanosPerSecond, by decide⟩

/-- An hour that `pa` starts in the leap second, and `bbc` in the second after it. -/
def countdown : Fixture where
  channels := [Channel.named ⟨1⟩ "bbcone"]
  items :=
    [ { id := ⟨1⟩, publisher := pa, title := "Countdown"
        broadcasts := [airing 1 leapSecond (nightHour 2)] },
      { id := ⟨2⟩, publisher := bbc, title := "Countdown (BBC)"
        broadcasts := [airing 1 (nightHour 1) (nightHour 2)] } ]
  equivalences := [[⟨1⟩, ⟨2⟩]]

def countdownNight (context : QueryContext) : Query :=
  { firstChannel context with
    start := nightHour 0
    bound := .endsAt (nightHour 3)
    window_acceptable := by decide }

/-- `pa` has an hour up to midnight with its follow-on, and an hour from then on, which `bbc` starts
in the leap second. -/
def newYear : Fixture where
  channels := [Channel.named ⟨1⟩ "bbcone"]
  items :=
    [ { id := ⟨1⟩, publisher := pa, title := "Countdown"
        broadcasts := [airing 1 (nightHour 0) (nightHour 1),
          airing 1 (nightHour 1) (nightHour 1)] },
      { id := ⟨2⟩, publisher := pa, title := "Concert"
        broadcasts := [airing 1 (nightHour 1) (nightHour 2)] },
      { id := ⟨3⟩, publisher := bbc, title := "Concert (BBC)"
        broadcasts := [airing 1 leapSecond (nightHour 2)] } ]
  equivalences := [[⟨2⟩, ⟨3⟩]]

/-- The first broadcasts that `pa` has on the first channel from nine, with the first of `ebs` laid
over. -/
def firstBroadcasts (n : UInt64) (acceptable : (Window.count (clock 9 0) n).Acceptable)
    (context : QueryContext) : Query :=
  { overlaidMorning context with
    scope := .single ⟨1⟩, scope_acceptable := ChannelScope.acceptable_single ⟨1⟩
    start := clock 9 0, bound := .count n, window_acceptable := acceptable }

/-- The first broadcast that `bbc` has in the night to 2017 from midnight. -/
def firstOfYear (context : QueryContext) : Query :=
  { firstChannel context with
    publisher := bbc
    start := nightHour 1
    bound := .count 1
    window_acceptable := by decide }

/-- The listings with an item that ends before it starts, and an equivalence with nothing. -/
def faultyListings : Fixture where
  channels := listings.channels
  items := listings.items ++
    [ { id := ⟨40⟩, publisher := bbc, title := "Backwards"
        broadcasts := [airing 2 (clock 11 0) (clock 10 0)] } ]
  equivalences := [[⟨10⟩, ⟨99⟩]]

/-- Half a second into a leap second that is put after the first second from nine. -/
def insideMinute : Instant :=
  ⟨tick 9 0 + Instant.nanosPerSecond + Instant.nanosPerSecond / 2, by decide⟩

/-- From that leap second to shortly after its end, which no timestamp tells from a broadcast that
ends before it starts. -/
def flash : Fixture where
  channels := listings.channels
  items :=
    [ { id := ⟨50⟩, publisher := pa, title := "Newsflash"
        broadcasts :=
          [airing 1 insideMinute ⟨tick 9 0 + Instant.ticksPerSecond + 200000000, by decide⟩] } ]
  equivalences := []

/-- An hour of the morning, and one that starts in a leap second, of a publisher whose key is not
plain. -/
def twoSchedules : QueryResult := .list
  [ schedule [entry pa 1 (clock 9 0) (clock 10 0)],
    schedule [entry ⟨"\"\n\\"⟩ 2 leapSecond (nightHour 2)] ]

/-- A film of `pa`, breakfast after it, and the film again. -/
def filmAgain : Schedule where
  channelSchedules :=
    [ schedule [entry pa 2 (clock 7 0) (clock 9 0), entry pa 1 (clock 9 0) (clock 10 0),
        entry pa 2 (clock 10 0) (clock 12 0)] ]
  interval := ⟨clock 6 0, clock 12 0, by decide⟩

/-- The film of `bbc`, which it has on the other channel too, and on the first one once. -/
def bbcFilm : Item where
  id := ⟨30⟩
  publisher := bbc
  title := "Film (BBC)"
  broadcasts := [airing 2 (clock 9 0) (clock 11 0), airing 1 (clock 7 0) (clock 9 0)]

end ChannelGuide.Sample
