import ChannelGuide.Catalogue.Sample
import ChannelGuide.Main
import ChannelGuide.Proofs.Schedule.Showing
import ChannelGuide.Proofs.Schedule.WellFormed
import ChannelGuide.Proofs.Schedule.Trimmed
import ChannelGuide.Proofs.Overlay.Placement
import ChannelGuide.Proofs.Overlay.Interleaving
import ChannelGuide.Proofs.Overlay.Airings
import ChannelGuide.Proofs.Overlay.Untouched
import ChannelGuide.Proofs.Overlay.Showing
import ChannelGuide.Proofs.Overlay.WellFormed
import ChannelGuide.Proofs.Overlay.FollowOns
import ChannelGuide.Proofs.Overlay.Order
import ChannelGuide.Proofs.Overlay.Idempotence
import ChannelGuide.Proofs.Overlay.Retold
import ChannelGuide.Proofs.Register
import ChannelGuide.Proofs.First
import ChannelGuide.Proofs.Query
import ChannelGuide.Proofs.Equivalence.Preference
import ChannelGuide.Proofs.Equivalence.Winner
import ChannelGuide.Proofs.Equivalence.SlotBySlot
import ChannelGuide.Proofs.Equivalence.InTurn
import ChannelGuide.Proofs.Catalogue.Airings
import ChannelGuide.Proofs.Catalogue.Readable
import ChannelGuide.Proofs.Catalogue.Equivalents
import ChannelGuide.Proofs.Answer.Run
import ChannelGuide.Proofs.Answer.Steps
import ChannelGuide.Proofs.Answer.Unmerged
import ChannelGuide.Proofs.Answer.Order
import ChannelGuide.Proofs.Answer.Readable
import ChannelGuide.Proofs.Answer.Coverage
import ChannelGuide.Proofs.Answer.AtOnce
import ChannelGuide.Proofs.Answer.Channelwise
import ChannelGuide.Proofs.Answer.Merged
import ChannelGuide.Proofs.Answer.Representatives
import ChannelGuide.Proofs.Matching
import ChannelGuide.Proofs.Matching.Tolerance
import ChannelGuide.Proofs.Overlay.Timeline
import ChannelGuide.Proofs.Answer.Timeline
import ChannelGuide.Proofs.Answer.Route
import ChannelGuide.Proofs.Answer.Pairing
import ChannelGuide.Proofs.Answer.Unrequested
import ChannelGuide.Proofs.Answer.Reordered
import ChannelGuide.Proofs.Answer.Clock
import ChannelGuide.Proofs.Answer.Refusals
import ChannelGuide.Proofs.Answer.Counted
import ChannelGuide.Proofs.Form.ReadBack
import ChannelGuide.Proofs.Form.Fixture
import ChannelGuide.Proofs.Schedule.AiringOrder
import ChannelGuide.Proofs.Catalogue.Lookups
import ChannelGuide.Proofs.Schedule.Limited
import ChannelGuide.Proofs.Answer.SilentOverride
import ChannelGuide.Proofs.Answer.PerSlot
import ChannelGuide.Proofs.Answer.Repeated
