import Ircthing.Hub.MemberWalk
import Ircthing.Irc.NamesBurst
import Ircthing.Irc.NoDowngrade
import Ircthing.Irc.Registration
import Ircthing.Api.Fetcher
import Ircthing.Api.Rotation
import Ircthing.Api.Registrations
import Ircthing.Store.Budget
import Ircthing.Irc.OutboundRuns
import Ircthing.Irc.Monitor
import Ircthing.Hub.Replay
import Ircthing.Hub.AutojoinAgreement
import Ircthing.Hub.Adoption
import Ircthing.Hub.Closing
import Ircthing.Store.StsRuns
import Ircthing.Store.StsRepair
import Ircthing.Hub.OutboundDelivery
import Ircthing.Hub.RenameMap
import Ircthing.Store.Search
import Ircthing.Store.Naming
import Ircthing.Hub.StoredRedaction
import Ircthing.Irc.ModeTable
import Ircthing.Irc.FloodLimiter
import Ircthing.Irc.SaslChunks
import Ircthing.Irc.LazyNames
import Ircthing.Hub.SendLines
import Ircthing.Hub.Eviction
import Ircthing.Irc.CapNotify
import Ircthing.Api.WireBudget
import Ircthing.Api.LoginBackoff
import Ircthing.Api.Preview
import Ircthing.Api.PushPrune
import Ircthing.Api.Thumbnail
import Ircthing.Hub.CloseBuffer
import Ircthing.Hub.Clamping
import Ircthing.Web.Formatting
import Ircthing.Web.Window
