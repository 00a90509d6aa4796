import Codina.Ril.SwitchLatest
import Codina.Ril.SwitchData
import Codina.Ril.SwitchTruth
import Codina.Ril.SimStatus
import Codina.Ril.SmsFix
import Codina.Ril.NetworkTypeReply
import Codina.Ril.DataCall
import Codina.Modem.CalSync
import Codina.Linker.Prelink
import Codina.Patches.Precedence
import Codina.Patches.UpdateRepos
import Codina.Patches.ManifestOrder
import Codina.Patches.ProjectsViews
import Codina.Gps.RoundTrip
import Codina.Gps.Shim
import Codina.Media.BufferBounds
import Codina.Media.FullConversion
import Codina.Media.TrackStop
import Codina.Media.Recorder
import Codina.Gui.BufferRelease
import Codina.Gui.StillTracking
import Codina.Gui.FramebufferWindow
import Codina.Boot.UserInit
import Codina.Recovery.Graphics
import Codina.Recovery.TwrpGraphics
import Codina.Recovery.Painting
import Codina.Recovery.FontFile
import Codina.Recovery.TextLayout
import Codina.Utils.VectorGrowth
import Codina.Utils.SortedRuns
import Codina.Utils.BufferThreads
import Codina.Libc.Strstr
