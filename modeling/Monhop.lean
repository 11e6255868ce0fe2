import Monhop.Core.CaptureRingSafety
import Monhop.Core.CaptureView
import Monhop.Core.Chord
import Monhop.Core.ControlSafety
import Monhop.Core.DisplaySettle
import Monhop.Core.GestureLatch
import Monhop.Core.KeyboardHandover
import Monhop.Core.OwnershipSafety
import Monhop.Core.Seams
import Monhop.Core.TakeBackSafety
import Monhop.Desktop.ClipboardWatch
import Monhop.Desktop.Images
import Monhop.Desktop.LineEnds
import Monhop.Protocol.GateSafety
import Monhop.Protocol.RateLimit
import Monhop.Setup.Convergence
import Monhop.Setup.Pairing
import Monhop.Setup.PeersSafety
import Monhop.Transport.CaptureAgreement
import Monhop.Transport.ClipboardRate
import Monhop.Transport.HealthSafety
import Monhop.Transport.Outbox
import Monhop.Transport.PairingCode
import Monhop.Transport.ReceiverSafety
import Monhop.Transport.ReceiverSetSafety
import Monhop.Transport.SourceOrder
import Monhop.Transport.TokenBucket
import Monhop.Windows.Motion
