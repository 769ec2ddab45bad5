import Sirikata.Network.SendStatus
import Sirikata.Network.Proofs.SendStatusProofs
import Sirikata.Network.Proofs.CloseProofs
import Sirikata.Network.Proofs.ProgressProofs
import Sirikata.Network.Proofs.DropProofs
import Sirikata.Network.Frame
import Sirikata.Network.Proofs.FrameProofs
import Sirikata.Network.IOServiceFactory
import Sirikata.Util.Singleton
import Sirikata.Task.Subscription
import Sirikata.Task.Proofs.SubscriptionProofs
