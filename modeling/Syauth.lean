import Syauth.Android.ApproveViewModel
import Syauth.Android.BondSave
import Syauth.Android.ChallengeApprovalActivity
import Syauth.Android.ChallengeHistory
import Syauth.Android.Companion
import Syauth.Android.NewestChallenge
import Syauth.Android.Pair.BondKeyDeriver
import Syauth.Android.Pair.Decision
import Syauth.Android.Pair.Delivery
import Syauth.Android.PersistentGattClient
import Syauth.Cli.DaemonProbe
import Syauth.Cli.LastLog
import Syauth.Cli.OobAnswer
import Syauth.Cli.PairedKey
import Syauth.Cli.PamStack
import Syauth.Cli.SharedBonds
import Syauth.Cli.UninstallPam
import Syauth.Cli.WaybarClicks
import Syauth.Core.BondFile
import Syauth.Core.ReplayCache
import Syauth.Mobile.InviteUri
import Syauth.Pairing.Agreement
import Syauth.Presenced.AuditTrail
import Syauth.Presenced.ColdStart
import Syauth.Presenced.Hosted
import Syauth.Presenced.LateResponse
import Syauth.Presenced.NonceHistory
import Syauth.Presenced.RevocationEffect
import Syauth.Presenced.Rotation
import Syauth.Presenced.SocketFile
import Syauth.Scripts.UpdateCheck
import Syauth.Transport.Isolation
import Syauth.Transport.NotificationChannel
import Syauth.Transport.Reassembly
import Syauth.Unlocking.Granted
