import CertRotation.Backoff
import CertRotation.Crypto.Edwards
import CertRotation.Crypto.Modular
import CertRotation.Crypto.Rsa
import CertRotation.Crypto.Sha512
import CertRotation.Crypto.ShortCurve
import CertRotation.Disk.Basic
import CertRotation.Disk.Edit
import CertRotation.Disk.Fault
import CertRotation.Disk.Walk
import CertRotation.Logging.Directive
import CertRotation.Logging.Log
import CertRotation.Logging.Settings
import CertRotation.Number.BigEndian
import CertRotation.Number.Binary64
import CertRotation.Number.Scalar
import CertRotation.Path
import CertRotation.Pattern.Basic
import CertRotation.Pattern.CharClass
import CertRotation.Pattern.Parser
import CertRotation.Proofs.Backoff.Attempts
import CertRotation.Proofs.Backoff.Delays
import CertRotation.Proofs.Disk.Directory
import CertRotation.Proofs.Disk.Edit
import CertRotation.Proofs.Disk.FileTree
import CertRotation.Proofs.Disk.Links
import CertRotation.Proofs.Disk.Listing
import CertRotation.Proofs.Disk.Lookup
import CertRotation.Proofs.Disk.Names
import CertRotation.Proofs.Number.Exact
import CertRotation.Proofs.Path.Ancestors
import CertRotation.Proofs.Path.LastName
import CertRotation.Proofs.Path.Order
import CertRotation.Proofs.Path.Sorted
import CertRotation.Proofs.Rotation.Bookkeeping
import CertRotation.Proofs.Rotation.Budget
import CertRotation.Proofs.Rotation.Bundle
import CertRotation.Proofs.Rotation.CatchUp
import CertRotation.Proofs.Rotation.Failures
import CertRotation.Proofs.Rotation.Following
import CertRotation.Proofs.Rotation.NamedFiles
import CertRotation.Proofs.Rotation.Reloads
import CertRotation.Proofs.Rotation.Runs
import CertRotation.Proofs.Rotation.Serial
import CertRotation.Proofs.Rotation.Stages
import CertRotation.Proofs.Rotation.Starts
import CertRotation.Proofs.Testing.Polling
import CertRotation.Proofs.Text.Utf8
import CertRotation.Proofs.Tls.Assembly
import CertRotation.Proofs.Watch.Batches
import CertRotation.Proofs.Watch.Clock
import CertRotation.Proofs.Watch.Convergence
import CertRotation.Proofs.Watch.Coverage
import CertRotation.Proofs.Watch.Diversion
import CertRotation.Proofs.Watch.Eviction
import CertRotation.Proofs.Watch.Grants
import CertRotation.Proofs.Watch.Latency
import CertRotation.Proofs.Watch.Lifetime
import CertRotation.Proofs.Watch.Loading
import CertRotation.Proofs.Watch.Mark
import CertRotation.Proofs.Watch.MovedDirectory
import CertRotation.Proofs.Watch.NearestRoot
import CertRotation.Proofs.Watch.PlainTree
import CertRotation.Proofs.Watch.QuietGaps
import CertRotation.Proofs.Watch.Recreation
import CertRotation.Proofs.Watch.Relay
import CertRotation.Proofs.Watch.Restart
import CertRotation.Proofs.Watch.Scan
import CertRotation.Proofs.Watch.Separation
import CertRotation.Proofs.Watch.SharedKeys
import CertRotation.Proofs.Watch.Signals
import CertRotation.Proofs.Watch.Stance
import CertRotation.Proofs.Watch.Timers
import CertRotation.Proofs.Watch.Touch
import CertRotation.Proofs.Watch.Unmarking
import CertRotation.Proofs.Watch.WatchSet
import CertRotation.Retryable
import CertRotation.Rotation.Clock
import CertRotation.Rotation.Directory
import CertRotation.Rotation.Queue
import CertRotation.Rotation.Rotator
import CertRotation.Rotation.Settings
import CertRotation.Rotation.Status
import CertRotation.Settings.Decode
import CertRotation.Settings.Document
import CertRotation.Settings.Overrides
import CertRotation.Settings.Token
import CertRotation.Testing.Poll
import CertRotation.Testing.Recorder
import CertRotation.Testing.ScratchDir
import CertRotation.Text.Alphabetic
import CertRotation.Text.CaseFold
import CertRotation.Text.Literal
import CertRotation.Text.Quoted
import CertRotation.Text.Ranges
import CertRotation.Text.Unprintable
import CertRotation.Text.Utf8
import CertRotation.Time
import CertRotation.Tls.Base64
import CertRotation.Tls.Certificate
import CertRotation.Tls.Der
import CertRotation.Tls.Error
import CertRotation.Tls.Material
import CertRotation.Tls.Pem
import CertRotation.Tls.PrivateKey
import CertRotation.Watch.Bucket
import CertRotation.Watch.Callback
import CertRotation.Watch.Change
import CertRotation.Watch.Error
import CertRotation.Watch.Key
import CertRotation.Watch.Lane
import CertRotation.Watch.Loader
import CertRotation.Watch.Notification
import CertRotation.Watch.Notifier
import CertRotation.Watch.PathWatcher
import CertRotation.Watch.Store
