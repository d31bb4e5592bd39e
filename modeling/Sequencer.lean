import Sequencer.CommandLine.Reply
import Sequencer.Device.Recorder
import Sequencer.Flag
import Sequencer.Main
import Sequencer.Proofs.Program.RoundTrip
import Sequencer.Proofs.Run.RelativeTime
import Sequencer.Proofs.Run.Stopping
import Sequencer.Proofs.Session.Bounds
import Sequencer.Proofs.Session.Isolation
import Sequencer.Proofs.Timeline.Account
import Sequencer.Proofs.Timeline.Order
import Sequencer.Proofs.Program.Irregularities
import Sequencer.Proofs.Program.Placement
import Sequencer.Proofs.Program.Sameness
import Sequencer.Proofs.Run.Sameness
import Sequencer.Proofs.Session.Sameness
import Sequencer.Proofs.Program.Validity
import Sequencer.Proofs.Session.Skipping
import Sequencer.Proofs.Session.Exhaustion
import Sequencer.Proofs.Session.Inlining
import Sequencer.Proofs.Session.Lifecycle
import Sequencer.Proofs.Run.FanOut
import Sequencer.Proofs.Session.Containment
import Sequencer.Proofs.Session.Effects
import Sequencer.Proofs.Session.Scaling
import Sequencer.Proofs.Run.Repetition
import Sequencer.Proofs.Session.Unused
import Sequencer.Proofs.Run.Naming
import Sequencer.Proofs.Run.Defaults
import Sequencer.Proofs.Run.Periodicity
import Sequencer.Proofs.Run.Scopes
import Sequencer.Proofs.Program.Fields
import Sequencer.Proofs.Program.Spacing
import Sequencer.Proofs.Run.Alarms
import Sequencer.Proofs.Session.Cuts
import Sequencer.Proofs.Timeline.Showing
import Sequencer.Proofs.Run.Annotations
import Sequencer.Proofs.Run.Numbers
