import TickMachine.World
import TickMachine.Proofs.Bracketing
import TickMachine.Proofs.Chronicle
import TickMachine.Proofs.Parking
import TickMachine.Proofs.Queue
import TickMachine.Proofs.Shutdown
import TickMachine.Proofs.Frame
import TickMachine.Proofs.Posting
import TickMachine.Proofs.Touch
import TickMachine.Proofs.Entrance
import TickMachine.Proofs.Onward
import TickMachine.Proofs.Deferral
import TickMachine.Proofs.Resumption
import TickMachine.Proofs.Silence
import TickMachine.Proofs.Arrivals
import TickMachine.Proofs.LastRequest
import TickMachine.Proofs.Ledger
import TickMachine.Proofs.Pending
import TickMachine.Proofs.Departure
import TickMachine.Proofs.Breakdown
import TickMachine.Proofs.Ownership
import TickMachine.Proofs.Census
import TickMachine.Proofs.Worlds
import TickMachine.Proofs.Bond
import TickMachine.Proofs.Abreast
import TickMachine.Proofs.Modes
import TickMachine.Proofs.Composed
import TickMachine.Proofs.ChainLimit
import TickMachine.Proofs.HistoryLimit
import TickMachine.Proofs.Foreign
import TickMachine.Proofs.Discarded
import TickMachine.Proofs.Stillness
import TickMachine.Proofs.Chain
import TickMachine.Proofs.Beats
import TickMachine.Proofs.Budget
import TickMachine.Proofs.Kinship
import TickMachine.Proofs.ShutdownKind
import TickMachine.Proofs.Resting
import TickMachine.Proofs.Delivery
import TickMachine.Proofs.Turns
import TickMachine.Proofs.Rejection
import TickMachine.Proofs.Renewal
import TickMachine.Proofs.Settings
import TickMachine.Proofs.Archive
import TickMachine.Proofs.Building
import TickMachine.Proofs.Enrolment
