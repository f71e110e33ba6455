import DurableFlow.ErrorKind
import DurableFlow.Inbox
import DurableFlow.Samples.Bench
import DurableFlow.Samples.Rig
import DurableFlow.Samples.Tasks
import DurableFlow.Timers
import DurableFlow.Wire.Event
import DurableFlow.Worker
import DurableFlow.Proofs.Caching
import DurableFlow.Proofs.Lawful
import DurableFlow.Proofs.ExactlyOnce
import DurableFlow.Proofs.Serializability
import DurableFlow.Proofs.Alarms
import DurableFlow.Proofs.Announcements
import DurableFlow.Proofs.Readiness
import DurableFlow.Proofs.Retries
import DurableFlow.Proofs.ArrivalOrder
import DurableFlow.Proofs.Acknowledgements
import DurableFlow.Proofs.Dependability
import DurableFlow.Proofs.Partings
import DurableFlow.Proofs.Redelivery
import DurableFlow.Proofs.Endings
import DurableFlow.Proofs.Lifetimes
import DurableFlow.Proofs.Openings
import DurableFlow.Proofs.Resumptions
import DurableFlow.Proofs.Contention
import DurableFlow.Proofs.RoundTrips
import DurableFlow.Proofs.SingleFlight
import DurableFlow.Proofs.Takings
import DurableFlow.Proofs.Restorations
import DurableFlow.Proofs.Rounds
import DurableFlow.Proofs.Trials
import DurableFlow.Proofs.Maintenance
import DurableFlow.Proofs.Punctuality
import DurableFlow.Proofs.Strandings
import DurableFlow.Proofs.Dismissals
import DurableFlow.Proofs.FiberStates
import DurableFlow.Proofs.Resizing
