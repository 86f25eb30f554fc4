import OverlayWatch.Document
import OverlayWatch.Main
import OverlayWatch.OnDemand
import OverlayWatch.WorkerPool
import OverlayWatch.Proofs.Store.Filing
import OverlayWatch.Proofs.State.Coherence
import OverlayWatch.Proofs.State.History
import OverlayWatch.Proofs.State.Replica
import OverlayWatch.Proofs.State.Reports
import OverlayWatch.Proofs.State.Classification
import OverlayWatch.Proofs.State.Mirror
import OverlayWatch.Proofs.State.Inference
import OverlayWatch.Proofs.State.Knowledge
import OverlayWatch.Proofs.State.Noninterference
import OverlayWatch.Proofs.Delivery.Slots
import OverlayWatch.Proofs.Delivery.Tasks
import OverlayWatch.Proofs.Delivery.Keeping
import OverlayWatch.Proofs.Delivery.Serving
import OverlayWatch.Proofs.Delivery.Moments
import OverlayWatch.Proofs.Delivery.Operations
import OverlayWatch.Proofs.Delivery.Exactness
import OverlayWatch.Proofs.Delivery.Hearing
import OverlayWatch.Proofs.Delivery.Trail
import OverlayWatch.Proofs.Delivery.Departure
import OverlayWatch.Proofs.Delivery.Refusals
import OverlayWatch.Proofs.Service.Activity
import OverlayWatch.Proofs.Service.Jobs
import OverlayWatch.Proofs.Service.Sessions
import OverlayWatch.Proofs.Service.Guests
import OverlayWatch.Proofs.Service.Stream
import OverlayWatch.Proofs.Service.Failures
import OverlayWatch.Proofs.Service.Ingestion
import OverlayWatch.Proofs.Service.Counters
import OverlayWatch.Proofs.Service.Replay
import OverlayWatch.Proofs.Service.Reception
import OverlayWatch.Proofs.Service.Noninterference
import OverlayWatch.Proofs.ReplayCommand
import OverlayWatch.Proofs.Json.Rendering
import OverlayWatch.Proofs.Json.Agreement
import OverlayWatch.Proofs.Json.Counterparts
import OverlayWatch.Proofs.Node
import OverlayWatch.Proofs.Trace.Encoding
import OverlayWatch.Proofs.State.Batching
import OverlayWatch.Proofs.State.Differences
import OverlayWatch.Proofs.State.Pairing
import OverlayWatch.Proofs.Service.Pairing
import OverlayWatch.Proofs.Config
