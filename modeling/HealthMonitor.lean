import HealthMonitor.CommandLine.Directory
import HealthMonitor.Json.Reader
import HealthMonitor.Main
import HealthMonitor.Monitor.Routes
import HealthMonitor.Proofs.Scheduler.Barrier
import HealthMonitor.Proofs.Scheduler.Interference
import HealthMonitor.Proofs.Scheduler.Orphans
import HealthMonitor.Proofs.Scheduler.Shown
import HealthMonitor.Scheduler.Timeline
import HealthMonitor.Proofs.Scheduler.Deadline
import HealthMonitor.Proofs.Checks
import HealthMonitor.Proofs.Dependency.Valid
import HealthMonitor.Proofs.Scheduler.Validity
import HealthMonitor.Proofs.Monitor.Run
import HealthMonitor.Proofs.Monitor.Build
import HealthMonitor.Proofs.Monitor.ProbeKinds
import HealthMonitor.Proofs.Monitor.Precedence
import HealthMonitor.Proofs.Probe.Tags
import HealthMonitor.Proofs.Probe.Candid
import HealthMonitor.Proofs.Scheduler.Counted
import HealthMonitor.Proofs.Scheduler.Refusals
import HealthMonitor.Proofs.Monitor.Refusals
import HealthMonitor.Proofs.Monitor.FamilyRegistry
import HealthMonitor.Proofs.Monitor.Labels
import HealthMonitor.Proofs.Scheduler.Isolation
import HealthMonitor.Proofs.Health.Debounce
import HealthMonitor.Proofs.Redis.Framing
import HealthMonitor.Proofs.Address.Listed
import HealthMonitor.Proofs.Toml.Strings
import HealthMonitor.Proofs.Toml.Values
import HealthMonitor.Proofs.Toml.Lines
import HealthMonitor.Proofs.Toml.Documents
import HealthMonitor.Proofs.Config.Fields
import HealthMonitor.Proofs.Config.RoundTrip
import HealthMonitor.Proofs.Scheduler.Cancellation
import HealthMonitor.Proofs.Scheduler.Swap
import HealthMonitor.Proofs.Scheduler.Handover
import HealthMonitor.Proofs.Scheduler.Punctual
import HealthMonitor.Proofs.Probe.Contexts
import HealthMonitor.Proofs.Address.Parts
import HealthMonitor.Proofs.Metrics.Current
import HealthMonitor.Proofs.Scheduler.Panics
import HealthMonitor.Proofs.Redis.Session
import HealthMonitor.Proofs.Address.Variations
import HealthMonitor.Proofs.Address.Usable
import HealthMonitor.Proofs.Probe.Credentials
import HealthMonitor.Proofs.Monitor.Variables
import HealthMonitor.Proofs.Monitor.Enumeration
import HealthMonitor.Proofs.Monitor.Schema
import HealthMonitor.Proofs.Time.Spans
import HealthMonitor.Proofs.Redis.Frames
import HealthMonitor.Proofs.Scheduler.Targets
