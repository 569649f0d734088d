import ShellfleetAgent.Proofs.AptFlight
import ShellfleetAgent.Proofs.AptList
import ShellfleetAgent.Proofs.AptOutcome
import ShellfleetAgent.Proofs.AptStart
import ShellfleetAgent.Proofs.Archives
import ShellfleetAgent.Proofs.Backup
import ShellfleetAgent.Proofs.ConfigResolution
import ShellfleetAgent.Proofs.ConfigStore
import ShellfleetAgent.Proofs.Credentials
import ShellfleetAgent.Proofs.Deadline
import ShellfleetAgent.Proofs.Delivery
import ShellfleetAgent.Proofs.DockerExec
import ShellfleetAgent.Proofs.DockerListings
import ShellfleetAgent.Proofs.DockerRun
import ShellfleetAgent.Proofs.Drift
import ShellfleetAgent.Proofs.Enrollment
import ShellfleetAgent.Proofs.ExecAllowlist
import ShellfleetAgent.Proofs.ExecReaders
import ShellfleetAgent.Proofs.Framing
import ShellfleetAgent.Proofs.HostKeys
import ShellfleetAgent.Proofs.JournalArgs
import ShellfleetAgent.Proofs.K8sApply
import ShellfleetAgent.Proofs.K8sLogStreams
import ShellfleetAgent.Proofs.K8sManifests
import ShellfleetAgent.Proofs.K8sRequests
import ShellfleetAgent.Proofs.LogChunks
import ShellfleetAgent.Proofs.MainLoop
import ShellfleetAgent.Proofs.Multipart
import ShellfleetAgent.Proofs.Nonces
import ShellfleetAgent.Proofs.ProbeRuns
import ShellfleetAgent.Proofs.ProbeSyncs
import ShellfleetAgent.Proofs.Prune
import ShellfleetAgent.Proofs.RelayCompletion
import ShellfleetAgent.Proofs.Reporters
import ShellfleetAgent.Proofs.RestoreDelivery
import ShellfleetAgent.Proofs.RootSession
import ShellfleetAgent.Proofs.Runtime
import ShellfleetAgent.Proofs.ServiceControl
import ShellfleetAgent.Proofs.SingleUse
import ShellfleetAgent.Proofs.Stats
import ShellfleetAgent.Proofs.StreamOrder
import ShellfleetAgent.Proofs.StreamOutput
import ShellfleetAgent.Proofs.Systemd
import ShellfleetAgent.Proofs.TerminalInput
import ShellfleetAgent.Proofs.Transport
import ShellfleetAgent.Proofs.Truncation
