import HollowNode.Address
import HollowNode.Api.Cluster
import HollowNode.Api.ConfigMap
import HollowNode.Api.Definition
import HollowNode.Api.Deployment
import HollowNode.Api.KubeadmConfig
import HollowNode.Api.KubemarkMachine
import HollowNode.Api.Machine
import HollowNode.Api.Metadata
import HollowNode.Api.SigningRequest
import HollowNode.Backoff
import HollowNode.Base64
import HollowNode.Bootstrap.Identity
import HollowNode.Bootstrap.Limits
import HollowNode.Bootstrap.Observed
import HollowNode.Bootstrap.Store
import HollowNode.Bootstrap.System
import HollowNode.Calendar
import HollowNode.Certificate
import HollowNode.Controller
import HollowNode.Csr.Client
import HollowNode.Csr.Fault
import HollowNode.Csr.Request
import HollowNode.Decimal.Shortest
import HollowNode.Der
import HollowNode.Dict
import HollowNode.Failure
import HollowNode.Flag
import HollowNode.Json.Basic
import HollowNode.Json.Reader
import HollowNode.Json.Record
import HollowNode.Json.Token
import HollowNode.Json.Writer
import HollowNode.Key.Curve
import HollowNode.Key.Edwards
import HollowNode.Key.Modular
import HollowNode.Key.Pair
import HollowNode.Key.Private
import HollowNode.Key.Rsa
import HollowNode.Key.Sha512
import HollowNode.Kube.Client
import HollowNode.Kube.Fault
import HollowNode.Kube.Http
import HollowNode.Kube.Management
import HollowNode.Kube.Uri
import HollowNode.Kube.Workload
import HollowNode.Kubeconfig
import HollowNode.Main
import HollowNode.Metrics
import HollowNode.Moment
import HollowNode.Monitor
import HollowNode.Pass.Outcome
import HollowNode.Pass.Program
import HollowNode.Pass.Provision
import HollowNode.Pem
import HollowNode.Proofs.Api.RoundTrip
import HollowNode.Proofs.Backoff
import HollowNode.Proofs.Backoff.Calls
import HollowNode.Proofs.Base64
import HollowNode.Proofs.Bootstrap.After
import HollowNode.Proofs.Bootstrap.Alike
import HollowNode.Proofs.Bootstrap.Calls
import HollowNode.Proofs.Bootstrap.Durations
import HollowNode.Proofs.Bootstrap.Eviction
import HollowNode.Proofs.Bootstrap.History
import HollowNode.Proofs.Bootstrap.Identity
import HollowNode.Proofs.Bootstrap.Isolation
import HollowNode.Proofs.Bootstrap.Move
import HollowNode.Proofs.Bootstrap.NormalForm
import HollowNode.Proofs.Bootstrap.Order
import HollowNode.Proofs.Bootstrap.Polling
import HollowNode.Proofs.Bootstrap.Provenance
import HollowNode.Proofs.Bootstrap.Queueing
import HollowNode.Proofs.Bootstrap.Refusals
import HollowNode.Proofs.Bootstrap.Registry
import HollowNode.Proofs.Bootstrap.Resuming
import HollowNode.Proofs.Bootstrap.Seen
import HollowNode.Proofs.Bootstrap.SingleFlight
import HollowNode.Proofs.Bootstrap.Start
import HollowNode.Proofs.Bootstrap.Store
import HollowNode.Proofs.Bootstrap.Unregistering
import HollowNode.Proofs.Bootstrap.View
import HollowNode.Proofs.Cluster.Clusters
import HollowNode.Proofs.Cluster.Convergence
import HollowNode.Proofs.Cluster.Stages
import HollowNode.Proofs.Controller.Act
import HollowNode.Proofs.Controller.Bundles
import HollowNode.Proofs.Controller.Coherence
import HollowNode.Proofs.Controller.Counts
import HollowNode.Proofs.Controller.Delays
import HollowNode.Proofs.Controller.Endings
import HollowNode.Proofs.Controller.Flights
import HollowNode.Proofs.Controller.Leftovers
import HollowNode.Proofs.Controller.Log
import HollowNode.Proofs.Controller.Readiness
import HollowNode.Proofs.Controller.Resolution
import HollowNode.Proofs.Controller.Secrets
import HollowNode.Proofs.Controller.Sessions
import HollowNode.Proofs.Controller.Waiting
import HollowNode.Proofs.Csr.Status
import HollowNode.Proofs.Dict
import HollowNode.Proofs.Except
import HollowNode.Proofs.Flag.Agreement
import HollowNode.Proofs.Flag.Pairs
import HollowNode.Proofs.Flag.Segments
import HollowNode.Proofs.Flag.Taints
import HollowNode.Proofs.Kube.Creation
import HollowNode.Proofs.Kube.Reports
import HollowNode.Proofs.Kube.Requests
import HollowNode.Proofs.Kubeconfig
import HollowNode.Proofs.Kubeconfig.Selection
import HollowNode.Proofs.Metrics
import HollowNode.Proofs.Pass.Course
import HollowNode.Proofs.Pass.Exchange
import HollowNode.Proofs.Pass.Provision
import HollowNode.Proofs.Pass.Reading
import HollowNode.Proofs.Pass.Secrets
import HollowNode.Proofs.Pass.Writes
import HollowNode.Proofs.Run
import HollowNode.Proofs.Settings
import HollowNode.Proofs.Settings.Reading
import HollowNode.Proofs.Text.Utf8
import HollowNode.Proofs.Workload
import HollowNode.Settings
import HollowNode.Simulation.Agenda
import HollowNode.Simulation.Change
import HollowNode.Simulation.Run
import HollowNode.Simulation.Script
import HollowNode.Simulation.State
import HollowNode.Simulation.World
import HollowNode.Taint
import HollowNode.Text.Blank
import HollowNode.Text.Number
import HollowNode.Text.Pieces
import HollowNode.Text.Utf8
import HollowNode.Watch
import HollowNode.Workload
import HollowNode.Yaml.Cursor
import HollowNode.Yaml.Datum
import HollowNode.Yaml.Node
import HollowNode.Yaml.Record
import HollowNode.Yaml.Scalar
import HollowNode.Yaml.Text
import HollowNode.Yaml.Token
import HollowNode.Yaml.Writer
