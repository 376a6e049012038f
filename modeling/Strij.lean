import Strij.Config.NumericFields
import Strij.Gateway.ConnectAttempts
import Strij.Gateway.Custody
import Strij.Gateway.Eligibility
import Strij.Gateway.Executors
import Strij.Gateway.HttpResultReceiver
import Strij.Gateway.LoadReports
import Strij.Gateway.Membership
import Strij.Gateway.NodeConnectionResultReceiver
import Strij.Gateway.ReceiverResolution
import Strij.Gateway.RenamedNodes
import Strij.Gateway.RequirementsResolver
import Strij.Gateway.RoundRobin
import Strij.Io.HttpParser
import Strij.Io.Link
import Strij.Io.TlvRun
import Strij.Io.Transmission
import Strij.Io.WriteQueue
import Strij.Logging.LogFrontend
import Strij.Logging.LogPipeline
import Strij.NodeAgent.AdmissionRun
import Strij.NodeAgent.ArrivalOrder
import Strij.NodeAgent.ChildOutput
import Strij.NodeAgent.DefaultLocalScheduler
import Strij.NodeAgent.GatewayClient
import Strij.NodeAgent.HeldReservations
import Strij.NodeAgent.LiveLinks
import Strij.NodeAgent.ProbeQueue
import Strij.NodeAgent.Satisfiability
import Strij.NodeAgent.WakeUps
import Strij.OpenWorkflow.Cancellation
import Strij.OpenWorkflow.ConnectionRuns
import Strij.OpenWorkflow.DirectRuns
import Strij.OpenWorkflow.Executions
import Strij.OpenWorkflow.ForkJoin
import Strij.OpenWorkflow.Identity
import Strij.OpenWorkflow.LiteralCalls
import Strij.OpenWorkflow.LocalCalls
import Strij.OpenWorkflow.TaskHandler
import Strij.OpenWorkflow.Termination
import Strij.OpenWorkflow.Parser.TaskKeys
import Strij.OpenWorkflow.Yaml
import Strij.Probe.Guarantees
