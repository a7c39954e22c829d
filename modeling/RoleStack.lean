import RoleStack.Table
import RoleStack.Pool
import RoleStack.Json.Reader
import RoleStack.Json.Writer
import RoleStack.Toml.Reader
import RoleStack.Text.Blank
import RoleStack.Text.Word
import RoleStack.Identity
import RoleStack.Event
import RoleStack.Forwarding
import RoleStack.ClassName
import RoleStack.HandleClass.Removal
import RoleStack.HandleClass.Samples
import RoleStack.Registry
import RoleStack.Engine
import RoleStack.Notice
import RoleStack.Coordinator.Call
import RoleStack.Director
import RoleStack.Schema.Contract
import RoleStack.Schema.Event
import RoleStack.Config.Variables
import RoleStack.Session.Activity
import RoleStack.Description
import RoleStack.Report.State
import RoleStack.Outline.Session
import RoleStack.Proofs.Naming
import RoleStack.Proofs.Layers
import RoleStack.Proofs.Forwarders
import RoleStack.Proofs.Stacking
import RoleStack.Proofs.RegularClass
import RoleStack.Proofs.Removal
import RoleStack.Proofs.Planning
import RoleStack.Proofs.Transferring
import RoleStack.Proofs.Composing
import RoleStack.Proofs.SessionComposing
import RoleStack.Proofs.Refinement
import RoleStack.Proofs.Bindings
import RoleStack.Proofs.Answering
import RoleStack.Proofs.Restacking
import RoleStack.Proofs.Failures
import RoleStack.Proofs.NameCollisions
import RoleStack.Proofs.Tallies
import RoleStack.Proofs.MadeNames
import RoleStack.Proofs.Versions
import RoleStack.Proofs.Interleaving
import RoleStack.Proofs.Turns
import RoleStack.Proofs.TurnSteps
import RoleStack.Proofs.WriterTurns
import RoleStack.Proofs.Retirement
import RoleStack.Proofs.Deregistration
import RoleStack.Proofs.Entries
import RoleStack.Proofs.Alerts
import RoleStack.Proofs.Steps
import RoleStack.Proofs.Wakeups
import RoleStack.Proofs.Brackets
import RoleStack.Proofs.Ledger
import RoleStack.Proofs.Lending
import RoleStack.Proofs.Entanglement
import RoleStack.Proofs.Roots
import RoleStack.Proofs.LastingState
import RoleStack.Proofs.Undoing
import RoleStack.Proofs.EngineNumbers
import RoleStack.Proofs.Labels
import RoleStack.Proofs.Succession
import RoleStack.Proofs.Commuting
import RoleStack.Proofs.Lifecycle
import RoleStack.Proofs.Announcements
import RoleStack.Proofs.Identities
import RoleStack.Proofs.Unnaming
import RoleStack.Proofs.LoneWorker
import RoleStack.Proofs.Errands
import RoleStack.Proofs.Separation
import RoleStack.Proofs.NameReading
import RoleStack.Proofs.ChainNames
import RoleStack.Proofs.SingleUse
import RoleStack.Proofs.FallingBack
import RoleStack.Proofs.Declarations
import RoleStack.Proofs.ForwardedKeys
import RoleStack.Proofs.ExtendedState
import RoleStack.Proofs.Splitting
import RoleStack.Proofs.Journals
import RoleStack.Proofs.CallAnswers
import RoleStack.Proofs.SerialCalls
import RoleStack.Proofs.Holds
import RoleStack.Proofs.LatestVersions
import RoleStack.Proofs.ManipulationCounts
import RoleStack.Proofs.Registering
import RoleStack.Proofs.Delegation
import RoleStack.Proofs.Overrides
import RoleStack.Proofs.AgentText
import RoleStack.Proofs.SerializedForms
import RoleStack.Proofs.Deliveries
