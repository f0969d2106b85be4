import Collectives.Config
import Collectives.Demonstration.FourRanks
import Collectives.Demonstration.OneProcess
import Collectives.Demonstration.Program
import Collectives.Demonstration.Scene
import Collectives.Demonstration.ThreeRanks
import Collectives.Element.Combine
import Collectives.Element.Kind
import Collectives.Element.Word
import Collectives.Engine.Dispatch
import Collectives.Engine.Environment
import Collectives.Engine.Group
import Collectives.Engine.Handle
import Collectives.Engine.Operation
import Collectives.Engine.Options
import Collectives.Engine.Plan
import Collectives.Engine.Process
import Collectives.Error
import Collectives.Fault
import Collectives.Installation.Build
import Collectives.Installation.Discovery
import Collectives.Installation.FileTree
import Collectives.Installation.Flags
import Collectives.Journal
import Collectives.Journal.Filter
import Collectives.Main
import Collectives.Memory.Buffer
import Collectives.Memory.FlatLayout
import Collectives.Memory.Heap
import Collectives.Memory.Place
import Collectives.Memory.Transfer
import Collectives.Memory.View
import Collectives.Proofs.Checked
import Collectives.Rendezvous
import Collectives.Scenario.Answer
import Collectives.Scenario.Lane
import Collectives.Scenario.Network
import Collectives.Scenario.Perform
import Collectives.Scenario.Session
import Collectives.Scenario.Step
import Collectives.Scenario.Transcript
import Collectives.Substrate.Call
import Collectives.Substrate.Exchange
import Collectives.Substrate.Fabric
import Collectives.Substrate.Interface
import Collectives.Substrate.Script
import Collectives.Table
import Collectives.Text.Blank
import Collectives.Text.Bounds
import Collectives.Text.CharSet
import Collectives.Text.Letter
import Collectives.Text.Lines
import Collectives.Text.Pattern
import Collectives.Text.Pattern.Bracket
import Collectives.Text.Pattern.Cursor
import Collectives.Text.Pattern.Flaw
import Collectives.Text.Pattern.Growth
import Collectives.Text.Pattern.Leap
import Collectives.Text.Pattern.Meaning
import Collectives.Text.Pattern.Mode
import Collectives.Text.Pattern.Opening
import Collectives.Text.Pattern.Reader
import Collectives.Text.Pattern.Sharing
import Collectives.Text.Pattern.Symbol
import Collectives.Text.Pattern.Tree
import Collectives.Text.Pattern.Usable
import Collectives.Text.Pattern.Weight
import Collectives.Text.Quoted
import Collectives.Text.Shown
import Collectives.Text.Size
import Collectives.Text.Utf8
import Collectives.Proofs.Contribution
import Collectives.Proofs.Agreement
import Collectives.Proofs.Delivery
import Collectives.Proofs.Ledger
import Collectives.Proofs.Coherence
import Collectives.Proofs.Schedule
import Collectives.Proofs.Account
import Collectives.Proofs.Locality
import Collectives.Proofs.Interleaving
import Collectives.Proofs.EngineSteps
import Collectives.Proofs.Workers
import Collectives.Proofs.Lockstep
import Collectives.Proofs.Offsets
import Collectives.Proofs.Edits
import Collectives.Proofs.Regions
import Collectives.Proofs.Views
import Collectives.Proofs.Operands
import Collectives.Proofs.Footprint
import Collectives.Proofs.Retention
import Collectives.Proofs.HandleLife
import Collectives.Proofs.ByteReduction
import Collectives.Proofs.FlatRegions
import Collectives.Proofs.Exchanges
import Collectives.Proofs.ExchangePlans
import Collectives.Proofs.Assembly
import Collectives.Proofs.Dispersal
import Collectives.Proofs.SplitExchange
import Collectives.Proofs.ListExchange
import Collectives.Proofs.Gathers
import Collectives.Proofs.Scatters
import Collectives.Proofs.GatherRows
import Collectives.Proofs.Settling
import Collectives.Proofs.PlanEndings
import Collectives.Proofs.CallEndings
import Collectives.Proofs.Landings
import Collectives.Proofs.Allgathers
import Collectives.Proofs.AllgatherModes
import Collectives.Proofs.Holding
import Collectives.Proofs.Reconciling
import Collectives.Proofs.EnvironmentLife
import Collectives.Proofs.Installations
import Collectives.Proofs.Uncounted
import Collectives.Proofs.PlanReuse
import Collectives.Proofs.GroupNumbers
import Collectives.Proofs.StagedPlans
import Collectives.Proofs.StagedCalls
import Collectives.Proofs.Elements
import Collectives.Proofs.Contents
import Collectives.Proofs.Contiguity
import Collectives.Proofs.Packing
import Collectives.Proofs.Partition
import Collectives.Proofs.SplitTables
import Collectives.Proofs.Starts
import Collectives.Proofs.ViewEndings
import Collectives.Proofs.EqualShares
import Collectives.Proofs.SizedExchanges
import Collectives.Proofs.EvenExchanges
import Collectives.Proofs.Odometer
import Collectives.Proofs.RowMajor
