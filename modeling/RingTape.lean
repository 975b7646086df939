import RingTape.Calendar
import RingTape.Command.Options
import RingTape.Command.Program
import RingTape.Console
import RingTape.Fault
import RingTape.FileTree
import RingTape.Image
import RingTape.Log.Narration
import RingTape.Log.Record
import RingTape.Machine.Event
import RingTape.Machine.Run
import RingTape.Machine.Settings
import RingTape.Machine.State
import RingTape.Machine.Step
import RingTape.Main
import RingTape.Memory
import RingTape.Memory.Bracket
import RingTape.Network.Dial
import RingTape.Network.Endpoint
import RingTape.Network.Peers
import RingTape.Network.Transport
import RingTape.Opcode
import RingTape.Profile
import RingTape.Profile.Table
import RingTape.Proofs.Accounting
import RingTape.Proofs.ArgumentGroups
import RingTape.Proofs.ArgumentLists
import RingTape.Proofs.Bookkeeping
import RingTape.Proofs.BoundedRun
import RingTape.Proofs.BracketCensus
import RingTape.Proofs.BracketNesting
import RingTape.Proofs.BracketPairing
import RingTape.Proofs.BracketSearch
import RingTape.Proofs.CommandOutcome
import RingTape.Proofs.Conduct
import RingTape.Proofs.Conservation
import RingTape.Proofs.DayNumbers
import RingTape.Proofs.Departures
import RingTape.Proofs.DialOrder
import RingTape.Proofs.EndpointTexts
import RingTape.Proofs.FailedStep
import RingTape.Proofs.FaithfulTable
import RingTape.Proofs.Frame
import RingTape.Proofs.HighBits
import RingTape.Proofs.ImageLayout
import RingTape.Proofs.LoopEnds
import RingTape.Proofs.LosslessListing
import RingTape.Proofs.NormalForm
import RingTape.Proofs.Numerals
import RingTape.Proofs.PortLiterals
import RingTape.Proofs.RepeatedReadings
import RingTape.Proofs.RestingCells
import RingTape.Proofs.Rotation
import RingTape.Proofs.Routing
import RingTape.Proofs.RunCleanup
import RingTape.Proofs.SeparatedTexts
import RingTape.Proofs.StepLimit
import RingTape.Proofs.StepOutcome
import RingTape.Proofs.StraightLine
import RingTape.Proofs.ThousandsGroups
import RingTape.Proofs.TokenCells
import RingTape.Proofs.Transparency
import RingTape.Proofs.TransportLists
import RingTape.Proofs.ZeroSupply
import RingTape.Rounding
import RingTape.Source
import RingTape.Stream.Reader
import RingTape.Stream.Sink
import RingTape.Text.Basic
import RingTape.Text.Number
import RingTape.Text.Quoted
