import Depot.Text.Character
import Depot.Text.Split
import Depot.Decimal.Binary64
import Depot.Decimal.Extended
import Depot.Decimal.Shortest
import Depot.Decimal.Notation
import Depot.Decimal.Column
import Depot.Decimal.Reader
import Depot.Calendar.Date
import Depot.Calendar.Instant
import Depot.Calendar.Pattern
import Depot.Json.Numeral
import Depot.Json.Basic
import Depot.Json.Printer
import Depot.Json.Reader
import Depot.Stock.Words
import Depot.Stock.Record
import Depot.Stock.Row
import Depot.Stock.Rejection
import Depot.Wire.Basic
import Depot.Wire.Record
import Depot.Wire.Stock
import Depot.Wire.Request
import Depot.Keyed
import Depot.Cache.Ask
import Depot.Cache.Basic
import Depot.View.Selection
import Depot.View.Sorting
import Depot.View.Grouping
import Depot.Edit.Notice
import Depot.Edit.Basic
import Depot.Edit.Mutation
import Depot.Edit.Call
import Depot.Screen.Basic
import Depot.Screen.Shipment
import Depot.Rehearsal.Source
import Depot.Rehearsal.Basic
import Depot.Edit.Broadcast
import Depot.Program.Tools
import Depot.Program.Console
import Depot.Program.Values
import Depot.Database.Cell
import Depot.Database.Rows
import Depot.Database.Basic
import Depot.Database.Shipments
import Depot.Database.Lines
import Depot.Database.Requisitions
import Depot.Service.Basic
import Depot.Text.Percent
import Depot.Http.Message
import Depot.Http.Router
import Depot.Files.Basic
import Depot.Database.Options
import Depot.Database.Target
import Depot.Database.Opening
import Depot.Toml.Reader
import Depot.Settings.Basic
import Depot.Settings.Address
import Depot.Http.Client
import Depot.Program.Arguments
import Depot.Program.Server
import Depot.Main
import Depot.Proofs.Cache.Entries
import Depot.Proofs.Cache.Traffic
import Depot.Proofs.Cache.Stamps
import Depot.Proofs.Cache.Holding
import Depot.Proofs.Cache.Staleness
import Depot.Proofs.Cache.Removal
import Depot.Proofs.Cache.Alone
import Depot.Proofs.Edit.Shift
import Depot.Proofs.Edit.Convergence
import Depot.Proofs.Edit.Course
import Depot.Proofs.Edit.Rollback
import Depot.Proofs.Screen.Guess
import Depot.Proofs.Screen.Agreement
import Depot.Proofs.Service.Late
import Depot.Proofs.Database.Doubles
import Depot.Proofs.Database.Orderly
import Depot.Proofs.Database.AllOrNothing
import Depot.Proofs.Service.Readable
import Depot.Proofs.Service.Turns
import Depot.Proofs.Wire.RoundTrip
import Depot.Proofs.Http.Transparent
import Depot.Proofs.Service.Verdicts
import Depot.Proofs.Service.Deletions
import Depot.Proofs.Service.Recounts
import Depot.Proofs.Database.Survival
import Depot.Proofs.Screen.Counts
import Depot.Proofs.Screen.Order
import Depot.Proofs.Screen.Ticks
import Depot.Proofs.Screen.Walk
import Depot.Proofs.View.Partition
import Depot.Proofs.Edit.Lifecycle
import Depot.Proofs.Cache.Coherence
import Depot.Proofs.Cache.Events
import Depot.Proofs.Edit.Launch
import Depot.Proofs.View.Sorting
import Depot.Proofs.Database.Folders
import Depot.Proofs.Edit.Pending
import Depot.Proofs.View.Touches
