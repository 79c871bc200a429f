import SmartCard.Act
import SmartCard.ArrayRef
import SmartCard.BigEndian
import SmartCard.Card
import SmartCard.Cbor.Head
import SmartCard.Cbor.Reader
import SmartCard.Cbor.Writer
import SmartCard.Cell
import SmartCard.Config
import SmartCard.Config.Document
import SmartCard.Digest
import SmartCard.Element
import SmartCard.Event
import SmartCard.Fault
import SmartCard.Image
import SmartCard.Image.Codec
import SmartCard.Image.PowerUp
import SmartCard.Integrity
import SmartCard.Kind
import SmartCard.Lifetime
import SmartCard.Memory
import SmartCard.Memory.Elements
import SmartCard.Memory.Lanes
import SmartCard.Packing
import SmartCard.Proofs.Alike
import SmartCard.Proofs.Brackets
import SmartCard.Proofs.Cbor.Extent
import SmartCard.Proofs.Cbor.RoundTrip
import SmartCard.Proofs.Checks
import SmartCard.Proofs.Config.Foreign
import SmartCard.Proofs.Config.Grammar
import SmartCard.Proofs.Config.Overlay
import SmartCard.Proofs.Config.Reading
import SmartCard.Proofs.Config.Values
import SmartCard.Proofs.Elements
import SmartCard.Proofs.Events
import SmartCard.Proofs.Exec
import SmartCard.Proofs.Image.Adoption
import SmartCard.Proofs.Image.Capture
import SmartCard.Proofs.Image.Extent
import SmartCard.Proofs.Image.PowerUp
import SmartCard.Proofs.Image.RoundTrip
import SmartCard.Proofs.Image.Size
import SmartCard.Proofs.Image.Transients
import SmartCard.Proofs.Image.WellFormed
import SmartCard.Proofs.Memory.Accounts
import SmartCard.Proofs.Memory.Alongside
import SmartCard.Proofs.Memory.Arrays
import SmartCard.Proofs.Memory.Atomicity
import SmartCard.Proofs.Memory.Budget
import SmartCard.Proofs.Memory.Capacity
import SmartCard.Proofs.Memory.Frame
import SmartCard.Proofs.Memory.InRange
import SmartCard.Proofs.Memory.Landing
import SmartCard.Proofs.Memory.Logging
import SmartCard.Proofs.Memory.Operations
import SmartCard.Proofs.Memory.Payloads
import SmartCard.Proofs.Memory.Seals
import SmartCard.Proofs.Memory.Sound
import SmartCard.Proofs.Memory.Tearing
import SmartCard.Proofs.Memory.Transients
import SmartCard.Proofs.Memory.Undo
import SmartCard.Proofs.Memory.Undoable
import SmartCard.Proofs.Memory.Untorn
import SmartCard.Proofs.Memory.Whole
import SmartCard.Proofs.Memory.Writes
import SmartCard.Proofs.Oblivious
import SmartCard.Proofs.Range.Transfers
import SmartCard.Proofs.Readings
import SmartCard.Proofs.Session.Allocation
import SmartCard.Proofs.Session.Atomicity
import SmartCard.Proofs.Session.Blocking
import SmartCard.Proofs.Session.Bounds
import SmartCard.Proofs.Session.Capacity
import SmartCard.Proofs.Session.Committed
import SmartCard.Proofs.Session.Comparing
import SmartCard.Proofs.Session.Counters
import SmartCard.Proofs.Session.DamagedImages
import SmartCard.Proofs.Session.Delivery
import SmartCard.Proofs.Session.Effects
import SmartCard.Proofs.Session.EventStream
import SmartCard.Proofs.Session.Filling
import SmartCard.Proofs.Session.Finding
import SmartCard.Proofs.Session.Histories
import SmartCard.Proofs.Session.Integrity
import SmartCard.Proofs.Session.Issued
import SmartCard.Proofs.Session.Lanes
import SmartCard.Proofs.Session.Lifecycles
import SmartCard.Proofs.Session.Limits
import SmartCard.Proofs.Session.Metrics
import SmartCard.Proofs.Session.Observation
import SmartCard.Proofs.Session.OneCard
import SmartCard.Proofs.Session.Orderly
import SmartCard.Proofs.Session.OwnImage
import SmartCard.Proofs.Session.PackedValues
import SmartCard.Proofs.Session.Pools
import SmartCard.Proofs.Session.Primitives
import SmartCard.Proofs.Session.Ranges
import SmartCard.Proofs.Session.Reachable
import SmartCard.Proofs.Session.Recovery
import SmartCard.Proofs.Session.References
import SmartCard.Proofs.Session.Refusals
import SmartCard.Proofs.Session.Rejections
import SmartCard.Proofs.Session.Relays
import SmartCard.Proofs.Session.Repacking
import SmartCard.Proofs.Session.Reports
import SmartCard.Proofs.Session.Requests
import SmartCard.Proofs.Session.Restorable
import SmartCard.Proofs.Session.Restored
import SmartCard.Proofs.Session.Rollback
import SmartCard.Proofs.Session.Runs
import SmartCard.Proofs.Session.Scopes
import SmartCard.Proofs.Session.SingleWrites
import SmartCard.Proofs.Session.SpentTries
import SmartCard.Proofs.Session.StoredValues
import SmartCard.Proofs.Session.TearBudget
import SmartCard.Proofs.Session.Tearing
import SmartCard.Proofs.Session.Transients
import SmartCard.Proofs.Session.Tries
import SmartCard.Proofs.Session.Untorn
import SmartCard.Proofs.Session.Validation
import SmartCard.Proofs.Session.Variants
import SmartCard.Proofs.Store.Allocation
import SmartCard.Proofs.Store.Cells
import SmartCard.Proofs.Store.Sound
import SmartCard.Proofs.Store.Updates
import SmartCard.Proofs.Template.Counter
import SmartCard.Proofs.Template.Lifecycle
import SmartCard.Proofs.Template.Matching
import SmartCard.Proofs.Totals
import SmartCard.Range.Operand
import SmartCard.Range.Search
import SmartCard.Range.Transfer
import SmartCard.Session
import SmartCard.Store
import SmartCard.Store.Pool
import SmartCard.Store.Table
import SmartCard.Telemetry
import SmartCard.Template
import SmartCard.Template.Matcher
import SmartCard.Template.TryCounter
import SmartCard.Transaction
import SmartCard.Transaction.UndoLog
