import LiveTable.CommandLine.Report
import LiveTable.Database.Archive
import LiveTable.Main
import LiveTable.Proofs.Additions
import LiveTable.Proofs.Coherence
import LiveTable.Proofs.Conservation
import LiveTable.Proofs.Declarations
import LiveTable.Proofs.Decoding
import LiveTable.Proofs.Delivery
import LiveTable.Proofs.Directions
import LiveTable.Proofs.Disposal
import LiveTable.Proofs.Events
import LiveTable.Proofs.IndexNames
import LiveTable.Proofs.InsertionOrder
import LiveTable.Proofs.Introspection
import LiveTable.Proofs.Opening
import LiveTable.Proofs.Overwriting
import LiveTable.Proofs.Pairs
import LiveTable.Proofs.Promptness
import LiveTable.Proofs.ResultColumns
import LiveTable.Proofs.RowLines
import LiveTable.Proofs.Snapshot
import LiveTable.Proofs.Spared
import LiveTable.Proofs.Spelling
import LiveTable.Proofs.Stamps
import LiveTable.Proofs.Twins
import LiveTable.Proofs.Updates
import LiveTable.Proofs.Validation
import LiveTable.Session.Run
