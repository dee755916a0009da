import TreeInspector.CommandLine.Program
import TreeInspector.Main
import TreeInspector.Once
import TreeInspector.Proofs.Session.Changes
import TreeInspector.Proofs.Session.Terms
import TreeInspector.Proofs.Tree.Preorder
import TreeInspector.RaisedValue
import TreeInspector.Scenario.Files
import TreeInspector.Scenario.Lone
import TreeInspector.Scenario.Stage
import TreeInspector.Proofs.Session.Lifecycle
import TreeInspector.Proofs.Session.Calls
import TreeInspector.Proofs.Session.Books
import TreeInspector.Proofs.Session.Ownership
import TreeInspector.Proofs.Session.Invariant
import TreeInspector.Proofs.Session.Stranding
import TreeInspector.Proofs.Scenario.Stage
import TreeInspector.Proofs.Desk.Gist
import TreeInspector.Proofs.Desk.Mirror
import TreeInspector.Proofs.Desk.Sync
import TreeInspector.Proofs.Desk.Operations
import TreeInspector.Proofs.Desk.Runs
import TreeInspector.Proofs.Number
import TreeInspector.Proofs.Tree.Nesting
import TreeInspector.Proofs.Tree.Pruning
import TreeInspector.Proofs.Tree.Mirror
import TreeInspector.Proofs.Session.Locate
import TreeInspector.Proofs.Document.Lexemes
import TreeInspector.Proofs.Document.Nesting
import TreeInspector.Proofs.Document.Faults
import TreeInspector.Proofs.Session.Record
import TreeInspector.Proofs.Session.Atomic
import TreeInspector.Proofs.Session.Deeds
import TreeInspector.Proofs.Session.ViewLife
import TreeInspector.Proofs.Session.ViewRuns
import TreeInspector.Proofs.Session.Revival
import TreeInspector.Proofs.Session.Passage
import TreeInspector.Proofs.Session.OneEach
import TreeInspector.Proofs.Session.Reentrancy
import TreeInspector.Proofs.Session.EarlyNotices
import TreeInspector.Proofs.Session.Confinement
import TreeInspector.Proofs.Desk.Separation
import TreeInspector.Proofs.Desk.Moves
import TreeInspector.Proofs.Desk.Ground
import TreeInspector.Proofs.Desk.Watchers
import TreeInspector.Proofs.Desk.Roll
import TreeInspector.Proofs.Desk.Closing
import TreeInspector.Proofs.Desk.Attendance
import TreeInspector.Proofs.Desk.Finality
import TreeInspector.Proofs.Desk.Focus
import TreeInspector.Proofs.CommandLine.Scene
import TreeInspector.Proofs.CommandLine.Commands
import TreeInspector.Proofs.CommandLine.Reports
import TreeInspector.Proofs.CommandLine.Start
import TreeInspector.Proofs.CommandLine.CleanExit
import TreeInspector.Proofs.Config.Entries
import TreeInspector.Proofs.Config.Written
import TreeInspector.Proofs.Config.Acceptance
import TreeInspector.Proofs.Text.Utf8
import TreeInspector.Proofs.Text.Positions
import TreeInspector.Proofs.Desk.Echo
import TreeInspector.Proofs.Desk.Carets
import TreeInspector.Proofs.Desk.InTouch
import TreeInspector.Proofs.Desk.Delivery
import TreeInspector.Proofs.Desk.Ventures
import TreeInspector.Proofs.Desk.Saving
import TreeInspector.Proofs.Desk.FileEvents
import TreeInspector.Proofs.Session.Pieces
import TreeInspector.Proofs.Session.Endings
import TreeInspector.Proofs.Session.Jumps
import TreeInspector.Proofs.Tree.Indentation
import TreeInspector.Proofs.Desk.Printing
import TreeInspector.Proofs.Config.Layering
import TreeInspector.Proofs.Desk.Provenance
import TreeInspector.Proofs.Desk.Jumps
import TreeInspector.Proofs.CommandLine.Containment
import TreeInspector.Proofs.CommandLine.ItemOrder
import TreeInspector.Proofs.Tree.Frames
import TreeInspector.Proofs.Text.OffsetOrder
