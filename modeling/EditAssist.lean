import EditAssist.Assist.Keys
import EditAssist.Document.Command
import EditAssist.Spin.Section
import EditAssist.Proofs.Document.Bounds
import EditAssist.Proofs.Document.Reversal
import EditAssist.Proofs.Document.Editor
import EditAssist.Proofs.Document.Snapshot
import EditAssist.Proofs.Document.Lines
import EditAssist.Proofs.Document.Positions
import EditAssist.Proofs.Document.Edited
import EditAssist.Proofs.Document.Yields
import EditAssist.Proofs.Document.Endings
import EditAssist.Proofs.Text.Order
import EditAssist.Proofs.Text.Trim
import EditAssist.Proofs.Spin.Bands
import EditAssist.Proofs.Layout.ShiftPlan
import EditAssist.Proofs.Layout.LineEdits
import EditAssist.Proofs.Assist.MenuRows
import EditAssist.Proofs.Assist.Accepting
import EditAssist.Proofs.Assist.Opening
import EditAssist.Proofs.Assist.Pressing
import EditAssist.Proofs.Assist.Session
import EditAssist.Proofs.Assist.Typing
import EditAssist.Proofs.Assist.HintList
import EditAssist.Proofs.Assist.Reacting
import EditAssist.Proofs.Assist.History
import EditAssist.Proofs.Assist.Consent
import EditAssist.Proofs.Assist.Cancelling
import EditAssist.Proofs.Document.OpenUndo
import EditAssist.Proofs.Assist.ChosenRow
import EditAssist.Proofs.Document.TwoRuns
import EditAssist.Proofs.Assist.LineSight
import EditAssist.Proofs.Assist.OverSelection
import EditAssist.Proofs.Layout.SignedEnds
import EditAssist.Proofs.Layout.ThereAndBack
import EditAssist.Proofs.Spin.ShownForm
import EditAssist.Proofs.Spin.WholeWords
import EditAssist.Proofs.Spin.SingleCut
import EditAssist.Proofs.Assist.GatheredNames
import EditAssist.Proofs.Spin.Declarators
import EditAssist.Proofs.Assist.ListedNames
import EditAssist.Proofs.Assist.RowWords
import EditAssist.Proofs.Assist.Tooltip
import EditAssist.Proofs.Assist.CallArguments
import EditAssist.Proofs.Assist.HintInPlace
import EditAssist.Proofs.Assist.ClosingBrace
import EditAssist.Proofs.Spin.BraceColumn
import EditAssist.Proofs.Document.AllOrNothing
import EditAssist.Proofs.Spin.Headers
import EditAssist.Proofs.Layout.Continuation
import EditAssist.Proofs.Assist.RepeatedEnter
import EditAssist.Proofs.Settings.Merging
import EditAssist.Proofs.Settings.Reading
import EditAssist.Proofs.Settings.TwoReaders
import EditAssist.Proofs.Assist.Sizes
import EditAssist.Proofs.Assist.Placement
import EditAssist.Proofs.Spin.WordSearch
import EditAssist.Proofs.Spin.HeaderWords
