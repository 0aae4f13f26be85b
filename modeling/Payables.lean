import Payables.Json.Reader
import Payables.Json.Writer
import Payables.Session
import Payables.Table.Rows
import Payables.Text.Padded
import Payables.Proofs.Amount.Grouping
import Payables.Proofs.Amount.Signs
import Payables.Proofs.Calendar.FixedWidth
import Payables.Proofs.Calendar.Munch
import Payables.Proofs.Calendar.Shown
import Payables.Proofs.Classification.ColumnOrder
import Payables.Proofs.Classification.Columns
import Payables.Proofs.Classification.Keywords
import Payables.Proofs.Collection.Labelled
import Payables.Proofs.Json.Lossless
import Payables.Proofs.Matching.Greedy
import Payables.Proofs.Matching.Unmatched
import Payables.Proofs.Matching.Unused
import Payables.Proofs.Merge.Chain
import Payables.Proofs.Merge.Outcome
import Payables.Proofs.Reference.Listing
import Payables.Proofs.Reference.Spellings
import Payables.Proofs.Row.Lookup
import Payables.Proofs.Screening.Bookkeeping
import Payables.Proofs.Screening.Tally
import Payables.Proofs.Screening.Words
import Payables.Proofs.Session.Interruption
import Payables.Proofs.Session.Isolation
import Payables.Proofs.Session.Refusal
import Payables.Proofs.Session.Screening
import Payables.Proofs.Table.BlankRows
import Payables.Proofs.Table.Cells
import Payables.Proofs.Table.HeaderRow
import Payables.Proofs.Table.Pages
import Payables.Proofs.Table.Repeats
import Payables.Proofs.Table.Sources
