import SqlCompose.Bytewise
import SqlCompose.History
import SqlCompose.History.Branches
import SqlCompose.History.Condition
import SqlCompose.History.Closed
import SqlCompose.History.Emission
import SqlCompose.History.Misuse
import SqlCompose.History.Change
import SqlCompose.History.Parsed
import SqlCompose.History.Tree
import SqlCompose.Keywords
import SqlCompose.Normalizer
import SqlCompose.Octets
import SqlCompose.Proofs.Agreement
import SqlCompose.Proofs.Alignment
import SqlCompose.Proofs.Balance
import SqlCompose.Proofs.Branches
import SqlCompose.Proofs.ByteReaders
import SqlCompose.Proofs.ByteTokens
import SqlCompose.Proofs.Bytes
import SqlCompose.Proofs.Calendar
import SqlCompose.Proofs.Chaining
import SqlCompose.Proofs.ChangeHistory
import SqlCompose.Proofs.ChangeLayout
import SqlCompose.Proofs.ChunkRereading
import SqlCompose.Proofs.ClosedCalls
import SqlCompose.Proofs.ClosedTrees
import SqlCompose.Proofs.CombinedHistory
import SqlCompose.Proofs.Composing
import SqlCompose.Proofs.Continuing
import SqlCompose.Proofs.Coverage
import SqlCompose.Proofs.Emission
import SqlCompose.Proofs.Failure
import SqlCompose.Proofs.Headless
import SqlCompose.Proofs.History
import SqlCompose.Proofs.JsonText
import SqlCompose.Proofs.JsonValues
import SqlCompose.Proofs.Keywords
import SqlCompose.Proofs.Layout
import SqlCompose.Proofs.Lexing
import SqlCompose.Proofs.Marks
import SqlCompose.Proofs.Misuse
import SqlCompose.Proofs.Numbering
import SqlCompose.Proofs.Octets
import SqlCompose.Proofs.Opacity
import SqlCompose.Proofs.Ordering
import SqlCompose.Proofs.Origins
import SqlCompose.Proofs.Pairing
import SqlCompose.Proofs.ParsedLayout
import SqlCompose.Proofs.Phrase
import SqlCompose.Proofs.Placeholders
import SqlCompose.Proofs.Places
import SqlCompose.Proofs.Ranking
import SqlCompose.Proofs.Reading
import SqlCompose.Proofs.Rebuilding
import SqlCompose.Proofs.Reparsing
import SqlCompose.Proofs.Rereading
import SqlCompose.Proofs.Resplitting
import SqlCompose.Proofs.Scripts
import SqlCompose.Proofs.Seams
import SqlCompose.Proofs.SelectHistory
import SqlCompose.Proofs.SelectLayout
import SqlCompose.Proofs.Skipping
import SqlCompose.Proofs.Slots
import SqlCompose.Proofs.Storing
import SqlCompose.Proofs.Timestamps
import SqlCompose.Proofs.TreeAlignment
import SqlCompose.Proofs.Uuids
import SqlCompose.Proofs.Vanishing
import SqlCompose.Query
import SqlCompose.Row
import SqlCompose.Script
import SqlCompose.Script.Token
import SqlCompose.Select.Layout
import SqlCompose.Statement.Tagged
import SqlCompose.Text.Bytes
import SqlCompose.Text.Cut
import SqlCompose.Text.Place
import SqlCompose.Value.Source
import SqlCompose.Value.Storable
import SqlCompose.Wire
import SqlCompose.Proofs.Mapping
import SqlCompose.Proofs.Shortening
import SqlCompose.Proofs.Settling
import SqlCompose.Proofs.Narrowing
