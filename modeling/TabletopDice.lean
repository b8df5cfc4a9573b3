import TabletopDice.Main
import TabletopDice.Table
import TabletopDice.Roller.Highest
import TabletopDice.Roller.Predetermined
import TabletopDice.Proofs.Grammar.Derivation
import TabletopDice.Proofs.Grammar.Reading
import TabletopDice.Proofs.Grammar.Compaction
import TabletopDice.Proofs.Grammar.Acceptance
import TabletopDice.Proofs.Grammar.Printing
import TabletopDice.Proofs.Grammar.Joining
import TabletopDice.Proofs.Grammar.RawTexts
import TabletopDice.Proofs.Rejection.Sight
import TabletopDice.Proofs.Rejection.Expectations
import TabletopDice.Proofs.Rejection.Farthest
import TabletopDice.Proofs.Rejection.Diagnosis
import TabletopDice.Proofs.Rolling.Draws
import TabletopDice.Proofs.Rolling.Chains
import TabletopDice.Proofs.Rolling.Structure
import TabletopDice.Proofs.Rolling.Throws
import TabletopDice.Proofs.Rolling.Terms
import TabletopDice.Proofs.Rolling.Replay
import TabletopDice.Proofs.Rolling.Limits
import TabletopDice.Proofs.Rolling.Fair
import TabletopDice.Proofs.Rolling.Seeded
import TabletopDice.Proofs.Totals.Exact
import TabletopDice.Proofs.Totals.Bounds
import TabletopDice.Proofs.Totals.Joining
import TabletopDice.Proofs.Totals.Splitting
import TabletopDice.Proofs.Answers.ReadOff
import TabletopDice.Proofs.Answers.Decoding
import TabletopDice.Proofs.Dialogue.Replies
import TabletopDice.Proofs.Dialogue.Keyboards
import TabletopDice.Proofs.Dialogue.QuickTexts
import TabletopDice.Proofs.Dialogue.RollTexts
import TabletopDice.Proofs.Dialogue.Ignored
import TabletopDice.Proofs.Dialogue.Navigation
import TabletopDice.Proofs.Dialogue.TypedChoices
import TabletopDice.Proofs.CommandLine.Rendering
import TabletopDice.Proofs.CommandLine.Streaming
import TabletopDice.Proofs.CommandLine.Arguments
import TabletopDice.Proofs.CommandLine.Requests
import TabletopDice.Proofs.Dialogue.QuickDice
import TabletopDice.Proofs.Answers.Listing
import TabletopDice.Proofs.Table.Checks
import TabletopDice.Proofs.Table.Masters
import TabletopDice.Proofs.Answers.Labels
