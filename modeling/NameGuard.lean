import NameGuard.Power
import NameGuard.Binary64
import NameGuard.Binary64.Word
import NameGuard.Binary64.Whole
import NameGuard.Decimal
import NameGuard.Decimal.Shortest
import NameGuard.Decimal.Layout
import NameGuard.Text.Case
import NameGuard.Text.Character
import NameGuard.Text.Quoted
import NameGuard.Value
import NameGuard.Value.Text
import NameGuard.Value.Convert
import NameGuard.Number
import NameGuard.Arity
import NameGuard.Argument
import NameGuard.Numeral
import NameGuard.Numeral.Reader
import NameGuard.WordError
import NameGuard.Rule
import NameGuard.Rule.Range
import NameGuard.Rule.TypeChoice
import NameGuard.Violation
import NameGuard.Constraint
import NameGuard.Registry.Index
import NameGuard.Registry
import NameGuard.Registry.Roster
import NameGuard.Registry.Enrollment
import NameGuard.Name
import NameGuard.Declaration
import NameGuard.Holder
import NameGuard.Holder.Session
import NameGuard.Journal
import NameGuard.Scenario.Expectation
import NameGuard.Scenario
import NameGuard.Rule.Sample
import NameGuard.Proofs.Holder.Verdict
import NameGuard.Proofs.Holder.History
import NameGuard.Proofs.Registry.Lookup
import NameGuard.Proofs.Registry.Registration
import NameGuard.Proofs.Registry.Built
import NameGuard.Proofs.Declaration.Step
import NameGuard.Proofs.Declaration.Opening
import NameGuard.Proofs.Declaration.Account
import NameGuard.Proofs.Declaration.Strict
import NameGuard.Proofs.Constraint.Likeness
import NameGuard.Proofs.Name.Tokenize
import NameGuard.Proofs.Declaration.Cut
import NameGuard.Proofs.Number.Rank
import NameGuard.Proofs.Number.Integer
import NameGuard.Proofs.Rule.Offer
import NameGuard.Proofs.Rule.Range
import NameGuard.Proofs.Text.Lowering
import NameGuard.Proofs.Rule.TypeChoice
import NameGuard.Proofs.Declaration.Outline
import NameGuard.Proofs.Declaration.Piece
import NameGuard.Proofs.Holder.IntegerRange
import NameGuard.Proofs.Declaration.Omission
import NameGuard.Proofs.Declaration.Essential
import NameGuard.Proofs.Declaration.Phrase
import NameGuard.Proofs.Declaration.Description
import NameGuard.Proofs.Holder.PhraseOrder
import NameGuard.Proofs.Declaration.Conjunction
import NameGuard.Proofs.Holder.Construction
import NameGuard.Proofs.Registry.Agreement
import NameGuard.Proofs.Registry.Extension
import NameGuard.Proofs.Registry.Order
import NameGuard.Proofs.Number.Comparison
import NameGuard.Proofs.Number.RealOrder
import NameGuard.Proofs.Rule.WholeBounds
import NameGuard.Proofs.Declaration.Journal
import NameGuard.Proofs.Holder.LetterCase
import NameGuard.Proofs.Number.Pattern
import NameGuard.Proofs.Rule.Bounds
import NameGuard.Proofs.Number.Overflow
import NameGuard.Proofs.Rule.Infinity
import NameGuard.Proofs.Rule.TagList
import NameGuard.Proofs.Declaration.Arity
import NameGuard.Proofs.Name.Grammar
import NameGuard.Proofs.Number.Reader
import NameGuard.Proofs.Rule.Explanation
import NameGuard.Proofs.Holder.Standard
import NameGuard.Proofs.Holder.Explanation
import NameGuard.Proofs.Value.Equality
import NameGuard.Proofs.Holder.EqualValues
import NameGuard.Proofs.Declaration.Growth
import NameGuard.Proofs.Scenario.Replay
import NameGuard.Proofs.Scenario.Demands
import NameGuard.Proofs.Rule.WholeReader
import NameGuard.Proofs.Name.Words
import NameGuard.Proofs.Number.Nearest
import NameGuard.Proofs.Rule.Widening
