import TableSieve.Main
import TableSieve.Proofs.Accepting
import TableSieve.Proofs.Resampling
import TableSieve.Proofs.RowWise
import TableSieve.Proofs.Building
import TableSieve.Proofs.Validating
import TableSieve.Proofs.Bootstrapping
import TableSieve.Proofs.Describing
import TableSieve.Proofs.Shapes
import TableSieve.Proofs.Conforming
import TableSieve.Proofs.Rounding
import TableSieve.Proofs.ShortestDigits
import TableSieve.Proofs.DecimalText
import TableSieve.Proofs.NumberText
import TableSieve.Proofs.Lexing
import TableSieve.Proofs.WrittenTokens
import TableSieve.Proofs.ParsedNodes
import TableSieve.Proofs.Printing
import TableSieve.Proofs.MomentText
import TableSieve.Proofs.Positions
import TableSieve.Proofs.RowEquality
import TableSieve.Proofs.Combining
import TableSieve.Proofs.Spreading
import TableSieve.Proofs.PlusSigns
import TableSieve.Proofs.Runs
import TableSieve.Proofs.OperandTexts
import TableSieve.Proofs.Spellings
import TableSieve.Proofs.CellOrder
import TableSieve.Proofs.Settling
import TableSieve.Proofs.Conjoining
import TableSieve.Proofs.Reporting
import TableSieve.Proofs.Lookahead
import TableSieve.Proofs.Tuples
import TableSieve.Proofs.RuleForms
import TableSieve.Proofs.IntegerKeys
import TableSieve.Proofs.MomentReading
import TableSieve.Proofs.ReadingBack
import TableSieve.Proofs.Obtaining
import TableSieve.Proofs.Regrouping
import TableSieve.Proofs.Rearranging
import TableSieve.Proofs.Respacing
import TableSieve.Proofs.Inferring
import TableSieve.Proofs.NameMaps
import TableSieve.Proofs.Registering
import TableSieve.Proofs.Tallying
import TableSieve.Proofs.DayNumbers
import TableSieve.Proofs.CellOperations
