import Recalc.Calculation.Worker
import Recalc.Proofs.Alike
import Recalc.Proofs.Amortization
import Recalc.Proofs.ClassSearches
import Recalc.Proofs.ColumnLetters
import Recalc.Proofs.Commands
import Recalc.Proofs.Comparison
import Recalc.Proofs.DateParts
import Recalc.Proofs.DateTexts
import Recalc.Proofs.Depths
import Recalc.Proofs.Edges
import Recalc.Proofs.Faults
import Recalc.Proofs.Finiteness
import Recalc.Proofs.Footprint
import Recalc.Proofs.JsonTexts
import Recalc.Proofs.MarkSets
import Recalc.Proofs.MonthShifts
import Recalc.Proofs.Nesting
import Recalc.Proofs.Parallel
import Recalc.Proofs.Pointwise
import Recalc.Proofs.Recovery
import Recalc.Proofs.Refusals
import Recalc.Proofs.Resolution
import Recalc.Proofs.Settling
import Recalc.Proofs.TimesOfDay
import Recalc.Proofs.WireMessages
import Recalc.Proofs.Wrapping
import Recalc.Proofs.YearFractions
import Recalc.Wire.Messages
