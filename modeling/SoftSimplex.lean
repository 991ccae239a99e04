import SoftSimplex.Proofs.Attainment
import SoftSimplex.Proofs.Books
import SoftSimplex.Proofs.Consistency
import SoftSimplex.Proofs.Constructions
import SoftSimplex.Proofs.Cycling
import SoftSimplex.Proofs.Declining
import SoftSimplex.Proofs.Defects
import SoftSimplex.Proofs.Denotation
import SoftSimplex.Proofs.Disclosure
import SoftSimplex.Proofs.Dropping
import SoftSimplex.Proofs.Forming
import SoftSimplex.Proofs.Gaps
import SoftSimplex.Proofs.Judging
import SoftSimplex.Proofs.Levels
import SoftSimplex.Proofs.Markers
import SoftSimplex.Proofs.Mentions
import SoftSimplex.Proofs.Optimality
import SoftSimplex.Proofs.Omission
import SoftSimplex.Proofs.Placing
import SoftSimplex.Proofs.Precedence
import SoftSimplex.Proofs.Presence
import SoftSimplex.Proofs.Recovery
import SoftSimplex.Proofs.Refusal
import SoftSimplex.Proofs.Residue
import SoftSimplex.Proofs.Resolving
import SoftSimplex.Proofs.UpToDate
import SoftSimplex.Proofs.Restoring
import SoftSimplex.Proofs.Restrengthening
import SoftSimplex.Proofs.Solving
import SoftSimplex.Proofs.Steering
import SoftSimplex.Proofs.Suggesting
import SoftSimplex.Proofs.Withdrawal
import SoftSimplex.Table.Lookup
import SoftSimplex.Text
