import ScopeLisp.Main
import ScopeLisp.Eval.Fuel
import ScopeLisp.Proofs.Growth
import ScopeLisp.Proofs.Discipline
import ScopeLisp.Proofs.Session
import ScopeLisp.Proofs.Chain
import ScopeLisp.Proofs.ScopeTree
import ScopeLisp.Proofs.Reach
import ScopeLisp.Proofs.Hygiene
import ScopeLisp.Proofs.Doubles
import ScopeLisp.Proofs.NumberText
import ScopeLisp.Proofs.Scanning
import ScopeLisp.Proofs.Readable
import ScopeLisp.Proofs.PrintRead
import ScopeLisp.Proofs.Acceptance
import ScopeLisp.Proofs.Joining
import ScopeLisp.Proofs.Layout
import ScopeLisp.Proofs.Mention
import ScopeLisp.Proofs.Twins
import ScopeLisp.Proofs.Agreement
import ScopeLisp.Proofs.Lockstep
import ScopeLisp.Proofs.Answers
import ScopeLisp.Proofs.Apart
import ScopeLisp.Proofs.Assignment
import ScopeLisp.Proofs.FormParts
import ScopeLisp.Proofs.ClosureText
import ScopeLisp.Proofs.WriteOnly
import ScopeLisp.Proofs.Passes
import ScopeLisp.Proofs.Calls
import ScopeLisp.Proofs.Transcript
import ScopeLisp.Proofs.Clauses
import ScopeLisp.Proofs.Misshapen
import ScopeLisp.Proofs.ClassChain
import ScopeLisp.Proofs.FirstDatum
import ScopeLisp.Proofs.ScopeLaws
import ScopeLisp.Proofs.PropertyWrites
import ScopeLisp.Proofs.Inheritance
import ScopeLisp.Proofs.AtomGrammar
import ScopeLisp.Proofs.Straight
import ScopeLisp.Proofs.Equality
import ScopeLisp.Proofs.Provenance
import ScopeLisp.Proofs.Sources
import ScopeLisp.Proofs.Identity
