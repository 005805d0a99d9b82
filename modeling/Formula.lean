import Formula.Proofs.Evaluation
import Formula.Proofs.Grammar.Termination
import Formula.Proofs.Session.Expectation
import Formula.Proofs.Session.NormalForm
import Formula.Proofs.Session.Respelling
import Formula.Proofs.Session.Reuse
import Formula.Proofs.Term.Equality
import Formula.Proofs.Term.Failure
import Formula.Proofs.Term.Text
