import PropLogic.Canonical.Grammar
import PropLogic.Formula.Visits
import PropLogic.Main
import PropLogic.Proofs.Canonical.Derivation
import PropLogic.Proofs.Canonical.Reading
import PropLogic.Proofs.Text.Cutting
import PropLogic.Proofs.Canonical.Parsing
import PropLogic.Proofs.Surface.Rewriting
import PropLogic.Proofs.Surface.Notation
import PropLogic.Proofs.Formula.Truth
import PropLogic.Proofs.Table.Contents
import PropLogic.Proofs.Request.Acceptance
import PropLogic.Proofs.Formula.RoundTrip
import PropLogic.Proofs.Canonical.Faults
import PropLogic.Proofs.Request.Respelling
import PropLogic.Proofs.Formula.Substitution
import PropLogic.Proofs.Request.Substitution
import PropLogic.Proofs.Batch.Stream
import PropLogic.Proofs.Surface.StraySigns
import PropLogic.Proofs.Request.Failure
import PropLogic.Proofs.Batch.Composition
import PropLogic.Proofs.Request.SignRuns
import PropLogic.Proofs.Request.Equivalence
import PropLogic.Proofs.Canonical.Evaluation
import PropLogic.Proofs.Canonical.Expectation
import PropLogic.Proofs.CommandLine.Batches
import PropLogic.Proofs.Table.Cursor
import PropLogic.Proofs.Table.Words
import PropLogic.Proofs.Table.Texts
import PropLogic.Proofs.Formula.Parenthesization
import PropLogic.Proofs.Surface.SinglePass
import PropLogic.Proofs.Surface.Separation
import PropLogic.Proofs.Canonical.Spacing
import PropLogic.Proofs.Request.Surroundings
import PropLogic.Proofs.Journal.Batches
import PropLogic.Proofs.Error.Messages
import PropLogic.Proofs.Formula.Postfix
