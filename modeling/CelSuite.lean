import CelSuite.Attempt
import CelSuite.Classify.AliasTable
import CelSuite.Fixture.Case
import CelSuite.Proofs.Check.Soundness
import CelSuite.Proofs.Equality.Evaluation
import CelSuite.Proofs.Escapes.Meaning
import CelSuite.Proofs.Rendering.Evaluation
import CelSuite.Proofs.Safety.Evaluation
import CelSuite.Proofs.Scenario.Operations
import CelSuite.Settings
import CelSuite.Yaml.Reader
import CelSuite.Proofs.Scenario.Environment
import CelSuite.Proofs.Fixture.Payloads
import CelSuite.Proofs.Fixture.Walk
import CelSuite.Proofs.Fixture.Durations
import CelSuite.Proofs.Fixture.Defects
import CelSuite.Proofs.Fixture.Kinds
import CelSuite.Proofs.Fixture.Documents
import CelSuite.Proofs.Fixture.Notation
import CelSuite.Proofs.Values.Equivalence
import CelSuite.Proofs.Fixture.Maps
import CelSuite.Proofs.Classify.Session
import CelSuite.Proofs.Classify.Extension
import CelSuite.Proofs.Fixture.Grammar
import CelSuite.Proofs.Scenario.Verification
import CelSuite.Proofs.Operators.Connectives
import CelSuite.Proofs.Operators.Ordering
import CelSuite.Proofs.Operators.Integers
import CelSuite.Proofs.Escapes.Runs
import CelSuite.Proofs.Classify.Matchers
import CelSuite.Proofs.Functions.Bytes
import CelSuite.Proofs.Text.BytesLiteral
import CelSuite.Proofs.Functions.Durations
import CelSuite.Proofs.Names.LongestName
import CelSuite.Proofs.Fixture.Integers
import CelSuite.Proofs.Functions.Integers
import CelSuite.Proofs.Registry.History
import CelSuite.Proofs.Registry.Session
import CelSuite.Proofs.StandIns.Paths
import CelSuite.Proofs.Lexing.Layout
