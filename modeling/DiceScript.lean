import DiceScript.CommandLine
import DiceScript.CommandLine.Files
import DiceScript.CommandLine.Options
import DiceScript.Dice
import DiceScript.Document
import DiceScript.Document.Error
import DiceScript.Document.Reader
import DiceScript.Expr
import DiceScript.Json
import DiceScript.Json.Order
import DiceScript.Json.Quoted
import DiceScript.Json.Reader
import DiceScript.Machine
import DiceScript.Machine.Eval
import DiceScript.Machine.Operators
import DiceScript.Machine.Run
import DiceScript.Main
import DiceScript.Numeral.Binary64
import DiceScript.Numeral.Reader
import DiceScript.Numeral.Shortest
import DiceScript.Position
import DiceScript.Proofs.Evaluation.Agreement
import DiceScript.Proofs.Evaluation.Ending
import DiceScript.Proofs.Evaluation.Restoration
import DiceScript.Proofs.Grammar.Completeness
import DiceScript.Proofs.Grammar.Derivation
import DiceScript.Proofs.Grammar.Heads
import DiceScript.Proofs.Grammar.Reading
import DiceScript.Proofs.Grammar.Scripts
import DiceScript.Proofs.Grammar.Soundness
import DiceScript.Proofs.Grammar.Yield
import DiceScript.Proofs.Scanning.Words
import DiceScript.Problem
import DiceScript.Scope
import DiceScript.Script.Error
import DiceScript.Script.Ladder
import DiceScript.Script.Reader
import DiceScript.Session
import DiceScript.Session.Command
import DiceScript.Table
import DiceScript.Text.Blank
import DiceScript.Text.Capital
import DiceScript.Text.CaseMap
import DiceScript.Text.Cased
import DiceScript.Text.Digit
import DiceScript.Text.Letter
import DiceScript.Text.Printable
import DiceScript.Text.Quoted
import DiceScript.Token
import DiceScript.Token.Lexer
import DiceScript.Token.Pieces
import DiceScript.Value
import DiceScript.Value.Box
import DiceScript.Value.Collection
import DiceScript.Value.Form
import DiceScript.Proofs.Evaluation.Likeness
import DiceScript.Proofs.Evaluation.Comparison
import DiceScript.Proofs.Evaluation.Operations
import DiceScript.Proofs.Evaluation.Nodes
import DiceScript.Proofs.Evaluation.Correspondence
import DiceScript.Proofs.Evaluation.Mentions
import DiceScript.Proofs.Evaluation.Multisets
import DiceScript.Proofs.Evaluation.Spelling
import DiceScript.Proofs.Scanning.Tokenisation
import DiceScript.Proofs.Documents.RoundTrip
import DiceScript.Proofs.Scanning.Rescanning
import DiceScript.Proofs.Grammar.Trees
import DiceScript.Proofs.Grammar.Totality
import DiceScript.Proofs.Sessions.Runs
import DiceScript.Proofs.Sessions.Lines
import DiceScript.Proofs.CommandLine.Arguments
import DiceScript.Proofs.CommandLine.Emission
import DiceScript.Proofs.Evaluation.Blame
import DiceScript.Proofs.Sessions.Reports
import DiceScript.Proofs.Sessions.Repetitions
import DiceScript.Proofs.Evaluation.Chance
import DiceScript.Proofs.Evaluation.Schemas
import DiceScript.Proofs.Grammar.Sight
import DiceScript.Proofs.Scanning.Offences
import DiceScript.Proofs.Sessions.Failures
import DiceScript.Proofs.CommandLine.Loading
import DiceScript.Proofs.Scanning.Extension
import DiceScript.Proofs.Scanning.Stacking
import DiceScript.Proofs.Grammar.Horizon
import DiceScript.Proofs.Grammar.Places
import DiceScript.Proofs.Grammar.Fallbacks
import DiceScript.Proofs.Evaluation.Bounds
import DiceScript.Proofs.Evaluation.States
import DiceScript.Proofs.Evaluation.Nesting
import DiceScript.Proofs.Evaluation.Unrolling
import DiceScript.Proofs.Evaluation.Rounds
import DiceScript.Proofs.Scanning.Stripping
import DiceScript.Proofs.Sessions.Entries
import DiceScript.Proofs.Evaluation.EndStyles
import DiceScript.Proofs.Evaluation.NodeLaws
import DiceScript.Proofs.Evaluation.Termination
import DiceScript.Proofs.Values.Placement
import DiceScript.Proofs.Values.Associativity
import DiceScript.Proofs.Evaluation.Composition
import DiceScript.Proofs.Values.Alignment
import DiceScript.Proofs.Evaluation.Samples
import DiceScript.Proofs.Evaluation.Results
import DiceScript.Proofs.Evaluation.CollectionLaws
import DiceScript.Proofs.Evaluation.OrderStatistics
import DiceScript.Proofs.Evaluation.Rolls
import DiceScript.Proofs.Evaluation.Picks
import DiceScript.Proofs.Values.Readings
import DiceScript.Proofs.Sessions.Drivers
import DiceScript.Proofs.Grammar.Probabilities
import DiceScript.Proofs.Evaluation.Coincidence
import DiceScript.Proofs.Evaluation.Reals
import DiceScript.Proofs.Grammar.Assignments
import DiceScript.Proofs.Sessions.Bindings
import DiceScript.Proofs.Sessions.Commands
import DiceScript.Proofs.Scanning.Joining
import DiceScript.Proofs.Sessions.JoinedArguments
import DiceScript.Proofs.Sessions.Variables
import DiceScript.Proofs.Documents.Normalisation
import DiceScript.Proofs.Sessions.Tracing
import DiceScript.Proofs.Evaluation.Brackets
import DiceScript.Proofs.Evaluation.Division
import DiceScript.Proofs.Evaluation.Stacks
import DiceScript.Proofs.Scanning.Cutting
