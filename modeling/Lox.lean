import Lox.Main
import Lox.Proofs.Evaluation.Renaming
import Lox.Proofs.Evaluation.Scoping
import Lox.Proofs.Session.Globals
import Lox.Proofs.Session.Joined
import Lox.Proofs.Syntax.Height
import Lox.Proofs.Token.LexicalGrammar
import Lox.Source.Shown
import Lox.Proofs.Token.Rescanning
import Lox.Proofs.Session.BoundedOutput
import Lox.Proofs.Syntax.Parallel
import Lox.Proofs.Session.Layout
import Lox.Proofs.Syntax.Foresight
import Lox.Proofs.Syntax.Draft
import Lox.Proofs.Syntax.FirstImpossible
import Lox.Proofs.CommandLine.Printing
import Lox.Proofs.CommandLine.Prompt
import Lox.Proofs.Syntax.Walk
import Lox.Proofs.Syntax.Simulation
import Lox.Proofs.Syntax.InBounds
import Lox.Proofs.Syntax.Targets
import Lox.Proofs.Evaluation.Leaving
import Lox.Proofs.Session.Guards
import Lox.Proofs.Token.LineFeed
import Lox.Proofs.Token.StrayCharacters
import Lox.Proofs.Evaluation.Unwrapping
import Lox.Proofs.Evaluation.History
import Lox.Proofs.Evaluation.LiveDeclarations
import Lox.Proofs.Number.Magnitude
import Lox.Proofs.Number.Reading
import Lox.Proofs.Number.Doubles
import Lox.Proofs.Number.Shortest
import Lox.Proofs.Number.Hundredths
import Lox.Proofs.Token.Numerals
import Lox.Proofs.Token.Listing
import Lox.Proofs.Number.Display
import Lox.Proofs.Session.ReadBack
import Lox.Proofs.Syntax.Unambiguous
import Lox.Proofs.Syntax.Deepest
import Lox.Proofs.Evaluation.CallDepth
import Lox.Proofs.Syntax.Progress
import Lox.Proofs.Source.Positions
