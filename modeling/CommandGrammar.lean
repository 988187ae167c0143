import CommandGrammar.Demo.Convert
import CommandGrammar.Demo.Machine
import CommandGrammar.Grammar.Check
import CommandGrammar.Main
import CommandGrammar.Proofs.Accounting
import CommandGrammar.Proofs.Blame
import CommandGrammar.Proofs.Calls
import CommandGrammar.Proofs.Checking
import CommandGrammar.Proofs.Completeness
import CommandGrammar.Proofs.Continuing
import CommandGrammar.Proofs.Depth
import CommandGrammar.Proofs.Filling
import CommandGrammar.Proofs.Fitting
import CommandGrammar.Proofs.Help
import CommandGrammar.Proofs.HelpOutput
import CommandGrammar.Proofs.Keeping
import CommandGrammar.Proofs.Lookahead
import CommandGrammar.Proofs.Options
import CommandGrammar.Proofs.Report
import CommandGrammar.Proofs.Room
import CommandGrammar.Proofs.Saving
import CommandGrammar.Proofs.Selection
import CommandGrammar.Proofs.Steps
import CommandGrammar.Proofs.Stopping
import CommandGrammar.Proofs.Strictness
import CommandGrammar.Proofs.Values
