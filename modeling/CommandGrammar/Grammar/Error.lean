import CommandGrammar.Files.Basic
import CommandGrammar.Scheme.Error

/-!
# Faults of grammars

What can be wrong with a grammar file: it cannot be opened, its text cannot be decoded, or what it
describes cannot be built.
-/

namespace CommandGrammar

/-- Why a converter can never accept a token. -/
inductive ConverterFault where
  | minAboveMax
  | noChoices
  deriving DecidableEq, Repr

def ConverterFault.message : ConverterFault → String
  | .minAboveMax => "min is greater than max"
  | .noChoices => "choice list is empty"

inductive GrammarError where
  | io (fault : Files.Fault)
  | json
  | yaml
  | unsupportedFormat (path : String)
  | invalidConverter (argument : String) (fault : ConverterFault)
  | scheme (e : SchemeError)
  deriving DecidableEq, Repr

def GrammarError.message : GrammarError → String
  | .io fault => "I/O error: " ++ fault.message
  | .json => "JSON error: not a grammar"
  | .yaml => "YAML error: not a grammar"
  | .unsupportedFormat path => "unsupported grammar format: " ++ path
  | .invalidConverter argument fault =>
    "invalid converter for argument '" ++ argument ++ "': " ++ fault.message
  | .scheme e => "invalid grammar: " ++ e.message

end CommandGrammar
