/-!
# Faults of registrations and of parses

A registration is refused for its own content or for a handle that leads nowhere. A parse fails in
one of six ways, each with what the message needs: the options that were left, or the keys in
conflict.
-/

namespace CommandGrammar

/-- Why a registration is refused. -/
inductive SchemeError where
  | emptyKey
  | emptyArgumentName
  | duplicateKey (key : String)
  | unknownStore
  | unknownGroup
  | unknownFlag
  deriving DecidableEq, Repr

def SchemeError.message : SchemeError → String
  | .emptyKey => "flag key cannot be empty"
  | .emptyArgumentName => "argument name cannot be empty"
  | .duplicateKey key => "duplicate flag in scope: " ++ key
  | .unknownStore => "unknown flag store"
  | .unknownGroup => "unknown exclusive group"
  | .unknownFlag => "unknown flag"

/-- Why a parse fails. -/
inductive ParseError where
  | missingMandatoryFlag (options : List String)
  | missingMandatoryArgument (options : List String)
  | repeatedFlag (flag : String)
  | unexpectedArgument (token : String) (options : List String)
  | exclusiveConflict (first second : String) (exclusive : List String)
  | conversionFailure (argument reason : String)
  deriving DecidableEq, Repr

namespace ParseError

/-- The ways to fail, without what they carry. -/
inductive Kind where
  | missingMandatoryFlag
  | missingMandatoryArgument
  | repeatedFlag
  | unexpectedArgument
  | exclusiveConflict
  | conversionFailure
  deriving DecidableEq, Repr

def kind : ParseError → Kind
  | missingMandatoryFlag .. => .missingMandatoryFlag
  | missingMandatoryArgument .. => .missingMandatoryArgument
  | repeatedFlag .. => .repeatedFlag
  | unexpectedArgument .. => .unexpectedArgument
  | exclusiveConflict .. => .exclusiveConflict
  | conversionFailure .. => .conversionFailure

def message : ParseError → String
  | missingMandatoryFlag options =>
    "Missing mandatory flag(s). Valid option(s) are: " ++ ", ".intercalate options
  | missingMandatoryArgument options =>
    "Missing mandatory argument(s). Valid option(s) are: " ++ ", ".intercalate options
  | repeatedFlag flag => "Repeated flag: " ++ flag
  | unexpectedArgument token options =>
    "Unexpected argument: " ++ token ++ "\nValid option(s): " ++ ", ".intercalate options
  | exclusiveConflict first second exclusive =>
    "Cannot use " ++ first ++ " in conjunction with " ++ second ++
      ".\nThe following flags are exclusive: " ++ "|".intercalate exclusive
  | conversionFailure argument reason => "Could not parse argument: " ++ argument ++ "\n" ++ reason

end ParseError

end CommandGrammar
