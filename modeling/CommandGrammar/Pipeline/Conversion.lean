import CommandGrammar.Files.Basic
import CommandGrammar.Pipeline.Basic

/-!
# Conversions

The conversions that arguments start from, with the messages of those that can fail.
-/

namespace CommandGrammar.Pipeline

variable {α : Type}

def integer (l : Literal α) : Pipeline α :=
  ofLiteralOr "Could not interpret argument as integer." l

def unsigned (l : Literal α) : Pipeline α :=
  ofLiteralOr "Could not interpret argument as integer greater or equal to 0." l

def number (l : Literal α) : Pipeline α :=
  ofLiteralOr "Could not interpret argument as number." l

/-- Keeps the token. -/
def text : Pipeline String :=
  ofConversion .succeed

/-- Keeps a token that is the path of a file. -/
def existingFile (files : Files) : Pipeline String :=
  ofConversion fun token =>
    if files.isFile token then .succeed token else .fail ("No such file: " ++ token)

/-- Keeps a token that is the path of a directory. -/
def existingDirectory (files : Files) : Pipeline String :=
  ofConversion fun token =>
    if files.isDirectory token then .succeed token else .fail ("No such directory: " ++ token)

/-- Accepts the listed texts only. -/
def oneOf (choices : List String) (s : String) : Attempt String :=
  if choices.contains s then .succeed s
  else .fail ("Expected one of: " ++ ", ".intercalate choices ++ ".")

end CommandGrammar.Pipeline
