import CommandGrammar.Grammar.Converter
import CommandGrammar.Scheme.Registration

/-!
# Checking grammars

A grammar can be checked without building anything: names and keys must show, a key may occur once
in its scope, members of groups included, and every converter must be able to accept something. A
scope is checked before the scopes of the flags that follow.
-/

namespace CommandGrammar.Grammar

def checkArgs (files : Files) : List ArgSpec → Except GrammarError Unit
  | [] => .ok ()
  | arg :: args => do
    if Text.isBlankText arg.name then throw (.scheme .emptyArgumentName)
    let _ ← arg.converter.pipeline files arg.name
    checkArgs files args

/-- Adds a key to those seen in a scope. -/
def addKey (seen : List String) (key : String) : Except GrammarError (List String) :=
  if Text.isBlankText key then .error (.scheme .emptyKey)
  else if seen.contains key then .error (.scheme (.duplicateKey key))
  else .ok (key :: seen)

mutual

/-- Checks the entries of a scope in which some keys were seen, and returns those seen now. -/
def checkEntries (files : Files) (seen : List String) :
    List FlagEntry → Except GrammarError (List String)
  | [] => .ok seen
  | e :: es => do
    let seen ← checkEntry files seen e
    checkEntries files seen es

def checkEntry (files : Files) (seen : List String) :
    FlagEntry → Except GrammarError (List String)
  | .flag _ spec => checkSpec files seen spec
  | .group _ members => checkSpecs files seen members

def checkSpecs (files : Files) (seen : List String) :
    List FlagSpec → Except GrammarError (List String)
  | [] => .ok seen
  | spec :: specs => do
    let seen ← checkSpec files seen spec
    checkSpecs files seen specs

def checkSpec (files : Files) (seen : List String) : FlagSpec → Except GrammarError (List String)
  | ⟨key, _, args, flags⟩ => do
    let seen ← addKey seen key
    checkArgs files args
    let _ ← checkEntries files [] flags
    return seen

end

/-- Checks a whole grammar. The key of the flag that asks for help is taken last. -/
def check (files : Files) (g : Grammar) : Except GrammarError Unit := do
  checkArgs files g.args
  let _ ← checkEntries files [] g.flags
  if g.help && g.flags.any (·.declares Scheme.helpKey) then
    throw (.scheme (.duplicateKey Scheme.helpKey))

end CommandGrammar.Grammar
