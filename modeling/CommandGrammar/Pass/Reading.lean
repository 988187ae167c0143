import CommandGrammar.Pass.Basic

/-!
# Reading a command line

A store reads tokens from the left, and looks at one at a time. The key of a flag comes first: a
repeated key and a second member of a group are errors; the store of a flag then reads on from the
next token, and the flag has matched when that store is done. Any other token is offered to the
arguments of the level, in order, skipping those that have matched: the first that converts it takes
it, a mandatory one that cannot convert it is an error. A store is done at the first token that it
cannot take. It must then have met as many mandatory units as it has.

The reading of a store carries a proof that it returns no more tokens than it got, and every flag
and argument consumes a token; so reading ends.
-/

namespace CommandGrammar

/-- How a store stopped reading. -/
inductive Ending where
  /-- The store is done; another one may go on. -/
  | closed
  /-- Help was asked for. -/
  | help
  | failed (e : ParseError)

/-- What a store made of some tokens. -/
structure Reading (tokens : List String) where
  ending : Ending
  pass : Pass
  rest : List String
  length_rest_le : rest.length ≤ tokens.length

/-- The same reading, of one more token in front. -/
def Reading.after {rest : List String} (r : Reading rest) (token : String) :
    Reading (token :: rest) :=
  { r with length_rest_le := Nat.le_succ_of_le r.length_rest_le }

/-- The mandatory units that a store has met. -/
structure Met where
  flags : Nat := 0
  args : Nat := 0
  deriving DecidableEq, Repr

def Met.countFlag (m : Met) : Policy → Met
  | .mandatory => { m with flags := m.flags + 1 }
  | .optional => m

def Met.countArg (m : Met) : Policy → Met
  | .mandatory => { m with args := m.args + 1 }
  | .optional => m

/-- What the arguments of a level make of a token. -/
inductive Offer where
  | taken (id : ArgId) (policy : Policy) (v : Value)
  | refused (name reason : String)
  | declined

namespace Scheme

variable (s : Scheme)

/-- Offers a token to arguments in order. -/
def offer (p : Pass) (token : String) : List ArgId → Offer
  | [] => .declined
  | id :: ids =>
    match s.arg? id with
    | none => offer p token ids
    | some arg =>
      if p.isFilled id then offer p token ids
      else
        match (arg.pipeline.run token).result with
        | .ok v => .taken id arg.policy v
        | .error reason =>
          match arg.policy with
          | .mandatory => .refused arg.name reason
          | .optional => offer p token ids

/-- Starts a flag whose key was read: it must be new, and so must a choice in its group. -/
def start (p : Pass) (id : FlagId) (flag : Flag) : Except ParseError Pass :=
  if p.isMatched id then .error (.repeatedFlag flag.key)
  else
    match flag.group with
    | none => .ok p
    | some group =>
      match p.chosen? group with
      | none => .ok (p.choose group id)
      | some first =>
        .error (.exclusiveConflict ((s.key? first).getD "") flag.key
          ((s.members group).filterMap s.key?))

/-- What a store lacks when it stops before `rest`. -/
def lack? (store : StoreId) (met : Met) (p : Pass) (rest : List String) : Option ParseError :=
  match s.store? store with
  | none => none
  | some st =>
    if met.flags < st.flagTally.mandatory then
      match rest with
      | [] => some (.missingMandatoryFlag (s.availableFlags p store))
      | token :: _ => some (s.unexpected p store token)
    else if met.args < st.argTally.mandatory then
      match rest with
      | [] => some (.missingMandatoryArgument (s.availableArgs p store))
      | token :: _ => some (s.unexpected p store token)
    else none

/-- How a store ends that stops before `rest`. -/
def close (store : StoreId) (met : Met) (p : Pass) (rest : List String) : Ending :=
  match s.lack? store met p rest with
  | none => .closed
  | some e => .failed e

/-- Reads tokens into a store that has met some of its units. -/
def readStore (store : StoreId) (met : Met) (p : Pass) (tokens : List String) : Reading tokens :=
  match tokens with
  | [] => ⟨s.close store met p [], p, [], Nat.le_refl _⟩
  | token :: rest =>
    match (s.keyed? store token).bind fun id => (s.flag? id).map fun flag => (id, flag) with
    | some (id, flag) =>
      match s.start p id flag with
      | .error e => ⟨.failed e, p, token :: rest, Nat.le_refl _⟩
      | .ok p =>
        if s.help = some id then ⟨.help, p.mark id, rest, Nat.le_succ _⟩
        else
          match flag.children with
          | none =>
            (readStore store (met.countFlag flag.policy) (p.complete id flag) rest).after token
          | some child =>
            match readStore child {} p rest with
            | ⟨.closed, p, left, h⟩ =>
              let r := readStore store (met.countFlag flag.policy) (p.complete id flag) left
              ⟨r.ending, r.pass, r.rest, Nat.le_succ_of_le (Nat.le_trans r.length_rest_le h)⟩
            | r => r.after token
    | none =>
      match s.offer p token (s.argsOf store) with
      | .taken id policy v => (readStore store (met.countArg policy) (p.fill id v) rest).after token
      | .refused name reason =>
        ⟨.failed (.conversionFailure name reason), p, token :: rest, Nat.le_refl _⟩
      | .declined => ⟨s.close store met p (token :: rest), p, token :: rest, Nat.le_refl _⟩
termination_by tokens.length

/-- What a whole command line can amount to. -/
inductive Outcome where
  | parsed
  | help
  deriving DecidableEq, Repr

/-- Reads a command line, without the name of the program, from the root. Every token must be
taken, unless help is asked for. -/
def parse (tokens : List String) : Pass × Except ParseError Outcome :=
  let r := s.readStore root {} {} tokens
  let outcome :=
    match r.ending, r.rest with
    | .help, _ => .ok .help
    | .failed e, _ => .error e
    | .closed, [] => .ok .parsed
    | .closed, token :: _ => .error (s.unexpected r.pass root token)
  ({ r.pass with consumed := tokens.take (tokens.length - r.rest.length) }, outcome)

end Scheme

end CommandGrammar
