import CommandGrammar.Grammar.Basic
import CommandGrammar.Grammar.Error
import CommandGrammar.Pipeline.Conversion
import CommandGrammar.Pipeline.Range

/-!
# Converters at work

A converter becomes the pipeline that it describes, unless its settings leave nothing to accept. A
number between two ends is checked as a range; one end alone has messages of its own.
-/

namespace CommandGrammar

namespace Bounds

variable {α : Type} [LE α] [LT α] [DecidableLE α] [DecidableLT α]

/-- Whether the lower end is above the upper one. -/
def isInverted (b : Bounds α) : Bool :=
  match b.min, b.max with
  | some min, some max => max < min
  | _, _ => false

variable [Shown α]

def check (b : Bounds α) (x : α) : Except String α :=
  match b.min, b.max with
  | some min, some max => (Range.mk min max b.minInclusive b.maxInclusive).check x
  | some min, none =>
    if Range.above min b.minInclusive x then .ok x
    else if b.minInclusive then
      .error ("Expected value to be at least " ++ Shown.text min ++ ".")
    else .error ("Expected value to be greater than " ++ Shown.text min ++ ".")
  | none, some max =>
    if Range.below max b.maxInclusive x then .ok x
    else if b.maxInclusive then .error ("Expected value to be at most " ++ Shown.text max ++ ".")
    else .error ("Expected value to be less than " ++ Shown.text max ++ ".")
  | none, none => .ok x

/-- The check as a refinement of a pipeline. -/
def step (b : Bounds α) (x : α) : Attempt α :=
  .ofExcept (b.check x)

end Bounds

namespace Converter

/-- Why no token can ever be accepted, if that is so. -/
def fault? : Converter → Option ConverterFault
  | integer b | unsigned b => if b.isInverted then some .minAboveMax else none
  | number b => if b.isInverted then some .minAboveMax else none
  | choice values => if values.isEmpty then some .noChoices else none
  | text | existingFile | existingDirectory => none

/-- The conversion itself. -/
def convert (files : Files) : Converter → Pipeline Value
  | text => Pipeline.text.map .text
  | integer b => ((Pipeline.integer (Literal.int .i64)).andThen b.step).map (.int .i64)
  | unsigned b => ((Pipeline.unsigned (Literal.int .u64)).andThen b.step).map (.int .u64)
  | number b => ((Pipeline.number Literal.float).andThen b.step).map .float
  | choice values => (Pipeline.text.andThen (Pipeline.oneOf values)).map .text
  | existingFile => (Pipeline.existingFile files).map .path
  | existingDirectory => (Pipeline.existingDirectory files).map .path

/-- The pipeline for an argument of the given name. -/
def pipeline (files : Files) (argument : String) (c : Converter) :
    Except GrammarError (Pipeline Value) :=
  match c.fault? with
  | some fault => .error (.invalidConverter argument fault)
  | none => .ok (c.convert files)

end Converter

end CommandGrammar
