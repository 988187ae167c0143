import CommandGrammar.Literal
import CommandGrammar.Pipeline.Attempt

/-!
# Conversion pipelines

A pipeline turns a token into a value. It converts once and then refines the value step by step, in
the order in which the steps were attached; the first step that fails ends the run. Mapping a
pipeline makes a whole one the conversion of another, so it counts as a single step there.
-/

namespace CommandGrammar

structure Pipeline (α : Type) where
  convert : String → Attempt α
  refinements : List (α → Attempt α)

namespace Pipeline

variable {α β : Type}

def ofConversion (convert : String → Attempt α) : Pipeline α := ⟨convert, []⟩

/-- Attaches a refinement at the end. -/
def andThen (p : Pipeline α) (step : α → Attempt α) : Pipeline α :=
  { p with refinements := p.refinements ++ [step] }

/-- Refines a value by each step in turn. -/
def refine : List (α → Attempt α) → α → Attempt α
  | [], a => .succeed a
  | step :: steps, a => (step a).bind (refine steps)

def run (p : Pipeline α) (token : String) : Attempt α :=
  (p.convert token).bind (refine p.refinements)

/-- The conversion and its refinements. -/
def steps (p : Pipeline α) : Nat :=
  1 + p.refinements.length

def map (f : α → β) (p : Pipeline α) : Pipeline β :=
  ofConversion fun token => (p.run token).map f

def describe (p : Pipeline α) : String :=
  "Pipeline \x7b steps: " ++ toString p.steps ++ " \x7d"

/-- Reads a literal; a fault is reported in its own words. -/
def ofLiteral (l : Literal α) : Pipeline α :=
  ofConversion fun token => .ofExcept ((l token).mapError Literal.Fault.message)

/-- Reads a literal; every fault is reported by the same message. -/
def ofLiteralOr (message : String) (l : Literal α) : Pipeline α :=
  ofConversion fun token => .ofExcept ((l token).mapError fun _ => message)

theorem refine_append (xs ys : List (α → Attempt α)) (a : α) :
    refine (xs ++ ys) a = (refine xs a).bind (refine ys) := by
  induction xs generalizing a with
  | nil => simp [refine]
  | cons step xs ih =>
    simp only [List.cons_append, refine, Attempt.bind_assoc]
    congr 1
    exact funext ih

@[simp]
theorem run_ofConversion (convert : String → Attempt α) (token : String) :
    (ofConversion convert).run token = convert token := by
  rcases h : convert token with ⟨ns, e | a⟩ <;>
    simp [run, ofConversion, Attempt.bind, refine, Attempt.succeed, h]

theorem run_andThen (p : Pipeline α) (step : α → Attempt α) (token : String) :
    (p.andThen step).run token = (p.run token).bind step := by
  simp only [run, andThen, Attempt.bind_assoc]
  congr 1
  funext a
  rw [refine_append]
  congr 1
  funext b
  rcases h : step b with ⟨ns, e | c⟩ <;> simp [refine, Attempt.bind, Attempt.succeed, h]

@[simp]
theorem run_map (f : α → β) (p : Pipeline α) (token : String) :
    (p.map f).run token = (p.run token).map f :=
  run_ofConversion _ _

end Pipeline

end CommandGrammar
