/-!
# Attempts

An attempt ends in a value or in a failure message, and keeps the notes made on the way, also when
it fails. Attempts compose: the second one starts from the value of the first, and its notes follow.
-/

namespace CommandGrammar

structure Attempt (α : Type) where
  notes : List String
  result : Except String α

namespace Attempt

variable {α β γ : Type}

def succeed (a : α) : Attempt α := ⟨[], .ok a⟩

def fail (message : String) : Attempt α := ⟨[], .error message⟩

/-- Leaves a note and keeps the value. -/
def note (text : String) (a : α) : Attempt α := ⟨[text], .ok a⟩

def bind (x : Attempt α) (f : α → Attempt β) : Attempt β :=
  match x.result with
  | .ok a => ⟨x.notes ++ (f a).notes, (f a).result⟩
  | .error e => ⟨x.notes, .error e⟩

def map (f : α → β) (x : Attempt α) : Attempt β := ⟨x.notes, x.result.map f⟩

def ofExcept (r : Except String α) : Attempt α := ⟨[], r⟩

@[ext]
theorem ext {x y : Attempt α} (hn : x.notes = y.notes) (hr : x.result = y.result) : x = y := by
  cases x
  cases y
  simp_all

@[simp]
theorem succeed_bind (a : α) (f : α → Attempt β) : (succeed a).bind f = f a := by
  simp [bind, succeed]

@[simp]
theorem fail_bind (e : String) (f : α → Attempt β) : (fail e).bind f = fail e := rfl

theorem bind_assoc (x : Attempt α) (f : α → Attempt β) (g : β → Attempt γ) :
    (x.bind f).bind g = x.bind fun a => (f a).bind g := by
  rcases x with ⟨ns, e | a⟩
  · rfl
  · rcases h : f a with ⟨ms, e | b⟩ <;> simp [bind, h]

@[simp]
theorem map_map (x : Attempt α) (f : α → β) (g : β → γ) : (x.map f).map g = x.map (g ∘ f) := by
  rcases x with ⟨ns, e | a⟩ <;> rfl

end Attempt

end CommandGrammar
