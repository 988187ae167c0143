import CommandGrammar.Pipeline.Basic
import Mathlib.Data.List.Chain
import Mathlib.Data.List.Infix
import Mathlib.Logic.ExistsUnique

/-!
# What a pipeline carries out

A pipeline is put together from a conversion, by refinements and mappings. A recipe tells how, and
its links are the single steps in the order in which they were attached, those of a pipeline that
was mapped in front. A run carries out the links from the first on, each once and on what the one
before it gave, up to and including the first that fails. It notes what they note, in that order,
and ends as the last of them does. A step can be watched: it then notes in front what the watcher
says of it and of what it is given, and is the same step otherwise. A run in which all steps are
watched shows what is carried out.

So two mappings in a row are one, and refinements behind a failure are never reached.
-/

namespace CommandGrammar

variable {α β γ : Type}

/-- A value with the notes that were made on the way to it. -/
structure Noted (α : Type) where
  notes : List String := []
  value : α

namespace Noted

def bind (x : Noted α) (f : α → Noted β) : Noted β :=
  ⟨x.notes ++ (f x.value).notes, (f x.value).value⟩

/-- The attempt that cannot fail. -/
def attempt (x : Noted α) : Attempt α := ⟨x.notes, .ok x.value⟩

end Noted

/-! ## Recipes -/

namespace Pipeline

/-- Maps a pipeline by a function that can leave notes, but cannot fail. -/
def mapNoting (f : α → Noted β) (p : Pipeline α) : Pipeline β :=
  ofConversion fun token => (p.run token).bind fun a => (f a).attempt

theorem map_eq_mapNoting (f : α → β) (p : Pipeline α) :
    p.map f = p.mapNoting fun a => { value := f a } := by
  unfold map mapNoting
  congr 1
  funext token
  rcases p.run token with ⟨notes, e | a⟩ <;>
    simp [Attempt.map, Attempt.bind, Noted.attempt, Except.map]

@[simp]
theorem run_mapNoting (f : α → Noted β) (p : Pipeline α) (token : String) :
    (p.mapNoting f).run token = (p.run token).bind fun a => (f a).attempt :=
  run_ofConversion _ _

end Pipeline

/-- How a pipeline is put together. -/
inductive Recipe : Type → Type 1 where
  | convert {α : Type} (step : String → Attempt α) : Recipe α
  | andThen {α : Type} (r : Recipe α) (step : α → Attempt α) : Recipe α
  | map {α β : Type} (r : Recipe α) (f : α → Noted β) : Recipe β

/-- A single step, from values of one type to values of another. -/
structure Link where
  source : Type
  target : Type
  step : source → Attempt target

namespace Recipe

def pipeline : {α : Type} → Recipe α → Pipeline α
  | _, convert step => .ofConversion step
  | _, andThen r step => r.pipeline.andThen step
  | _, map r f => r.pipeline.mapNoting f

/-- All steps, in the order in which they were attached. -/
def links : {α : Type} → Recipe α → List Link
  | α, convert step => [⟨String, α, step⟩]
  | α, andThen r step => r.links ++ [⟨α, α, step⟩]
  | _, map (α := α) (β := β) r f => r.links ++ [⟨α, β, fun a => (f a).attempt⟩]

/-- Attaches refinements, one after the other. -/
def refinedBy (r : Recipe α) (steps : List (α → Attempt α)) : Recipe α :=
  steps.foldl andThen r

end Recipe

/-! ## What is carried out -/

/-- A step that is carried out on a value. -/
structure Execution extends Link where
  given : source

/-- What is said of each step that is carried out. -/
abbrev Watcher := Execution → List String

/-- A step under watch. -/
def Watcher.over (watch : Watcher) (step : α → Attempt β) (a : α) : Attempt β :=
  ⟨watch ⟨⟨α, β, step⟩, a⟩ ++ (step a).notes, (step a).result⟩

namespace Recipe

/-- The recipe with all steps under watch. -/
def watched (watch : Watcher) : {α : Type} → Recipe α → Recipe α
  | _, convert step => convert (watch.over step)
  | _, andThen r step => (r.watched watch).andThen (watch.over step)
  | _, map (α := α) (β := β) r f => (r.watched watch).map fun a =>
    ⟨watch ⟨⟨α, β, fun a => (f a).attempt⟩, a⟩ ++ (f a).notes, (f a).value⟩

theorem watched_nothing (r : Recipe α) : (r.watched fun _ => []) = r := by
  induction r with
  | convert step => rfl
  | andThen r step ih => exact congrArg (andThen · step) ih
  | map r f ih => exact congrArg (map · f) ih

end Recipe

namespace Execution

variable (x : Execution)

/-- What the step is carried out on. -/
def input : (α : Type) × α := ⟨x.source, x.given⟩

def attempt : Attempt x.target := x.step x.given

def notes : List String := x.attempt.notes

/-- What comes of it. -/
def outcome : Except String ((α : Type) × α) := x.attempt.result.map (Sigma.mk x.target)

def Fails : Prop := ∃ e, x.outcome = .error e

end Execution

/-- Links are carried out from a value on: one after the other, the first on that value and each
other one on what comes of the one before it, until one fails or none is left. -/
structure Executes (links : List Link) (v : (α : Type) × α) (xs : List Execution) : Prop where
  in_order : xs.map Execution.toLink <+: links
  first : ∀ x ∈ xs.head?, x.input = v
  onward : xs.IsChain fun x y => x.outcome = .ok y.input
  complete : xs.length < links.length → ∃ x ∈ xs.getLast?, x.Fails

/-- What a run of a recipe carries out, and what this says about the run. -/
structure Recipe.Performs (r : Recipe α) (token : String) (xs : List Execution) : Prop where
  executes : Executes r.links ⟨String, token⟩ xs
  /-- Under watch these steps are seen, in this order, and the run ends in the same way. -/
  watched : ∀ watch : Watcher, (r.watched watch).pipeline.run token =
    ⟨xs.flatMap fun x => watch x ++ x.notes, (r.pipeline.run token).result⟩
  notes : (r.pipeline.run token).notes = xs.flatMap Execution.notes
  ok_iff : ∀ a, (r.pipeline.run token).result = .ok a ↔ xs.map Execution.toLink = r.links ∧
    (∀ x ∈ xs, ¬x.Fails) ∧ ∃ x ∈ xs.getLast?, x.outcome = .ok ⟨α, a⟩
  error_iff : ∀ e, (r.pipeline.run token).result = .error e ↔ ∃ x ∈ xs, x.outcome = .error e
  /-- Refinements behind a failure make no difference. -/
  refined : (∃ x ∈ xs, x.Fails) → ∀ steps,
    (r.refinedBy steps).pipeline.run token = r.pipeline.run token ∧
      Executes (r.refinedBy steps).links ⟨String, token⟩ xs
  /-- A mapping that leaves no notes is the mapping of the pipeline. -/
  plain : ∀ {β : Type} (f : α → β), (r.map fun a => { value := f a }).pipeline = r.pipeline.map f
  /-- Two mappings in a row are one. -/
  mapped : ∀ {β γ : Type} (f : α → β) (g : β → γ),
    ((r.pipeline.map f).map g).run token = (r.pipeline.map (g ∘ f)).run token
  /-- So are two that leave notes. -/
  fused : ∀ {β γ : Type} (f : α → Noted β) (g : β → Noted γ),
    ((r.map f).map g).pipeline.run token = (r.map fun a => (f a).bind g).pipeline.run token

namespace Executes

variable {links : List Link} {l : Link} {v w : (α : Type) × α} {xs ys : List Execution}
  {x : Execution}

theorem single (l : Link) (a : l.source) : Executes [l] ⟨l.source, a⟩ [⟨l, a⟩] where
  in_order := List.prefix_rfl
  first _ hx := by
    cases hx
    rfl
  onward := .singleton _
  complete hlt := absurd hlt (lt_irrefl _)

/-- Nothing is carried out after a failure. -/
theorem last_of_fails (h : Executes links v xs) (hx : x ∈ xs) (hf : x.Fails) :
    x ∈ xs.getLast? := by
  obtain ⟨e, he⟩ := hf
  obtain ⟨before, after, rfl⟩ := List.append_of_mem hx
  rcases after with _ | ⟨y, after⟩
  · rw [List.getLast?_concat]
    rfl
  · have hc := (List.isChain_append.1 h.onward).2.1
    have hy := (List.isChain_cons.1 hc).1 y rfl
    cases he.symm.trans hy

/-- As long as nothing has failed, all links are carried out. -/
theorem map_toLink (h : Executes links v xs) (hf : ∀ x ∈ xs, ¬x.Fails) :
    xs.map Execution.toLink = links := by
  refine h.in_order.eq_of_length_le ?_
  rw [List.length_map]
  by_contra hlt
  obtain ⟨x, hx, hfails⟩ := h.complete (not_le.1 hlt)
  exact hf x (List.mem_of_mem_getLast? hx) hfails

/-- A further link is not carried out after a failure. -/
theorem append_of_fails (h : Executes links v xs) (hx : x ∈ xs) (hf : x.Fails)
    (more : List Link) : Executes (links ++ more) v xs where
  in_order := List.prefix_append_of_prefix h.in_order
  first := h.first
  onward := h.onward
  complete _ := ⟨x, h.last_of_fails hx hf, hf⟩

/-- Otherwise it is carried out on what has come of the last one. -/
theorem concat (h : Executes links v xs) (hx : x ∈ xs.getLast?) {a : l.source}
    (ho : x.outcome = .ok ⟨l.source, a⟩) : Executes (links ++ [l]) v (xs ++ [⟨l, a⟩]) := by
  have hnone : ∀ y ∈ xs, ¬y.Fails := fun y hy ⟨e, he⟩ => by
    obtain rfl : y = x := Option.some.inj ((h.last_of_fails hy ⟨e, he⟩).symm.trans hx)
    cases he.symm.trans ho
  have hall := h.map_toLink hnone
  have hlen : xs.length = links.length := by rw [← hall, List.length_map]
  refine ⟨?_, ?_, ?_, fun hlt => ?_⟩
  · rw [List.map_append, hall]
    exact List.prefix_rfl
  · rcases xs with _ | ⟨y, xs⟩
    · cases hx
    · exact h.first
  · refine h.onward.append (.singleton _) fun y hy z hz => ?_
    obtain rfl : y = x := Option.some.inj (hy.symm.trans hx)
    cases hz
    exact ho
  · simp [hlen] at hlt

theorem tail {v' : (α : Type) × α} (h : Executes (l :: links) v (x :: xs))
    (ho : x.outcome = .ok v') : Executes links v' xs where
  in_order := (List.cons_prefix_cons.1 h.in_order).2
  first y hy := by
    have := (List.isChain_cons.1 h.onward).1 y hy
    exact (Except.ok.inj (ho.symm.trans this)).symm
  onward := (List.isChain_cons.1 h.onward).2
  complete hlt := by
    obtain ⟨y, hy, hf⟩ := h.complete (Nat.succ_lt_succ hlt)
    rcases xs with _ | ⟨z, xs⟩
    · obtain rfl : x = y := Option.some.inj hy
      obtain ⟨e, he⟩ := hf
      cases he.symm.trans ho
    · exact ⟨y, hy, hf⟩

theorem eq_nil_of_fails (h : Executes links v (x :: xs)) (hf : x.Fails) : xs = [] := by
  rcases xs with _ | ⟨y, xs⟩
  · rfl
  · obtain ⟨e, he⟩ := hf
    cases he.symm.trans ((List.isChain_cons.1 h.onward).1 y rfl)

/-- What is carried out is settled by the links and the value that they start from. -/
theorem unique : ∀ {links : List Link} {v : (α : Type) × α} {xs ys : List Execution},
    Executes links v xs → Executes links v ys → xs = ys
  | [], _, xs, ys, h, h' => by
    rw [List.map_eq_nil_iff.1 (List.prefix_nil.1 h.in_order),
      List.map_eq_nil_iff.1 (List.prefix_nil.1 h'.in_order)]
  | l :: links, v, [], _, h, _ => by
    obtain ⟨x, hx, -⟩ := h.complete (Nat.succ_pos _)
    cases hx
  | l :: links, v, _ :: _, [], _, h' => by
    obtain ⟨x, hx, -⟩ := h'.complete (Nat.succ_pos _)
    cases hx
  | l :: links, v, x :: xs, y :: ys, h, h' => by
    obtain ⟨link, a⟩ := x
    obtain ⟨link', b⟩ := y
    obtain rfl : link = l := (List.cons_prefix_cons.1 h.in_order).1
    obtain rfl : link' = link := (List.cons_prefix_cons.1 h'.in_order).1
    obtain rfl : a = b := by
      have := (h.first _ rfl).trans (h'.first _ rfl).symm
      simpa [Execution.input] using this
    rcases ho : Execution.outcome ⟨link', a⟩ with e | v'
    · rw [h.eq_nil_of_fails ⟨e, ho⟩, h'.eq_nil_of_fails ⟨e, ho⟩]
    · rw [(h.tail ho).unique (h'.tail ho)]

end Executes

/-! ## Runs -/

theorem Attempt.bind_of_error {x : Attempt α} {e : String} (h : x.result = .error e)
    (f : α → Attempt α) : x.bind f = x := by
  rcases x with ⟨notes, e' | a⟩
  · rfl
  · cases h

/-- An attempt has the notes of the steps that are carried out for it under watch, and ends as the
last one. -/
structure Attempt.SumsUp (watch : Watcher) (x : Attempt α) (xs : List Execution) : Prop where
  notes : x.notes = xs.flatMap fun y => watch y ++ y.notes
  last : ∃ y ∈ xs.getLast?, y.outcome = x.result.map (Sigma.mk α)

namespace Attempt.SumsUp

variable {links : List Link} {v : (α : Type) × α} {watch watch' : Watcher} {x x' : Attempt α}
  {xs : List Execution}

theorem single (step : β → Attempt α) (b : β) :
    (watch.over step b).SumsUp watch [⟨⟨β, α, step⟩, b⟩] :=
  ⟨(List.flatMap_singleton ..).symm, _, rfl, rfl⟩

/-- A further step is carried out if the attempt has not failed. -/
theorem exists_bind (h : x.SumsUp watch xs) (hx : Executes links v xs) (step : α → Attempt β) :
    ∃ ys, Executes (links ++ [⟨α, β, step⟩]) v ys ∧ (x.bind (watch.over step)).SumsUp watch ys := by
  obtain ⟨hnotes, y, hy, ho⟩ := h
  rcases x with ⟨notes, e | a⟩
  · exact ⟨xs, hx.append_of_fails (List.mem_of_mem_getLast? hy) ⟨e, ho⟩ _, hnotes, y, hy, ho⟩
  · refine ⟨_, hx.concat hy ho, ?_, _, List.getLast?_concat, rfl⟩
    rw [List.flatMap_append, List.flatMap_singleton, ← hnotes]
    rfl

/-- How an attempt ends is settled by the steps that are carried out. -/
theorem result_eq (h : x.SumsUp watch xs) (h' : x'.SumsUp watch' xs) : x.result = x'.result := by
  obtain ⟨y, hy, ho⟩ := h.last
  obtain ⟨y', hy', ho'⟩ := h'.last
  obtain rfl : y = y' := Option.some.inj (hy.symm.trans hy')
  have hmap := ho.symm.trans ho'
  rcases hr : x.result with e | a <;> rcases hr' : x'.result with e' | a' <;>
    rw [hr, hr'] at hmap <;> cases hmap <;> rfl

theorem ok_iff (h : x.SumsUp watch xs) (hx : Executes links v xs) (a : α) :
    x.result = .ok a ↔ xs.map Execution.toLink = links ∧ (∀ y ∈ xs, ¬y.Fails) ∧
      ∃ y ∈ xs.getLast?, y.outcome = .ok ⟨α, a⟩ := by
  obtain ⟨-, y, hy, ho⟩ := h
  constructor
  · intro ha
    rw [ha] at ho
    have hnone : ∀ z ∈ xs, ¬z.Fails := fun z hz ⟨e, he⟩ => by
      obtain rfl : z = y := Option.some.inj ((hx.last_of_fails hz ⟨e, he⟩).symm.trans hy)
      cases he.symm.trans ho
    exact ⟨hx.map_toLink hnone, hnone, y, hy, ho⟩
  · rintro ⟨-, -, z, hz, hok⟩
    obtain rfl : z = y := Option.some.inj (hz.symm.trans hy)
    rcases hr : x.result with e | b
    · rw [hr] at ho
      cases ho.symm.trans hok
    · rw [hr] at ho
      cases ho.symm.trans hok
      rfl

theorem error_iff (h : x.SumsUp watch xs) (hx : Executes links v xs) (e : String) :
    x.result = .error e ↔ ∃ y ∈ xs, y.outcome = .error e := by
  obtain ⟨-, y, hy, ho⟩ := h
  constructor
  · intro he
    rw [he] at ho
    exact ⟨y, List.mem_of_mem_getLast? hy, ho⟩
  · rintro ⟨z, hz, he⟩
    obtain rfl : z = y := Option.some.inj ((hx.last_of_fails hz ⟨e, he⟩).symm.trans hy)
    rcases hr : x.result with e' | b
    · rw [hr] at ho
      cases ho.symm.trans he
      rfl
    · rw [hr] at ho
      cases ho.symm.trans he

end Attempt.SumsUp

namespace Recipe

variable {token : String}

/-- By induction on the recipe: each way to go on adds one link and one bind. -/
theorem exists_executes (watch : Watcher) (r : Recipe α) (token : String) :
    ∃ xs, Executes r.links ⟨String, token⟩ xs ∧
      ((r.watched watch).pipeline.run token).SumsUp watch xs := by
  induction r with
  | @convert α step =>
    rw [watched, pipeline, Pipeline.run_ofConversion]
    exact ⟨_, .single ⟨String, α, step⟩ token, .single step token⟩
  | andThen r step ih =>
    obtain ⟨xs, hx, h⟩ := ih
    rw [watched, pipeline, Pipeline.run_andThen]
    exact h.exists_bind hx step
  | map r f ih =>
    obtain ⟨xs, hx, h⟩ := ih
    rw [watched, pipeline, Pipeline.run_mapNoting]
    exact h.exists_bind hx fun a => (f a).attempt

theorem run_refinedBy {e : String} : ∀ (steps : List (α → Attempt α)) (r : Recipe α),
    (r.pipeline.run token).result = .error e →
      (r.refinedBy steps).pipeline.run token = r.pipeline.run token
  | [], _, _ => rfl
  | step :: steps, r, h => by
    have hrun : (r.andThen step).pipeline.run token = r.pipeline.run token := by
      rw [pipeline, Pipeline.run_andThen, Attempt.bind_of_error h]
    rw [← hrun] at h ⊢
    exact run_refinedBy steps (r.andThen step) h

theorem links_refinedBy : ∀ (steps : List (α → Attempt α)) (r : Recipe α),
    (r.refinedBy steps).links = r.links ++ steps.map fun step => ⟨α, α, step⟩
  | [], _ => (List.append_nil _).symm
  | step :: steps, r => (links_refinedBy steps (r.andThen step)).trans (List.append_assoc ..)

theorem run_map_map (r : Recipe α) (f : α → Noted β) (g : β → Noted γ) (token : String) :
    ((r.map f).map g).pipeline.run token =
      (r.map fun a => (f a).bind g).pipeline.run token := by
  simp only [pipeline, Pipeline.run_mapNoting, Attempt.bind_assoc]
  rfl

/-- Whatever a pipeline is put together from, a run carries out the links of its recipe in order, up
to and including the first that fails, and this settles what it notes and how it ends. -/
theorem run_performs (r : Recipe α) (token : String) : ∃! xs, r.Performs token xs := by
  obtain ⟨xs, hx, h⟩ := r.exists_executes (fun _ => []) token
  rw [watched_nothing] at h
  refine ⟨xs, ⟨hx, fun watch => ?_, h.notes, h.ok_iff hx, h.error_iff hx, ?_, ?_, ?_, ?_⟩,
    fun ys hys => hys.executes.unique hx⟩
  · obtain ⟨ys, hy, hwatch⟩ := r.exists_executes watch token
    obtain rfl := hy.unique hx
    have hresult := hwatch.result_eq h
    exact Attempt.ext hwatch.notes hresult
  · rintro ⟨x, hmem, e, he⟩ steps
    have herror := (h.error_iff hx e).2 ⟨x, hmem, he⟩
    rw [links_refinedBy]
    exact ⟨run_refinedBy steps r herror, hx.append_of_fails hmem ⟨e, he⟩ _⟩
  · intro β f
    exact (Pipeline.map_eq_mapNoting f r.pipeline).symm
  · intro β γ f g
    rw [Pipeline.run_map, Pipeline.run_map, Pipeline.run_map, Attempt.map_map]
  · intro β γ f g
    exact r.run_map_map f g token

/-- The first refinement is carried out on the token, the second one fails, and the mapping is not
reached. -/
example : ((((convert fun token => ⟨["read " ++ token], .ok token⟩).andThen
        fun a => ⟨["double " ++ a], .ok (a ++ a)⟩).andThen
        fun a => ⟨["refuse " ++ a], .error "no"⟩).map
        fun a => ⟨["count " ++ a], a.length⟩).pipeline.run "x" =
    ⟨["read x", "double x", "refuse xx"], .error "no"⟩ := rfl

end Recipe

end CommandGrammar
