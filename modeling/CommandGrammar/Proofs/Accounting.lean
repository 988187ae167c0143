import CommandGrammar.Proofs.Refinement
import CommandGrammar.Proofs.Trail
import Mathlib.Data.List.NodupEquivFin

/-!
# What became of the consumed tokens

However a pass ends, every token that it consumed belongs to one node, and every node that it found
or left open has one of the tokens. The flags that were left open lead down from the root. The
tokens of what stands under a flag follow its key without a gap.
-/

namespace CommandGrammar.Scheme

open Relation

variable (s : Scheme)

/-- The flags whose stores are open when a pass ends, the innermost first. -/
def openFlags (tokens : List String) : List FlagId :=
  (s.walk { rest := tokens }).1.frames.map (·.owner)

/-- Each flag of a list is one of the store of the next, the last one of the root; the first owns
the store that the list leads to. -/
inductive Leads : List FlagId → StoreId → Prop where
  | root : Leads [] root
  | step {ids store key id f child} (h : Leads ids store) (hk : (key, id) ∈ s.keysOf store)
      (hf : s.flag? id = some f) (hc : f.children = some child) : Leads (id :: ids) child

/-- What a pass consumed a token for: what has matched and the open flags. -/
def Taken (p : Pass) (opened : List FlagId) : Node → Prop
  | .flag id => p.isMatched id = true ∨ id ∈ opened
  | .arg id => p.isFilled id = true

/-- Every position of the consumed tokens is that of a node: its token is the key of the node or
was converted to its value, and the positions of a flag and all that stands under it are those from
its key to some other one. -/
structure Accounts (p : Pass) (opened : List FlagId)
    (node : Fin p.consumed.length ≃ { n // Taken p opened n }) : Prop where
  explained : ∀ i, s.Explains p p.consumed[i] (node i)
  interval : ∀ id, Taken p opened (.flag id) → ∃ lo hi, (node lo : Node) = .flag id ∧ lo ≤ hi ∧
    ∀ i, ((node i : Node) = .flag id ∨ s.Under id (node i)) ↔ lo ≤ i ∧ i ≤ hi

structure Accounted (p : Pass) (opened : List FlagId) (outcome : Except ParseError Outcome) :
    Prop where
  positions : ∃ node, s.Accounts p opened node
  nested : ∃ store, s.Leads opened store
  unfinished : ∀ id ∈ opened, p.isMatched id = false
  finished : ∀ o, outcome = .ok o → opened = []

variable {s} {w last : Walk}

theorem Chain.leads : ∀ {fs : List Frame}, s.Chain fs →
    s.Leads (fs.map (·.owner)) (Walk.topOf fs)
  | [], _ => .root
  | _ :: _, ⟨hf, hc, hk, hfs⟩ => .step hfs.leads hk hf hc

/-- A pass without failure leaves no store open: help is asked for in the root. -/
theorem Halt.frames_eq_nil {o : Outcome} (hw : s.Sound w) (ha : s.WellFormed)
    (h : s.Halt w last (.ok o)) : last.frames = [] := by
  rcases h with _ | _ | ⟨-, hk, -, -, hh⟩ | _ | _ | ⟨hf, -, -⟩
  · obtain ⟨hkey, -⟩ := keyFlag?_eq_some ha.toLinked hk
    obtain ⟨f, -, -, -, -, hl⟩ := ha.help_flag hh
    obtain ⟨f, -, -, hroot⟩ := ha.flag_listed hl
    have htop : w.top = root := ha.key_store_unique hkey hroot
    exact hw.chain.eq_nil_of_root ha htop
  · exact hf

section Positions

variable {α : Type} {P : α → Prop}

/-- The elements that satisfy a property, when they stand next to each other. -/
theorem getElem_span (before inner after : List α) (hb : ∀ x ∈ before, ¬P x)
    (hi : ∀ x ∈ inner, P x) (haf : ∀ x ∈ after, ¬P x) (i : Nat)
    (h : i < (before ++ (inner ++ after)).length) :
    P (before ++ (inner ++ after))[i] ↔
      before.length ≤ i ∧ i < before.length + inner.length := by
  rcases lt_or_ge i before.length with hlt | hle
  · rw [List.getElem_append_left hlt]
    exact iff_of_false (hb _ (List.getElem_mem hlt)) (by omega)
  · rw [List.getElem_append_right hle]
    rcases lt_or_ge (i - before.length) inner.length with hlt | hge
    · rw [List.getElem_append_left hlt]
      exact iff_of_true (hi _ (List.getElem_mem hlt)) (by omega)
    · rw [List.getElem_append_right hge]
      exact iff_of_false (haf _ (List.getElem_mem _)) (by omega)

end Positions

theorem Trail.interval {trail : List Node} (ht : s.Trail w trail) {id : FlagId}
    (hid : w.Touched (.flag id)) : ∃ lo hi, ∃ (hlo : lo < trail.length) (_ : hi < trail.length),
      trail[lo] = .flag id ∧ lo ≤ hi ∧ ∀ i (hi' : i < trail.length),
        (trail[i] = .flag id ∨ s.Under id trail[i]) ↔ lo ≤ i ∧ i ≤ hi := by
  obtain ⟨before, inner, after, rfl, hb, hin, haf, -⟩ := ht.spans hid
  have hn := List.nodup_middle.1 ht.nodup
  rw [List.nodup_cons, List.mem_append, List.mem_append, not_or, not_or] at hn
  obtain ⟨⟨hnb, -, hna⟩, -⟩ := hn
  have hspan := getElem_span (P := fun n => n = .flag id ∨ s.Under id n) before
    (.flag id :: inner) after
    (fun n hm h => h.elim (fun h => hnb (h ▸ hm)) (hb n hm))
    (List.forall_mem_cons.2 ⟨.inl rfl, fun n hm => .inr (hin n hm)⟩)
    (fun n hm h => h.elim (fun h => hna (h ▸ hm)) (haf n hm))
  have hlen : (before ++ .flag id :: (inner ++ after)).length =
      before.length + inner.length + after.length + 1 := by
    rw [List.length_append, List.length_cons, List.length_append]
    omega
  refine ⟨before.length, before.length + inner.length, by omega, by omega, by simp, by omega,
    fun i hi => (hspan i hi).trans ?_⟩
  rw [List.length_cons]
  omega

theorem Trail.accounts {trail : List Node} (ht : s.Trail w trail) :
    ∃ node, s.Accounts { w.pass with consumed := w.consumed } (w.frames.map (·.owner)) node := by
  set p : Pass := { w.pass with consumed := w.consumed } with hp
  have hmem : ∀ n, n ∈ trail ↔ Taken p (w.frames.map (·.owner)) n := by
    intro n
    rw [ht.mem_iff]
    rcases n with id | id
    · simp only [Taken, Walk.Touched, Walk.IsOpen, List.mem_map]
      rfl
    · rfl
  have hlen : p.consumed.length = trail.length := ht.explained.length_eq
  refine ⟨(finCongr hlen).trans ((ht.nodup.getEquiv trail).trans
    (Equiv.subtypeEquivRight hmem)), fun i => ?_, fun id hid => ?_⟩
  · have hex := ht.explained.get i.2 (hlen ▸ i.2)
    exact hex.grows Pass.grows_consumed
  · obtain ⟨lo, hi, hlo, hhi, h, hle, hiff⟩ := ht.interval ((ht.mem_iff _).1 ((hmem _).2 hid))
    exact ⟨⟨lo, hlen ▸ hlo⟩, ⟨hi, hlen ▸ hhi⟩, h, hle, fun i => hiff i (hlen ▸ i.2)⟩

theorem parse_accounted (ha : s.WellFormed) (tokens : List String) :
    s.Accounted (s.parse tokens).1 (s.openFlags tokens) (s.parse tokens).2 := by
  obtain ⟨w, hr, ho⟩ := walk_reaches (s := s) { rest := tokens }
  have hw := sound_of_reaches ha hr
  have hlast := hw.halt ha ho
  obtain ⟨trail, ht⟩ := (trail_start tokens).reaches (sound_start tokens) ha hr
  obtain ⟨trail', ht'⟩ := ht.halt hw ha ho
  rw [parse_eq_walk ha]
  refine ⟨ht'.accounts, ⟨_, Chain.leads hlast.chain⟩, fun id hid => ?_, fun o hok => ?_⟩
  · obtain ⟨f, hf, rfl⟩ := List.mem_map.1 hid
    exact hlast.open_unmatched ⟨f, hf, rfl⟩
  · simp only [] at hok
    rw [hok] at ho
    rw [openFlags, ho.frames_eq_nil hw ha, List.map_nil]

end CommandGrammar.Scheme

namespace CommandGrammar.Session

/-- Whatever a session went through before, and however a pass ends, the tokens that it consumed
are accounted for. -/
theorem after_parse_accounted (script : List Call) (tokens : List String) :
    (after script).scheme.Accounted ((after script).parse tokens).1.pass
      ((after script).scheme.openFlags tokens) ((after script).parse tokens).2 :=
  Scheme.parse_accounted (after_wellFormed script) tokens

end CommandGrammar.Session
