import CommandGrammar.Proofs.Lookahead
import CommandGrammar.Proofs.Options

/-!
# The turns of stores

Stores take turns at the tokens of a command line. A turn is a store, with the units that it has
met, in front of the tokens that are left. It is followed by another one of the same store behind
what the store took, or by the first one of a store that it opens. Every turn that comes about in a
pass is followed up to the one that the pass ends with, so an error is raised by the store of a
turn.

The machine comes by every turn: the store is the innermost open one, and the units that it has met
by its own count are those that have matched.
-/

namespace CommandGrammar

structure Turn where
  store : StoreId
  met : Met
  pass : Pass
  tokens : List String

/-- A state of the machine, with the consumed tokens where a pass keeps them in the end. -/
def Walk.record (w : Walk) : Walk := { w with pass := { w.pass with consumed := w.consumed } }

namespace Scheme

open Relation

variable (s : Scheme)

/-- The store of a turn takes its next token, and goes on or opens a store; a store that was opened
is read to its end before the one around it goes on. -/
inductive Follows : Turn → Turn → Prop where
  | simple {store met p p' token rest id flag} (hk : s.keyFlag? store token = some (id, flag))
      (hp : s.start p id flag = .ok p') (hh : s.help ≠ some id) (hc : flag.children = none) :
      Follows ⟨store, met, p, token :: rest⟩
        ⟨store, met.countFlag flag.policy, p'.complete id flag, rest⟩
  | enter {store met p p' token rest id flag child}
      (hk : s.keyFlag? store token = some (id, flag)) (hp : s.start p id flag = .ok p')
      (hh : s.help ≠ some id) (hc : flag.children = some child) :
      Follows ⟨store, met, p, token :: rest⟩ ⟨child, {}, p', rest⟩
  | leave {store met p p' q token rest left id flag child hle}
      (hk : s.keyFlag? store token = some (id, flag)) (hp : s.start p id flag = .ok p')
      (hh : s.help ≠ some id) (hc : flag.children = some child)
      (hr : s.readStore child {} p' rest = ⟨.closed, q, left, hle⟩) :
      Follows ⟨store, met, p, token :: rest⟩
        ⟨store, met.countFlag flag.policy, q.complete id flag, left⟩
  | fill {store met p token rest id policy v} (hk : s.keyFlag? store token = none)
      (ho : s.offer p token (s.argsOf store) = .taken id policy v) :
      Follows ⟨store, met, p, token :: rest⟩ ⟨store, met.countArg policy, p.fill id v, rest⟩

/-- A turn comes about in the pass over a command line. -/
abbrev Turns (tokens : List String) (t : Turn) : Prop :=
  ReflTransGen s.Follows ⟨root, {}, {}, tokens⟩ t

/-- The store of a turn takes no token: none is left, or it cannot take the next one. -/
def Stops (t : Turn) : Prop := ∀ token rest, t.tokens = token :: rest →
  s.keyFlag? t.store token = none ∧ s.offer t.pass token (s.argsOf t.store) = .declined

/-- The pass ends at a turn with an error. -/
inductive Fails (t : Turn) : ParseError → Prop where
  | start {token rest id flag e} (ht : t.tokens = token :: rest)
      (hk : s.keyFlag? t.store token = some (id, flag)) (he : s.start t.pass id flag = .error e) :
      Fails t e
  | refused {token rest name reason} (ht : t.tokens = token :: rest)
      (hk : s.keyFlag? t.store token = none)
      (ho : s.offer t.pass token (s.argsOf t.store) = .refused name reason) :
      Fails t (.conversionFailure name reason)
  | lacking {e} (hn : s.Stops t) (hl : s.lack? t.store t.met t.pass t.tokens = some e) : Fails t e
  | leftover {token rest} (ht : t.tokens = token :: rest) (hn : s.Stops t)
      (hl : s.lack? t.store t.met t.pass t.tokens = none) (hr : t.store = root) :
      Fails t (s.unexpected t.pass root token)

/-- The store of a turn raises the error of the pass over a command line. -/
structure Raises (tokens : List String) (t : Turn) (e : ParseError) : Prop where
  turn : s.Turns tokens t
  fails : s.Fails t e

/-- What the last turn of a reading is, by how the reading ends. -/
inductive Concludes (t : Turn) : StoreId → Ending → Pass → List String → Prop where
  | closed (hn : s.Stops t) (hl : s.lack? t.store t.met t.pass t.tokens = none) :
      Concludes t t.store .closed t.pass t.tokens
  | help {store p rest} : Concludes t store .help p rest
  | failed {store p rest e} (h : s.Fails t e) : Concludes t store (.failed e) p rest

variable {s} {t t' : Turn} {tokens : List String} {e : ParseError}

theorem concludes_close (hn : s.Stops t) :
    s.Concludes t t.store (s.close t.store t.met t.pass t.tokens) t.pass t.tokens := by
  unfold close
  rcases hl : s.lack? t.store t.met t.pass t.tokens with _ | e
  · exact .closed hn hl
  · exact .failed (.lacking hn hl)

theorem exists_last_turn (store : StoreId) (met : Met) (p : Pass) (tokens : List String) :
    ∃ t, ReflTransGen s.Follows ⟨store, met, p, tokens⟩ t ∧
      s.Concludes t store (s.readStore store met p tokens).ending
        (s.readStore store met p tokens).pass (s.readStore store met p tokens).rest := by
  fun_induction readStore s store met p tokens with
  | case1 store met p =>
    exact ⟨⟨store, met, p, []⟩, .refl, concludes_close fun token rest h => by cases h⟩
  | case2 store met p token rest id flag hk e he =>
    exact ⟨_, .refl, .failed (.start rfl hk he)⟩
  | case3 => exact ⟨_, .refl, .help⟩
  | case4 store met p token rest id flag hk p' hp hh hc ih =>
    obtain ⟨t, ht, h⟩ := ih
    exact ⟨t, .head (.simple hk hp hh hc) ht, h⟩
  | case5 store met p token rest id flag hk p₁ hp hh child hc p₂ left hle hr r ihc ih =>
    obtain ⟨t, ht, h⟩ := ih
    exact ⟨t, .head (.leave hk hp hh hc hr) ht, h⟩
  | case6 store met p token rest id flag hk p₁ hp hh child hc hr ih =>
    obtain ⟨t, ht, h⟩ := ih
    refine ⟨t, .head (.enter hk hp hh hc) ht, ?_⟩
    rcases hre : s.readStore child {} p₁ rest with ⟨ending, p', left, hle⟩
    rw [hre] at h
    -- a store that is done is the case before, so the opened one ends the reading around it
    rcases h with _ | _ | h
    · exact absurd hre (hr _ _ hle)
    · exact .help
    · exact .failed h
  | case7 store met p token rest hk id policy v ho ih =>
    obtain ⟨t, ht, h⟩ := ih
    exact ⟨t, .head (.fill hk ho) ht, h⟩
  | case8 store met p token rest hk name reason ho =>
    exact ⟨_, .refl, .failed (.refused rfl hk ho)⟩
  | case9 store met p token rest hk ho =>
    refine ⟨⟨store, met, p, token :: rest⟩, .refl, concludes_close fun token' rest' h => ?_⟩
    cases h
    exact ⟨hk, ho⟩

/-- A failed pass has a store that raises its error. -/
theorem exists_raises (h : (s.parse tokens).2 = .error e) : ∃ t, s.Raises tokens t e := by
  obtain ⟨t, ht, hlast⟩ := exists_last_turn (s := s) root {} {} tokens
  unfold parse at h
  rcases hr : s.readStore root {} {} tokens with ⟨ending, p, rest, hle⟩
  rw [hr] at hlast h
  generalize hroot : root = store at hlast
  rcases hlast with ⟨hn, hl⟩ | _ | hf
  · rcases hrest : t.tokens with _ | ⟨token, rest⟩ <;> simp only [hrest] at h
    · cases h
    · cases h
      exact ⟨t, ht, .leftover hrest hn hl hroot.symm⟩
  · cases h
  · cases h
    exact ⟨t, ht, hf⟩

section Offer

variable {store : StoreId} {p : Pass} {token : String}

theorem taker?_of_taken {id : ArgId} {policy : Policy} {v : Value}
    (h : s.offer p token (s.argsOf store) = .taken id policy v) :
    s.taker? p store token = some (id, .ok v) ∧ ∃ arg, s.arg? id = some arg ∧
      arg.policy = policy := by
  have hoff := offer_eq (s := s) p token (s.argsOf store)
  rwa [h] at hoff

theorem taker?_of_refused {name reason : String}
    (h : s.offer p token (s.argsOf store) = .refused name reason) :
    ∃ id, s.taker? p store token = some (id, .error (.conversionFailure name reason)) := by
  have hoff := offer_eq (s := s) p token (s.argsOf store)
  rwa [h] at hoff

theorem taker?_of_declined (h : s.offer p token (s.argsOf store) = .declined) :
    s.taker? p store token = none := by
  have hoff := offer_eq (s := s) p token (s.argsOf store)
  rwa [h] at hoff

end Offer

section Machine

variable (s) in
/-- A state of the machine in which the innermost open store has a turn. -/
structure OnTurn (w : Walk) (t : Turn) : Prop where
  top : w.top = t.store
  pass : w.pass = t.pass
  rest : w.rest = t.tokens
  met : s.metUnits w.pass w.top = t.met

variable {w : Walk}

/-- The machine comes from each turn to those that follow it. -/
theorem Follows.exists_reaches (ha : s.WellFormed) (hw : s.Sound w) (ho : s.OnTurn w t)
    (h : s.Follows t t') : ∃ w', ReflTransGen s.Advance w w' ∧ s.OnTurn w' t' := by
  obtain ⟨htop, hpass, hr, hmet⟩ := ho
  cases h with
  | @simple store met p p' token rest id flag hk hp hh hc =>
    obtain rfl : w.top = store := htop
    obtain rfl : w.pass = p := hpass
    obtain ⟨hm, hg, rfl⟩ := start_eq_ok hp
    obtain ⟨hkey, hf, -⟩ := keyFlag?_eq_some ha.toLinked hk
    refine ⟨_, .single (.simple hr hk hm hg hh hc), rfl, rfl, rfl, ?_⟩
    calc s.metUnits ((w.pass.choosing id flag).complete id flag) w.top
        = (s.metUnits (w.pass.choosing id flag) w.top).countFlag flag.policy :=
          metUnits_complete ha hkey hf (hw.stands_choosing hf hg) (by simpa using hm)
      _ = met.countFlag flag.policy := congrArg (·.countFlag flag.policy)
          ((metUnits_choosing hm hg).trans hmet)
  | @enter store met p p' token rest id flag child hk hp hh hc =>
    obtain rfl : w.top = store := htop
    obtain rfl : w.pass = p := hpass
    obtain ⟨hm, hg, rfl⟩ := start_eq_ok hp
    obtain ⟨hkey, hf, -⟩ := keyFlag?_eq_some ha.toLinked hk
    exact ⟨_, .single (.nested hr hk hm hg hh hc), rfl, rfl, rfl,
      (metUnits_choosing hm hg).trans (hw.metUnits_child ha hf hc ⟨token, hkey⟩ hm)⟩
  | @leave store met p p' q token rest left id flag child hle hk hp hh hc hread =>
    obtain rfl : w.top = store := htop
    obtain rfl : w.pass = p := hpass
    obtain ⟨hm, hg, rfl⟩ := start_eq_ok hp
    obtain ⟨hkey, hf, -⟩ := keyFlag?_eq_some ha.toLinked hk
    have hstep : s.Advance w ⟨⟨id, flag, child⟩ :: w.frames, w.pass.choosing id flag,
        w.consumed ++ [token], rest⟩ := .nested hr hk hm hg hh hc
    have hw₁ := hw.advance ha hstep
    have hzero : s.metUnits (w.pass.choosing id flag) child = {} :=
      (metUnits_choosing hm hg).trans (hw.metUnits_child ha hf hc ⟨token, hkey⟩ hm)
    have hchild := readStore_mirrors ha child {} _ rest _ _ hw₁ rfl hzero
    rw [hread] at hchild
    obtain ⟨consumed, hreach, hn, hs, hlow⟩ := hchild.exists_of_closed
    have hw₂ := hw₁.reaches ha hreach
    have hopen : Walk.IsOpen ⟨⟨id, flag, child⟩ :: w.frames, q, consumed, left⟩ id :=
      ⟨_, List.mem_cons_self, rfl⟩
    refine ⟨_, .head hstep (hreach.tail (.close rfl hn hs)), rfl, rfl, rfl, ?_⟩
    calc s.metUnits (q.complete id flag) w.top
        = (s.metUnits q w.top).countFlag flag.policy :=
          metUnits_complete ha hkey hf (hw₂.stands hf (.inr hopen)) (hw₂.open_unmatched hopen)
      _ = met.countFlag flag.policy := congrArg (·.countFlag flag.policy)
          ((hlow _ (ha.deeper hkey hf hc)).trans ((metUnits_choosing hm hg).trans hmet))
  | @fill store met p token rest id policy v hk hoff =>
    obtain rfl : w.top = store := htop
    obtain rfl : w.pass = p := hpass
    obtain ⟨ht, arg, harg, rfl⟩ := taker?_of_taken hoff
    obtain ⟨hmem, hans⟩ := taker?_eq_some ht
    exact ⟨_, .single (.fill hr hk ht), rfl, rfl, rfl,
      (metUnits_fill ha hmem harg (answer?_eq_ok hans).1).trans
        (congrArg (·.countArg arg.policy) hmet)⟩

theorem Turns.exists_walk (ha : s.WellFormed) (h : s.Turns tokens t) :
    ∃ w, ReflTransGen s.Advance { rest := tokens } w ∧ s.OnTurn w t := by
  induction h with
  | refl => exact ⟨_, .refl, rfl, rfl, rfl, metUnits_start root⟩
  | tail _ h ih =>
    obtain ⟨w, hw, ho⟩ := ih
    obtain ⟨w', hw', ho'⟩ := h.exists_reaches ha (sound_of_reaches ha hw) ho
    exact ⟨w', hw.trans hw', ho'⟩

theorem Stops.declines (h : s.Stops t) (ho : s.OnTurn w t) : s.Declines w := by
  intro token rest hr
  obtain ⟨hk, hoff⟩ := h token rest (ho.rest.symm.trans hr)
  rw [ho.top, ho.pass]
  exact ⟨hk, taker?_of_declined hoff⟩

theorem OnTurn.lack?_eq (ha : s.WellFormed) (ho : s.OnTurn w t) :
    s.lack? t.store t.met t.pass t.tokens = s.shortfall? w.pass w.top w.rest := by
  rw [← ho.top, ← ho.met, ← ho.pass, ← ho.rest]
  exact lack?_metUnits ha _ _ _

/-- A store that stops in front of a token has met as many mandatory arguments as it has. -/
theorem Turns.args_met (ha : s.WellFormed) (h : s.Turns tokens t) (hn : s.Stops t)
    {token : String} {rest : List String} (ht : t.tokens = token :: rest) {st : Store}
    (hst : s.store? t.store = some st) :
    ¬t.met.args < st.argTally.mandatory := by
  obtain ⟨w, -, ho⟩ := h.exists_walk ha
  obtain ⟨-, htk⟩ := hn.declines ho token rest (ho.rest.trans ht)
  rw [ho.top] at htk
  rw [← ho.met, ho.top, metUnits_args_lt ha hst, (allDecline_of_taker? ha htk).lacksArg_eq]
  exact Bool.false_ne_true

/-- A store that fails at its turn stops the machine. -/
theorem Fails.halt (ha : s.WellFormed) (hw : s.Sound w) (ho : s.OnTurn w t) (h : s.Fails t e) :
    s.Halt w w (.error e) := by
  have htop := ho.top
  have hpass := ho.pass
  cases h with
  | start ht hk he =>
    rw [← htop] at hk
    rw [← hpass] at he
    exact start_eq_error (ho.rest.trans ht) hk he
  | refused ht hk hoff =>
    obtain ⟨id, hoff⟩ := taker?_of_refused hoff
    rw [← htop] at hk hoff
    rw [← hpass] at hoff
    exact .refused (ho.rest.trans ht) hk hoff
  | lacking hn hl => exact .lacking (hn.declines ho) ((ho.lack?_eq ha).symm.trans hl)
  | @leftover token rest ht hn hl hr =>
    obtain ⟨hk, htk⟩ := hn.declines ho token rest (ho.rest.trans ht)
    have hf : w.frames = [] := hw.chain.eq_nil_of_root ha (htop.trans hr)
    rw [← hpass]
    exact .leftover hf (ho.rest.trans ht) hk htk ((ho.lack?_eq ha).symm.trans hl)

theorem Sound.record (hw : s.Sound w) : s.Sound w.record :=
  ⟨hw.chain, hw.open_unmatched, hw.known, hw.reached, hw.chosen_member, hw.member_chosen,
    hw.matched_filled, hw.group_matched, hw.arg_value⟩

theorem Halt.record {last : Walk} (h : s.Halt w last (.error e)) :
    s.Halt w.record w.record (.error e) := by
  generalize ho : Except.error e = o at h
  cases h with
  | repeated hr hk hm => exact .repeated (w := w.record) hr hk hm
  | conflict hr hk hm hg => exact .conflict (w := w.record) hr hk hm hg
  | refused hr hk ht => exact .refused (w := w.record) hr hk ht
  | lacking hn hs => exact .lacking (w := w.record) hn hs
  | leftover hf hr hk ht hs => exact .leftover (w := w.record) hf hr hk ht hs
  | help | parsed => cases ho

/-- The store that raises the error of a pass is the innermost open one when the machine stops. -/
theorem Raises.exists_halt (ha : s.WellFormed) (h : s.Raises tokens t e) :
    ∃ w, s.Sound w ∧ s.Halt w w (.error e) ∧ w.top = t.store ∧ w.pass = (s.parse tokens).1 := by
  obtain ⟨w, hreach, ho⟩ := h.turn.exists_walk ha
  have hw := sound_of_reaches ha hreach
  have hhalt := h.fails.halt ha hw ho
  refine ⟨w.record, hw.record, hhalt.record, ho.top, ?_⟩
  rw [parse_of_halt ha hreach hhalt]
  rfl

/-- No other store raises it. -/
theorem Raises.store_eq (ha : s.WellFormed) (h : s.Raises tokens t e) :
    t.store = s.stopsIn tokens := by
  obtain ⟨w, hreach, ho⟩ := h.turn.exists_walk ha
  have hhalt := h.fails.halt ha (sound_of_reaches ha hreach) ho
  rw [stopsIn, walk_eq_of_reaches hreach, hhalt.walk_eq]
  exact ho.top.symm

end Machine

end Scheme

end CommandGrammar
