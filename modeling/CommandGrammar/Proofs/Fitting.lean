import CommandGrammar.Proofs.RoundTrip

/-!
# What is read fits

A decoder only takes limits that are of the type which it reads, so whatever grammar it returns
comes back from its own document. The induction is on the grammar that was read: what is in it was
read itself, from some part of the document.
-/

namespace CommandGrammar

open Document (Part Rules)

variable {α β : Type} {rules : Rules} {d : Document}

/-! ## What was read from a list or a slot -/

theorem exists_of_mem_mapM {f : α → Option β} : ∀ {l : List α} {xs : List β},
    l.mapM f = some xs → ∀ x ∈ xs, ∃ a ∈ l, f a = some x
  | [], xs, h, x, hx => by
    rw [List.mapM_nil] at h
    cases h
    exact absurd hx List.not_mem_nil
  | a :: l, xs, h, x, hx => by
    rw [List.mapM_cons] at h
    obtain ⟨y, hy, h⟩ := Option.bind_eq_some_iff.1 h
    obtain ⟨ys, hys, h⟩ := Option.bind_eq_some_iff.1 h
    cases h
    rcases List.mem_cons.1 hx with rfl | hx
    · exact ⟨a, List.mem_cons_self, hy⟩
    · obtain ⟨c, hc, hcx⟩ := exists_of_mem_mapM hys x hx
      exact ⟨c, List.mem_cons_of_mem _ hc, hcx⟩

theorem exists_of_mem_items {f : Document → Option α} {xs : List α}
    (h : (d.items?.bind fun items => items.mapM fun i => f i.val) = some xs) :
    ∀ x ∈ xs, ∃ d, f d = some x := by
  intro x hx
  obtain ⟨items, -, h⟩ := Option.bind_eq_some_iff.1 h
  obtain ⟨i, -, hi⟩ := exists_of_mem_mapM h x hx
  exact ⟨i.val, hi⟩

/-- What is in a slot was read, if anything is. -/
theorem slot_cases {f : Document → Option α} {slot : Option (Part d)} {a : Option α}
    (h : slot.mapM (fun p => f p.val) = some a) : a = none ∨ ∃ d x, f d = some x ∧ a = some x := by
  cases slot with
  | none =>
    cases h
    exact .inl rfl
  | some p =>
    rw [Option.mapM_some] at h
    obtain ⟨x, hx, h⟩ := Option.map_eq_some_iff.1 h
    exact .inr ⟨p.val, x, hx, h.symm⟩

/-! ## Converters and arguments -/

namespace Converter

theorem bounds?_all {limit? : Document → Option (Option α)} {p : α → Bool}
    (hlimit : ∀ d o, limit? d = some o → o.all p = true) {b : Bounds α}
    (h : bounds? limit? d = some b) : b.min.all p = true ∧ b.max.all p = true := by
  have hend : ∀ {slot : Option (Part d)} {o : Option (Option α)},
      slot.mapM (fun p => limit? p.val) = some o → o.join.all p = true := by
    intro slot o ho
    rcases slot_cases ho with rfl | ⟨d', o', hd', rfl⟩
    · rfl
    · exact hlimit d' o' hd'
  obtain ⟨slots, -, h⟩ := Option.bind_eq_some_iff.1 h
  split at h
  · simp only [Option.bind_eq_bind, Option.bind_eq_some_iff] at h
    obtain ⟨min, hmin, max, hmax, _, -, _, -, h⟩ := h
    cases h
    exact ⟨hend hmin, hend hmax⟩
  · cases h

theorem intOrNull?_holds {t : IntType} {o : Option Int} (h : intOrNull? t d = some o) :
    o.all t.holds = true := by
  unfold intOrNull? at h
  split at h
  · cases h
    rfl
  · cases h
    cases t <;> decide
  · split_ifs at h with hn
    cases h
    exact hn
  · cases h

theorem ofDocument?_fits {c : Converter} (h : ofDocument? rules d = some c) : c.fits = true := by
  unfold ofDocument? at h
  obtain ⟨⟨m, settings⟩, -, h⟩ := Option.bind_eq_some_iff.1 h
  have hint : ∀ {t : IntType} {b : Bounds Int}, bounds? (intOrNull? t) settings = some b →
      (b.min.all t.holds && b.max.all t.holds) = true := by
    intro t b hb
    rw [Bool.and_eq_true]
    exact bounds?_all (fun _ _ ho => intOrNull?_holds ho) hb
  have hbare : ∀ {c c' : Converter}, c.fits = true → bare? c settings = some c' →
      c'.fits = true := by
    intro c c' hc hb
    unfold bare? at hb
    split at hb
    · cases hb
    · cases hb
      exact hc
  dsimp only at h
  split at h
  · exact hbare rfl h
  · obtain ⟨b, hb, h⟩ := Option.bind_eq_some_iff.1 h
    cases h
    exact hint hb
  · obtain ⟨b, hb, h⟩ := Option.bind_eq_some_iff.1 h
    cases h
    exact hint hb
  · obtain ⟨b, hb, h⟩ := Option.bind_eq_some_iff.1 h
    cases h
    rfl
  · unfold choice? at h
    obtain ⟨slots, -, h⟩ := Option.bind_eq_some_iff.1 h
    split at h
    · obtain ⟨values, -, h⟩ := Option.bind_eq_some_iff.1 h
      cases h
      rfl
    · cases h
  · exact hbare rfl h
  · exact hbare rfl h
  · cases h

end Converter

namespace ArgSpec

theorem ofDocument?_fits {a : ArgSpec} (h : ofDocument? rules d = some a) : a.fits = true := by
  obtain ⟨slots, -, h⟩ := Option.bind_eq_some_iff.1 h
  split at h
  · simp only [Option.bind_eq_bind, Option.bind_eq_some_iff] at h
    obtain ⟨_, -, _, -, _, -, c, hc, h⟩ := h
    cases h
    rcases slot_cases hc with rfl | ⟨d', c', hd', rfl⟩
    · rfl
    · exact Converter.ofDocument?_fits hd'
  · cases h

/-- The arguments in the slot of a record. -/
theorem slot_fits {slot : Option (Part d)} {as : Option (List ArgSpec)}
    (h : slot.mapM (fun p => listOfDocument? rules p.val) = some as) :
    (as.getD []).all fits = true := by
  rcases slot_cases h with rfl | ⟨d', xs, hd', rfl⟩
  · rfl
  · refine List.all_eq_true.2 fun a ha => ?_
    obtain ⟨d'', ha⟩ := exists_of_mem_items hd' a ha
    exact ofDocument?_fits ha

end ArgSpec

/-! ## Flags and groups -/

namespace FlagEntry

/-- The flags in the slot of a record were read themselves. -/
theorem exists_of_mem_slot (f : Document → Option FlagEntry) {slot : Option (Part d)}
    {es : Option (List FlagEntry)} {list? : Document → Option (List FlagEntry)}
    (h : slot.mapM (fun p => list? p.val) = some es)
    (hlist : ∀ d, list? d = d.items?.bind fun items => items.mapM fun i => f i.val) :
    ∀ e ∈ es.getD [], ∃ d, f d = some e := by
  intro e he
  rcases slot_cases h with rfl | ⟨d', xs, hd', rfl⟩
  · exact absurd he List.not_mem_nil
  · rw [hlist] at hd'
    exact exists_of_mem_items hd' e he

theorem asFlag?_eq_some {e : FlagEntry} (h : asFlag? d = some e) :
    ∃ policy key description args flags, e = .flag policy ⟨key, description, args, flags⟩ ∧
      args.all ArgSpec.fits = true ∧ ∀ e ∈ flags, ∃ d, ofDocument? d = some e := by
  rw [asFlag?] at h
  obtain ⟨slots, -, h⟩ := Option.bind_eq_some_iff.1 h
  split at h
  · simp only [Option.bind_eq_bind, Option.bind_eq_some_iff] at h
    obtain ⟨_, -, _, -, _, -, as, has, fs, hfs, h⟩ := h
    cases h
    exact ⟨_, _, _, _, _, rfl, ArgSpec.slot_fits has,
      exists_of_mem_slot ofDocument? hfs fun d => by rw [listOfDocument?]⟩
  · cases h

theorem memberOfDocument?_eq_some {spec : FlagSpec} (h : memberOfDocument? d = some spec) :
    ∃ key description args flags, spec = ⟨key, description, args, flags⟩ ∧
      args.all ArgSpec.fits = true ∧ ∀ e ∈ flags, ∃ d, ofDocument? d = some e := by
  rw [memberOfDocument?] at h
  obtain ⟨slots, -, h⟩ := Option.bind_eq_some_iff.1 h
  split at h
  · simp only [Option.bind_eq_bind, Option.bind_eq_some_iff] at h
    obtain ⟨_, -, _, -, as, has, fs, hfs, h⟩ := h
    cases h
    exact ⟨_, _, _, _, rfl, ArgSpec.slot_fits has,
      exists_of_mem_slot ofDocument? hfs fun d => by rw [listOfDocument?]⟩
  · cases h

theorem asGroup?_eq_some {e : FlagEntry} (h : asGroup? d = some e) :
    ∃ policy members, e = .group policy members ∧
      ∀ spec ∈ members, ∃ d, memberOfDocument? d = some spec := by
  rw [asGroup?] at h
  obtain ⟨slots, -, h⟩ := Option.bind_eq_some_iff.1 h
  split at h
  · simp only [Option.bind_eq_bind, Option.bind_eq_some_iff] at h
    obtain ⟨_, -, ms, hms, h⟩ := h
    cases h
    rw [membersOfDocument?] at hms
    exact ⟨_, _, rfl, exists_of_mem_items hms⟩
  · cases h

theorem ofDocument?_cases {e : FlagEntry} (h : ofDocument? d = some e) :
    asGroup? d = some e ∨ asFlag? d = some e := by
  rw [ofDocument?] at h
  split at h
  · cases h
    exact .inl ‹_›
  · exact .inr h

mutual

theorem ofDocument?_fits : ∀ (e : FlagEntry) {d : Document}, ofDocument? d = some e →
    e.fits = true
  | .flag policy ⟨key, description, args, flags⟩, d, h => by
    rcases ofDocument?_cases h with h | h
    · obtain ⟨_, _, heq, -⟩ := asGroup?_eq_some h
      cases heq
    · obtain ⟨_, _, _, _, _, heq, hargs, hflags⟩ := asFlag?_eq_some h
      cases heq
      rw [fits, FlagSpec.fits, Bool.and_eq_true]
      exact ⟨hargs, allFit_of_read flags hflags⟩
  | .group policy members, d, h => by
    rcases ofDocument?_cases h with h | h
    · obtain ⟨_, _, heq, hmembers⟩ := asGroup?_eq_some h
      cases heq
      rw [fits]
      exact membersFit_of_read members hmembers
    · obtain ⟨_, _, _, _, _, heq, -⟩ := asFlag?_eq_some h
      cases heq

theorem memberOfDocument?_fits : ∀ (spec : FlagSpec) {d : Document},
    memberOfDocument? d = some spec → spec.fits = true
  | ⟨key, description, args, flags⟩, d, h => by
    obtain ⟨_, _, _, _, heq, hargs, hflags⟩ := memberOfDocument?_eq_some h
    cases heq
    rw [FlagSpec.fits, Bool.and_eq_true]
    exact ⟨hargs, allFit_of_read flags hflags⟩

theorem allFit_of_read : ∀ (es : List FlagEntry), (∀ e ∈ es, ∃ d, ofDocument? d = some e) →
    allFit es = true
  | [], _ => rfl
  | e :: es, h => by
    obtain ⟨⟨d, he⟩, hes⟩ := List.forall_mem_cons.1 h
    rw [allFit, Bool.and_eq_true]
    exact ⟨ofDocument?_fits e he, allFit_of_read es hes⟩

theorem membersFit_of_read : ∀ (specs : List FlagSpec),
    (∀ spec ∈ specs, ∃ d, memberOfDocument? d = some spec) → FlagSpec.allFit specs = true
  | [], _ => rfl
  | spec :: specs, h => by
    obtain ⟨⟨d, hs⟩, hspecs⟩ := List.forall_mem_cons.1 h
    rw [FlagSpec.allFit, Bool.and_eq_true]
    exact ⟨memberOfDocument?_fits spec hs, membersFit_of_read specs hspecs⟩

end

end FlagEntry

/-! ## Grammars -/

namespace Grammar

/-- Whatever grammar is read fits. -/
theorem ofDocument?_fits {g : Grammar} (h : ofDocument? rules d = some g) : g.fits = true := by
  obtain ⟨slots, -, h⟩ := Option.bind_eq_some_iff.1 h
  split at h
  · simp only [Option.bind_eq_bind, Option.bind_eq_some_iff] at h
    obtain ⟨_, -, _, -, as, has, fs, hfs, h⟩ := h
    cases h
    rw [fits, Bool.and_eq_true]
    refine ⟨ArgSpec.slot_fits has, FlagEntry.allFit_of_read _ fun e he => ?_⟩
    obtain ⟨d', he⟩ := FlagEntry.exists_of_mem_slot (fun d => d.settle.bind FlagEntry.ofDocument?)
      hfs (fun _ => rfl) e he
    obtain ⟨d'', -, he⟩ := Option.bind_eq_some_iff.1 he
    exact ⟨d'', he⟩
  · cases h

/-- A grammar that was read, in whichever notation, comes back from its own document. -/
theorem ofDocument?_toDocument_of_read {g : Grammar} (h : ofDocument? rules d = some g)
    (f : Format) : ofDocument? f.rules g.toDocument = some g :=
  ofDocument?_settles (ofDocument?_fits h) g.toDocument_settles

end Grammar

end CommandGrammar
