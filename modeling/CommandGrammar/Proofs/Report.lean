import CommandGrammar.Grammar.Check
import CommandGrammar.Proofs.Paths
import CommandGrammar.Proofs.Refinement
import CommandGrammar.Proofs.Sound
import Mathlib.Data.String.Basic

/-!
# What a report keeps

A report is a table by paths, so of the nodes that share a path it only keeps the last one. Nothing
is lost exactly if the nodes that a pass found have different paths.
-/

namespace CommandGrammar

namespace Table

variable {α : Type} {name n : String} {a b : α}

def IsSorted (entries : List (String × α)) : Prop := entries.Pairwise fun x y => x.1 < y.1

theorem mem_put_name : ∀ {l : List (String × α)} {x : String × α}, x ∈ put name a l →
    x.1 = name ∨ ∃ y ∈ l, y.1 = x.1
  | [], x, h => by
    rw [put, List.mem_singleton] at h
    exact .inl (by rw [h])
  | (n, b) :: rest, x, h => by
    rw [put] at h
    split_ifs at h with hlt heq
    · rcases List.mem_cons.1 h with rfl | h
      · exact .inl rfl
      · exact .inr ⟨x, h, rfl⟩
    · rcases List.mem_cons.1 h with rfl | h
      · exact .inl rfl
      · exact .inr ⟨x, List.mem_cons_of_mem _ h, rfl⟩
    · rcases List.mem_cons.1 h with rfl | h
      · exact .inr ⟨_, List.mem_cons_self, rfl⟩
      · rcases mem_put_name h with h | ⟨y, hy, h⟩
        · exact .inl h
        · exact .inr ⟨y, List.mem_cons_of_mem _ hy, h⟩

theorem IsSorted.put : ∀ {l : List (String × α)}, IsSorted l → IsSorted (put name a l)
  | [], _ => List.pairwise_singleton _ _
  | (n, b) :: rest, h => by
    obtain ⟨hn, hrest⟩ := List.pairwise_cons.1 h
    rw [Table.put]
    split_ifs with hlt heq
    · refine List.pairwise_cons.2 ⟨fun y hy => ?_, h⟩
      rcases List.mem_cons.1 hy with rfl | hy
      · exact hlt
      · exact hlt.trans (hn y hy)
    · subst heq
      exact List.pairwise_cons.2 ⟨hn, hrest⟩
    · refine List.pairwise_cons.2 ⟨fun y hy => ?_, IsSorted.put hrest⟩
      rcases mem_put_name hy with hy | ⟨z, hz, hy⟩
      · rw [hy]
        exact lt_of_le_of_ne (not_lt.1 hlt) (Ne.symm heq)
      · rw [← hy]
        exact hn z hz

theorem lookup_cons_eq_ite {l : List (String × α)} :
    List.lookup n ((name, a) :: l) = if n = name then some a else l.lookup n := by
  rw [List.lookup_cons]
  split_ifs with h
  · rw [h, beq_self_eq_true]
  · rw [beq_false_of_ne h]

/-- Under the name of an entry that is put there is that entry, the others are as they were. -/
theorem lookup_put : ∀ {l : List (String × α)},
    (put name a l).lookup n = if n = name then some a else l.lookup n
  | [] => by rw [put, lookup_cons_eq_ite]
  | (m, b) :: rest => by
    rw [put]
    by_cases hlt : name < m
    · rw [if_pos hlt, lookup_cons_eq_ite]
    · rw [if_neg hlt]
      by_cases heq : name = m
      · rw [if_pos heq, lookup_cons_eq_ite, lookup_cons_eq_ite, heq]
        split_ifs <;> rfl
      · rw [if_neg heq, lookup_cons_eq_ite, lookup_cons_eq_ite, lookup_put]
        split_ifs with hm hname
        · exact absurd (hname.symm.trans hm) heq
        all_goals rfl

theorem ofList_concat (rows : List (String × α)) (x : String × α) :
    ofList (rows ++ [x]) = (ofList rows).insert x.1 x.2 := by
  rw [ofList, ofList, List.foldl_append]
  rfl

theorem ofList_isSorted (rows : List (String × α)) : IsSorted (ofList rows).entries := by
  induction rows using List.reverseRecOn with
  | nil => exact List.Pairwise.nil
  | append_singleton rows x ih =>
    rw [ofList_concat]
    exact ih.put

/-- A table has the last row of each name. -/
theorem lookup_ofList (rows : List (String × α)) (n : String) :
    (ofList rows).entries.lookup n = rows.reverse.lookup n := by
  induction rows using List.reverseRecOn with
  | nil => rfl
  | append_singleton rows x ih =>
    rw [ofList_concat, List.reverse_append, List.reverse_singleton, List.singleton_append,
      lookup_cons_eq_ite, ← ih]
    exact lookup_put

theorem IsSorted.nodup {entries : List (String × α)} (h : IsSorted entries) :
    (entries.map (·.1)).Nodup := by
  rw [List.nodup_iff_pairwise_ne, List.pairwise_map]
  exact h.imp fun hlt => hlt.ne

/-- A table loses nothing exactly if the rows have different names. -/
theorem ofList_perm_iff (rows : List (String × α)) :
    (ofList rows).entries.Perm rows ↔ (rows.map (·.1)).Nodup := by
  have hn := (ofList_isSorted rows).nodup
  refine ⟨fun h => (h.map _).nodup_iff.1 hn, fun h => ?_⟩
  have hr : (rows.reverse.map (·.1)).Nodup := by
    rw [List.map_reverse, List.nodup_reverse]
    exact h
  refine (List.perm_ext_iff_of_nodup hn.of_map h.of_map).2 fun ⟨n, a⟩ => ?_
  constructor
  · intro hm
    have hl := lookup_eq_some_of_mem hn hm
    rw [lookup_ofList] at hl
    exact List.mem_reverse.1 (mem_of_lookup_eq_some hl)
  · intro hm
    have hl := lookup_eq_some_of_mem hr (List.mem_reverse.2 hm)
    rw [← lookup_ofList] at hl
    exact mem_of_lookup_eq_some hl

/-- A table keeps the last row of each name, so all of them exactly if the names differ. -/
structure Keeps (t : Table α) (rows : List (String × α)) : Prop where
  lookup : ∀ n, t.entries.lookup n = rows.reverse.lookup n
  perm_iff : t.entries.Perm rows ↔ (rows.map (·.1)).Nodup

theorem ofList_keeps (rows : List (String × α)) : (ofList rows).Keeps rows :=
  ⟨lookup_ofList rows, ofList_perm_iff rows⟩

end Table

/-! ## What a pass records -/

namespace Session

variable {t : Session}

/-- After a pass, what matched is what has a value, or a chosen member with a key. -/
theorem parse_recorded (ha : t.scheme.WellFormed) (tokens : List String) :
    (∀ id, (t.parse tokens).1.pass.isFilled id = ((t.parse tokens).1.pass.value? id).isSome) ∧
      ∀ id, (t.parse tokens).1.pass.isGroupMatched id =
        ((t.parse tokens).1.chosenKey? id).isSome := by
  obtain ⟨last, hlast, hp⟩ := Scheme.parse_sound ha tokens
  change (t.parse tokens).1.pass = _ at hp
  have hscheme : (t.parse tokens).1.scheme = t.scheme := rfl
  simp only [chosenKey?, hp, hscheme]
  refine ⟨hlast.arg_value, fun id => (hlast.group_matched id).trans ?_⟩
  change _ = ((last.pass.chosen? id).bind t.scheme.key?).isSome
  rcases hc : last.pass.chosen? id with _ | m
  · rfl
  · obtain ⟨-, f, hf, -⟩ := hlast.chosen_member hc
    rw [Option.bind_some, Scheme.key?, hf]
    rfl

/-- A group in which a member was chosen has members. -/
theorem members_ne_nil (ha : t.scheme.WellFormed) {tokens : List String} {id : GroupId}
    (h : ((t.parse tokens).1.chosenKey? id).isSome) {g : Group} (hg : t.scheme.group? id = some g) :
    g.members ≠ [] := by
  obtain ⟨last, hlast, hp⟩ := Scheme.parse_sound ha tokens
  change (t.parse tokens).1.pass = _ at hp
  rw [chosenKey?, hp] at h
  obtain ⟨key, hkey⟩ := Option.isSome_iff_exists.1 h
  obtain ⟨m, hm, -⟩ := Option.bind_eq_some_iff.1 hkey
  obtain ⟨-, f, hf, hfg⟩ := hlast.chosen_member hm
  rcases ha.listed_cases hf with ⟨hnone, -⟩ | ⟨id', g', hid', hg', hmem, -⟩
  · rw [hnone] at hfg
    cases hfg
  · rw [hid'] at hfg
    cases hfg
    rw [hg] at hg'
    cases hg'
    exact List.ne_nil_of_mem hmem

end Session

/-! ## Rows of a report -/

section Rows

variable {ι α : Type}

/-- The rows for what was found, by the texts of their paths. -/
def foundRows (found? : ι → Option α) (rows : List (NodePath × ι)) : List (String × α) :=
  rows.filterMap fun (path, id) => (found? id).map fun a => (path.text, a)

/-- If of what was found no two share a text, the rows have different names. -/
theorem foundRows_nodup {found? : ι → Option α} {rows : List (NodePath × ι)}
    (hids : (rows.map (·.2)).Nodup)
    (hinj : ∀ x ∈ rows, ∀ y ∈ rows, (found? x.2).isSome → (found? y.2).isSome →
      x.1.text = y.1.text → x.2 = y.2) : ((foundRows found? rows).map (·.1)).Nodup := by
  rw [List.nodup_iff_pairwise_ne, List.pairwise_map] at hids ⊢
  rw [foundRows, List.pairwise_filterMap]
  refine hids.imp_of_mem fun {x y} hx hy hne a ha c hc htext => ?_
  obtain ⟨v, hv, rfl⟩ := Option.map_eq_some_iff.1 ha
  obtain ⟨w, hw, rfl⟩ := Option.map_eq_some_iff.1 hc
  exact hne (hinj x hx y hy (by rw [hv]; rfl) (by rw [hw]; rfl) htext)

end Rows

namespace BuiltGrammar

variable (b : BuiltGrammar)

def foundValues : List (String × Value) :=
  foundRows b.session.pass.value? b.args

def foundChoices : List (String × String) :=
  foundRows b.session.chosenKey? b.groups

end BuiltGrammar

namespace Grammar

variable {files : Files} {g : Grammar} {b : BuiltGrammar}

theorem build_numbered (h : g.build files = .ok b) :
    b.args.map (·.2.index) = List.range b.session.scheme.args.length ∧
      b.groups.map (·.2.index) = List.range b.session.scheme.groups.length := by
  obtain ⟨d, args, branches, hb⟩ := exists_built h
  obtain ⟨-, -, hargs, hgroups⟩ := hb.numbers
  obtain ⟨harows, hanumbers, -⟩ := hb.adds.notes.args.of_empty
  obtain ⟨hgrows, hgnumbers, -⟩ := hb.adds.notes.groups.of_empty
  rw [hb.argIds_eq, harows, hanumbers, hargs, hb.groups_eq, hgrows, hgnumbers, hgroups]
  exact ⟨rfl, rfl⟩

theorem nodup_of_numbered {ι : Type} {index : ι → Nat} {rows : List (NodePath × ι)} {n : Nat}
    (h : rows.map (fun x => index x.2) = List.range n) : (rows.map (·.2)).Nodup := by
  refine List.Nodup.of_map index ?_
  rw [List.map_map]
  exact h ▸ List.nodup_range

/-- No two values that are found in a plain grammar share a name. -/
theorem foundValues_nodup (h : g.build files = .ok b) (hg : g.isPlain = true)
    (tokens : List String) : ((b.parse tokens).1.foundValues.map (·.1)).Nodup := by
  refine foundRows_nodup (nodup_of_numbered (build_numbered h).1) fun x hx y hy _ _ htext => ?_
  obtain ⟨hargs, -⟩ := build_spelled h hg
  obtain ⟨goal, last, hnx, hny⟩ := (hargs x hx).exists_names (hargs y hy) htext
  exact hnx.arg_unique hny

theorem foundChoices_nodup (h : g.build files = .ok b) (hg : g.isPlain = true)
    (tokens : List String) : ((b.parse tokens).1.foundChoices.map (·.1)).Nodup := by
  have ha : b.session.scheme.WellFormed := build_wellFormed h
  refine foundRows_nodup (nodup_of_numbered (build_numbered h).2) fun x hx y hy hfx hfy htext => ?_
  obtain ⟨-, hgroups⟩ := build_spelled h hg
  obtain ⟨goal, last, hnx, hny⟩ := (hgroups x hx).exists_names (hgroups y hy) htext
  exact hnx.group_unique ha.toLinked hny (Session.members_ne_nil ha hfx)
    (Session.members_ne_nil ha hfy)

/-- What a report keeps of a pass. There is a row for each argument that matched and each group with
a choice; of those with one path the report has the last, so it loses nothing exactly if the paths
differ, as they do in a plain grammar. -/
theorem parse_report_keeps (files : Files) (g : Grammar) (b : BuiltGrammar) (tokens : List String)
    (r : Report) (h : g.build files = .ok b) (hr : (b.parse tokens).2 = .ok r) :
    let after := (b.parse tokens).1
    after.args.map (·.2.index) = List.range after.session.scheme.args.length ∧
      after.groups.map (·.2.index) = List.range after.session.scheme.groups.length ∧
      (∀ id, after.session.pass.isFilled id = (after.session.pass.value? id).isSome) ∧
      (∀ id, after.session.pass.isGroupMatched id = (after.session.chosenKey? id).isSome) ∧
      r.values.Keeps after.foundValues ∧ r.choices.Keeps after.foundChoices ∧
      (g.isPlain = true → r.values.entries.Perm after.foundValues ∧
        r.choices.entries.Perm after.foundChoices) := by
  obtain ⟨hargs, hgroups⟩ := build_numbered h
  obtain ⟨hvalues, hchoices⟩ := Session.parse_recorded (build_wellFormed h) tokens
  obtain ⟨outcome, -, rfl⟩ := Scheme.exists_of_map_ok hr
  have hkv : ((b.parse tokens).1.report outcome).values.Keeps (b.parse tokens).1.foundValues :=
    Table.ofList_keeps _
  have hkc : ((b.parse tokens).1.report outcome).choices.Keeps (b.parse tokens).1.foundChoices :=
    Table.ofList_keeps _
  exact ⟨hargs, hgroups, hvalues, hchoices, hkv, hkc, fun hg =>
    ⟨hkv.perm_iff.2 (foundValues_nodup h hg tokens),
      hkc.perm_iff.2 (foundChoices_nodup h hg tokens)⟩⟩

/-- Arguments of one name at two levels, and a choice. -/
def copy : Grammar where
  args := [⟨"name", .mandatory, "", .text⟩]
  flags := [.flag .mandatory ⟨"to", "", [⟨"name", .mandatory, "", .text⟩], []⟩,
    .group .optional [⟨"-f", "", [], []⟩, ⟨"-n", "", [], []⟩]]

theorem copy_report_keeps : ∃ b r, copy.build Files.empty = .ok b ∧
    (b.parse ["notes", "to", "old", "-n"]).2 = .ok r ∧ copy.isPlain = true ∧
      r.values.entries.Perm (b.parse ["notes", "to", "old", "-n"]).1.foundValues ∧
        r.choices.entries.Perm (b.parse ["notes", "to", "old", "-n"]).1.foundChoices := by
  have hok : (copy.build Files.empty).toOption.any (fun b =>
      (b.parse ["notes", "to", "old", "-n"]).2.toOption.any fun _ => true) = true := by
    decide +kernel
  have hplain : copy.isPlain = true := by decide
  obtain ⟨b, hb, hok⟩ := exists_ok_of_any hok
  obtain ⟨r, hr, -⟩ := exists_ok_of_any hok
  obtain ⟨-, -, -, -, -, -, hperm⟩ := parse_report_keeps Files.empty copy b _ r hb hr
  exact ⟨b, r, hb, hr, hplain, hperm hplain⟩

/-- Two arguments of one name, which nothing forbids. -/
def twins : Grammar where
  args := [⟨"x", .mandatory, "", .text⟩, ⟨"x", .mandatory, "", .text⟩]

/-- Both arguments match, and the report has the second one only. -/
theorem twins_report_loses : ∃ b r, twins.check Files.empty = .ok () ∧
    twins.build Files.empty = .ok b ∧ (b.parse ["a", "b"]).2 = .ok r ∧
      (b.parse ["a", "b"]).1.foundValues.map (·.1) = ["x", "x"] ∧
        r.values.entries.map (·.1) = ["x"] := by
  have hok : (twins.build Files.empty).toOption.any (fun b =>
      (b.parse ["a", "b"]).2.toOption.any fun r =>
        (b.parse ["a", "b"]).1.foundValues.map (·.1) = ["x", "x"] ∧
          r.values.entries.map (·.1) = ["x"]) = true := by
    decide +kernel
  obtain ⟨b, hb, hok⟩ := exists_ok_of_any hok
  obtain ⟨r, hr, hrows⟩ := exists_ok_of_any hok
  exact ⟨b, r, by rfl, hb, hr, of_decide_eq_true hrows⟩

end Grammar

end CommandGrammar
