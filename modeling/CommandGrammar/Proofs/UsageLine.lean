import CommandGrammar.Proofs.Blocks
import CommandGrammar.Proofs.Building
import CommandGrammar.Proofs.History

/-!
# The usage line of a grammar

The usage line of a built grammar can be read off the grammar itself: the arguments of a scope come
first and then its entries, and what may follow a flag comes right behind its key. The arenas of a
built grammar show the tree of the grammar, so what the summary of a store says of its listing is
what the grammar says of its entries, one after the other, at every depth.
-/

namespace CommandGrammar

open Scheme (root)

/-! ## What a grammar says -/

def ArgSpec.usage (a : ArgSpec) : String := " " ++ a.policy.bracket a.name

mutual

/-- A flag: its key and the usage of what may follow it. -/
def FlagSpec.unit : FlagSpec → String
  | ⟨key, _, args, flags⟩ => key ++ String.join (args.map (·.usage)) ++ FlagEntry.usages flags

/-- An entry of a scope. A group without members is left out. -/
def FlagEntry.usage : FlagEntry → String
  | .flag policy spec => " " ++ policy.bracket spec.unit
  | .group policy members =>
    if members.isEmpty then ""
    else " " ++ policy.bracket ("|".intercalate (FlagSpec.units members))

def FlagEntry.usages : List FlagEntry → String
  | [] => ""
  | e :: es => e.usage ++ FlagEntry.usages es

def FlagSpec.units : List FlagSpec → List String
  | [] => []
  | spec :: specs => spec.unit :: FlagSpec.units specs

end

/-- The usage of a scope: its arguments, then its entries. -/
def scopeUsage (args : List ArgSpec) (flags : List FlagEntry) : String :=
  String.join (args.map (·.usage)) ++ FlagEntry.usages flags

def Grammar.usageLine (g : Grammar) : String :=
  "Usage: " ++ g.program.getD "" ++ scopeUsage g.args g.flags ++ if g.help then " [--help]" else ""

namespace Scheme

variable {s : Scheme} {store : StoreId}

/-! ## Summaries of stores -/

section Summary

theorem entrySummary_congr {unit unit' : FlagId → String} {e : Entry}
    (h : ∀ id ∈ s.entryFlags e, unit id = unit' id) :
    s.entrySummary unit e = s.entrySummary unit' e := by
  cases e with
  | flag id =>
    rw [entrySummary, entrySummary, h id List.mem_cons_self]
  | group id =>
    rcases hg : s.group? id with _ | g
    · simp only [entrySummary, hg]
    · have hm : g.members.map unit = g.members.map unit' :=
        List.map_congr_left fun m hm => h m (mem_members.2 ⟨g, hg, hm⟩)
      simp only [entrySummary, hg, hm]

theorem summary_eq (ha : s.WellFormed) (store : StoreId) :
    s.summary store = String.join ((s.argsOf store).map s.argSummary) ++
      String.join ((s.entriesOf store).map (s.entrySummary s.flagSummary)) := by
  rw [summary]
  refine congrArg _ (congrArg _ (List.map_congr_left fun e he => entrySummary_congr fun id hid => ?_))
  rw [flagSummary]
  rcases hf : s.flag? id with _ | f
  · rfl
  · dsimp only
    rcases hc : f.children with _ | child
    · rfl
    · dsimp only
      have hmenu : id ∈ s.menu store := menu_eq ha store ▸ List.mem_flatMap.2 ⟨e, he, hid⟩
      have hn : s.Nests store child := nests_of_mem_menu ha hmenu (by rw [hf]; exact hc)
      rw [dif_pos (hn.behind ha)]

/-- Only the flag that asks for help can stand elsewhere, and it is one of the root. -/
theorem entriesOf_of_ne_root (hr : store ≠ root) : s.entriesOf store = s.listing store := by
  rcases hh : s.help with _ | help
  · exact entriesOf_of_no_help hh store
  · rw [entriesOf_of_help hh, if_neg hr]

theorem argSummaries_eq {files : Files} {args : List (ArgId × Positional)} {bs : List Branch}
    {specs : List ArgSpec} (hl : s.Level store args bs)
    (h : args.map (·.2) = specs.map (·.positional files)) :
    (s.argsOf store).map s.argSummary = specs.map (·.usage) := by
  let usage (a : Positional) : String := " " ++ a.policy.bracket a.name
  calc (s.argsOf store).map s.argSummary
      = args.map fun x => s.argSummary x.1 := by rw [hl.args_eq, List.map_map]; rfl
    _ = args.map fun x => usage x.2 :=
        List.map_congr_left fun x hx => by simp only [argSummary, hl.arg x hx, usage]
    _ = (specs.map (·.positional files)).map usage := by rw [← h, List.map_map]; rfl
    _ = specs.map (·.usage) := by rw [List.map_map]; rfl

end Summary

/-! ## What the arenas say -/

section Tree

variable {files : Files}

mutual

theorem flagSummary_eq (ha : s.WellFormed) : ∀ (t : Twig) {store : StoreId} {policy : Policy}
    {group : Option GroupId} {spec : FlagSpec}, t.ShownIn s store →
      t.Depicts files policy group spec → s.flagSummary t.id = spec.unit
  | .simple id flag, _, _, _, ⟨key, description, args, flags⟩, ht, hd => by
    rw [Twig.ShownIn] at ht
    rw [Twig.Depicts] at hd
    obtain ⟨hnone, rfl⟩ := hd
    obtain ⟨rfl, rfl⟩ : args = [] ∧ flags = [] := by
      simpa [FlagSpec.isComplex, FlagSpec.args, FlagSpec.flags] using hnone
    rw [Twig.id, flagSummary, ht.1, FlagSpec.unit, List.map_nil, String.join_nil, FlagEntry.usages,
      String.append_empty, String.append_empty]
    exact String.append_empty
  | .complex id flag as bs, store, _, _, ⟨key, description, args, flags⟩, ht, hd => by
    rw [Twig.ShownIn] at ht
    rw [Twig.Depicts] at hd
    obtain ⟨hf, child, hc, hlt, hl, hbs⟩ := ht
    obtain ⟨-, ⟨child', rfl⟩, has, hes⟩ := hd
    obtain rfl : child' = child := Option.some.inj hc
    -- the store of a flag is not the root, so its entries stand as they are listed
    have hr : child' ≠ root := fun h => Nat.not_lt_zero _ (h ▸ hlt)
    have hsummary : s.summary child' = String.join (args.map (·.usage)) ++ FlagEntry.usages flags := by
      rw [summary_eq ha, argSummaries_eq hl has, entriesOf_of_ne_root hr, hl.listing_eq]
      exact congrArg _ (entrySummaries_eq ha bs hbs hes)
    rw [Twig.id, flagSummary, hf, FlagSpec.unit, String.append_assoc, ← hsummary]
    rfl

theorem entrySummaries_eq (ha : s.WellFormed) : ∀ (bs : List Branch) {store : StoreId}
    {es : List FlagEntry}, Branch.AllShownIn s store bs → Branch.AllDepict files bs es →
      String.join ((bs.map Branch.entry).map (s.entrySummary s.flagSummary)) =
        FlagEntry.usages es
  | [], _, [], _, _ => rfl
  | .flag t :: bs, _, .flag policy spec :: es, hbs, hes => by
    rw [Branch.AllShownIn, Branch.ShownIn] at hbs
    rw [Branch.AllDepict, Branch.Depicts] at hes
    obtain ⟨children, hnode⟩ := hes.1.exists_node
    rw [List.map_cons, List.map_cons, String.join_cons, entrySummaries_eq ha bs hbs.2 hes.2,
      FlagEntry.usages, FlagEntry.usage, Branch.entry, entrySummary, hbs.1.flag_eq, hnode,
      flagSummary_eq ha t hbs.1 hes.1]
    rfl
  | .group id policy ts :: bs, _, .group policy' specs :: es, hbs, hes => by
    rw [Branch.AllShownIn, Branch.ShownIn] at hbs
    rw [Branch.AllDepict, Branch.Depicts] at hes
    obtain ⟨⟨rfl, hts⟩, hes⟩ := hes
    rw [List.map_cons, List.map_cons, String.join_cons, entrySummaries_eq ha bs hbs.2 hes,
      FlagEntry.usages, FlagEntry.usage, Branch.entry, entrySummary, hbs.1.1]
    dsimp only
    have hempty : (ts.map Twig.id).isEmpty = specs.isEmpty := by
      simpa using congrArg List.isEmpty hts.keys
    rw [flagSummaries_eq ha ts hbs.1.2 hts, hempty]

theorem flagSummaries_eq (ha : s.WellFormed) : ∀ (ts : List Twig) {store : StoreId}
    {policy : Policy} {group : Option GroupId} {specs : List FlagSpec},
      Twig.AllShownIn s store ts → Twig.AllDepict files policy group ts specs →
        (ts.map Twig.id).map s.flagSummary = FlagSpec.units specs
  | [], _, _, _, [], _, _ => rfl
  | t :: ts, _, _, _, spec :: specs, hts, hes => by
    rw [Twig.AllShownIn] at hts
    rw [Twig.AllDepict] at hes
    rw [List.map_cons, List.map_cons, flagSummary_eq ha t hts.1 hes.1,
      flagSummaries_eq ha ts hts.2 hes.2, FlagSpec.units]

end

end Tree

/-! ## The root -/

section Root

variable {args : List (ArgId × Positional)} {bs : List Branch}

/-- The flag that asks for help is put last, where it stands already. -/
theorem entriesOf_root (ha : s.WellFormed) (hl : s.Level root args (bs ++ s.helpBranches)) :
    s.entriesOf root = bs.map Branch.entry ++ s.helpBranches.map Branch.entry := by
  have hlisting := hl.listing_eq
  rw [List.map_append] at hlisting
  rcases hh : s.help with _ | id
  · rw [entriesOf_of_no_help hh, hlisting]
  · have hn := ha.listing_nodup root
    have hhelp : s.helpBranches.map Branch.entry = [.flag id] := by
      rw [helpBranches, hh]
      rfl
    rw [hlisting, hhelp, List.nodup_append] at hn
    have hkeep : (bs.map Branch.entry).filter (· ≠ Entry.flag id) = bs.map Branch.entry :=
      List.filter_eq_self.2 fun e he => decide_eq_true (hn.2.2 e he _ List.mem_cons_self)
    rw [entriesOf_of_help hh, if_pos rfl, hlisting, hhelp, List.filter_append, hkeep]
    simp

theorem helpBranches_summary (h : Branch.AllShownIn s root s.helpBranches) :
    String.join ((s.helpBranches.map Branch.entry).map (s.entrySummary s.flagSummary)) =
      if s.help.isSome then " [--help]" else "" := by
  rcases hh : s.help with _ | id
  · rw [helpBranches, hh]
    rfl
  · simp only [helpBranches, hh, Option.toList_some, List.map_cons, List.map_nil,
      Branch.AllShownIn, Branch.ShownIn, Twig.ShownIn] at h
    simp only [helpBranches, hh, Option.toList_some, List.map_cons, List.map_nil, Branch.entry,
      Twig.id, entrySummary, flagSummary, h.1.1]
    rfl

end Root

end Scheme

namespace Grammar

variable {files : Files} {g : Grammar} {b : BuiltGrammar}

theorem build_program (h : g.build files = .ok b) : b.session.program = g.program.getD "" := by
  unfold build at h
  obtain ⟨d₁, -, h⟩ := Scheme.exists_of_bind_ok h
  obtain ⟨d, -, h⟩ := Scheme.exists_of_bind_ok h
  split_ifs at h
  · obtain ⟨x, -, h⟩ := Scheme.exists_of_bind_ok h
    cases h
    rfl
  · cases h
    rfl

theorem build_summary (h : g.build files = .ok b) : b.session.scheme.summary root =
    scopeUsage g.args g.flags ++ if g.help then " [--help]" else "" := by
  have ha := build_wellFormed h
  obtain ⟨d, args, bs, hb⟩ := exists_built h
  obtain ⟨hlevel, hshown⟩ := hb.shown
  obtain ⟨hbs, hhelp⟩ := Branch.allShownIn_append.1 hshown
  rw [Scheme.summary_eq ha, Scheme.argSummaries_eq hlevel hb.args_eq,
    Scheme.entriesOf_root ha hlevel, List.map_append, String.join_append,
    Scheme.entrySummaries_eq ha bs hbs hb.depict, Scheme.helpBranches_summary hhelp, hb.numbers.1,
    scopeUsage, String.append_assoc]

end Grammar

namespace BuiltGrammar

theorem after_parse_program (lines : List (List String)) (b : BuiltGrammar) :
    (b.after (lines.map .parse)).session.program = b.session.program := by
  induction lines generalizing b with
  | nil => rfl
  | cons tokens lines ih => exact ih (b.use (.parse tokens))

end BuiltGrammar

namespace Grammar

/-- The usage line of a built grammar is that of the grammar, whatever command lines were read
before. -/
theorem build_usageLine (files : Files) (g : Grammar) (b : BuiltGrammar)
    (h : g.build files = .ok b) (lines : List (List String)) :
    (b.after (lines.map .parse)).session.usageSummary = g.usageLine := by
  rw [Session.usageSummary, BuiltGrammar.after_parse_program, build_program h,
    (BuiltGrammar.after_sameGrammar _ b).scheme, Scheme.usageSummary, build_summary h, usageLine]
  simp only [String.append_assoc]

theorem drive_build_usageLine : ∃ b, drive.build Files.empty = .ok b ∧
    (b.after [.parse ["--speed", "slow"], .parse ["in"]]).session.usageSummary =
      "Usage: drive input --speed slow|fast [--limit speed_limit] [--help]" := by
  have hok : (drive.build Files.empty).toOption.any (fun _ => true) = true := by
    decide +kernel
  obtain ⟨b, hb, -⟩ := exists_ok_of_any hok
  have hline := build_usageLine Files.empty drive b hb [["--speed", "slow"], ["in"]]
  exact ⟨b, hb, hline.trans (by decide +kernel)⟩

end Grammar

end CommandGrammar
