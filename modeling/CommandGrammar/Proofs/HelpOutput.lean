import Mathlib
import CommandGrammar.Command.Run
import CommandGrammar.Proofs.UsageLine

/-!
# Two ways to the usage of a grammar

The tool prints the usage of a grammar on its own, and it prints it when a command line that it
checks asks for help. Both texts are made of the same scheme, which reading a command line does not
change. Only the name of the program can differ: a check makes up for one that is missing and takes
the stem of the file. So the two texts are the same exactly if the grammar names its program.
-/

namespace CommandGrammar

namespace Files

variable {path name extension : String}

/-- A dot in front of everything splits nothing off. -/
theorem splitName_ne_empty (h : (splitName name).2 = some extension) :
    (splitName name).1 ≠ "" := by
  unfold splitName at h ⊢
  dsimp only at h ⊢
  split at h
  · cases h
  · cases h
  · rename_i c stem hne hd
    rcases stem with _ | ⟨d, stem⟩
    · exact absurd rfl hne
    · simp

/-- What has an extension has a stem. -/
theorem exists_stem (h : extension? path = some extension) :
    ∃ stem, stem? path = some stem ∧ stem ≠ "" := by
  obtain ⟨name, hname, he⟩ := Option.bind_eq_some_iff.1 h
  exact ⟨(splitName name).1, by rw [stem?, hname]; rfl, splitName_ne_empty he⟩

end Files

namespace Scheme

/-- A usage tells which program it is of. -/
theorem usage_inj (s : Scheme) {program other : String} :
    s.usage program = s.usage other ↔ program = other := by
  simp only [usage, usageSummary, String.append_left_inj, String.append_right_inj]

end Scheme

namespace Command

variable {files : Files} {path : String} {tokens : List String} {g : Grammar} {b : BuiltGrammar}

section Words

theorem read_grammar (u : Usable) (w : Words) (path : String) (rest : List String)
    (hu : u.options.lookup "grammar" = some isPath) (hw : w.options.lookup "grammar" = none) :
    Words.read u w ("--grammar" :: path :: rest) =
      if isPath path && !Words.isOption path then
        Words.read u (w.addOption "grammar" path) rest
      else .error .misuse := by
  have hl : Words.longOption? "--grammar" = some ("grammar", none) := by decide
  simp [Words.read, hl, hu, hw]

theorem ofArgs_check (path : String) (tokens : List String) :
    ofArgs (["check", "--grammar", path, "--"] ++ tokens) =
      if isPath path && !Words.isOption path then .ok (.check path .json tokens)
      else .error .misuse := by
  have h : ofArgs (["check", "--grammar", path, "--"] ++ tokens) =
      ofWords "check" ("--grammar" :: path :: "--" :: tokens) := rfl
  rw [h, ofWords, read_grammar _ _ _ _ rfl rfl]
  split <;> rfl

theorem ofArgs_usage (path : String) :
    ofArgs ["usage", "--grammar", path] =
      if isPath path && !Words.isOption path then .ok (.usage path) else .error .misuse := by
  have h : ofArgs ["usage", "--grammar", path] = ofWords "usage" ["--grammar", path] := rfl
  rw [h, ofWords, read_grammar _ _ _ _ rfl rfl]
  split <;> rfl

end Words

section Runs

theorem build_eq_ok (hload : Grammar.load files path = .ok g) (hbuild : g.build files = .ok b) :
    build files path = .ok b := by
  rw [build, hload]
  exact congrArg (Except.mapError _) hbuild

/-- The file of a grammar has an extension. -/
theorem exists_extension (hload : Grammar.load files path = .ok g) :
    ∃ extension, Files.extension? path = some extension := by
  obtain ⟨f, hf, -⟩ := Scheme.exists_of_bind_ok hload
  rcases he : Files.extension? path with _ | extension
  · have hnone : Format.ofPath? path = none := by rw [Format.ofPath?, he]
    rw [Grammar.formatOf, hnone] at hf
    cases hf
  · exact ⟨extension, rfl⟩

theorem isPath_of_load (hload : Grammar.load files path = .ok g) : isPath path = true := by
  obtain ⟨extension, he⟩ := exists_extension hload
  by_cases hp : path = ""
  · subst hp
    have hnone : Files.extension? "" = none := by decide
    cases hnone.symm.trans he
  · simpa [isPath] using hp

/-- A check that is asked for help prints the usage of the scheme that was built. -/
theorem checkWith_help (hhelp : (b.session.parse tokens).2 = .ok .help) (program : String)
    (format : Format) :
    checkWith b program format tokens = ⟨0, b.session.scheme.usage program, ""⟩ := by
  have ho : (b.session.scheme.parse tokens).2 = .ok .help := hhelp
  simp only [checkWith, BuiltGrammar.withErrorMode, Session.validateArgs, Session.parse,
    Session.exit?, ho]
  rfl

end Runs

/-- What the tool prints when a check is asked for help, and for the usage of the grammar. A path
that looks like an option names no file. -/
structure HelpTexts (files : Files) (path : String) (tokens : List String) (g : Grammar)
    (b : BuiltGrammar) : Prop where
  misused : Words.isOption path = true →
    runTool files (["check", "--grammar", path, "--"] ++ tokens) = Stop.misuse.exit ∧
      runTool files ["usage", "--grammar", path] = Stop.misuse.exit
  named : Words.isOption path = false → ∀ program, g.program = some program → program ≠ "" →
    runTool files (["check", "--grammar", path, "--"] ++ tokens) =
        ⟨0, b.session.scheme.usage program, ""⟩ ∧
      runTool files ["usage", "--grammar", path] = ⟨0, b.session.scheme.usage program, ""⟩
  unnamed : Words.isOption path = false → g.program.getD "" = "" →
    ∃ stem, Files.stem? path = some stem ∧ stem ≠ "" ∧
      runTool files (["check", "--grammar", path, "--"] ++ tokens) =
        ⟨0, b.session.scheme.usage stem, ""⟩ ∧
      runTool files ["usage", "--grammar", path] = ⟨0, b.session.scheme.usage "", ""⟩ ∧
      b.session.scheme.usage stem ≠ b.session.scheme.usage ""

theorem helpTexts (hload : Grammar.load files path = .ok g) (hbuild : g.build files = .ok b)
    (hhelp : (b.session.parse tokens).2 = .ok .help) : HelpTexts files path tokens g b := by
  have hpath := isPath_of_load hload
  have hprogram := Grammar.build_program hbuild
  have hcheck : Words.isOption path = false →
      runTool files (["check", "--grammar", path, "--"] ++ tokens) =
        ⟨0, b.session.scheme.usage (programName b path), ""⟩ := by
    intro ho
    simp only [runTool, ofArgs_check, hpath, ho, Bool.not_false, Bool.and_self, if_true, run,
      build_eq_ok hload hbuild, checkWith_help hhelp]
  have husage : Words.isOption path = false →
      runTool files ["usage", "--grammar", path] =
        ⟨0, b.session.scheme.usage b.session.program, ""⟩ := by
    intro ho
    simp only [runTool, ofArgs_usage, hpath, ho, Bool.not_false, Bool.and_self, if_true, run,
      build_eq_ok hload hbuild]
    rfl
  refine ⟨fun ho => ?_, fun ho program hp hne => ?_, fun ho hp => ?_⟩
  · simp only [runTool, ofArgs_check, ofArgs_usage, ho, Bool.not_true, Bool.and_false,
      Bool.false_eq_true, if_false, and_self]
  · rw [hp, Option.getD_some] at hprogram
    rw [hcheck ho, husage ho, programName, hprogram, if_neg hne]
    exact ⟨rfl, rfl⟩
  · rw [hp] at hprogram
    obtain ⟨extension, he⟩ := exists_extension hload
    obtain ⟨stem, hs, hne⟩ := Files.exists_stem he
    rw [hcheck ho, husage ho, programName, hprogram, if_pos rfl, hs]
    exact ⟨stem, rfl, hne, rfl, rfl, fun h => hne ((Scheme.usage_inj _).1 h)⟩

/-- When a check is asked for help, it prints what the usage command prints, exactly if the grammar
names its program or the path is refused by both. -/
theorem help_output_eq_iff (files : Files) (path : String) (tokens : List String) (g : Grammar)
    (b : BuiltGrammar) (hload : Grammar.load files path = .ok g) (hbuild : g.build files = .ok b)
    (hhelp : (b.session.parse tokens).2 = .ok .help) :
    HelpTexts files path tokens g b ∧
      ((runTool files (["check", "--grammar", path, "--"] ++ tokens)).stdout =
          (runTool files ["usage", "--grammar", path]).stdout ↔
        Words.isOption path = true ∨ ∃ program, g.program = some program ∧ program ≠ "") := by
  have h := helpTexts hload hbuild hhelp
  refine ⟨h, ?_⟩
  cases ho : Words.isOption path with
  | true =>
    obtain ⟨hcheck, husage⟩ := h.misused ho
    rw [hcheck, husage]
    exact ⟨fun _ => .inl rfl, fun _ => rfl⟩
  | false =>
    by_cases hp : g.program.getD "" = ""
    · obtain ⟨stem, -, -, hcheck, husage, hne⟩ := h.unnamed ho hp
      rw [hcheck, husage]
      refine ⟨fun heq => absurd heq hne, ?_⟩
      rintro (hf | ⟨program, hprogram, hne⟩)
      · cases hf
      · rw [hprogram] at hp
        exact absurd hp hne
    · rcases hprogram : g.program with _ | program
      · rw [hprogram] at hp
        exact absurd rfl hp
      · rw [hprogram] at hp
        obtain ⟨hcheck, husage⟩ := h.named ho program hprogram hp
        rw [hcheck, husage]
        exact ⟨fun _ => .inr ⟨program, rfl, hp⟩, fun _ => rfl⟩

/-- One file, with nothing beside it. -/
def oneFile (path content : String) : Files :=
  ⟨fun other => if other = path then .ok (.file content.toUTF8) else .error .notFound⟩

theorem load_oneFile {path content : String} {d : Document}
    (hf : Format.ofPath? path = some .json) (hr : Json.read? content = some d)
    (hd : Grammar.ofDocument? .typed d = some g) :
    Grammar.load (oneFile path content) path = .ok g := by
  have hlook : (oneFile path content).look path = .ok (.file content.toUTF8) := if_pos rfl
  have htext : String.fromUTF8? content.toUTF8 = some content := dif_pos content.isValidUTF8
  have hof : Grammar.ofText .json content = .ok g := by
    simp only [Grammar.ofText, Format.decode, Format.read?, hr, Option.bind_some, Format.rules, hd]
  simp only [Grammar.load, Grammar.formatOf, hf, hlook, htext]
  exact hof

def packFile : Files := oneFile "pack.json" "\x7b\"program\":\"tar\",\"help\":true\x7d"

theorem load_packFile :
    Grammar.load packFile "pack.json" = .ok { program := some "tar", help := true } := by
  refine load_oneFile (d := .object [("program", .text "tar"), ("help", .bool true)])
    (by decide +kernel) ?_ rfl
  have ht : Json.tokens? "\x7b\"program\":\"tar\",\"help\":true\x7d" =
      some [.openRecord, .text "program", .colon, .text "tar", .comma, .text "help", .colon,
        .scalar (.bool true), .closeRecord] := by
    cbv
  rw [Json.read?, ht]
  rfl

theorem pack_help_output : ∃ g b, Grammar.load packFile "pack.json" = .ok g ∧
    g.build packFile = .ok b ∧ (b.session.parse ["--help"]).2 = .ok .help ∧
      (runTool packFile ["check", "--grammar", "pack.json", "--", "--help"]).stdout =
        (runTool packFile ["usage", "--grammar", "pack.json"]).stdout := by
  have hbuilt : ∃ b, Grammar.build packFile { program := some "tar", help := true } = .ok b ∧
      (b.session.parse ["--help"]).2 = .ok .help := ⟨_, rfl, by decide +kernel⟩
  obtain ⟨b, hbuild, hhelp⟩ := hbuilt
  have heq := help_output_eq_iff packFile "pack.json" ["--help"] _ b load_packFile hbuild hhelp
  exact ⟨_, b, load_packFile, hbuild, hhelp, heq.2.2 (.inr ⟨"tar", rfl, by decide⟩)⟩

/-- A file like the other one, with a grammar that names no program. -/
def bareFile : Files := oneFile "pack.json" "\x7b\"help\":true\x7d"

theorem load_bareFile : Grammar.load bareFile "pack.json" = .ok { help := true } := by
  refine load_oneFile (d := .object [("help", .bool true)]) (by decide +kernel) ?_ rfl
  have ht : Json.tokens? "\x7b\"help\":true\x7d" =
      some [.openRecord, .text "help", .colon, .scalar (.bool true), .closeRecord] := by
    cbv
  rw [Json.read?, ht]
  rfl

/-- The check takes the stem of the file for a name, and the usage command has none. -/
theorem bare_help_differs : ∃ b, Grammar.load bareFile "pack.json" = .ok { help := true } ∧
    Grammar.build bareFile { help := true } = .ok b ∧ (b.session.parse ["--help"]).2 = .ok .help ∧
      (runTool bareFile ["check", "--grammar", "pack.json", "--", "--help"]).stdout ≠
        (runTool bareFile ["usage", "--grammar", "pack.json"]).stdout := by
  have hbuilt : ∃ b, Grammar.build bareFile { help := true } = .ok b ∧
      (b.session.parse ["--help"]).2 = .ok .help := ⟨_, rfl, by decide +kernel⟩
  obtain ⟨b, hbuild, hhelp⟩ := hbuilt
  have htexts : HelpTexts bareFile "pack.json" ["--help"] _ b :=
    helpTexts load_bareFile hbuild hhelp
  obtain ⟨stem, -, -, hcheck, husage, hne⟩ := htexts.unnamed (by decide +kernel) rfl
  have hwords : ["check", "--grammar", "pack.json", "--", "--help"] =
      ["check", "--grammar", "pack.json", "--"] ++ ["--help"] := rfl
  refine ⟨b, load_bareFile, hbuild, hhelp, fun h => hne ?_⟩
  rwa [hwords, hcheck, husage] at h

end Command

end CommandGrammar
