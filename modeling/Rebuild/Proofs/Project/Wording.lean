import Rebuild.Proofs.Command.Splitting
import Rebuild.Proofs.Project.Agreement

/-!
# The words of a project's commands

A command leaves the library as a text in three ways: a build prints it, the compile database stores it,
and the build script is made of such texts. A shell that takes one of these texts apart finds the words
that an executor is given (`Project.WordsKept`), and nothing in a script but its commands
(`commands?_script`).
-/

namespace Rebuild

open CommandLine (commands? words? render quote)

/-! ### Lines of a script -/

namespace ScriptLine

/-- The words of the command on a line. -/
def words : ScriptLine → List String
  | interpreter | blank => []
  | strict => ["set", "-e"]
  | say p => ["echo", p.text]
  | makeFolder p => ["mkdir", "-p", p.text]
  | remove p => ["rm", "-f", p.text]
  | run command => command.words

theorem text_eq_render {line : ScriptLine} (h : line ≠ .interpreter) : line.text = render line.words := by
  cases line with
  | interpreter => exact absurd rfl h
  | strict => decide
  | blank => rfl
  | say p =>
    have hecho : quote "echo" = "echo" := by decide
    simp [text, words, render, hecho, String.intercalate_cons_cons]
  | makeFolder p =>
    have hmake : quote "mkdir" ++ " " ++ quote "-p" ++ " " = "mkdir -p " := by decide
    rw [text, words, render, List.map_cons, List.map_cons, String.intercalate_cons_cons, List.map_cons,
      String.intercalate_cons_cons, ← String.append_assoc, ← String.append_assoc, hmake]
    rfl
  | remove p =>
    have hremove : quote "rm" ++ " " ++ quote "-f" ++ " " = "rm -f " := by decide
    simp [text, words, render, ← hremove, String.intercalate_cons_cons, String.append_assoc]
  | run command => rfl

/-- A line is read as its command, if it has one. -/
theorem foldl_line (line : ScriptLine) (commands : List (List String)) :
    (line.text ++ "\n").toList.foldl CommandLine.Splitter.step ⟨.bare, none, [], commands⟩ =
      ⟨.bare, none, [], commands ++ [line.words].filter (· ≠ [])⟩ := by
  by_cases hline : line = .interpreter
  · subst hline
    -- the sign at the beginning makes a comment of it
    have hchars : (interpreter.text ++ "\n").toList =
        ['#', '!', '/', 'b', 'i', 'n', '/', 's', 'h', '\n'] := by decide
    rw [hchars]
    rfl
  · rw [text_eq_render hline, CommandLine.Splitter.foldl_render_line]

theorem foldl_textOf (lines : List ScriptLine) (commands : List (List String)) :
    (textOf lines).toList.foldl CommandLine.Splitter.step ⟨.bare, none, [], commands⟩ =
      ⟨.bare, none, [], commands ++ (lines.map words).filter (· ≠ [])⟩ := by
  induction lines generalizing commands with
  | nil => simp [textOf_nil]
  | cons line lines ih =>
    rw [textOf_cons, String.toList_append, List.foldl_append, foldl_line, ih, List.append_assoc,
      ← List.filter_append]
    rfl

end ScriptLine

namespace Project

variable {project : Project} {debug : Bool} {options : BuildOptions} {executor : Executor}

/-- A shell reads the commands of the lines in a script, and no others. -/
theorem commands?_script (project : Project) (debug : Bool) : commands? (project.script debug) =
    some (((project.scriptLines debug).map ScriptLine.words).filter (· ≠ [])) := by
  rw [commands?, script_eq]
  refine (congrArg CommandLine.Splitter.finish? (ScriptLine.foldl_textOf _ [])).trans ?_
  simp [CommandLine.Splitter.finish?, CommandLine.Splitter.endWord, CommandLine.Splitter.endCommand]

/-! ### What is printed and what is run -/

/-- The command that makes the artifact is printed before anything else that is printed then. -/
theorem printed_finish (hecho : options.echoCommands = true) (session : Session) :
    session.printed ++ [.text ((project.finishCommand options.debug).toShell ++ "\n")] <+:
      ((project.finish options executor).run session).2.printed := by
  unfold finish
  simp only [hecho, if_true]
  -- the line itself, the announcement behind it, and the command, which prints nothing
  rw [Session.run_bind, Session.run_bind, Session.run_bind, Session.run_bind]
  refine List.IsPrefix.trans ?before (@Session.Uniform.adds _ Eq Eq _ ?behind _)
  case before => exact List.prefix_append _ _
  case behind =>
    split
    · exact .pure _
    · exact .bind (.printLine _) fun _ ↦ .bind (.printHint _) fun _ ↦ .bind (.printMarked ..) fun _ ↦
        .pure _

/-- Behind the tasks, nothing is run but the command that makes the artifact. -/
theorem Concludes.subset {tasks : List Task} {report : Report} {s s' : FileStore}
    {result : Except BuildError BuildSummary} {finishing : List CommandLine}
    (h : project.Concludes options executor tasks report s result s' finishing) :
    finishing ⊆ [project.finishCommand options.debug] := by
  cases h with
  | failed | fresh => exact List.nil_subset _
  | linked _ _ hlinks =>
    cases hlinks with
    | unprepared => exact List.nil_subset _
    | failed | made => exact List.Subset.refl _

/-- A build runs no other commands than those of the project. -/
theorem exists_ran_subset (project : Project) (options : BuildOptions) (executor : Executor)
    (choices : Nat → Nat) (cores : Nat) (before : Session) : ∃ commands,
      ((project.build options executor choices cores).run before).2.ran = before.ran ++ commands ∧
        commands ⊆ project.commands options.debug := by
  cases hsources : project.isHeaderOnly with
  | true =>
    obtain ⟨-, -, hran⟩ := build_of_isHeaderOnly hsources options executor choices cores before
    exact ⟨[], by rw [hran, List.append_nil], List.nil_subset _⟩
  | false =>
    obtain ⟨deeds, compiled, finishing, hcourse, hran⟩ :=
      project.exists_course options executor choices cores before hsources
    refine ⟨deeds.flatMap Deed.commands ++ finishing, by rw [hran, List.append_assoc],
      List.append_subset.2 ⟨?_, ?_⟩⟩
    · intro command hcommand
      obtain ⟨deed, hdeed, hcommand⟩ := List.mem_flatMap.1 hcommand
      obtain ⟨file, hfile, -, htask⟩ := hcourse.exists_source hdeed
      rw [Deed.commands, htask] at hcommand
      refine List.mem_append_left _ (List.mem_map.2 ⟨file, hfile, ?_⟩)
      split at hcommand
      · exact (List.mem_singleton.1 hcommand).symm
      · cases hcommand
    · rw [commands, hsources]
      refine List.Subset.trans ?_ (List.subset_append_right _ _)
      exact hcourse.concludes.subset

/-! ### The words are kept -/

/-- Wherever the commands of a project are shown, they are shown with the words that an executor is
given. -/
structure WordsKept (project : Project) (debug : Bool) : Prop where
  /-- A build runs no other commands than those of the project. -/
  ran : ∀ (options : BuildOptions) (executor : Executor) (choices : Nat → Nat) (cores : Nat)
    (before : Session), options.debug = debug → ∃ commands,
      ((project.build options executor choices cores).run before).2.ran = before.ran ++ commands ∧
        commands ⊆ project.commands debug
  /-- The line that is printed for the artifact, if commands are to be printed, has the words of the
  command that is run for it. -/
  printed : ∀ (options : BuildOptions) (executor : Executor) (before : Session), options.debug = debug →
    options.echoCommands = true → ∃ (line : String) (command : CommandLine),
      before.printed ++ [.text line] <+: ((project.finish options executor).run before).2.printed ∧
        ((project.finish options executor).run before).2.ran = before.ran ++ [command] ∧
        words? line = some command.words
  /-- The compile database has the words of the command that compiles each source. -/
  stored : ∀ s written, project.writeDatabase s debug = .ok written →
    ∃ (text : String) (entries : List DatabaseEntry), written.readText project.databasePath = .ok text ∧
      Text.Json.read? text = some (entries.map DatabaseEntry.members) ∧
      entries.map (words? ·.command) =
        project.sources.map fun file ↦ some (project.compileCommand debug file).words
  /-- A shell finds the words of each line in the build script. -/
  written : commands? (project.script debug) =
    some (((project.scriptLines debug).map ScriptLine.words).filter (· ≠ []))
  /-- The lines that neither print something nor make or remove something are those of the commands. -/
  runs : (project.scriptLines debug).filterMap ScriptLine.command? = project.commands debug

theorem wordsKept (project : Project) (debug : Bool) : project.WordsKept debug := by
  constructor
  case ran =>
    rintro options executor choices cores before rfl
    exact project.exists_ran_subset options executor choices cores before
  case printed =>
    rintro options executor before rfl hecho
    refine ⟨_, _, printed_finish hecho before, ?_, CommandLine.words?_line (project.finishCommand _)⟩
    obtain ⟨commands, hran, -, -, rfl, -⟩ :=
      Session.does_finish project options executor before.files before rfl
    exact hran
  case stored =>
    intro s written h
    obtain ⟨text, htext, hread⟩ := exists_read?_of_writeDatabase h
    refine ⟨text, project.database debug, htext, hread, ?_⟩
    simp only [database, List.map_map, Function.comp_def, CommandLine.words?_toShell]
  case written => exact project.commands?_script debug
  case runs => exact project.filterMap_scriptLines debug

end Project

end Rebuild
