import Rebuild.Project.Script
import Rebuild.Proofs.Project.Moves
import Rebuild.Proofs.Text.Json

/-!
# Building, the compile database and the build script

Three things tell how a project is compiled: a build that is asked for everything, the compile database,
and the build script. All of them go by one list of commands (`Project.commands`): the command of each
source, in the order of the sources, and behind them the command that makes the artifact.

A build with one worker and commands that never fail runs the list, if there is room for what they make
(`Project.HasRoom`). The script is taken apart into lines, so that the lines that run a command can be told
from those that make room for it.
-/

namespace Rebuild

open FileStore

variable {executor : Executor} {s s' compiled : FileStore}

/-! ### Executing tasks in order -/

/-- Every command succeeds, whatever the files are. -/
def Executor.NeverFails (executor : Executor) : Prop :=
  ∀ command s, ((executor command).run s).1.success = true

/-- The files when tasks have been executed in order, if the folder of each object can be made when its
turn has come. -/
def executedInTurn? (executor : Executor) : List Task → FileStore → Option FileStore
  | [], s => some s
  | task :: tasks, s =>
    match task.makeFolder s with
    | (.error _, _) => none
    | (.ok (), made) => executedInTurn? executor tasks ((executor task.command).run made).2

/-- Where no folder is refused and no command fails, every task succeeds. -/
theorem ExecutesAll.of_executedInTurn? {deeds : List Deed} (h : ExecutesAll executor s deeds s')
    (hexecutor : executor.NeverFails)
    (hturn : executedInTurn? executor (deeds.map Deed.task) s = some compiled) :
    s' = compiled ∧ deeds.flatMap Deed.commands = deeds.map (·.task.command) ∧
      ∀ deed ∈ deeds, deed.done.succeeded = true := by
  induction h with
  | nil =>
    refine ⟨Option.some.inj hturn, rfl, ?_⟩
    rintro deed ⟨⟩
  | cons hfirst _ ih =>
    rw [List.map_cons, executedInTurn?] at hturn
    cases hfirst with
    | refused hmake =>
      rw [hmake] at hturn
      cases hturn
    | ran hmake hran =>
      rename_i made outcome
      rw [hmake] at hturn
      simp only [hran] at hturn
      obtain ⟨hfiles, hcommands, hall⟩ := ih hturn
      refine ⟨hfiles, ?_, List.forall_mem_cons.2 ⟨?_, hall⟩⟩
      · rw [List.flatMap_cons, hcommands]
        rfl
      · have hsuccess := congrArg (·.1.success) hran
        exact hsuccess.symm.trans (hexecutor _ made)

/-- What has been written to a path is read from it. -/
theorem FileStore.readText_of_writeText {p : Path} {text : String} (h : s.writeText p text = .ok s') :
    s'.readText p = .ok text := by
  obtain ⟨l, hwrites⟩ := exists_writes h
  obtain ⟨executable, time, hfind⟩ := content?_eq_some_iff.1 (content?_of_writeBytes h hwrites)
  have hstat : s'.stat p = .ok (.file (Text.Utf8.encode text) executable time) := by
    rw [stat, locate_eq_ok_iff.2 ⟨hwrites.resolve_eq, hfind⟩]
    rfl
  have hdecode : Text.Utf8.decode? (Text.Utf8.encode text) = some text := by
    rw [Text.Utf8.decode?, Text.Utf8.encode, String.fromUTF8?, String.toUTF8_eq_toByteArray,
      dif_pos text.isValidUTF8]
    rfl
  rw [readText, readBytes, hstat]
  simp only [hdecode]

/-! ### Lines of a script -/

/-- A line of a build script. -/
inductive ScriptLine where
  /-- It names the shell. -/
  | interpreter
  /-- It lets the script end at the first command that fails. -/
  | strict
  /-- It is empty. -/
  | blank
  /-- It prints what is being made. -/
  | say (p : Path)
  /-- It makes a folder. -/
  | makeFolder (p : Path)
  /-- It removes a file. -/
  | remove (p : Path)
  /-- It runs a command. -/
  | run (command : CommandLine)
deriving DecidableEq, Repr

namespace ScriptLine

/-- The line as a shell is given it. -/
def text : ScriptLine → String
  | interpreter => "#!/bin/sh"
  | strict => "set -e"
  | blank => ""
  | say p => "echo " ++ CommandLine.quote p.text
  | makeFolder p => "mkdir -p " ++ CommandLine.quote p.text
  | remove p => "rm -f " ++ CommandLine.quote p.text
  | run command => command.toShell

/-- The command that the line runs. -/
def command? : ScriptLine → Option CommandLine
  | run command => some command
  | _ => none

/-- The lines as one text. -/
def textOf (lines : List ScriptLine) : String :=
  String.join (lines.map (·.text ++ "\n"))

theorem textOf_nil : textOf [] = "" :=
  rfl

theorem textOf_append (lines others : List ScriptLine) :
    textOf (lines ++ others) = textOf lines ++ textOf others := by
  rw [textOf, List.map_append, String.join_append]
  rfl

theorem textOf_cons (line : ScriptLine) (lines : List ScriptLine) :
    textOf (line :: lines) = line.text ++ "\n" ++ textOf lines := by
  rw [textOf, List.map_cons, String.join_cons]
  rfl

theorem textOf_flatMap {α : Type} (lines : α → List ScriptLine) (items : List α) :
    textOf (items.flatMap lines) = String.join (items.map fun item ↦ textOf (lines item)) := by
  induction items with
  | nil => rfl
  | cons item items ih => rw [List.flatMap_cons, textOf_append, ih, List.map_cons, String.join_cons]

/-- The line that makes the folder of a path. -/
def folderOf (p : Path) : List ScriptLine :=
  (p.parent?.map .makeFolder).toList

theorem textOf_folderOf (p : Path) : textOf (folderOf p) = Project.folderLine p := by
  rw [folderOf, Project.folderLine]
  cases p.parent? with
  | none => rfl
  | some folder =>
    rw [Option.map_some, Option.toList_some, textOf_cons, textOf_nil, String.append_empty, text]

end ScriptLine

namespace Project

variable (project : Project) (debug : Bool)

/-- The lines that make room for the artifact. An archive that is there is removed. -/
def roomLines : List ScriptLine :=
  ScriptLine.folderOf project.artifact ++
    if project.config.isLibrary then [.remove project.artifact] else []

/-- The lines for a source. -/
def sourceLines (file : ProjectFile) : List ScriptLine :=
  .say file.relative :: ScriptLine.folderOf (project.objectOf file) ++
    [.run (project.compileCommand debug file), .blank]

/-- The lines for the artifact. -/
def finishingLines : List ScriptLine :=
  .say project.artifact :: project.roomLines ++ [.run (project.finishCommand debug)]

/-- The lines of the build script. -/
def scriptLines : List ScriptLine :=
  [.interpreter, .strict, .blank] ++ project.sources.flatMap (project.sourceLines debug) ++
    if project.isHeaderOnly then [] else project.finishingLines debug

/-- The commands that make everything: one for each source in order, and behind them the one that makes
the artifact, if there is a source at all. -/
def commands : List CommandLine :=
  project.sources.map (project.compileCommand debug) ++
    if project.isHeaderOnly then [] else [project.finishCommand debug]

theorem textOf_sourceLines (file : ProjectFile) :
    ScriptLine.textOf (project.sourceLines debug file) = project.compileLines debug file := by
  have hlast : ScriptLine.textOf [.run (project.compileCommand debug file), .blank] =
      (project.compileCommand debug file).toShell ++ "\n\n" := by
    simp [ScriptLine.textOf, ScriptLine.text, String.append_assoc]
  rw [sourceLines, ScriptLine.textOf_append, ScriptLine.textOf_cons, ScriptLine.textOf_folderOf, hlast,
    compileLines, ScriptLine.text]
  simp only [String.append_assoc]

theorem textOf_roomLines : ScriptLine.textOf project.roomLines =
    folderLine project.artifact ++
      if project.config.isLibrary then "rm -f " ++ CommandLine.quote project.artifact.text ++ "\n"
      else "" := by
  rw [roomLines, ScriptLine.textOf_append, ScriptLine.textOf_folderOf]
  refine congrArg (_ ++ ·) ?_
  split
  · rw [ScriptLine.textOf_cons, ScriptLine.text, ScriptLine.textOf_nil, String.append_empty]
  · rfl

theorem textOf_finishingLines :
    ScriptLine.textOf (project.finishingLines debug) = project.finishLines debug := by
  rw [finishingLines, ScriptLine.textOf_append, ScriptLine.textOf_cons, textOf_roomLines,
    ScriptLine.textOf_cons, ScriptLine.textOf_nil, finishLines]
  simp only [ScriptLine.text, String.append_empty, String.append_assoc]

/-- The script is made up of its lines. -/
theorem script_eq : project.script debug = ScriptLine.textOf (project.scriptLines debug) := by
  have hopening : ScriptLine.textOf [.interpreter, .strict, .blank] = "#!/bin/sh\nset -e\n\n" := by
    decide
  have hsources : (fun file ↦ ScriptLine.textOf (project.sourceLines debug file)) =
      project.compileLines debug := funext (project.textOf_sourceLines debug)
  unfold script scriptLines
  rw [ScriptLine.textOf_append, ScriptLine.textOf_append, hopening, ScriptLine.textOf_flatMap, hsources,
    apply_ite ScriptLine.textOf, textOf_finishingLines, ScriptLine.textOf_nil]

/-! ### What the lines run -/

theorem filterMap_folderOf (p : Path) : (ScriptLine.folderOf p).filterMap ScriptLine.command? = [] := by
  rw [ScriptLine.folderOf]
  cases p.parent? <;> rfl

theorem filterMap_roomLines : project.roomLines.filterMap ScriptLine.command? = [] := by
  rw [roomLines, List.filterMap_append, filterMap_folderOf]
  split <;> rfl

theorem filterMap_sourceLines (files : List ProjectFile) :
    (files.flatMap (project.sourceLines debug)).filterMap ScriptLine.command? =
      files.map (project.compileCommand debug) := by
  induction files with
  | nil => rfl
  | cons file files ih =>
    rw [List.flatMap_cons, List.filterMap_append, ih, sourceLines, List.filterMap_append,
      List.filterMap_cons, filterMap_folderOf]
    rfl

/-- The lines of the script that run commands run all of them. -/
theorem filterMap_scriptLines :
    (project.scriptLines debug).filterMap ScriptLine.command? = project.commands debug := by
  have hopening : [ScriptLine.interpreter, .strict, .blank].filterMap ScriptLine.command? = [] := rfl
  rw [scriptLines, List.filterMap_append, List.filterMap_append, filterMap_sourceLines, commands,
    hopening, List.nil_append]
  split
  · rfl
  · rw [finishingLines, List.filterMap_append, List.filterMap_cons, filterMap_roomLines]
    rfl

/-- Right behind the line that makes the folder of its object, a source is compiled, when those before it
have been. -/
theorem exists_sourceLines {i : Nat} {file : ProjectFile} (h : project.sources[i]? = some file) :
    ∃ earlier later, project.scriptLines debug = earlier ++
        (ScriptLine.folderOf (project.objectOf file) ++
          .run (project.compileCommand debug file) :: later) ∧
      earlier.filterMap ScriptLine.command? =
        (project.sources.take i).map (project.compileCommand debug) := by
  obtain ⟨hi, hfile⟩ := List.getElem?_eq_some_iff.1 h
  have hsplit : project.sources =
      project.sources.take i ++ file :: project.sources.drop (i + 1) := by
    rw [← hfile, List.getElem_cons_drop, List.take_append_drop]
  have hflat : project.sources.flatMap (project.sourceLines debug) =
      (project.sources.take i).flatMap (project.sourceLines debug) ++
        (project.sourceLines debug file ++
          (project.sources.drop (i + 1)).flatMap (project.sourceLines debug)) := by
    conv_lhs => rw [hsplit, List.flatMap_append, List.flatMap_cons]
  refine ⟨[.interpreter, .strict, .blank] ++
    (project.sources.take i).flatMap (project.sourceLines debug) ++ [.say file.relative],
    .blank :: (project.sources.drop (i + 1)).flatMap (project.sourceLines debug) ++
      if project.isHeaderOnly then [] else project.finishingLines debug, ?_, ?_⟩
  · rw [scriptLines, hflat, sourceLines]
    simp only [List.append_assoc, List.cons_append, List.nil_append]
  · rw [List.filterMap_append, List.filterMap_append, filterMap_sourceLines]
    exact List.append_nil _

/-- Right behind the lines that make room for it, the artifact is made, when all sources have been
compiled. -/
theorem exists_finishLines (h : project.isHeaderOnly = false) :
    ∃ earlier, project.scriptLines debug = earlier ++
        (project.roomLines ++ [.run (project.finishCommand debug)]) ∧
      earlier.filterMap ScriptLine.command? = project.sources.map (project.compileCommand debug) := by
  refine ⟨[.interpreter, .strict, .blank] ++ project.sources.flatMap (project.sourceLines debug) ++
    [.say project.artifact], ?_, ?_⟩
  · rw [scriptLines, h, finishingLines]
    simp only [List.append_assoc, List.cons_append, List.nil_append, Bool.false_eq_true, if_false]
  · rw [List.filterMap_append, List.filterMap_append, filterMap_sourceLines]
    exact List.append_nil _

/-! ### What a build runs -/

variable {project debug} {options : BuildOptions}

/-- There is room for what is made when a build begins with the files `s`; `compiled` are the files when
all sources have been compiled. -/
structure HasRoom (project : Project) (debug : Bool) (executor : Executor) (s compiled : FileStore) :
    Prop where
  /-- The folder of each object can be made when its turn has come. -/
  objects : executedInTurn? executor (project.sources.map (project.task debug)) s = some compiled
  /-- The folder of the artifact can be made, and an archive that is there can be removed. -/
  artifact : (project.prepare
    (project.withDatabase debug (project.sources.map (project.task debug)) compiled)).1 = .ok ()

theorem plan_of_fullRebuild (project : Project) (s : FileStore) (debug : Bool) :
    project.plan s true debug = project.sources.map (project.task debug) :=
  congrArg (List.map _) (List.filter_eq_self.2 fun _ _ ↦ rfl)

/-- When everything has been compiled and the artifact is asked for, it is made. -/
theorem Concludes.of_forceLinking {tasks : List Task} {deeds : List Deed}
    {result : Except BuildError BuildSummary} {finishing : List CommandLine}
    (h : project.Concludes options executor tasks (Report.ofCompletions (deeds.map Deed.done)) s result s'
      finishing)
    (hforce : options.forceLinking = true) (hexecutor : executor.NeverFails)
    (hall : ∀ deed ∈ deeds, deed.done.succeeded = true)
    (hprepare : (project.prepare (project.withDatabase options.debug tasks s)).1 = .ok ()) :
    result = .ok { status := Report.worst (deeds.map Deed.done), compiled := tasks.length, linked := true } ∧
      finishing = [project.finishCommand options.debug] ∧
      s' = ((executor (project.finishCommand options.debug)).run
        (project.prepare (project.withDatabase options.debug tasks s)).2).2 := by
  cases h with
  | failed hfailed => exact absurd hfailed (worst_ne_failed_iff.2 hall)
  | fresh _ hneeds =>
    rw [needsLinking, linkRequired, hforce] at hneeds
    cases hneeds
  | linked _ _ hlinks =>
    cases hlinks with
    | unprepared hnot =>
      rw [hnot] at hprepare
      cases hprepare
    | failed _ hran hfailed =>
      have hsuccess := (congrArg (·.1.success) hran).symm.trans (hexecutor _ _)
      exact absurd hsuccess (Bool.eq_false_iff.1 hfailed)
    | made hmade hran =>
      refine ⟨rfl, rfl, ?_⟩
      rw [hmade, hran]

/-- A build that is asked for everything runs all commands in order, if no command fails. -/
theorem HasRoom.ran_fullBuild {before : Session} (h : project.HasRoom options.debug executor before.files compiled)
    (hexecutor : executor.NeverFails) (hfull : options.fullRebuild = true)
    (hforce : options.forceLinking = true) (hsources : project.isHeaderOnly = false)
    (choices : Nat → Nat) {cores : Nat} (hone : project.budget cores ≤ 1) :
    let built := (project.build options executor choices cores).run before
    built.1 = .ok { status := .changed, compiled := project.sources.length, linked := true } ∧
      built.2.ran = before.ran ++ project.commands options.debug ∧
      built.2.files = ((executor (project.finishCommand options.debug)).run (project.prepare
        (project.withDatabase options.debug (project.sources.map (project.task options.debug))
          compiled)).2).2 := by
  intro built
  obtain ⟨deeds, compiled', finishing, hcourse, hran, horder⟩ :=
    project.exists_course_in_order options executor choices cores before hsources
  have hconcludes := hcourse.concludes
  have htasks := horder hone
  rw [hfull, plan_of_fullRebuild] at hconcludes htasks
  obtain ⟨rfl, hcommands, hall⟩ := hcourse.executes.of_executedInTurn? hexecutor (htasks ▸ h.objects)
  obtain ⟨hresult, rfl, hfiles⟩ := hconcludes.of_forceLinking hforce hexecutor hall h.artifact
  refine ⟨?_, ?_, hfiles⟩
  · -- as there is a source, there is a deed
    have hne : deeds ≠ [] := by
      rintro rfl
      rw [isHeaderOnly, List.map_eq_nil_iff.1 htasks.symm] at hsources
      cases hsources
    rw [hresult, worst_of_succeeded hall, if_neg hne, List.length_map]
  · have hmap : deeds.map (·.task.command) = project.sources.map (project.compileCommand options.debug) := by
      have hmapped := congrArg (List.map Task.command) htasks
      rwa [List.map_map, List.map_map] at hmapped
    rw [hran, hcommands, hmap, commands, hsources, List.append_assoc]
    rfl

/-! ### The compile database -/

/-- What is written into the compile database is read back from it. -/
theorem exists_read?_of_writeDatabase (h : project.writeDatabase s debug = .ok s') :
    ∃ text, s'.readText project.databasePath = .ok text ∧
      Text.Json.read? text = some ((project.database debug).map DatabaseEntry.members) := by
  refine ⟨_, readText_of_writeText h, Text.Json.read?_list fun members hmembers ↦ ?_⟩
  obtain ⟨entry, -, rfl⟩ := List.mem_map.1 hmembers
  exact List.cons_ne_nil _ _

/-! ### All three -/

/-- What a build does that is asked for everything, has one worker, and has commands that never fail. -/
structure BuildRuns (project : Project) (debug : Bool) (executor : Executor) (before : Session)
    (result : Except BuildError BuildSummary) (after : Session) : Prop where
  /-- If there is room for what is made, it runs all commands in order. -/
  sources : project.isHeaderOnly = false → ∀ compiled,
    project.HasRoom debug executor before.files compiled →
      result = .ok { status := .changed, compiled := project.sources.length, linked := true } ∧
      after.ran = before.ran ++ project.commands debug ∧
      after.files = ((executor (project.finishCommand debug)).run (project.prepare
        (project.withDatabase debug (project.sources.map (project.task debug)) compiled)).2).2
  /-- Without sources it does nothing. -/
  headerOnly : project.isHeaderOnly = true →
    result = .ok { headerOnly := true } ∧ after.ran = before.ran ∧ after.files = before.files

/-- What is read from the compile database when it has been written: an entry for each source, in order,
with the command that compiles it. -/
def DatabaseLists (project : Project) (debug : Bool) (written : FileStore) : Prop :=
  ∃ (text : String) (entries : List DatabaseEntry), written.readText project.databasePath = .ok text ∧
    Text.Json.read? text = some (entries.map DatabaseEntry.members) ∧
    entries.map DatabaseEntry.file = project.sources.map (·.path.text) ∧
    entries.map DatabaseEntry.command =
      project.sources.map fun file ↦ (project.compileCommand debug file).toShell

/-- What the build script is made of. -/
structure ScriptRuns (project : Project) (debug : Bool) : Prop where
  /-- It is made up of lines. -/
  text : project.script debug = ScriptLine.textOf (project.scriptLines debug)
  /-- The lines that neither print something nor make or remove something run all commands in order. -/
  commands : (project.scriptLines debug).filterMap ScriptLine.command? = project.commands debug
  /-- The command for a source is right behind the line that makes the folder of its object. -/
  compiles : ∀ i file, project.sources[i]? = some file → ∃ earlier later,
    project.scriptLines debug = earlier ++ (ScriptLine.folderOf (project.objectOf file) ++
      .run (project.compileCommand debug file) :: later) ∧
    earlier.filterMap ScriptLine.command? = (project.sources.take i).map (project.compileCommand debug)
  /-- The command for the artifact comes last, right behind the lines that make room for it. -/
  finishes : project.isHeaderOnly = false → ∃ earlier,
    project.scriptLines debug = earlier ++ (project.roomLines ++ [.run (project.finishCommand debug)]) ∧
    earlier.filterMap ScriptLine.command? = project.sources.map (project.compileCommand debug)

/-- A build that is asked for everything, the compile database and the build script go by the same
commands. -/
theorem build_database_script_agree (project : Project) (debug : Bool) :
    (∀ (options : BuildOptions) (executor : Executor) (choices : Nat → Nat) (cores : Nat)
      (before : Session), options.debug = debug → options.fullRebuild = true →
      options.forceLinking = true → project.budget cores ≤ 1 → executor.NeverFails →
      let built := (project.build options executor choices cores).run before
      project.BuildRuns debug executor before built.1 built.2) ∧
    (∀ s written, project.writeDatabase s debug = .ok written → project.DatabaseLists debug written) ∧
    project.ScriptRuns debug := by
  refine ⟨?_, fun s written h ↦ ?_, ?_⟩
  · rintro options executor choices cores before rfl hfull hforce hone hexecutor built
    constructor
    case sources =>
      exact fun hsources compiled h ↦ h.ran_fullBuild hexecutor hfull hforce hsources choices hone
    case headerOnly =>
      intro hsources
      obtain ⟨hresult, hfiles, hran⟩ :=
        build_of_isHeaderOnly hsources options executor choices cores before
      exact ⟨hresult, hran, hfiles⟩
  · obtain ⟨text, htext, hread⟩ := exists_read?_of_writeDatabase h
    refine ⟨text, project.database debug, htext, hread, ?_, ?_⟩ <;> rw [database, List.map_map] <;> rfl
  · exact ⟨project.script_eq debug, project.filterMap_scriptLines debug,
      fun _ _ ↦ project.exists_sourceLines debug, project.exists_finishLines debug⟩

/-- A store with two sources and an archive that was made earlier. -/
def oldArchive : FileStore where
  entries := [(.root, .folder 0), (⟨["src"]⟩, .folder 0), (⟨["src", "a.c"]⟩, .file .empty false 10),
    (⟨["src", "b.cpp"]⟩, .file .empty false 10), (⟨["bin"]⟩, .folder 0),
    (⟨["bin", "libapp.a"]⟩, .file .empty false 20)]
  clock := 40

/-- Two sources are compiled one after the other, and then the archive is made anew. -/
theorem agree_of_oldArchive :
    let project := scan oldArchive ⟨"."⟩ plainLibrary "default"
    let executor : Executor := fun _ s ↦ ({ success := true }, s)
    let options : BuildOptions := { fullRebuild := true, forceLinking := true }
    let built := (project.build options executor Pool.firstChoices 1).run { files := oldArchive }
    built.2.ran = project.commands false ∧ (project.commands false).length = 3 ∧
      ∃ written, project.writeDatabase oldArchive false = .ok written ∧
        project.DatabaseLists false written := by
  intro project executor options built
  obtain ⟨hbuild, hdatabase, -⟩ := build_database_script_agree project false
  have hturn : (executedInTurn? executor (project.sources.map (project.task false)) oldArchive).any
      (fun compiled ↦ (project.prepare (project.withDatabase false
        (project.sources.map (project.task false)) compiled)).1.toOption.isSome) = true := by
    decide +kernel
  obtain ⟨compiled, hcompiled, hprepared⟩ := (Option.any_eq_true ..).1 hturn
  have hroom : project.HasRoom false executor oldArchive compiled := by
    refine ⟨hcompiled, ?_⟩
    cases hprepare : (project.prepare (project.withDatabase false
        (project.sources.map (project.task false)) compiled)).1 with
    | error e =>
      rw [hprepare] at hprepared
      cases hprepared
    | ok => rfl
  have hruns := hbuild options executor Pool.firstChoices 1 { files := oldArchive } rfl rfl rfl
    (by decide) (fun _ _ ↦ rfl)
  have hlisted : (project.writeDatabase oldArchive false).toOption.isSome = true := by decide +kernel
  have hbuilt : built =
      (project.build options executor Pool.firstChoices 1).run { files := oldArchive } := rfl
  rw [hbuilt]
  refine ⟨(hruns.sources (by decide +kernel) compiled hroom).2.1, by decide +kernel, ?_⟩
  cases hwritten : project.writeDatabase oldArchive false with
  | error e =>
    rw [hwritten] at hlisted
    cases hlisted
  | ok written => exact ⟨written, rfl, hdatabase oldArchive written hwritten⟩

end Project

end Rebuild
