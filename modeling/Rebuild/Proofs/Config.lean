import Mathlib.Data.Nat.Digits.Defs
import Rebuild.Config
import Rebuild.Proofs.Language.Meaning
import Rebuild.Proofs.Text.Words

/-!
# Which settings are refused

A configuration is refused for its number of threads or for its kind of output, the last value of which has to be
one that can be used. `Refused` says what these values are without reading them, in terms of the assignments that
count; nothing else is a reason to refuse a configuration (`exists_refused_iff`).

Libraries are looked up when nothing is left to check. A resolver is any computation on a state; `noting` writes
down for which names it is asked.
-/

namespace Rebuild.Config

open Assignments (separator textsOf valuesIn)

variable {assigned : List (String × String)} {digits : List Char} {value : String} {n : Nat}

/-! ### What is assigned -/

/-- The values of a name, in order: what stands between separators in the texts that the name is assigned, without
the blanks around it, where that is not empty. -/
def valuesOf (assigned : List (String × String)) (name : String) : List String :=
  (textsOf name assigned).flatMap valuesIn

/-- The value that counts for a name with one value. -/
def lastOf? (assigned : List (String × String)) (name : String) : Option String :=
  (valuesOf assigned name).getLast?

/-- All texts that a name is assigned, as one. -/
def textOf (assigned : List (String × String)) (name : String) : String :=
  separator.intercalate (textsOf name assigned)

theorem values_eq (assigned : List (String × String)) (name : String) :
    (Assignments.mergeAll {} assigned).values name = valuesOf assigned name :=
  Assignments.values_mergeAll assigned name

theorem last?_eq (assigned : List (String × String)) (name : String) :
    (Assignments.mergeAll {} assigned).last? name = lastOf? assigned name := by
  rw [Assignments.last?, values_eq, lastOf?]

/-- The words in the values of a name are the pieces of all its texts. -/
theorem wordsOf_eq (assigned : List (String × String)) (name : String) :
    wordsOf (Assignments.mergeAll {} assigned) name = Text.piecesOf (textOf assigned name) := by
  rw [wordsOf, values_eq, valuesOf, ← Assignments.valuesIn_intercalate, Text.flatMap_wordsOf_valuesIn, textOf]

/-! ### Values that can be used -/

/-- Decimal digits denote a number, the last one counting ones. -/
def Denotes (digits : List Char) (n : Nat) : Prop :=
  digits ≠ [] ∧ (∀ c ∈ digits, c.isDigit = true) ∧
    Nat.ofDigits 10 (digits.reverse.map fun c ↦ c.toNat - '0'.toNat) = n

/-- A value asks for a number of threads: decimal digits, behind a plus sign or not, denote the number, which is
not zero and which a word of 64 bits can hold. -/
def AsksFor (value : String) (n : Nat) : Prop :=
  (∃ digits, (value.toList = digits ∨ value.toList = '+' :: digits) ∧ Denotes digits n) ∧ 1 ≤ n ∧ n < 2 ^ 64

/-- The words for an executable. -/
def binaryWords : List String := ["binary", "bin", "executable"]

/-- The words for a static library. -/
def libraryWords : List String := ["library", "lib", "static"]

/-- The words by which a project is declared a library. -/
def yesWords : List String := ["true", "1", "yes"]

theorem decimal?_eq_some_iff : decimal? digits = some n ↔ Denotes digits n := by
  have hfold : digits.foldl (fun n c ↦ 10 * n + (c.toNat - '0'.toNat)) 0 =
      Nat.ofDigits 10 (digits.reverse.map fun c ↦ c.toNat - '0'.toNat) := by
    rw [Nat.ofDigits_eq_foldr, List.foldr_map, List.foldr_reverse]
    refine congrArg (fun f ↦ digits.foldl f 0) ?_
    funext n c
    exact Nat.add_comm _ _
  rw [decimal?, Denotes, hfold, Option.ite_none_right_eq_some, List.all_eq_true, Option.some.injEq, and_assoc]

theorem parseThreads?_eq_some_iff : parseThreads? value = some n ↔ AsksFor value n := by
  -- a plus sign is no digit, so the two ways to write a number exclude each other
  have hplus (digits : List Char) : ¬Denotes ('+' :: digits) n := by
    rintro ⟨-, hdigits, -⟩
    exact absurd (hdigits '+' List.mem_cons_self) (by decide)
  have hbounds : 0 < n ∧ n ≤ maxThreads ↔ 1 ≤ n ∧ n < 2 ^ 64 := by
    rw [maxThreads]
    omega
  rw [parseThreads?, Option.filter_eq_some_iff, decide_eq_true_eq, hbounds, AsksFor, decimal?_eq_some_iff]
  refine and_congr_left fun _ ↦ ?_
  split
  next digits hvalue =>
    rw [hvalue]
    constructor
    · exact fun h ↦ ⟨digits, Or.inr rfl, h⟩
    · rintro ⟨others, rfl | hothers, h⟩
      · exact absurd h (hplus digits)
      · rwa [(List.cons.inj hothers).2]
  next hsign =>
    constructor
    · exact fun h ↦ ⟨_, Or.inl rfl, h⟩
    · rintro ⟨others, rfl | hothers, h⟩
      · exact h
      · exact absurd hothers (hsign others)

/-- A word names an executable, a static library, or nothing. -/
theorem parseOutput?_cases (value : String) :
    (value ∈ binaryWords ∧ value ∉ libraryWords ∧ parseOutput? value = some .binary) ∨
      (value ∈ libraryWords ∧ parseOutput? value = some .staticLibrary) ∨
      (value ∉ binaryWords ++ libraryWords ∧ parseOutput? value = none) := by
  have hapart : ∀ word ∈ binaryWords, word ∉ libraryWords := by decide
  have hread : parseOutput? value = if value ∈ binaryWords then some .binary
      else if value ∈ libraryWords then some .staticLibrary else none := by
    simp only [parseOutput?, List.contains_iff_mem]
    rfl
  by_cases hbinary : value ∈ binaryWords
  · exact Or.inl ⟨hbinary, hapart value hbinary, hread.trans (if_pos hbinary)⟩
  · rw [if_neg hbinary] at hread
    by_cases hlibrary : value ∈ libraryWords
    · exact Or.inr (Or.inl ⟨hlibrary, hread.trans (if_pos hlibrary)⟩)
    · refine Or.inr (Or.inr ⟨?_, hread.trans (if_neg hlibrary)⟩)
      rw [List.mem_append]
      exact not_or.2 ⟨hbinary, hlibrary⟩

/-! ### Settings that are refused -/

/-- A value that is set for the number of threads and asks for none. -/
def WrongThreads (assigned : List (String × String)) (value : String) : Prop :=
  lastOf? assigned "threads" = some value ∧ ∀ n, ¬AsksFor value n

/-- A value that is set for the kind of output and names none. -/
def WrongOutput (assigned : List (String × String)) (value : String) : Prop :=
  lastOf? assigned "output" = some value ∧ value ∉ binaryWords ++ libraryWords

/-- The error that assignments are refused with: the number of threads comes first. -/
inductive Refused (assigned : List (String × String)) : InvalidSetting → Prop
  | threads {value : String} (h : WrongThreads assigned value) : Refused assigned { key := "threads", value }
  | output {value : String} (hthreads : ∀ other, ¬WrongThreads assigned other) (h : WrongOutput assigned value) :
    Refused assigned { key := "output", value }

/-- The numbers of threads that assignments ask for. -/
def ThreadsSet (assigned : List (String × String)) (threads : Option Nat) : Prop :=
  (threads = none ↔ lastOf? assigned "threads" = none) ∧
    ∀ n, threads = some n ↔ ∃ value, lastOf? assigned "threads" = some value ∧ AsksFor value n

/-- The kind of output that assignments ask for. -/
def OutputSet (assigned : List (String × String)) (output : OutputKind) : Prop :=
  output = .staticLibrary ↔ (∃ value, lastOf? assigned "is_library" = some value ∧ value ∈ yesWords) ∨
    ∃ value, lastOf? assigned "output" = some value ∧ value ∈ libraryWords

theorem threadsOf_cases (assigned : List (String × String)) :
    (∃ value, WrongThreads assigned value ∧
        threadsOf (Assignments.mergeAll {} assigned) = .error { key := "threads", value }) ∨
      (∀ value, ¬WrongThreads assigned value) ∧ ∃ threads, ThreadsSet assigned threads ∧
        threadsOf (Assignments.mergeAll {} assigned) = .ok threads := by
  rw [threadsOf, last?_eq]
  cases hlast : lastOf? assigned "threads" with
  | none =>
    have hnone (value : String) : lastOf? assigned "threads" ≠ some value := by simp [hlast]
    refine Or.inr ⟨fun value h ↦ hnone value h.1, none, ⟨iff_of_true rfl hlast, fun n ↦ ?_⟩, rfl⟩
    exact iff_of_false (Option.some_ne_none n).symm fun ⟨value, hvalue, _⟩ ↦ hnone value hvalue
  | some value =>
    have hvalue (other : String) : lastOf? assigned "threads" = some other ↔ other = value := by
      rw [hlast, Option.some.injEq, eq_comm]
    cases hparse : parseThreads? value with
    | none =>
      refine Or.inl ⟨value, ⟨hlast, fun n hn ↦ ?_⟩, by simp only [hparse]⟩
      rw [parseThreads?_eq_some_iff.2 hn] at hparse
      cases hparse
    | some n =>
      have hn := parseThreads?_eq_some_iff.1 hparse
      refine Or.inr ⟨fun other h ↦ h.2 n (((hvalue other).1 h.1).symm ▸ hn), some n, ⟨?_, fun k ↦ ?_⟩,
        by simp only [hparse]⟩
      · exact iff_of_false (Option.some_ne_none n) (by simp [hlast])
      · simp only [hvalue, exists_eq_left, ← parseThreads?_eq_some_iff, hparse]

theorem outputOf_cases (assigned : List (String × String)) :
    (∃ value, WrongOutput assigned value ∧
        outputOf (Assignments.mergeAll {} assigned) = .error { key := "output", value }) ∨
      (∀ value, ¬WrongOutput assigned value) ∧ ∃ output, OutputSet assigned output ∧
        outputOf (Assignments.mergeAll {} assigned) = .ok output := by
  let declared := (lastOf? assigned "is_library").any fun value ↦ yesWords.contains value
  have hdeclared : declared = true ↔
      ∃ value, lastOf? assigned "is_library" = some value ∧ value ∈ yesWords := by
    simp only [declared, Option.any_eq_true, List.contains_iff_mem]
  -- a declared library is one whatever is named, and otherwise the named kind counts
  have hset (named : OutputKind) (hnamed : named = .staticLibrary ↔
      ∃ value, lastOf? assigned "output" = some value ∧ value ∈ libraryWords) :
      OutputSet assigned (if declared then .staticLibrary else named) := by
    rw [OutputSet, ← hdeclared, ← hnamed]
    cases declared <;> simp
  rw [outputOf, last?_eq, last?_eq]
  cases hlast : lastOf? assigned "output" with
  | none =>
    have hnone (value : String) : lastOf? assigned "output" ≠ some value := by simp [hlast]
    refine Or.inr ⟨fun value h ↦ hnone value h.1, _, hset _ ?_, rfl⟩
    exact iff_of_false OutputKind.noConfusion fun ⟨value, hvalue, _⟩ ↦ hnone value hvalue
  | some value =>
    have hvalue (other : String) : lastOf? assigned "output" = some other ↔ other = value := by
      rw [hlast, Option.some.injEq, eq_comm]
    rcases parseOutput?_cases value with ⟨hbinary, hapart, hparse⟩ | ⟨hlibrary, hparse⟩ | ⟨hwrong, hparse⟩
    · refine Or.inr ⟨fun other h ↦ ?_, _, hset .binary ?_, by simp only [hparse]; rfl⟩
      · exact h.2 (List.mem_append_left _ (((hvalue other).1 h.1).symm ▸ hbinary))
      · exact iff_of_false OutputKind.noConfusion (by simpa only [hvalue, exists_eq_left] using hapart)
    · refine Or.inr ⟨fun other h ↦ ?_, _, hset .staticLibrary ?_, by simp only [hparse]; rfl⟩
      · exact h.2 (List.mem_append_right _ (((hvalue other).1 h.1).symm ▸ hlibrary))
      · exact iff_of_true rfl ⟨value, hlast, hlibrary⟩
    · exact Or.inl ⟨value, ⟨hlast, hwrong⟩, by simp only [hparse]⟩

/-- Assignments are refused exactly for these two reasons. -/
theorem exists_refused_iff : (∃ e, Refused assigned e) ↔
    (∃ value, WrongThreads assigned value) ∨ ∃ value, WrongOutput assigned value := by
  constructor
  · rintro ⟨e, h | ⟨-, h⟩⟩
    · exact Or.inl ⟨_, h⟩
    · exact Or.inr ⟨_, h⟩
  · rintro (⟨value, h⟩ | ⟨value, h⟩)
    · exact ⟨_, .threads h⟩
    · by_cases hthreads : ∃ other, WrongThreads assigned other
      · obtain ⟨other, hother⟩ := hthreads
        exact ⟨_, .threads hother⟩
      · exact ⟨_, .output (not_exists.1 hthreads) h⟩

/-! ### Libraries -/

section Resolving

variable {σ : Type} {m : Type → Type} [Monad m]

/-- The libraries with some names, looked up in order. -/
def lookUp (resolve : String → m LibraryFlags) (names : List String) : m (List Library) :=
  names.mapM fun name ↦ do
    return { name, flags := ← resolve name : Library }

/-- A resolver that also writes down the names it is asked for. -/
def noting (resolve : String → m LibraryFlags) (name : String) : StateT (List String) m LibraryFlags := do
  modify (· ++ [name])
  resolve name

/-- Each name is asked for once and in order, and a library has the flags that are the answer. -/
theorem run_lookUp (resolve : String → StateM σ LibraryFlags) (names : List String) (world : σ) :
    ∃ libraries after, libraries.map Library.name = names ∧
      (names.mapM resolve).run world = (libraries.map Library.flags, after) ∧
      (lookUp resolve names).run world = (libraries, after) ∧
      ∀ asked, ((lookUp (noting resolve) names).run asked).run world = ((libraries, asked ++ names), after) := by
  -- the other names are looked up in the state that the first answer leaves behind
  induction names generalizing world with
  | nil => exact ⟨[], world, rfl, rfl, rfl, fun asked ↦ by rw [List.append_nil]; rfl⟩
  | cons name names ih =>
    obtain ⟨libraries, after, hnames, hflags, hlibraries, hasked⟩ := ih ((resolve name).run world).2
    let answer := (resolve name).run world
    refine ⟨⟨name, answer.1⟩ :: libraries, after, congrArg (name :: ·) hnames, ?_, ?_, fun asked ↦ ?_⟩
    · have hfirst : ((name :: names).mapM resolve).run world =
          ((names.mapM resolve).run answer.2).map (answer.1 :: ·) id := by
        rw [List.mapM_cons]
        rfl
      rw [hfirst, hflags]
      rfl
    · have hfirst : (lookUp resolve (name :: names)).run world =
          ((lookUp resolve names).run answer.2).map (⟨name, answer.1⟩ :: ·) id := by
        rw [lookUp, List.mapM_cons]
        rfl
      rw [hfirst, hlibraries]
      rfl
    · have hfirst : ((lookUp (noting resolve) (name :: names)).run asked).run world =
          (((lookUp (noting resolve) names).run (asked ++ [name])).run answer.2).map
            (Prod.map (⟨name, answer.1⟩ :: ·) id) id := by
        rw [lookUp, List.mapM_cons]
        rfl
      rw [hfirst, hasked, List.append_assoc, List.singleton_append]
      rfl

/-- What is made of the libraries is made of the answers, whether or not the names are written down. -/
theorem run_lookUp_return {α : Type} (make : List Library → α) (resolve : String → StateM σ LibraryFlags)
    (names : List String) (world : σ) :
    ∃ libraries after, libraries.map Library.name = names ∧
      (names.mapM resolve).run world = (libraries.map Library.flags, after) ∧
      StateT.run (m := Id) (do return make (← lookUp resolve names)) world = (make libraries, after) ∧
      StateT.run (m := Id) (StateT.run (do return make (← lookUp (noting resolve) names)) []) world =
        ((make libraries, names), after) := by
  obtain ⟨libraries, after, hnames, hflags, hlibraries, hasked⟩ := run_lookUp resolve names world
  refine ⟨libraries, after, hnames, hflags, ?_, ?_⟩
  · calc StateT.run (m := Id) (do return make (← lookUp resolve names)) world
        = ((lookUp resolve names).run world).map make id := rfl
      _ = (make libraries, after) := by rw [hlibraries]; rfl
  · calc StateT.run (m := Id) (StateT.run (do return make (← lookUp (noting resolve) names)) []) world
        = (((lookUp (noting resolve) names).run []).run world).map (Prod.map make id) id := rfl
      _ = ((make libraries, names), after) := by rw [hasked]; rfl

end Resolving

/-! ### Settings -/

/-- What settings are for assignments that are not refused, where the libraries have some flags. -/
structure Settled (assigned : List (String × String)) (platform : Platform) (flags : List LibraryFlags)
    (config : Config) : Prop where
  /-- The number of threads is the one that is asked for. -/
  threads : ThreadsSet assigned config.threads
  /-- There is one at least, also where the machine decides. -/
  one_le_threads : ∀ cores, 1 ≤ cores → 1 ≤ config.threads.getD cores
  /-- The kind of output is the one that is asked for. -/
  output : OutputSet assigned config.output
  /-- The libraries are those that are named. -/
  libraryNames : config.libraries.map Library.name = valuesOf assigned "lib"
  /-- They have the flags. -/
  libraryFlags : config.libraries.map Library.flags = flags
  /-- Words for the compiler are the pieces of the text that is assigned. -/
  compileFlags : config.compileFlags = Text.piecesOf (textOf assigned "cflags")
  /-- So are words for the linker. -/
  linkFlags : config.linkFlags = Text.piecesOf (textOf assigned "link_etc")
  /-- The platform is the one that is built for. -/
  builtFor : config.platform = platform

theorem ThreadsSet.one_le {threads : Option Nat} (h : ThreadsSet assigned threads) {cores : Nat}
    (hcores : 1 ≤ cores) : 1 ≤ threads.getD cores := by
  cases threads with
  | none => exact hcores
  | some n =>
    obtain ⟨_, -, -, hone, -⟩ := (h.2 n).1 rfl
    exact hone

/-- Assignments are refused before any library is looked up, whatever is declared besides; or nothing is wrong
with them, and their libraries are looked up. -/
theorem ofAssignments_cases (assigned : List (String × String)) (platform : Platform) :
    (∃ e, Refused assigned e ∧ ∀ (m : Type → Type) [Monad m] (resolve : String → m LibraryFlags),
        ofAssignments (Assignments.mergeAll {} assigned) platform resolve = pure (.error e)) ∨
      (∀ e, ¬Refused assigned e) ∧ ∃ settings : List Library → Config,
        (∀ (m : Type → Type) [Monad m] (resolve : String → m LibraryFlags),
          ofAssignments (Assignments.mergeAll {} assigned) platform resolve = do
            let libraries ← lookUp resolve (valuesOf assigned "lib")
            return .ok (settings libraries)) ∧
        ∀ libraries, libraries.map Library.name = valuesOf assigned "lib" →
          Settled assigned platform (libraries.map Library.flags) (settings libraries) := by
  rcases threadsOf_cases assigned with ⟨value, hwrong, hthreads⟩ | ⟨hthreadsRight, threads, hset, hthreads⟩
  · refine Or.inl ⟨_, .threads hwrong, fun m _ resolve ↦ ?_⟩
    rw [ofAssignments, hthreads]
  rcases outputOf_cases assigned with ⟨value, hwrong, houtput⟩ | ⟨houtputRight, output, hkind, houtput⟩
  · refine Or.inl ⟨_, .output hthreadsRight hwrong, fun m _ resolve ↦ ?_⟩
    rw [ofAssignments, hthreads, houtput]
  refine Or.inr ⟨fun e he ↦ ?_, ?_⟩
  · rcases exists_refused_iff.1 ⟨e, he⟩ with ⟨value, h⟩ | ⟨value, h⟩
    · exact hthreadsRight value h
    · exact houtputRight value h
  · -- the settings are those that the lookup of libraries is followed by
    apply Exists.intro
    constructor
    · intro m _ resolve
      rw [ofAssignments, hthreads, houtput, ← values_eq]
      rfl
    · intro libraries hnames
      exact ⟨hset, fun _ ↦ hset.one_le, hkind, hnames, rfl, wordsOf_eq _ _, wordsOf_eq _ _, rfl⟩

/-- For every configuration, platform and resolver: the configuration is refused exactly if the last value of
`threads` asks for no number of threads or the last value of `output` is no word for a kind of output, and the
former comes first. A resolver is asked nothing then. Otherwise it is asked for the values of `lib`, each once and
in order, and the settings are what the assignments that count ask for. -/
theorem refused_or_settled {σ : Type} (context : Language.Context) (statement : Language.Statement)
    (platform : Platform) (resolve : String → StateM σ LibraryFlags) (world : σ) :
    let assigned := statement.active context
    ∃ answer asked after,
      (ofAssignments (statement.eval context) platform resolve).run world = (answer, after) ∧
      ((ofAssignments (statement.eval context) platform (noting resolve)).run []).run world =
        ((answer, asked), after) ∧
      ((∃ e, answer = .error e) ↔
        (∃ value, WrongThreads assigned value) ∨ ∃ value, WrongOutput assigned value) ∧
      (∀ e, answer = .error e → Refused assigned e ∧ asked = [] ∧ after = world) ∧
      ∀ config, answer = .ok config → asked = valuesOf assigned "lib" ∧
        ∃ flags, ((valuesOf assigned "lib").mapM resolve).run world = (flags, after) ∧
          Settled assigned platform flags config := by
  intro assigned
  rw [Language.Statement.eval_eq_mergeAll, ← exists_refused_iff]
  rcases ofAssignments_cases assigned platform with ⟨e, hrefused, hrun⟩ | ⟨hright, settings, hrun, hsettled⟩
  · refine ⟨.error e, [], world, by rw [hrun]; rfl, by rw [hrun]; rfl, ?_, ?_, fun _ h ↦ by cases h⟩
    · exact iff_of_true ⟨e, rfl⟩ ⟨e, hrefused⟩
    · intro e' he'
      cases he'
      exact ⟨hrefused, rfl, rfl⟩
  · obtain ⟨libraries, after, hnames, hflags, hanswer, hasked⟩ := run_lookUp_return
      (fun libraries ↦ Except.ok (settings libraries)) resolve (valuesOf assigned "lib") world
    refine ⟨.ok (settings libraries), valuesOf assigned "lib", after, ?_, ?_, ?_, ?_, ?_⟩
    · rw [hrun]
      exact hanswer
    · rw [hrun]
      exact hasked
    · refine iff_of_false ?_ (not_exists.2 hright)
      rintro ⟨e, he⟩
      cases he
    · intro e he
      cases he
    · intro config hconfig
      cases hconfig
      exact ⟨rfl, _, hflags, hsettled libraries hnames⟩

/-- Settings that are assigned twice, with separators and blanks where nothing is. -/
def mergedSettings : Language.Statement :=
  .block [.assign "threads" "zero; ", .conditional "linux" (.assign "threads" " +007 ;; ") none,
    .assign "lib" "m; pthread", .assign "cflags" "-O2;-g\t-Wall "]

/-- Settings with two wrong values, in a project that is declared a library. -/
def wrongSettings : Language.Statement :=
  .block [.assign "is_library" "yes", .assign "output" "plugin", .assign "threads" "18446744073709551616"]

/-- The first settings are accepted with seven threads, after two libraries have been asked for; the others are
refused for the number of threads, and nothing has been asked. -/
theorem refused_or_settled_of_merged :
    let counting (name : String) : StateM Nat LibraryFlags := do
      modify (· + 1)
      return LibraryFlags.byName name
    (∃ config after,
      ((ofAssignments (mergedSettings.eval { platform := "linux" }) .linux (noting counting)).run []).run 0 =
        ((.ok config, ["m", "pthread"]), after) ∧
      config.threads = some 7 ∧ config.compileFlags = ["-O2", "-g", "-Wall"]) ∧
      ((ofAssignments (wrongSettings.eval { platform := "linux" }) .linux (noting counting)).run []).run 0 =
        ((.error { key := "threads", value := "18446744073709551616" }, []), 0) := by
  intro counting
  constructor
  · obtain ⟨answer, asked, after, -, hrun, hrefused, -, hsettled⟩ :=
      refused_or_settled { platform := "linux" } mergedSettings .linux counting 0
    have hlast : lastOf? (mergedSettings.active { platform := "linux" }) "threads" = some "+007" := by decide
    have hnames : valuesOf (mergedSettings.active { platform := "linux" }) "lib" = ["m", "pthread"] := by decide
    have hseven : AsksFor "+007" 7 := parseThreads?_eq_some_iff.1 (by decide)
    cases answer with
    | error e =>
      rcases hrefused.1 ⟨e, rfl⟩ with ⟨value, hvalue, hbad⟩ | ⟨value, hvalue, -⟩
      · obtain rfl := Option.some.inj (hlast.symm.trans hvalue)
        exact absurd hseven (hbad 7)
      · have hnone : lastOf? (mergedSettings.active { platform := "linux" }) "output" = none := by decide
        rw [hnone] at hvalue
        cases hvalue
    | ok config =>
      obtain ⟨rfl, flags, -, hconfig⟩ := hsettled config rfl
      rw [hnames] at hrun
      exact ⟨config, after, hrun, (hconfig.threads.2 7).2 ⟨_, hlast, hseven⟩,
        hconfig.compileFlags.trans (by decide)⟩
  · obtain ⟨answer, asked, after, -, hrun, hrefused, herror, -⟩ :=
      refused_or_settled { platform := "linux" } wrongSettings .linux counting 0
    have hthreads : WrongThreads (wrongSettings.active { platform := "linux" }) "18446744073709551616" := by
      refine ⟨by decide, fun n hn ↦ ?_⟩
      have hnone : parseThreads? "18446744073709551616" = none := by decide
      rw [parseThreads?_eq_some_iff.2 hn] at hnone
      cases hnone
    obtain ⟨e, rfl⟩ := hrefused.2 (Or.inl ⟨_, hthreads⟩)
    obtain ⟨he, rfl, rfl⟩ := herror e rfl
    cases he with
    | threads h =>
      obtain rfl := Option.some.inj (hthreads.1.symm.trans h.1)
      exact hrun
    | output hright => exact absurd hthreads (hright _)

end Rebuild.Config
