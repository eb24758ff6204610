import Rebuild.Command.Line

/-!
# Taking shell text apart

A shell takes a text apart into commands and the words of each. Outside of quotes a blank ends a word
and the end of a line ends a command, a backslash takes the meaning from the next character, and a hash
where a word could begin opens a comment. Between single quotes every character stands for itself.
`CommandLine.commands?` goes by these rules and refuses every other character that has a meaning to a
shell, so a text that it takes apart is one that a shell does not expand.

A command as a shell has to be given it falls into its words again (`words?_toShell`), whatever the
words are.
-/

namespace Rebuild.CommandLine

/-! ### The rules -/

/-- Characters outside of quotes by which a shell expands a word, matches it against names of files, or
takes it for an operator or for a part of one; and the double quote. -/
def activeMarks : List Char :=
  ['$', '\x60', '~', '*', '?', '[', ']', '|', '&', ';', '<', '>', '(', ')', '\x7b', '\x7d', '!', '"']

/-- Characters that can stand for anything but themselves outside of quotes: the active marks, blanks and
the end of a line, the single quote, the backslash, and the sign of a comment. -/
def shellMarks : List Char :=
  activeMarks ++ [' ', '\t', '\n', '\'', '\\', '#']

/-- Where a reader of shell text is. -/
inductive Place where
  /-- Outside of quotes. -/
  | bare
  /-- Between single quotes. -/
  | quoted
  /-- Right behind a backslash. -/
  | escaped
  /-- In a comment. -/
  | comment
  /-- Behind a character that the rules do not speak of. -/
  | refused
deriving DecidableEq, Repr

/-- What has been read of a shell text. -/
structure Splitter where
  /-- Where the reader is. -/
  place : Place := .bare
  /-- The characters of the word that has begun, if one has. -/
  word? : Option (List Char) := none
  /-- The words before it in the same command. -/
  words : List String := []
  /-- The words of the commands before. -/
  commands : List (List String) := []
deriving DecidableEq, Repr

namespace Splitter

/-- Goes on with the word, or begins one. -/
def add (r : Splitter) (cs : List Char) : Splitter :=
  { r with word? := some (r.word?.getD [] ++ cs) }

/-- Ends the word that has begun. -/
def endWord (r : Splitter) : Splitter :=
  match r.word? with
  | none => r
  | some cs => { r with word? := none, words := r.words ++ [String.ofList cs] }

/-- Ends the command, which is none without words. -/
def endCommand (r : Splitter) : Splitter :=
  { r with words := [], commands := r.commands ++ [r.words].filter (· ≠ []) }

/-- Reads a character. -/
def step (r : Splitter) (c : Char) : Splitter :=
  match r.place with
  | .bare =>
    if c = '\n' then r.endWord.endCommand
    else if c = ' ' ∨ c = '\t' then r.endWord
    else if c = '\'' then { r.add [] with place := .quoted }
    else if c = '\\' then { r with place := .escaped }
    else if c = '#' ∧ r.word? = none then { r with place := .comment }
    else if activeMarks.contains c then { r with place := .refused }
    else r.add [c]
  | .quoted => if c = '\'' then { r with place := .bare } else r.add [c]
  | .escaped =>
    -- a line goes on behind a backslash at its end
    if c = '\n' then { r with place := .bare } else { r.add [c] with place := .bare }
  | .comment => if c = '\n' then { r.endCommand with place := .bare } else r
  | .refused => r

/-- What has been read where the text ends. -/
def finish? (r : Splitter) : Option (List (List String)) :=
  match r.place with
  | .bare | .comment => some r.endWord.endCommand.commands
  | _ => none

end Splitter

/-- The words of each command of a shell text. There are none if the text ends inside of quotes or
behind a backslash, or if it holds a character that the rules do not speak of. -/
def commands? (text : String) : Option (List (List String)) :=
  (text.toList.foldl Splitter.step {}).finish?

/-- The words of a shell text. -/
def words? (text : String) : Option (List String) :=
  (commands? text).map List.flatten

/-- Words as a shell has to be given them. -/
def render (words : List String) : String :=
  String.intercalate " " (words.map quote)

theorem toShell_eq (command : CommandLine) : command.toShell = render command.words :=
  rfl

/-! ### One word -/

/-- No character that is written without quotes has another meaning there. -/
theorem not_mem_shellMarks_of_isPlainChar {c : Char} (h : isPlainChar c = true) : c ∉ shellMarks := by
  have hall : shellMarks.all (fun mark ↦ !isPlainChar mark) = true := by decide
  intro hc
  have hmark := List.all_eq_true.1 hall c hc
  simp [h] at hmark

/-- A word that is rendered as it is has no character with a meaning in it. -/
theorem not_mem_shellMarks_of_quote_eq {word : String} (h : quote word = word) {c : Char}
    (hc : c ∈ word.toList) : c ∉ shellMarks := by
  rw [← String.toList_inj, quote, String.toList_ofList, quoteWord] at h
  split at h
  · exact not_mem_shellMarks_of_isPlainChar (List.all_eq_true.1 (And.right ‹_›) c hc)
  · -- quotes make a word longer
    have hle : ∀ cs : List Char, cs.length ≤ (quoteInside cs).length := by
      intro cs
      induction cs with
      | nil => exact Nat.le_refl 0
      | cons c cs ih =>
        rw [quoteInside]
        split
        · simp only [List.length_cons]
          omega
        · simp only [List.length_cons]
          omega
    have hlength := congrArg List.length h
    have := hle word.toList
    simp only [List.cons_append, List.length_cons, List.length_append, List.length_nil] at hlength
    omega

namespace Splitter

variable {word cs : List Char} {words : List String} {commands : List (List String)}

/-- What is read in quotes goes on with the word, and so does what stands there for a quote. -/
theorem foldl_quoteInside :
    (quoteInside cs).foldl step ⟨.quoted, some word, words, commands⟩ =
      ⟨.quoted, some (word ++ cs), words, commands⟩ := by
  induction cs generalizing word with
  | nil => simp [quoteInside]
  | cons c cs ih =>
    have hnext : (quoteInside cs).foldl step ⟨.quoted, some (word ++ [c]), words, commands⟩ =
        ⟨.quoted, some (word ++ c :: cs), words, commands⟩ := by
      rw [ih, List.append_assoc, List.singleton_append]
    rw [quoteInside, ← hnext]
    split
    · subst c
      -- the quotes are left and entered again around an escaped quote
      simp [step, add]
    · rename_i hc
      simp [step, add, hc]

/-- A character without a meaning goes on with the word, or begins one. -/
theorem step_of_not_mem {c : Char} (h : c ∉ shellMarks) (word? : Option (List Char)) :
    step ⟨.bare, word?, words, commands⟩ c = ⟨.bare, some (word?.getD [] ++ [c]), words, commands⟩ := by
  simp only [shellMarks, List.mem_append, List.mem_cons, List.not_mem_nil, or_false, not_or] at h
  obtain ⟨hactive, hblank, htab, hend, hquote, hescape, hcomment⟩ := h
  simp [step, hactive, hblank, htab, hend, hquote, hescape, hcomment, add]

theorem foldl_plain (h : ∀ c ∈ cs, c ∉ shellMarks) :
    cs.foldl step ⟨.bare, some word, words, commands⟩ = ⟨.bare, some (word ++ cs), words, commands⟩ := by
  induction cs generalizing word with
  | nil => simp
  | cons c cs ih =>
    rw [List.foldl_cons, step_of_not_mem (h c List.mem_cons_self),
      ih fun other hother ↦ h other (List.mem_cons_of_mem _ hother), List.append_assoc]
    rfl

/-- A word as a shell has to be given it is read as the word. -/
theorem foldl_quoteWord :
    (quoteWord cs).foldl step ⟨.bare, none, words, commands⟩ = ⟨.bare, some cs, words, commands⟩ := by
  rw [quoteWord]
  split
  next h =>
    have hall : ∀ c ∈ cs, c ∉ shellMarks := fun c hc ↦
      not_mem_shellMarks_of_isPlainChar (List.all_eq_true.1 h.2 c hc)
    obtain ⟨c, rest, rfl⟩ := List.exists_cons_of_ne_nil h.1
    rw [List.foldl_cons, step_of_not_mem (hall c List.mem_cons_self),
      foldl_plain fun other hother ↦ hall other (List.mem_cons_of_mem _ hother)]
    rfl
  next =>
    have hopen : step ⟨.bare, none, words, commands⟩ '\'' = ⟨.quoted, some [], words, commands⟩ := rfl
    have hclose : step ⟨.quoted, some cs, words, commands⟩ '\'' = ⟨.bare, some cs, words, commands⟩ := rfl
    rw [List.cons_append, List.foldl_cons, hopen, List.foldl_append, foldl_quoteInside, List.nil_append,
      List.foldl_cons, hclose, List.foldl_nil]

/-! ### One command -/

@[simp]
theorem place_endWord (r : Splitter) : r.endWord.place = r.place := by
  rw [endWord]
  split <;> rfl

/-- Words as a shell has to be given them are read as the words. -/
theorem endWord_foldl_render (rendered : List String) :
    ((render rendered).toList.foldl step ⟨.bare, none, words, commands⟩).endWord =
      ⟨.bare, none, words ++ rendered, commands⟩ := by
  induction rendered generalizing words with
  | nil => simp [render, endWord]
  | cons word rest ih =>
    have hword : (quote word).toList.foldl step ⟨.bare, none, words, commands⟩ =
        ⟨.bare, some word.toList, words, commands⟩ := by
      rw [quote, String.toList_ofList, foldl_quoteWord]
    rcases rest with - | ⟨next, rest⟩
    · simp [render, hword, endWord]
    · have hspace : step ⟨.bare, some word.toList, words, commands⟩ ' ' =
          ⟨.bare, none, words ++ [word], commands⟩ := by
        simp [step, endWord]
      have htext : (render (word :: next :: rest)).toList =
          (quote word).toList ++ ' ' :: (render (next :: rest)).toList := by
        simp [render, String.intercalate_cons_cons]
      rw [htext, List.foldl_append, hword, List.foldl_cons, hspace, ih, List.append_assoc,
        List.singleton_append]

/-- Where a text ends behind a command, or its line does, the command has been read. -/
theorem finish?_foldl_render (rendered : List String) :
    ((render rendered).toList.foldl step ⟨.bare, none, [], commands⟩).finish? =
      some (commands ++ [rendered].filter (· ≠ [])) := by
  have hread := @endWord_foldl_render [] commands rendered
  have hplace := congrArg Splitter.place hread
  rw [place_endWord] at hplace
  rw [finish?, hplace, hread]
  rfl

theorem foldl_render_line (rendered : List String) :
    (render rendered ++ "\n").toList.foldl step ⟨.bare, none, [], commands⟩ =
      ⟨.bare, none, [], commands ++ [rendered].filter (· ≠ [])⟩ := by
  have hread := @endWord_foldl_render [] commands rendered
  have hplace := congrArg Splitter.place hread
  rw [place_endWord] at hplace
  rw [String.toList_append, List.foldl_append]
  show step _ '\n' = _
  rw [step, hplace, hread]
  rfl

end Splitter

/-- A command as a shell has to be given it is one command to the shell, with the same words. -/
theorem commands?_toShell (command : CommandLine) : commands? command.toShell = some [command.words] :=
  Splitter.finish?_foldl_render command.words

theorem words?_toShell (command : CommandLine) : words? command.toShell = some command.words := by
  rw [words?, commands?_toShell]
  simp

theorem words?_line (command : CommandLine) : words? (command.toShell ++ "\n") = some command.words := by
  have hne : command.words ≠ [] := List.cons_ne_nil _ _
  have hread := @Splitter.foldl_render_line [] command.words
  rw [words?, commands?, toShell_eq]
  refine (congrArg (fun r ↦ (Splitter.finish? r).map List.flatten) hread).trans ?_
  simp [Splitter.finish?, Splitter.endWord, Splitter.endCommand, hne]

/-- So no two commands are given to a shell by one text. -/
theorem toShell_inj {command other : CommandLine} : command.toShell = other.toShell ↔ command = other := by
  refine ⟨fun h ↦ ?_, fun h ↦ by rw [h]⟩
  have hwords := words?_toShell command
  rw [h, words?_toShell, Option.some_inj] at hwords
  cases command
  cases other
  simpa [words, eq_comm] using hwords

end Rebuild.CommandLine
