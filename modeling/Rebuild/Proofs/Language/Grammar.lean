import Mathlib.Logic.ExistsUnique
import Rebuild.Language.Statement

/-!
# The grammar of configurations

`Derives` and `DerivesAll` are the grammar: which words make a statement, or statements one after the
other, and which tree they say. The grammar is ambiguous, for an `else` behind several conditionals
could belong to each of them; in a tree with `nearestElse` it belongs to the last one.

The readers of `Rebuild.Language.Statement` are compared with the grammar in two steps. `Reads` says
what they read and what they leave, without the errors (`reads_iff_readStatement`). What is read is
derived with nearest elses, and all of that is read (`reads_iff_derives`). Words that are derived at all
can be derived with nearest elses (`Derives.exists_nearest`), so the readers refuse nothing that the
grammar accepts.
-/

namespace Rebuild.Language

variable {words used after : Words} {statement : Statement} {statements : List Statement}

/-! ### The grammar -/

mutual

/-- Words are a statement. -/
inductive Derives : Words → Statement → Prop
  /-- A name, an equals sign and a literal. -/
  | assign {name sign value : Token TokenKind} (hname : name.kind = .name)
    (hsign : isSymbol '=' sign = true) (hvalue : value.kind = .string) :
    Derives [name, sign, value]
      (.assign (String.ofList name.text) (String.ofList (Literal.unquote value.text)))
  /-- An `if`, a name and a statement. -/
  | conditional {keyword condition : Token TokenKind} {words : Words} {thenBranch : Statement}
    (hkeyword : keyword.isText .keyword ifWord = true) (hcondition : condition.kind = .name)
    (hthen : Derives words thenBranch) :
    Derives (keyword :: condition :: words)
      (.conditional (String.ofList condition.text) thenBranch none)
  /-- The same, an `else` and another statement. -/
  | alternative {keyword condition otherwise : Token TokenKind} {words behind : Words}
    {thenBranch elseBranch : Statement} (hkeyword : keyword.isText .keyword ifWord = true)
    (hcondition : condition.kind = .name) (hthen : Derives words thenBranch)
    (hotherwise : otherwise.isText .keyword elseWord = true) (helse : Derives behind elseBranch) :
    Derives (keyword :: condition :: (words ++ otherwise :: behind))
      (.conditional (String.ofList condition.text) thenBranch (some elseBranch))
  /-- Statements between braces. -/
  | block {opening closing : Token TokenKind} {words : Words} {statements : List Statement}
    (hopening : isSymbol '{' opening = true) (hitems : DerivesAll words statements)
    (hclosing : isSymbol '}' closing = true) :
    Derives (opening :: (words ++ [closing])) (.block statements)

/-- Words are statements, one after the other. -/
inductive DerivesAll : Words → List Statement → Prop
  /-- There are none. -/
  | nil : DerivesAll [] []
  /-- There is one, and then others. -/
  | cons {words rest : Words} {statement : Statement} {statements : List Statement}
    (hfirst : Derives words statement) (hrest : DerivesAll rest statements) :
    DerivesAll (words ++ rest) (statement :: statements)

end

namespace Statement

/-- Whether a conditional that has no `else` ends where the statement ends. An `else` behind the
statement could belong to it. -/
def endsOpen : Statement → Bool
  | .conditional _ _ none => true
  | .conditional _ _ (some elseBranch) => elseBranch.endsOpen
  | .assign .. | .block _ => false

mutual

/-- Whether every `else` belongs to the nearest `if` before it that can take it: those that could take
it as well and are nearer are the open ones at the end of the branch before it. -/
def nearestElse : Statement → Bool
  | .assign .. => true
  | .conditional _ thenBranch none => thenBranch.nearestElse
  | .conditional _ thenBranch (some elseBranch) =>
    !thenBranch.endsOpen && thenBranch.nearestElse && elseBranch.nearestElse
  | .block statements => allNearestElse statements

/-- Whether that holds in all statements. -/
def allNearestElse : List Statement → Bool
  | [] => true
  | statement :: statements => statement.nearestElse && allNearestElse statements

end

end Statement

open Statement (allNearestElse)

/-! ### What is read -/

/-- Whether the next word is an `else`. -/
def elseAhead : Words → Bool
  | [] => false
  | token :: _ => token.isText .keyword elseWord

mutual

/-- Reading words gives a statement and leaves the words behind it. -/
inductive Reads : Words → Statement → Words → Prop
  /-- An assignment has three words. -/
  | assign {name sign value : Token TokenKind} {after : Words} (hname : name.kind = .name)
    (hsign : isSymbol '=' sign = true) (hvalue : value.kind = .string) :
    Reads (name :: sign :: value :: after)
      (.assign (String.ofList name.text) (String.ofList (Literal.unquote value.text))) after
  /-- A conditional has no `else` when none comes next. -/
  | conditional {keyword condition : Token TokenKind} {words after : Words}
    {thenBranch : Statement} (hkeyword : keyword.isText .keyword ifWord = true)
    (hcondition : condition.kind = .name) (hthen : Reads words thenBranch after)
    (hafter : elseAhead after = false) :
    Reads (keyword :: condition :: words)
      (.conditional (String.ofList condition.text) thenBranch none) after
  /-- An `else` that comes next belongs to the conditional. -/
  | alternative {keyword condition otherwise : Token TokenKind} {words behind after : Words}
    {thenBranch elseBranch : Statement} (hkeyword : keyword.isText .keyword ifWord = true)
    (hcondition : condition.kind = .name) (hthen : Reads words thenBranch (otherwise :: behind))
    (hotherwise : otherwise.isText .keyword elseWord = true)
    (helse : Reads behind elseBranch after) :
    Reads (keyword :: condition :: words)
      (.conditional (String.ofList condition.text) thenBranch (some elseBranch)) after
  /-- A block goes to its closing brace. -/
  | block {opening : Token TokenKind} {words after : Words} {statements : List Statement}
    (hopening : isSymbol '{' opening = true) (hitems : ReadsItems words statements after) :
    Reads (opening :: words) (.block statements) after

/-- Reading the inside of a block gives its statements and leaves the words behind the closing
brace. -/
inductive ReadsItems : Words → List Statement → Words → Prop
  /-- The closing brace comes next. -/
  | close {closing : Token TokenKind} {after : Words} (hclosing : isSymbol '}' closing = true) :
    ReadsItems (closing :: after) [] after
  /-- A statement comes next. -/
  | item {words rest after : Words} {statement : Statement} {statements : List Statement}
    (hfirst : Reads words statement rest) (hrest : ReadsItems rest statements after) :
    ReadsItems words (statement :: statements) after

end

/-! ### The readers -/

theorem expect_eq_ok {test : Token TokenKind → Bool} {expected : Expected}
    {token : Token TokenKind} {h : after.length < words.length}
    (hexpect : expect test expected words = .ok (token, ⟨after, h⟩)) :
    words = token :: after ∧ test token = true := by
  rcases words with - | ⟨first, rest⟩
  · cases hexpect
  · rw [expect] at hexpect
    split at hexpect <;> cases hexpect
    exact ⟨rfl, ‹_›⟩

theorem reads_of_readAssignment {name : Token TokenKind} {h : after.length < words.length}
    (hname : name.kind = .name) (hread : readAssignment name words = .ok (statement, ⟨after, h⟩)) :
    Reads (name :: words) statement after := by
  rw [readAssignment] at hread
  split at hread
  · cases hread
  rename_i sign behindSign hless hsign
  split at hread
  · cases hread
  rename_i value behindValue hless' hvalue
  cases hread
  obtain ⟨rfl, hequals⟩ := expect_eq_ok hsign
  obtain ⟨rfl, hliteral⟩ := expect_eq_ok hvalue
  exact .assign hname hequals (of_decide_eq_true hliteral)

theorem reads_of_readStatement {h : after.length < words.length}
    (hread : readStatement words = .ok (statement, ⟨after, h⟩)) : Reads words statement after := by
  induction words using readStatement.induct _ (fun statements words ↦
    ∀ block after h, readBlock statements words = .ok (block, ⟨after, h⟩) →
      ∃ items, block = .block (statements.reverse ++ items) ∧ ReadsItems words items after)
    generalizing statement after with
  | case4 token words hif condition behind _ hcondition thenBranch _ _ hthen ih =>
    obtain ⟨rfl, hname⟩ := expect_eq_ok hcondition
    simp only [readStatement, hif, hcondition, hthen, if_true] at hread
    cases hread
    exact .conditional hif (of_decide_eq_true hname) (ih hthen) rfl
  | case6 token words hif condition behind _ hcondition thenBranch next behindElse _ hnext
      elseBranch rest _ helse _ hthen ih ih' =>
    obtain ⟨rfl, hname⟩ := expect_eq_ok hcondition
    simp only [readStatement, hif, hcondition, hthen, hnext, helse, if_true] at hread
    cases hread
    exact .alternative hif (of_decide_eq_true hname) (ih hthen) hnext (ih' helse)
  | case7 token words hif condition behind _ hcondition thenBranch next behindElse _ hnext _ hthen
      ih =>
    obtain ⟨rfl, hname⟩ := expect_eq_ok hcondition
    simp only [readStatement, hif, hcondition, hthen, hnext, if_true] at hread
    cases hread
    exact .conditional hif (of_decide_eq_true hname) (ih hthen) (by simpa [elseAhead] using hnext)
  | case9 token words hif hname assignment after' _ hassignment =>
    simp only [readStatement, hif, hname, hassignment, if_true] at hread
    cases hread
    exact reads_of_readAssignment hname hassignment
  | case11 token words hif hname hopening block after' _ hblock ih =>
    simp only [readStatement, hif, hname, hopening, hblock, if_true, if_false] at hread
    cases hread
    obtain ⟨items, rfl, hitems⟩ := ih _ _ _ hblock
    exact .block hopening hitems
  | case14 statements token words hclosing block after' _ hread =>
    simp only [readBlock, hclosing, if_true] at hread
    cases hread
    exact ⟨[], by simp, .close hclosing⟩
  | case17 statements token words hclosing statement rest _ hfirst block' after' _ hrest ih ih'
      block after _ hread =>
    simp only [readBlock, hclosing, hfirst, hrest] at hread
    cases hread
    obtain ⟨items, rfl, hitems⟩ := ih' _ _ _ hrest
    exact ⟨statement :: items, by simp, .item (ih hfirst) hitems⟩
  | _ =>
    -- what is left are the errors
    simp_all [readStatement, readBlock]

theorem isText_keyword_of_name {token : Token TokenKind} (h : token.kind = .name)
    (text : List Char) : token.isText .keyword text = false :=
  Token.isText_eq_false (by rw [h]; decide) text

theorem isText_keyword_of_symbol {token : Token TokenKind} {c : Char}
    (h : isSymbol c token = true) (text : List Char) : token.isText .keyword text = false :=
  Token.isText_eq_false (by rw [(Token.isText_iff.1 h).1]; decide) text

theorem isText_elseWord_of_ifWord {token : Token TokenKind}
    (h : token.isText .keyword ifWord = true) : token.isText .keyword elseWord = false := by
  obtain ⟨-, htext⟩ := Token.isText_iff.1 h
  rw [Bool.eq_false_iff]
  exact fun helse ↦ absurd (htext.symm.trans (Token.isText_iff.1 helse).2) (by decide)

/-- A statement begins with a word that is no closing brace. -/
theorem Reads.exists_cons (h : Reads words statement after) :
    ∃ token rest, words = token :: rest ∧ isSymbol '}' token = false := by
  have hkeyword {keyword : Token TokenKind} (h : keyword.isText .keyword ifWord = true) :
      isSymbol '}' keyword = false :=
    Token.isText_eq_false (by rw [(Token.isText_iff.1 h).1]; decide) _
  cases h with
  | assign hname => exact ⟨_, _, rfl, Token.isText_eq_false (by rw [hname]; decide) _⟩
  | conditional hif => exact ⟨_, _, rfl, hkeyword hif⟩
  | alternative hif => exact ⟨_, _, rfl, hkeyword hif⟩
  | block hopening =>
    obtain ⟨-, htext⟩ := Token.isText_iff.1 hopening
    refine ⟨_, _, rfl, Bool.eq_false_iff.2 fun hclosing ↦ ?_⟩
    exact absurd (htext.symm.trans (Token.isText_iff.1 hclosing).2) (by decide)

section Steps

variable {keyword condition otherwise : Token TokenKind} {behind : Words}
variable {thenBranch elseBranch : Statement}

theorem readStatement_conditional (hkeyword : keyword.isText .keyword ifWord = true)
    (hcondition : condition.kind = .name) {h : after.length < words.length}
    (hthen : readStatement words = .ok (thenBranch, ⟨after, h⟩)) (hafter : elseAhead after = false) :
    ∃ h', readStatement (keyword :: condition :: words) =
      .ok (.conditional (String.ofList condition.text) thenBranch none, ⟨after, h'⟩) := by
  refine ⟨by simp only [List.length_cons]; omega, ?_⟩
  rcases after with - | ⟨next, behind⟩
  · simp [readStatement, expect, hkeyword, hcondition, hthen]
  · have hnext : next.isText .keyword elseWord = false := hafter
    simp [readStatement, expect, hkeyword, hcondition, hthen, hnext]

theorem readStatement_alternative (hkeyword : keyword.isText .keyword ifWord = true)
    (hcondition : condition.kind = .name) {h : (otherwise :: behind).length < words.length}
    (hthen : readStatement words = .ok (thenBranch, ⟨otherwise :: behind, h⟩))
    (hotherwise : otherwise.isText .keyword elseWord = true) {h' : after.length < behind.length}
    (helse : readStatement behind = .ok (elseBranch, ⟨after, h'⟩)) :
    ∃ h'', readStatement (keyword :: condition :: words) =
      .ok (.conditional (String.ofList condition.text) thenBranch (some elseBranch),
        ⟨after, h''⟩) := by
  refine ⟨by simp only [List.length_cons] at h ⊢; omega, ?_⟩
  simp [readStatement, expect, hkeyword, hcondition, hthen, hotherwise, helse]

theorem readBlock_item {before : List Statement} {block : Statement} {rest : Words}
    (hfirst : Reads words statement rest) {h : rest.length < words.length}
    (hread : readStatement words = .ok (statement, ⟨rest, h⟩)) {h' : after.length < rest.length}
    (hrest : readBlock (statement :: before) rest = .ok (block, ⟨after, h'⟩)) :
    ∃ h'', readBlock before words = .ok (block, ⟨after, h''⟩) := by
  obtain ⟨token, behind, rfl, hclosing⟩ := hfirst.exists_cons
  refine ⟨by omega, ?_⟩
  simp [readBlock, hclosing, hread, hrest]

end Steps

mutual

theorem Reads.readStatement {words after : Words} {statement : Statement} :
    Reads words statement after → ∃ h, readStatement words = .ok (statement, ⟨after, h⟩)
  | .assign hname hsign hvalue => by
    refine ⟨by simp only [List.length_cons]; omega, ?_⟩
    simp [Language.readStatement, readAssignment, expect, isText_keyword_of_name hname, hname,
      hsign, hvalue]
  | .conditional hkeyword hcondition hthen hafter => by
    obtain ⟨_, hread⟩ := hthen.readStatement
    exact readStatement_conditional hkeyword hcondition hread hafter
  | .alternative hkeyword hcondition hthen hotherwise helse => by
    obtain ⟨_, hread⟩ := hthen.readStatement
    obtain ⟨_, hread'⟩ := helse.readStatement
    exact readStatement_alternative hkeyword hcondition hread hotherwise hread'
  | .block hopening hitems => by
    obtain ⟨_, hread⟩ := hitems.readBlock []
    refine ⟨by simp only [List.length_cons]; omega, ?_⟩
    simp [Language.readStatement, isText_keyword_of_symbol hopening,
      (Token.isText_iff.1 hopening).1, hopening, hread]

theorem ReadsItems.readBlock {words after : Words} {statements : List Statement} :
    ReadsItems words statements after → ∀ before, ∃ h,
      readBlock before words = .ok (.block (before.reverse ++ statements), ⟨after, h⟩)
  | .close hclosing => fun before ↦ by
    refine ⟨by simp, ?_⟩
    simp [Language.readBlock, hclosing]
  | .item hfirst hrest => fun before ↦ by
    obtain ⟨_, hread⟩ := hfirst.readStatement
    obtain ⟨_, hread'⟩ := hrest.readBlock (_ :: before)
    simpa using readBlock_item hfirst hread hread'

end

theorem reads_iff_readStatement :
    Reads words statement after ↔ ∃ h, readStatement words = .ok (statement, ⟨after, h⟩) :=
  ⟨Reads.readStatement, fun ⟨_, hread⟩ ↦ reads_of_readStatement hread⟩

/-! ### What is read is what is derived -/

theorem Derives.elseAhead_append (h : Derives words statement) (rest : Words) :
    elseAhead (words ++ rest) = false := by
  cases h with
  | assign hname => exact isText_keyword_of_name hname _
  | conditional hif => exact isText_elseWord_of_ifWord hif
  | alternative hif => exact isText_elseWord_of_ifWord hif
  | block hopening => exact isText_keyword_of_symbol hopening _

theorem DerivesAll.elseAhead_append (h : DerivesAll words statements) {rest : Words}
    (hrest : elseAhead rest = false) : elseAhead (words ++ rest) = false := by
  cases h with
  | nil => exact hrest
  | cons hfirst _ =>
    rw [List.append_assoc]
    exact hfirst.elseAhead_append _

mutual

/-- What is read is derived, and an open conditional at its end has been refused an `else`. -/
theorem Reads.exists_derives {words after : Words} {statement : Statement} :
    Reads words statement after → ∃ used, words = used ++ after ∧ Derives used statement ∧
      statement.nearestElse = true ∧ (statement.endsOpen = true → elseAhead after = false)
  | .assign hname hsign hvalue =>
    ⟨_, by rfl, .assign hname hsign hvalue, rfl, fun h ↦ absurd h Bool.false_ne_true⟩
  | .conditional hkeyword hcondition hthen hafter => by
    obtain ⟨used, rfl, hderives, hnearest, -⟩ := hthen.exists_derives
    exact ⟨_, rfl, .conditional hkeyword hcondition hderives, hnearest, fun _ ↦ hafter⟩
  | .alternative hkeyword hcondition hthen hotherwise helse => by
    obtain ⟨used, rfl, hderives, hnearest, hopen⟩ := hthen.exists_derives
    obtain ⟨used', rfl, hderives', hnearest', hopen'⟩ := helse.exists_derives
    refine ⟨_, ?_, .alternative hkeyword hcondition hderives hotherwise hderives', ?_, hopen'⟩
    · simp
    · have hclosed : ¬ Statement.endsOpen _ = true := fun h ↦
        absurd ((hopen h).symm.trans hotherwise) (by decide)
      simp [Statement.nearestElse, hclosed, hnearest, hnearest']
  | .block hopening hitems => by
    obtain ⟨used, closing, rfl, hclosing, hderives, hnearest⟩ := hitems.exists_derives
    exact ⟨_, by simp, .block hopening hderives hclosing, hnearest,
      fun h ↦ absurd h Bool.false_ne_true⟩

theorem ReadsItems.exists_derives {words after : Words} {statements : List Statement} :
    ReadsItems words statements after → ∃ used closing, words = used ++ closing :: after ∧
      isSymbol '}' closing = true ∧ DerivesAll used statements ∧ allNearestElse statements = true
  | .close hclosing => ⟨[], _, rfl, hclosing, .nil, rfl⟩
  | .item hfirst hrest => by
    obtain ⟨used, rfl, hderives, hnearest, -⟩ := hfirst.exists_derives
    obtain ⟨used', closing, rfl, hclosing, hderives', hnearest'⟩ := hrest.exists_derives
    refine ⟨_, closing, (List.append_assoc _ _ _).symm, hclosing, .cons hderives hderives', ?_⟩
    simp [allNearestElse, hnearest, hnearest']

end

mutual

/-- What is derived with nearest elses is read, unless an `else` follows that would be read with it. -/
theorem Derives.reads {used : Words} {statement : Statement} :
    Derives used statement → statement.nearestElse = true → ∀ after,
      (statement.endsOpen = true → elseAhead after = false) → Reads (used ++ after) statement after
  | .assign hname hsign hvalue, _, _, _ => .assign hname hsign hvalue
  | .conditional hkeyword hcondition hthen, hnearest, after, hafter =>
    .conditional hkeyword hcondition (hthen.reads hnearest after fun _ ↦ hafter rfl) (hafter rfl)
  | .alternative hkeyword hcondition hthen hotherwise helse,
      hnearest, after, hafter => by
    simp only [Statement.nearestElse, Bool.and_eq_true, Bool.not_eq_true'] at hnearest
    obtain ⟨⟨hclosed, hnearest⟩, hnearest'⟩ := hnearest
    simp only [List.cons_append, List.append_assoc]
    refine .alternative hkeyword hcondition (hthen.reads hnearest _ fun h ↦ ?_) hotherwise
      (helse.reads hnearest' after hafter)
    exact absurd (hclosed.symm.trans h) Bool.false_ne_true
  | .block hopening hitems hclosing, hnearest, after, _ => by
    simp only [List.cons_append, List.append_assoc]
    exact .block hopening (hitems.readsItems hnearest _ after hclosing)

theorem DerivesAll.readsItems {used : Words} {statements : List Statement} :
    DerivesAll used statements → allNearestElse statements = true → ∀ closing after,
      isSymbol '}' closing = true → ReadsItems (used ++ closing :: after) statements after
  | .nil, _, _, _, hclosing => .close hclosing
  | .cons hfirst hrest, hnearest, closing, after, hclosing => by
    simp only [allNearestElse, Bool.and_eq_true] at hnearest
    have hbrace : elseAhead (closing :: after) = false := isText_keyword_of_symbol hclosing _
    rw [List.append_assoc]
    exact .item (hfirst.reads hnearest.1 _ fun _ ↦ hrest.elseAhead_append hbrace)
      (hrest.readsItems hnearest.2 closing after hclosing)

end

theorem reads_iff_derives :
    Reads words statement after ↔ ∃ used, words = used ++ after ∧ Derives used statement ∧
      statement.nearestElse = true ∧ (statement.endsOpen = true → elseAhead after = false) := by
  refine ⟨Reads.exists_derives, ?_⟩
  rintro ⟨used, rfl, hderives, hnearest, hafter⟩
  exact hderives.reads hnearest after hafter

/-! ### Nearest elses -/

/-- Gives a statement that ends open another branch, to the last conditional that can take it. -/
def Statement.attachTo (elseBranch : Statement) : Statement → Statement
  | .conditional condition thenBranch none =>
    if thenBranch.endsOpen then .conditional condition (elseBranch.attachTo thenBranch) none
    else .conditional condition thenBranch (some elseBranch)
  | .conditional condition thenBranch (some other) =>
    .conditional condition thenBranch (some (elseBranch.attachTo other))
  | .assign name value => .assign name value
  | .block statements => .block statements

theorem Derives.attachTo {otherwise : Token TokenKind} {behind : Words} {elseBranch : Statement}
    (hotherwise : otherwise.isText .keyword elseWord = true) (helse : Derives behind elseBranch)
    (hderives : Derives words statement) (hopen : statement.endsOpen = true) :
    Derives (words ++ otherwise :: behind) (elseBranch.attachTo statement) := by
  fun_induction Statement.attachTo elseBranch statement generalizing words with
  | case1 condition thenBranch hthen ih =>
    cases hderives with
    | conditional hkeyword hcondition hderives =>
      exact .conditional hkeyword hcondition (ih hderives hthen)
  | case2 condition thenBranch hthen =>
    cases hderives with
    | conditional hkeyword hcondition hderives =>
      exact .alternative hkeyword hcondition hderives hotherwise helse
  | case3 condition thenBranch other ih =>
    cases hderives with
    | alternative hkeyword hcondition hderives hotherwise' hderives' =>
      simp only [List.cons_append, List.append_assoc]
      exact .alternative hkeyword hcondition hderives hotherwise' (ih hderives' hopen)
  | case4 | case5 => cases hopen

theorem Statement.nearestElse_attachTo {elseBranch : Statement} (helse : elseBranch.nearestElse = true)
    (hnearest : statement.nearestElse = true) (hopen : statement.endsOpen = true) :
    (elseBranch.attachTo statement).nearestElse = true := by
  fun_induction Statement.attachTo elseBranch statement with
  | case1 condition thenBranch hthen ih => exact ih hnearest hthen
  | case2 condition thenBranch hthen =>
    have hthen' : thenBranch.nearestElse = true := hnearest
    simp [nearestElse, hthen, hthen', helse]
  | case3 condition thenBranch other ih =>
    simp only [nearestElse, Bool.and_eq_true] at hnearest ⊢
    exact ⟨hnearest.1, ih hnearest.2 hopen⟩
  | case4 | case5 => cases hopen

mutual

/-- Words that are a statement are one with nearest elses. -/
theorem Derives.exists_nearest {words : Words} {statement : Statement} :
    Derives words statement → ∃ nearest, Derives words nearest ∧ nearest.nearestElse = true
  | .assign hname hsign hvalue => ⟨_, .assign hname hsign hvalue, rfl⟩
  | .conditional hkeyword hcondition hthen => by
    obtain ⟨thenBranch, hderives, hnearest⟩ := hthen.exists_nearest
    exact ⟨_, .conditional hkeyword hcondition hderives, hnearest⟩
  | .alternative hkeyword hcondition hthen hotherwise helse => by
    obtain ⟨thenBranch, hderives, hnearest⟩ := hthen.exists_nearest
    obtain ⟨elseBranch, hderives', hnearest'⟩ := helse.exists_nearest
    cases hopen : thenBranch.endsOpen with
    | true =>
      -- the first branch takes the `else`
      exact ⟨_, .conditional hkeyword hcondition (hderives'.attachTo hotherwise hderives hopen),
        Statement.nearestElse_attachTo hnearest' hnearest hopen⟩
    | false =>
      refine ⟨_, .alternative hkeyword hcondition hderives hotherwise hderives', ?_⟩
      simp [Statement.nearestElse, hopen, hnearest, hnearest']
  | .block hopening hitems hclosing => by
    obtain ⟨statements, hderives, hnearest⟩ := hitems.exists_nearest
    exact ⟨_, .block hopening hderives hclosing, hnearest⟩

theorem DerivesAll.exists_nearest {words : Words} {statements : List Statement} :
    DerivesAll words statements →
      ∃ nearest, DerivesAll words nearest ∧ allNearestElse nearest = true
  | .nil => ⟨[], .nil, rfl⟩
  | .cons hfirst hrest => by
    obtain ⟨first, hderives, hnearest⟩ := hfirst.exists_nearest
    obtain ⟨rest, hderives', hnearest'⟩ := hrest.exists_nearest
    exact ⟨_, .cons hderives hderives', by simp [allNearestElse, hnearest, hnearest']⟩

end

/-! ### Configurations -/

theorem exists_of_map_eq_ok {ε α β : Type} {result : Except ε α} {f : α → β} {b : β}
    (h : result.map f = .ok b) : ∃ a, result = .ok a ∧ f a = b := by
  cases result with
  | error => cases h
  | ok a => exact ⟨a, rfl, Except.ok.inj h⟩

theorem readAll_of_reads (h : Reads words statement after) :
    readAll words = (readAll after).map (statement :: ·) := by
  obtain ⟨token, rest, rfl, -⟩ := h.exists_cons
  obtain ⟨_, hread⟩ := h.readStatement
  rw [readAll, hread]

theorem readAll_eq_ok_iff :
    readAll words = .ok statements ↔
      DerivesAll words statements ∧ allNearestElse statements = true := by
  constructor
  · intro hread
    fun_induction readAll words generalizing statements with
    | case1 =>
      cases hread
      exact ⟨.nil, rfl⟩
    | case2 token words e hfirst => cases hread
    | case3 token words first after hless hfirst ih =>
      obtain ⟨rest, hrest, rfl⟩ := exists_of_map_eq_ok hread
      obtain ⟨used, hused, hderives, hnearest, -⟩ := (reads_of_readStatement hfirst).exists_derives
      obtain ⟨hderives', hnearest'⟩ := ih hrest
      rw [hused]
      exact ⟨.cons hderives hderives', by simp [allNearestElse, hnearest, hnearest']⟩
  · rintro ⟨hderives, hnearest⟩
    induction statements generalizing words with
    | nil =>
      cases hderives
      rw [readAll]
    | cons first statements ih =>
      cases hderives with
      | @cons used rest _ _ hfirst hrest =>
        simp only [allNearestElse, Bool.and_eq_true] at hnearest
        have hend := hrest.elseAhead_append (show elseAhead [] = false from rfl)
        rw [List.append_nil] at hend
        have hreads := hfirst.reads hnearest.1 rest fun _ ↦ hend
        rw [readAll_of_reads hreads, ih hrest hnearest.2]
        rfl

/-- The words that are read as a configuration are exactly those that the grammar derives, and the
configuration is the one derivation of them in which every `else` belongs to the nearest `if` before it
that can take it. -/
theorem ofTokens_iff_derivesAll (words : Words) :
    ((∃ tree, Statement.ofTokens words = .ok tree) ↔ ∃ statements, DerivesAll words statements) ∧
    (∀ tree, Statement.ofTokens words = .ok tree ↔ ∃ statements, tree = .block statements ∧
      DerivesAll words statements ∧ allNearestElse statements = true) ∧
    ∀ statements, DerivesAll words statements →
      ∃! nearest, DerivesAll words nearest ∧ allNearestElse nearest = true := by
  have hread (tree : Statement) : Statement.ofTokens words = .ok tree ↔
      ∃ statements, tree = .block statements ∧
        DerivesAll words statements ∧ allNearestElse statements = true := by
    rw [Statement.ofTokens]
    constructor
    · intro h
      obtain ⟨statements, hstatements, rfl⟩ := exists_of_map_eq_ok h
      exact ⟨statements, rfl, readAll_eq_ok_iff.1 hstatements⟩
    · rintro ⟨statements, rfl, hstatements⟩
      rw [readAll_eq_ok_iff.2 hstatements]
      rfl
  refine ⟨⟨?_, ?_⟩, hread, fun statements hderives ↦ ?_⟩
  · rintro ⟨tree, htree⟩
    obtain ⟨statements, -, hderives, -⟩ := (hread tree).1 htree
    exact ⟨statements, hderives⟩
  · rintro ⟨statements, hderives⟩
    obtain ⟨nearest, hnearest⟩ := hderives.exists_nearest
    exact ⟨_, (hread _).2 ⟨nearest, rfl, hnearest⟩⟩
  · obtain ⟨nearest, hnearest⟩ := hderives.exists_nearest
    refine ⟨nearest, hnearest, fun other hother ↦ ?_⟩
    have heq := (readAll_eq_ok_iff.2 hother).symm.trans (readAll_eq_ok_iff.2 hnearest)
    injection heq

end Rebuild.Language
