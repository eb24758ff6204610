import Rebuild.Proofs.Language.Grammar

/-!
# Where reading stops

`Stops` says where the readers of `Rebuild.Language.Statement` come to an error: they have read some words,
and what is next, a word or the end, is not what is expected there. Of what is next only the first word
matters (`Stops.congr`), and the words that have been read can always be continued to a statement
(`Stops.exists_derives`).

Both together say that an error is reported at the earliest word at which there is one. The words before it
are the beginning of some configuration, and with the word they are the beginning of none.
-/

namespace Rebuild.Language

variable {words used next : Words} {token : Token TokenKind} {statement : Statement}
variable {statements : List Statement} {expected : Expected}

/-! ### What is read does not depend on what follows -/

/-- A statement is read in the same way whatever follows it, as long as an `else` follows or none does. -/
theorem Reads.congr (h : Reads (words ++ used) statement used) (heq : elseAhead next = elseAhead used) :
    Reads (words ++ next) statement next := by
  obtain ⟨words', hwords, hderives, hnearest, hopen⟩ := h.exists_derives
  obtain rfl := List.append_cancel_right hwords
  exact hderives.reads hnearest next fun hends ↦ heq.trans (hopen hends)

theorem Reads.derives (h : Reads (words ++ used) statement used) : Derives words statement := by
  obtain ⟨words', hwords, hderives, -⟩ := h.exists_derives
  obtain rfl := List.append_cancel_right hwords
  exact hderives

theorem elseAhead_congr {others : Words} (h : others.head? = words.head?) :
    elseAhead others = elseAhead words := by
  cases others <;> cases words <;> simp_all [elseAhead]

theorem head?_append_congr {others : Words} (used : Words) (h : others.head? = next.head?) :
    (used ++ others).head? = (used ++ next).head? := by
  rw [List.head?_append, List.head?_append, h]

/-! ### Stopping -/

/-- Whether a word begins a statement. -/
def startsStatement (token : Token TokenKind) : Bool :=
  token.isText .keyword ifWord || token.kind = .name || isSymbol '{' token

/-- The error that something is expected that is not next. -/
def ParseError.before : Words → Expected → ParseError
  | [], expected => .unexpectedEnd expected
  | token :: _, expected => .atToken token expected

mutual

/-- Reading a statement stops behind words: what is next is not what is expected. -/
inductive Stops : Words → Words → Expected → Prop
  /-- No statement begins. -/
  | start {next : Words} (hnext : ∀ token ∈ next.head?, startsStatement token = false) :
    Stops [] next .statement
  /-- A conditional has no condition. -/
  | condition {keyword : Token TokenKind} {next : Words}
    (hkeyword : keyword.isText .keyword ifWord = true)
    (hnext : ∀ token ∈ next.head?, token.kind ≠ .name) : Stops [keyword] next .conditionName
  /-- Reading stops in the first branch of a conditional. -/
  | thenBranch {keyword condition : Token TokenKind} {used next : Words} {expected : Expected}
    (hkeyword : keyword.isText .keyword ifWord = true) (hcondition : condition.kind = .name)
    (hthen : Stops used next expected) : Stops (keyword :: condition :: used) next expected
  /-- Reading stops in the second branch of a conditional. -/
  | elseBranch {keyword condition otherwise : Token TokenKind} {words used next : Words}
    {thenBranch : Statement} {expected : Expected}
    (hkeyword : keyword.isText .keyword ifWord = true) (hcondition : condition.kind = .name)
    (hthen : Reads (words ++ otherwise :: (used ++ next)) thenBranch (otherwise :: (used ++ next)))
    (hotherwise : otherwise.isText .keyword elseWord = true) (helse : Stops used next expected) :
    Stops (keyword :: condition :: (words ++ otherwise :: used)) next expected
  /-- A name has no equals sign. -/
  | equals {name : Token TokenKind} {next : Words} (hname : name.kind = .name)
    (hnext : ∀ token ∈ next.head?, isSymbol '=' token = false) : Stops [name] next .equals
  /-- An equals sign has no value. -/
  | value {name sign : Token TokenKind} {next : Words} (hname : name.kind = .name)
    (hsign : isSymbol '=' sign = true) (hnext : ∀ token ∈ next.head?, token.kind ≠ .string) :
    Stops [name, sign] next .stringLiteral
  /-- Reading stops in a block. -/
  | block {opening : Token TokenKind} {used next : Words} {expected : Expected}
    (hopening : isSymbol '{' opening = true) (hitems : StopsAmong true used next expected) :
    Stops (opening :: used) next expected

/-- Reading statements one after the other stops. Inside a block they go to a closing brace, otherwise to
the end. -/
inductive StopsAmong : Bool → Words → Words → Expected → Prop
  /-- The end comes before the closing brace. -/
  | close : StopsAmong true [] [] .closingBrace
  /-- Reading stops in the next statement. -/
  | first {inside : Bool} {used next : Words} {expected : Expected} (hne : used ++ next ≠ [])
    (hclosing : inside = true → ∀ token ∈ (used ++ next).head?, isSymbol '}' token = false)
    (h : Stops used next expected) : StopsAmong inside used next expected
  /-- Reading stops behind the next statement. -/
  | later {inside : Bool} {words used next : Words} {statement : Statement} {expected : Expected}
    (hfirst : Reads (words ++ (used ++ next)) statement (used ++ next))
    (hrest : StopsAmong inside used next expected) : StopsAmong inside (words ++ used) next expected

end

mutual

/-- Of what is next only the first word matters. -/
theorem Stops.congr {used next others : Words} {expected : Expected} :
    Stops used next expected → others.head? = next.head? → Stops used others expected
  | .start hnext, heq => .start (heq ▸ hnext)
  | .condition hkeyword hnext, heq => .condition hkeyword (heq ▸ hnext)
  | .thenBranch hkeyword hcondition hthen, heq => .thenBranch hkeyword hcondition (hthen.congr heq)
  | .elseBranch hkeyword hcondition hthen hotherwise helse, heq =>
    .elseBranch hkeyword hcondition (hthen.congr rfl) hotherwise (helse.congr heq)
  | .equals hname hnext, heq => .equals hname (heq ▸ hnext)
  | .value hname hsign hnext, heq => .value hname hsign (heq ▸ hnext)
  | .block hopening hitems, heq => .block hopening (hitems.congr heq)

theorem StopsAmong.congr {inside : Bool} {used next others : Words} {expected : Expected} :
    StopsAmong inside used next expected → others.head? = next.head? →
      StopsAmong inside used others expected
  | .close, heq => by
    rw [List.head?_eq_none_iff.1 heq]
    exact .close
  | .first hne hclosing h, heq => by
    have hhead := head?_append_congr used heq
    refine .first ?_ (hhead ▸ hclosing) (h.congr heq)
    rwa [ne_eq, ← List.head?_eq_none_iff, hhead, List.head?_eq_none_iff]
  | .later hfirst hrest, heq =>
    .later (hfirst.congr (elseAhead_congr (head?_append_congr _ heq))) (hrest.congr heq)

end

/-! ### The readers -/

theorem eq_before_of_expect {test : Token TokenKind → Bool} {e : ParseError}
    (h : expect test expected words = .error e) :
    e = .before words expected ∧ ∀ token ∈ words.head?, test token = false := by
  rcases words with - | ⟨token, words⟩
  · cases h
    exact ⟨rfl, by simp⟩
  · rw [expect] at h
    split at h
    · cases h
    · cases h
      refine ⟨rfl, fun first hfirst ↦ ?_⟩
      obtain rfl := Option.some.inj hfirst
      exact Bool.not_eq_true _ ▸ ‹_›

/-- What a reader reports when it stops. -/
def Reports (e : ParseError) (stops : Words → Words → Expected → Prop) (words : Words) : Prop :=
  ∃ used next expected, words = used ++ next ∧ e = .before next expected ∧ stops used next expected

theorem stops_of_readAssignment {name : Token TokenKind} {e : ParseError} (hname : name.kind = .name)
    (h : readAssignment name words = .error e) : Reports e Stops (name :: words) := by
  rw [readAssignment] at h
  split at h
  case h_1 hsign =>
    cases h
    obtain ⟨rfl, hnext⟩ := eq_before_of_expect hsign
    exact ⟨[name], words, .equals, rfl, rfl, .equals hname hnext⟩
  case h_2 sign behind _ hsign =>
    obtain ⟨rfl, hequals⟩ := expect_eq_ok hsign
    split at h
    case h_1 hvalue =>
      cases h
      obtain ⟨rfl, hnext⟩ := eq_before_of_expect hvalue
      exact ⟨[name, sign], behind, .stringLiteral, rfl, rfl,
        .value hname hequals fun token htoken ↦ of_decide_eq_false (hnext token htoken)⟩
    case h_2 => cases h

theorem stops_of_readStatement {e : ParseError} (h : readStatement words = .error e) :
    Reports e Stops words := by
  induction words using readStatement.induct _ (fun statements words ↦
    ∀ e, readBlock statements words = .error e → Reports e (StopsAmong true) words)
    generalizing e with
  | case1 =>
    rw [readStatement] at h
    cases h
    exact ⟨[], [], .statement, rfl, rfl, .start (by simp)⟩
  | case2 keyword words hif e' hcondition =>
    simp only [readStatement, hif, hcondition, if_true] at h
    cases h
    obtain ⟨rfl, hnext⟩ := eq_before_of_expect hcondition
    exact ⟨[keyword], words, .conditionName, rfl, rfl,
      .condition hif fun token htoken ↦ of_decide_eq_false (hnext token htoken)⟩
  | case3 keyword words hif condition behind _ hcondition e' hthen ih =>
    obtain ⟨rfl, hname⟩ := expect_eq_ok hcondition
    simp only [readStatement, hif, hcondition, hthen, if_true] at h
    cases h
    obtain ⟨used, next, expected, rfl, rfl, hstops⟩ := ih hthen
    exact ⟨_, next, expected, rfl, rfl, .thenBranch hif (of_decide_eq_true hname) hstops⟩
  | case5 keyword words hif condition behind _ hcondition thenBranch otherwise behindElse _ hotherwise
      e' helse _ hthen _ ih =>
    obtain ⟨rfl, hname⟩ := expect_eq_ok hcondition
    simp only [readStatement, hif, hcondition, hthen, hotherwise, helse, if_true] at h
    cases h
    obtain ⟨used, next, expected, rfl, rfl, hstops⟩ := ih helse
    have hreads := reads_of_readStatement hthen
    obtain ⟨words, rfl, -⟩ := hreads.exists_derives
    exact ⟨_, next, expected, by simp, rfl,
      .elseBranch hif (of_decide_eq_true hname) hreads hotherwise hstops⟩
  | case8 name words hif hname e' hassignment =>
    simp only [readStatement, hif, hname, hassignment, if_true] at h
    cases h
    exact stops_of_readAssignment hname hassignment
  | case10 opening words hif hname hopening e' hblock ih =>
    simp only [readStatement, hif, hname, hopening, hblock, if_true, if_false] at h
    cases h
    obtain ⟨used, next, expected, rfl, rfl, hstops⟩ := ih _ hblock
    exact ⟨_, next, expected, rfl, rfl, .block hopening hstops⟩
  | case12 token words hif hname hopening =>
    simp only [readStatement, hif, hname, hopening, if_false] at h
    cases h
    refine ⟨[], token :: words, .statement, rfl, rfl, .start fun first hfirst ↦ ?_⟩
    obtain rfl := Option.some.inj hfirst
    simp [startsStatement, hif, hname, hopening]
  | case13 statements e' hread =>
    rw [readBlock] at hread
    cases hread
    exact ⟨[], [], .closingBrace, rfl, rfl, .close⟩
  | case15 statements token words hclosing e' hfirst ih e hread =>
    simp only [readBlock, hclosing, hfirst] at hread
    cases hread
    obtain ⟨used, next, expected, hwords, rfl, hstops⟩ := ih hfirst
    refine ⟨used, next, expected, hwords, rfl, .first ?_ (fun _ ↦ ?_) hstops⟩ <;> rw [← hwords]
    · exact List.cons_ne_nil token words
    · simpa using hclosing
  | case16 statements token words hclosing statement after _ hfirst e' hrest _ ih e hread =>
    simp only [readBlock, hclosing, hfirst, hrest] at hread
    cases hread
    obtain ⟨used, next, expected, rfl, rfl, hstops⟩ := ih _ hrest
    have hreads := reads_of_readStatement hfirst
    obtain ⟨words', hwords, -⟩ := hreads.exists_derives
    rw [hwords] at hreads ⊢
    exact ⟨_, next, expected, by simp, rfl, .later hreads hstops⟩
  | _ =>
    -- what is left are the statements that are read
    simp_all [readStatement, readBlock]

theorem expect_eq_error {test : Token TokenKind → Bool} (h : ∀ token ∈ words.head?, test token = false) :
    expect test expected words = .error (.before words expected) := by
  cases words with
  | nil => rfl
  | cons token words => rw [expect, h token rfl]; rfl

theorem expect_cons {test : Token TokenKind → Bool} (h : test token = true) :
    expect test expected (token :: words) = .ok (token, ⟨words, Nat.lt_succ_self _⟩) := by
  rw [expect, if_pos h]

theorem readBlock_eq_error_of_ne_nil {before : List Statement} {e : ParseError} (hne : words ≠ [])
    (hclosing : ∀ token ∈ words.head?, isSymbol '}' token = false)
    (h : readStatement words = .error e) : readBlock before words = .error e := by
  obtain ⟨token, words, rfl⟩ := List.exists_cons_of_ne_nil hne
  simp [readBlock, hclosing token rfl, h]

theorem readBlock_eq_error_of_reads {before : List Statement} {e : ParseError}
    (hfirst : Reads words statement next) (h : readBlock (statement :: before) next = .error e) :
    readBlock before words = .error e := by
  obtain ⟨token, words, rfl, hclosing⟩ := hfirst.exists_cons
  obtain ⟨_, hread⟩ := hfirst.readStatement
  simp [readBlock, hclosing, hread, h]

theorem readAll_eq_error_of_ne_nil {e : ParseError} (hne : words ≠ [])
    (h : readStatement words = .error e) : readAll words = .error e := by
  obtain ⟨token, words, rfl⟩ := List.exists_cons_of_ne_nil hne
  rw [readAll, h]

mutual

theorem Stops.readStatement {used next : Words} {expected : Expected} : Stops used next expected →
    Language.readStatement (used ++ next) = .error (.before next expected)
  | .start hnext => by
    cases next with
    | nil => rw [List.nil_append, Language.readStatement]; rfl
    | cons token next =>
      have hstart := hnext token rfl
      simp only [startsStatement, Bool.or_eq_false_iff, decide_eq_false_iff_not] at hstart
      obtain ⟨⟨hkeyword, hname⟩, hopening⟩ := hstart
      simp [Language.readStatement, hkeyword, hname, hopening, ParseError.before]
  | .condition hkeyword hnext => by
    have hexpect : expect (·.kind = .name) .conditionName next = .error (.before next _) :=
      expect_eq_error fun token h ↦ decide_eq_false (hnext token h)
    simp [Language.readStatement, hkeyword, hexpect]
  | .thenBranch hkeyword hcondition hthen => by
    simp [Language.readStatement, expect, hkeyword, hcondition, hthen.readStatement]
  | .elseBranch hkeyword hcondition hthen hotherwise helse => by
    obtain ⟨_, hread⟩ := hthen.readStatement
    simp [Language.readStatement, expect, hkeyword, hcondition, hread, hotherwise, helse.readStatement]
  | .equals hname hnext => by
    simp [Language.readStatement, isText_keyword_of_name hname, hname, readAssignment,
      expect_eq_error hnext]
  | .value hname hsign hnext => by
    have hexpect : expect (·.kind = .string) .stringLiteral next = .error (.before next _) :=
      expect_eq_error fun token h ↦ decide_eq_false (hnext token h)
    simp [Language.readStatement, isText_keyword_of_name hname, hname, readAssignment,
      expect_cons hsign, hexpect]
  | .block hopening hitems => by
    simp [Language.readStatement, isText_keyword_of_symbol hopening,
      (Token.isText_iff.1 hopening).1, hopening, hitems.readBlock rfl []]

theorem StopsAmong.readBlock {inside : Bool} {used next : Words} {expected : Expected} :
    StopsAmong inside used next expected → inside = true → ∀ before,
      Language.readBlock before (used ++ next) = .error (.before next expected)
  | .close, _, before => by rw [List.nil_append, Language.readBlock]; rfl
  | .first hne hclosing h, hinside, before =>
    readBlock_eq_error_of_ne_nil hne (hclosing hinside) h.readStatement
  | .later hfirst hrest, hinside, before => by
    rw [List.append_assoc]
    exact readBlock_eq_error_of_reads hfirst (hrest.readBlock hinside _)

end

theorem StopsAmong.readAll {inside : Bool} {used next : Words} {expected : Expected} :
    StopsAmong inside used next expected → inside = false →
      Language.readAll (used ++ next) = .error (.before next expected)
  | .first hne _ h, _ => readAll_eq_error_of_ne_nil hne h.readStatement
  | .later hfirst hrest, hinside => by
    rw [List.append_assoc, readAll_of_reads hfirst, hrest.readAll hinside]
    rfl

theorem stops_of_readAll {e : ParseError} (h : readAll words = .error e) :
    Reports e (StopsAmong false) words := by
  fun_induction readAll words with
  | case1 => cases h
  | case2 token words e' hfirst =>
    cases h
    obtain ⟨used, next, expected, hwords, rfl, hstops⟩ := stops_of_readStatement hfirst
    refine ⟨used, next, expected, hwords, rfl, .first ?_ (absurd · Bool.false_ne_true) hstops⟩
    rw [← hwords]
    exact List.cons_ne_nil token words
  | case3 token words statement after _ hfirst ih =>
    cases hrest : readAll after with
    | ok statements =>
      rw [hrest] at h
      cases h
    | error e' =>
      rw [hrest] at h
      cases h
      obtain ⟨used, next, expected, rfl, rfl, hstops⟩ := ih hrest
      have hreads := reads_of_readStatement hfirst
      obtain ⟨words', hwords, -⟩ := hreads.exists_derives
      rw [hwords] at hreads ⊢
      exact ⟨_, next, expected, by simp, rfl, .later hreads hstops⟩

/-! ### Beginnings -/

/-- A word of a kind, at no place in particular. -/
def wordOf (kind : TokenKind) (text : List Char) : Token TokenKind :=
  { kind, start := {}, text }

/-- A name, an equals sign and a literal. -/
theorem exists_derives_assign : ∃ words statement, Derives words statement :=
  ⟨[wordOf .name ['x'], wordOf .symbol ['='], wordOf .string ['"', '"']], _, .assign rfl rfl rfl⟩

mutual

/-- What has been read can be continued to a statement. -/
theorem Stops.exists_derives {used next : Words} {expected : Expected} :
    Stops used next expected → ∃ more statement, Derives (used ++ more) statement
  | .start _ => exists_derives_assign
  | .condition hkeyword _ => by
    obtain ⟨words, statement, hderives⟩ := exists_derives_assign
    exact ⟨wordOf .name ['x'] :: words, _, .conditional hkeyword rfl hderives⟩
  | .thenBranch hkeyword hcondition hthen => by
    obtain ⟨more, statement, hderives⟩ := hthen.exists_derives
    exact ⟨more, _, .conditional hkeyword hcondition hderives⟩
  | .elseBranch hkeyword hcondition hthen hotherwise helse => by
    obtain ⟨more, statement, hderives⟩ := helse.exists_derives
    have halternative := Derives.alternative hkeyword hcondition hthen.derives hotherwise hderives
    exact ⟨more, _, by simpa using halternative⟩
  | .equals hname _ =>
    ⟨[wordOf .symbol ['='], wordOf .string ['"', '"']], _, .assign hname rfl rfl⟩
  | .value hname hsign _ => ⟨[wordOf .string ['"', '"']], _, .assign hname hsign rfl⟩
  | .block hopening hitems => by
    obtain ⟨more, statements, hderives⟩ := hitems.exists_derivesAll
    refine ⟨more ++ [wordOf .symbol ['}']], .block statements, ?_⟩
    rw [List.cons_append, ← List.append_assoc]
    exact .block hopening hderives rfl

theorem StopsAmong.exists_derivesAll {inside : Bool} {used next : Words} {expected : Expected} :
    StopsAmong inside used next expected → ∃ more statements, DerivesAll (used ++ more) statements
  | .close => ⟨[], [], .nil⟩
  | .first _ _ h => by
    obtain ⟨more, statement, hderives⟩ := h.exists_derives
    refine ⟨more, [statement], ?_⟩
    rw [← List.append_nil (_ ++ more)]
    exact .cons hderives .nil
  | .later hfirst hrest => by
    obtain ⟨more, statements, hderives⟩ := hrest.exists_derivesAll
    have hall := DerivesAll.cons hfirst.derives hderives
    exact ⟨more, _, by simpa using hall⟩

end

/-- Some configuration begins with the words. -/
def Viable (words : Words) : Prop :=
  ∃ more statements, DerivesAll (words ++ more) statements

theorem Viable.earlier {earlier : Words} (h : Viable words) (hearlier : earlier <+: words) :
    Viable earlier := by
  obtain ⟨rest, rfl⟩ := hearlier
  obtain ⟨more, statements, hderives⟩ := h
  exact ⟨rest ++ more, statements, by rwa [← List.append_assoc]⟩

/-- The word behind the others is the first wrong one: some configuration begins with the words before it,
however few of them are taken, and none begins with all of them and the word. -/
structure FirstWrong (before : Words) (token : Token TokenKind) : Prop where
  /-- No word before it is wrong. -/
  viable : ∀ earlier, earlier <+: before → Viable earlier
  /-- The word is wrong. -/
  wrong : ¬ Viable (before ++ [token])

section Places

variable {before before' after after' : Words} {token' : Token TokenKind}

theorem FirstWrong.length_le (h : FirstWrong before token) (h' : FirstWrong before' token')
    (heq : before ++ token :: after = before' ++ token' :: after') :
    before'.length ≤ before.length := by
  refine Nat.le_of_not_lt fun hlt ↦ h.wrong (h'.viable _ ?_)
  -- otherwise the first of the two wrong words would be before the second
  have hwrong : before ++ [token] <+: before' ++ token' :: after' := ⟨after, by simp [← heq]⟩
  exact List.prefix_of_prefix_length_le hwrong (List.prefix_append _ _)
    (by simpa using Nat.succ_le_of_lt hlt)

/-- No list of words has two first wrong ones. -/
theorem FirstWrong.unique (h : FirstWrong before token) (h' : FirstWrong before' token')
    (heq : before ++ token :: after = before' ++ token' :: after') :
    before = before' ∧ token = token' := by
  have hlength := Nat.le_antisymm (h'.length_le h heq.symm) (h.length_le h' heq)
  obtain ⟨hbefore, hrest⟩ := List.append_inj heq hlength
  exact ⟨hbefore, (List.cons.inj hrest).1⟩

end Places

theorem StopsAmong.viable {inside : Bool} (h : StopsAmong inside used next expected) : Viable used :=
  h.exists_derivesAll

theorem exists_readAll_of_derivesAll (h : DerivesAll words statements) :
    ∃ nearest, readAll words = .ok nearest := by
  obtain ⟨nearest, hnearest⟩ := h.exists_nearest
  exact ⟨nearest, readAll_eq_ok_iff.2 hnearest⟩

/-- Where reading stops before a word, the word is the first wrong one. -/
theorem StopsAmong.firstWrong {after : Words} (h : StopsAmong false used (token :: after) expected) :
    FirstWrong used token where
  viable _ hearlier := h.viable.earlier hearlier
  wrong := by
    rintro ⟨more, statements, hderives⟩
    obtain ⟨nearest, hread⟩ := exists_readAll_of_derivesAll hderives
    -- reading stops before the word whatever follows it
    have hstops : StopsAmong false used (token :: more) expected := h.congr rfl
    rw [List.append_assoc, List.singleton_append, hstops.readAll rfl] at hread
    cases hread

/-- Reading stops before the first wrong word. -/
theorem FirstWrong.exists_stops {before : Words} (h : FirstWrong before token) (after : Words) :
    ∃ expected, StopsAmong false before (token :: after) expected := by
  cases hread : readAll (before ++ [token]) with
  | ok statements => exact absurd ⟨[], statements, by simpa using (readAll_eq_ok_iff.1 hread).1⟩ h.wrong
  | error e =>
    obtain ⟨used, next, expected, heq, -, hstops⟩ := stops_of_readAll hread
    cases next with
    | nil =>
      rw [List.append_nil] at heq
      exact absurd (heq ▸ hstops.viable) h.wrong
    | cons token' next =>
      obtain ⟨rfl, rfl⟩ := h.unique hstops.firstWrong heq
      exact ⟨expected, hstops.congr rfl⟩

theorem ofTokens_eq_error_iff {e : ParseError} :
    Statement.ofTokens words = .error e ↔ readAll words = .error e := by
  rw [Statement.ofTokens]
  cases readAll words with
  | ok statements => exact iff_of_false (fun h ↦ by cases h) (fun h ↦ by cases h)
  | error e' => exact ⟨fun h ↦ by cases h; rfl, fun h ↦ by cases h; rfl⟩

/-- The first wrong word is reported with its text and its place, whatever follows it. When no word is
wrong, but the words are no configuration, their end is reported. Nothing else is reported at any time. -/
theorem ofTokens_of_firstWrong :
    (∀ before token, FirstWrong before token → ∃ expected, ∀ after,
      Statement.ofTokens (before ++ token :: after) = .error (.unexpectedToken
        (String.ofList token.text) token.start.line token.start.column expected)) ∧
    (∀ words, (∀ before token after, words = before ++ token :: after → ¬ FirstWrong before token) →
      (¬ ∃ statements, DerivesAll words statements) →
        ∃ expected, Statement.ofTokens words = .error (.unexpectedEnd expected)) ∧
    (∀ words found line column expected,
      Statement.ofTokens words = .error (.unexpectedToken found line column expected) →
        ∃ before token after, words = before ++ token :: after ∧ FirstWrong before token ∧
          found = String.ofList token.text ∧ line = token.start.line ∧ column = token.start.column) ∧
    ∀ words expected, Statement.ofTokens words = .error (.unexpectedEnd expected) →
      (∀ before token after, words = before ++ token :: after → ¬ FirstWrong before token) ∧
        ¬ ∃ statements, DerivesAll words statements := by
  simp only [ofTokens_eq_error_iff]
  refine ⟨fun before token h ↦ ?_, fun words hright hnot ↦ ?_, fun words found line column expected h ↦ ?_,
    fun words expected h ↦ ⟨?_, ?_⟩⟩
  · obtain ⟨expected, hstops⟩ := h.exists_stops []
    refine ⟨expected, fun after ↦ ?_⟩
    have hstops' : StopsAmong false before (token :: after) expected := hstops.congr rfl
    exact hstops'.readAll rfl
  · cases hread : readAll words with
    | ok statements => exact absurd ⟨statements, (readAll_eq_ok_iff.1 hread).1⟩ hnot
    | error e =>
      obtain ⟨used, next, expected, rfl, rfl, hstops⟩ := stops_of_readAll hread
      cases next with
      | nil => exact ⟨expected, rfl⟩
      | cons token after => exact absurd hstops.firstWrong (hright used token after rfl)
  · obtain ⟨used, next, expected', rfl, herror, hstops⟩ := stops_of_readAll h
    cases next with
    | nil => cases herror
    | cons token after =>
      cases herror
      exact ⟨used, token, after, rfl, hstops.firstWrong, rfl, rfl, rfl⟩
  · rintro before token after rfl hwrong
    obtain ⟨expected', hstops⟩ := hwrong.exists_stops after
    cases h.symm.trans (hstops.readAll rfl)
  · rintro ⟨statements, hderives⟩
    obtain ⟨nearest, hread⟩ := exists_readAll_of_derivesAll hderives
    cases h.symm.trans hread

/-- A conditional with a block in which a name has nothing behind it. -/
def withoutSign : Words :=
  [⟨.keyword, {}, ifWord⟩, ⟨.name, ⟨3, 1, 4⟩, ['a']⟩, ⟨.symbol, ⟨5, 1, 6⟩, ['{']⟩,
    ⟨.name, ⟨7, 1, 8⟩, ['x']⟩]

/-- A second name behind the first is reported, whatever follows it, and without it the end is. -/
theorem ofTokens_of_firstWrong_of_withoutSign :
    let token : Token TokenKind := ⟨.name, ⟨9, 2, 1⟩, ['y']⟩
    (FirstWrong withoutSign token ∧ ∃ expected, ∀ after, Statement.ofTokens (withoutSign ++ token :: after) =
      .error (.unexpectedToken "y" 2 1 expected)) ∧
    (¬ ∃ statements, DerivesAll withoutSign statements) ∧
      ∃ expected, Statement.ofTokens withoutSign = .error (.unexpectedEnd expected) := by
  intro token
  have hstops (next : Words) (hnext : ∀ token ∈ next.head?, isSymbol '=' token = false) :
      StopsAmong false withoutSign next .equals :=
    .first (by simp [withoutSign]) (absurd · Bool.false_ne_true) <| .thenBranch rfl rfl <| .block rfl <|
      .first (by simp) (by simp [isSymbol, Token.isText]) (.equals rfl hnext)
  have hfirst : FirstWrong withoutSign token :=
    (hstops [token] (by simp [token, isSymbol, Token.isText])).firstWrong
  have hread : Statement.ofTokens withoutSign = .error (.unexpectedEnd .equals) :=
    ofTokens_eq_error_iff.2 ((hstops [] (by simp)).readAll rfl)
  obtain ⟨hwrong, hend, -, hright⟩ := ofTokens_of_firstWrong
  obtain ⟨hnone, hnot⟩ := hright _ _ hread
  exact ⟨⟨hfirst, hwrong withoutSign token hfirst⟩, hnot, hend withoutSign hnone hnot⟩

end Rebuild.Language
