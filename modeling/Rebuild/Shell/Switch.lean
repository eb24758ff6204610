import Rebuild.Shell.Condition
import Rebuild.Shell.State

/-!
# Switches

Letters behind a dash: those that a command takes before its other arguments, and those that set
the options of a shell.
-/

namespace Rebuild.Shell

namespace Action

/-- The greatest number that commands take. -/
def greatestNumber : Int := 0x7FFFFFFF

/-- The number that a text is. -/
def number (text : String) : Action Nat :=
  match Condition.number text with
  | .ok n =>
    if 0 ≤ n && n ≤ greatestNumber then return n.toNat else fail ("Illegal number: " ++ text)
  | .error _ => fail ("Illegal number: " ++ text)

/-! ### Switches of commands -/

/-- The switches in one argument, and the one that needs a value and has none yet. -/
def letters (plain valued : List Char) :
    List Char → Action (List (Char × String) × Option Char)
  | [] => return ([], none)
  | c :: cs => do
    if valued.contains c then
      if cs.isEmpty then return ([], some c) else return ([(c, String.ofList cs)], none)
    else if plain.contains c then
      let (more, open?) ← letters plain valued cs
      return ((c, "") :: more, open?)
    else fail ("Illegal option -" ++ c.toString)

/-- The switches before other arguments, with their values, and the other arguments. -/
def switches (plain valued : List Char) :
    List String → Action (List (Char × String) × List String)
  | [] => return ([], [])
  | arg :: rest => do
    match arg.toList, rest with
    | ['-', '-'], rest => return ([], rest)
    | '-' :: c :: cs, [] =>
      match ← letters plain valued (c :: cs) with
      | (found, none) => return (found, [])
      | (_, some d) => fail ("No arg for -" ++ d.toString ++ " option")
    | '-' :: c :: cs, value :: others =>
      match ← letters plain valued (c :: cs) with
      | (found, none) =>
        let (more, others) ← switches plain valued (value :: others)
        return (found ++ more, others)
      | (found, some d) =>
        let (more, others) ← switches plain valued others
        return (found ++ (d, value) :: more, others)
    | _, rest => return ([], arg :: rest)

/-- The arguments of a command without switches. -/
def withoutSwitches (args : List String) : Action (List String) := do
  return (← switches [] [] args).2

/-! ### Options of shells -/

/-- The options of a shell, by name and letter. -/
def shellOptions : List (String × Option Char) :=
  [("errexit", some 'e'), ("noglob", some 'f'), ("ignoreeof", some 'I'), ("interactive", some 'i'),
    ("monitor", some 'm'), ("noexec", some 'n'), ("stdin", some 's'), ("xtrace", some 'x'),
    ("verbose", some 'v'), ("vi", some 'V'), ("emacs", some 'E'), ("noclobber", some 'C'),
    ("allexport", some 'a'), ("notify", some 'b'), ("nounset", some 'u'), ("privileged", some 'p'),
    ("nolog", none), ("debug", none)]

/-- Turns an option on or off. The letters stay in the reverse order of the table. -/
def turn (letter : Char) (on : Bool) : Action Unit := do
  let known := shellOptions.filterMap (·.2)
  if known.contains letter then
    modify fun st ↦
      { st with options := known.reverse.filter fun c ↦ if c = letter then on else st.isOn c }
  else fail ("Illegal option -" ++ letter.toString)

/-- Prints the options, one a line. -/
def printOptions (asCommands : Bool) : Action Unit := do
  let st ← get
  let isOn (letter? : Option Char) : Bool := letter?.any st.isOn
  let line (name : String) (letter? : Option Char) : String :=
    if asCommands then "set " ++ (if isOn letter? then "-o " else "+o ") ++ name
    else
      let blanks := String.ofList (List.replicate (16 - name.length) ' ')
      name ++ blanks ++ if isOn letter? then "on" else "off"
  unless asCommands do printLine "Current option settings"
  print ((shellOptions.flatMap fun (name, letter?) ↦ (line name letter?).toList ++ ['\n']))

/-- What the options before other arguments leave. -/
structure OptionArguments where
  /-- The other arguments. -/
  rest : List String
  /-- Whether two dashes ended the options. -/
  ended : Bool := false
  /-- Whether the first of the other arguments is a script. -/
  asksScript : Bool := false

/-- Turns the options on or off that letters stand for; a name is given with one of them. The answer
says whether a script and whether a name is asked for. -/
def turnAll (startsShell on : Bool) : List Char → Action (Bool × Bool)
  | [] => return (false, false)
  | c :: cs => do
    let isScript := c = 'c' && startsShell
    let isLogin := c = 'l' && startsShell
    unless isScript || isLogin || c = 'o' do turn c on
    let (asksScript, asksName) ← turnAll startsShell on cs
    return (asksScript || isScript, asksName || c = 'o')

/-- Turns the option with a name on or off. -/
def turnNamed (name : String) (on : Bool) : Action Unit := do
  match shellOptions.lookup name with
  | some (some letter) => turn letter on
  | some none => return ()
  | none => fail ("Illegal option -o " ++ name)

/-- Reads the options before other arguments. -/
def options (startsShell : Bool) : List String → Action OptionArguments
  | [] => return { rest := [] }
  | arg :: rest => do
    match arg.toList, rest with
    | ['-', '-'], rest => return { rest, ended := true }
    | ['-'], rest =>
      unless startsShell do
        turn 'x' false
        turn 'v' false
      return { rest }
    | '-' :: letters, [] =>
      let (asksScript, asksName) ← turnAll startsShell true letters
      if asksName then printOptions false
      return { rest := [], asksScript }
    | '+' :: letters, [] =>
      let (asksScript, asksName) ← turnAll startsShell false letters
      if asksName then printOptions true
      return { rest := [], asksScript }
    | sign :: letters, name :: others =>
      if sign = '-' || sign = '+' then
        let (asksScript, asksName) ← turnAll startsShell (sign = '-') letters
        let behind ←
          if asksName then
            turnNamed name (sign = '-')
            options startsShell others
          else options startsShell (name :: others)
        return { behind with asksScript := behind.asksScript || asksScript }
      else return { rest := arg :: name :: others }
    | _, rest => return { rest := arg :: rest }

end Action

end Rebuild.Shell
