import Rebuild.Shell.Bytes

/-!
# Signals

The numbers and names of signals, and what becomes of a shell that gets one.
-/

namespace Rebuild.Shell

/-- A signal, by its number. -/
abbrev Signal := Nat

namespace Signal

/-- The signal that cannot be caught. -/
def kill : Signal := 9

/-- The signal that asks to end. -/
def terminate : Signal := 15

/-- The signal of a fault in memory. -/
def segmentationFault : Signal := 11

/-- The number behind that of the last signal. -/
def bound : Nat := 65

/-- The names, from zero on, where zero stands for the end of a shell. -/
def names : List String :=
  ["EXIT", "HUP", "INT", "QUIT", "ILL", "TRAP", "ABRT", "BUS", "FPE", "KILL", "USR1", "SEGV",
    "USR2", "PIPE", "ALRM", "TERM", "16", "CHLD", "CONT", "STOP", "TSTP", "TTIN", "TTOU", "URG",
    "XCPU", "XFSZ", "VTALRM", "PROF", "WINCH", "IO", "PWR", "SYS", "32", "33", "RTMIN"]
    ++ (List.range 15).map (fun n ↦ "RTMIN+" ++ toString (n + 1))
    ++ (List.range 14).map (fun n ↦ "RTMAX-" ++ toString (14 - n))
    ++ ["RTMAX"]

/-- The name of a signal. -/
def name (signal : Signal) : String :=
  names[signal]?.getD (toString signal)

/-- The signal that a number or a name denotes; the least number that a name can have is given. -/
def ofText? (least : Nat) (text : String) : Option Signal :=
  match decimal? text with
  | some n => if n < bound then some n else none
  | none =>
    let upper := text.map Char.toUpper
    (names.drop least).findIdx? (· = upper) |>.map (· + least)

/-- Whether a shell goes on when it gets the signal. -/
def isHarmless (signal : Signal) : Bool :=
  [0, 17, 18, 19, 20, 21, 22, 23, 28].contains signal

/-- What is said when the signal has killed a command. -/
def description? (signal : Signal) : Option String :=
  match signal with
  | 1 => some "Hangup"
  | 2 | 13 => none
  | 3 => some "Quit"
  | 4 => some "Illegal instruction"
  | 5 => some "Trace/breakpoint trap"
  | 6 => some "Aborted"
  | 7 => some "Bus error"
  | 8 => some "Floating point exception"
  | 9 => some "Killed"
  | 10 => some "User defined signal 1"
  | 11 => some "Segmentation fault"
  | 12 => some "User defined signal 2"
  | 14 => some "Alarm clock"
  | 15 => some "Terminated"
  | 16 => some "Stack fault"
  | 24 => some "CPU time limit exceeded"
  | 25 => some "File size limit exceeded"
  | 26 => some "Virtual timer expired"
  | 27 => some "Profiling timer expired"
  | 29 => some "I/O possible"
  | 30 => some "Power failure"
  | 31 => some "Bad system call"
  | n => some ("Real-time signal " ++ toString (n - 34))

end Signal

end Rebuild.Shell
