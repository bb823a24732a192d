import CaseHarness.Text.Numeral

/-!
# Signals

A signal is a number below 65 and has a name.  A process that does nothing about
a signal is ended or stopped by it, or does not notice.
-/

namespace CaseHarness.Shell.Signal

/-- The number of signals, the number zero included. -/
def count : Nat :=
  65

/-- The names of the signals below 32, in order of their numbers. -/
def commonNames : List String :=
  ["EXIT", "HUP", "INT", "QUIT", "ILL", "TRAP", "ABRT", "BUS", "FPE", "KILL", "USR1", "SEGV",
    "USR2", "PIPE", "ALRM", "TERM", "16", "CHLD", "CONT", "STOP", "TSTP", "TTIN", "TTOU", "URG",
    "XCPU", "XFSZ", "VTALRM", "PROF", "WINCH", "IO", "PWR", "SYS"]

/-- The name of a signal; those from 34 on are named by their distance from an end. -/
def name (signal : Nat) : String :=
  match commonNames[signal]? with
  | some known => known
  | none =>
      if signal < 34 then Text.Numeral.decimal signal
      else if signal = 34 then "RTMIN"
      else if signal < 50 then "RTMIN+" ++ Text.Numeral.decimal (signal - 34)
      else if signal < 64 then "RTMAX-" ++ Text.Numeral.decimal (64 - signal)
      else "RTMAX"

/-- The signal with a number that is written in digits. -/
def ofDigits? (word : String) : Option Nat :=
  (Text.Numeral.digits? word.toList).filter fun signal => signal < count

/-- The signal with a number or a name; upper and lower case are alike.  The signals below
`least` can be given by their numbers only. -/
def ofWord? (least : Nat) (word : String) : Option Nat :=
  let upper := word.map Char.toUpper
  (ofDigits? word).or
    ((List.range' least (count - least)).find? fun signal => name signal = upper)

/-- What becomes of a process that does nothing about a signal. -/
inductive Effect where
  | ends
  | stops
  | nothing
  deriving DecidableEq, Repr

/-- The effect of a signal.  The stops that come from a terminal have none on processes that
nobody can continue. -/
def effect (signal : Nat) : Effect :=
  if signal = 19 then .stops
  else if [0, 17, 18, 20, 21, 22, 23, 28].contains signal then .nothing
  else .ends

/-- Whether a process can do something about a signal. -/
def isFree (signal : Nat) : Bool :=
  signal ≠ 9 && signal ≠ 19

/-- What a shell says when a signal has ended a command; it keeps silent about an interrupt
and a broken pipe. -/
def text? (signal : Nat) : Option String :=
  match signal with
  | 1 => some "Hangup"
  | 2 | 13 => none
  | 3 => some "Quit"
  | 4 => some "Illegal instruction"
  | 5 => some "Trace/breakpoint trap"
  | 6 => some "Aborted"
  | 7 => some "Bus error"
  | 8 => some "Floating point exception"
  | 9 => some "Killed"
  | 10 => some "User defined signal 1"
  | 11 => some "Segmentation fault"
  | 12 => some "User defined signal 2"
  | 14 => some "Alarm clock"
  | 15 => some "Terminated"
  | 16 => some "Stack fault"
  | 24 => some "CPU time limit exceeded"
  | 25 => some "File size limit exceeded"
  | 26 => some "Virtual timer expired"
  | 27 => some "Profiling timer expired"
  | 29 => some "I/O possible"
  | 30 => some "Power failure"
  | 31 => some "Bad system call"
  | other =>
      if other < 34 then some ("Unknown signal " ++ Text.Numeral.decimal other)
      else some ("Real-time signal " ++ Text.Numeral.decimal (other - 34))

end CaseHarness.Shell.Signal
