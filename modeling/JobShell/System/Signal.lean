import JobShell.Text.Numeral

/-!
# Signals

The numbers of signals, their names, what is said of a process that one of them
ended, and what they do to a process that has arranged nothing else.
-/
namespace JobShell

/-- What a signal does by itself. -/
inductive SignalEffect where
  | ends
  | stops
  | continues
  | nothing
  deriving DecidableEq, Repr

namespace Signal

/-- The signal to a process that has lost its terminal or those who looked after it. -/
def hangup : Nat := 1
/-- A signal from the terminal to give up. -/
def interrupt : Nat := 2
/-- A signal from the terminal to give up at once. -/
def quit : Nat := 3
/-- The signals to a process that uses memory which it has not. -/
def memoryFaults : List Nat := [7,11]
/-- The signal that ends a process without fail. -/
def kill : Nat := 9
/-- The signal to a process that writes to a pipe which nobody reads. -/
def brokenPipe : Nat := 13
/-- The signal that asks a process to end. -/
def terminate : Nat := 15
/-- The signal to a process one of whose children has changed. -/
def child : Nat := 17
/-- The signal that lets a stopped process go on. -/
def resume : Nat := 18
/-- The signal that stops a process without fail. -/
def stop : Nat := 19
/-- The signal to a process in the background that reads from the terminal. -/
def terminalInput : Nat := 21
/-- The greatest number of a signal. -/
def greatest : Nat := 64
/-- The first of the signals that have no meaning of their own. -/
def firstFree : Nat := 34

/-- The names of the signals that have a meaning, with what is said of a process that one of them ended. -/
def meanings : List (Nat × String × String) :=
  [(1,"HUP","Hangup"),(2,"INT","Interrupt"),(3,"QUIT","Quit"),(4,"ILL","Illegal instruction"),
    (5,"TRAP","Trace/breakpoint trap"),(6,"ABRT","Aborted"),(7,"BUS","Bus error"),
    (8,"FPE","Floating point exception"),(9,"KILL","Killed"),(10,"USR1","User defined signal 1"),
    (11,"SEGV","Segmentation fault"),(12,"USR2","User defined signal 2"),(13,"PIPE","Broken pipe"),
    (14,"ALRM","Alarm clock"),(15,"TERM","Terminated"),(16,"STKFLT","Stack fault"),(17,"CHLD","Child exited"),
    (18,"CONT","Continued"),(19,"STOP","Stopped (signal)"),(20,"TSTP","Stopped"),(21,"TTIN","Stopped (tty input)"),
    (22,"TTOU","Stopped (tty output)"),(23,"URG","Urgent I/O condition"),(24,"XCPU","CPU time limit exceeded"),
    (25,"XFSZ","File size limit exceeded"),(26,"VTALRM","Virtual timer expired"),
    (27,"PROF","Profiling timer expired"),(28,"WINCH","Window changed"),(29,"POLL","I/O possible"),
    (30,"PWR","Power failure"),(31,"SYS","Bad system call")]

/-- The name of a signal that has a meaning. -/
def name? (n : Nat) : Option Text := (meanings.find? (·.1 == n)).map (fun s => txt s.2.1)

/-- The signal that has a meaning and a name. -/
def ofName? (name : Text) : Option Nat := (meanings.find? (fun s => txt s.2.1 == name)).map (·.1)

/-- What is said of a process that a signal ended. -/
def description (n : Nat) : Text :=
  match meanings.find? (·.1 == n) with
  | some (_,_,t) => txt t
  | none =>
    if firstFree ≤ n && n ≤ greatest then txt "Real-time signal " ++ Numeral.ofNat (n - firstFree)
    else txt "Unknown signal " ++ Numeral.ofNat n

/-- What a signal does by itself. -/
def effect (n : Nat) : SignalEffect :=
  if [19,20,21,22].contains n then .stops
  else if n = resume then .continues
  else if [0,17,23,28].contains n then .nothing
  else .ends

/-- Whether a process can arrange that a signal does something else. -/
def canArrange (n : Nat) : Bool := n != kill && n != stop

end Signal
end JobShell
