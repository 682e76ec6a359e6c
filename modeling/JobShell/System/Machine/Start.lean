import JobShell.System.Machine.Shell

/-!
# A machine at its beginning

A machine has the programs of the system, the devices, and one process: that of
the shell.
-/
namespace JobShell

namespace FileSystem

/-- The names of the programs of the system. -/
def programs : List String :=
  ["cat","echo","false","grep","head","kill","printf","sh","sleep","sort","tail","touch","tr","true","uniq","wc","yes"]

/-- The directories of the system. -/
def directories : List String :=
  ["boot","dev","etc","home","media","mnt","opt","proc","proc/self","proc/self/fd","root","run","srv","sys","tmp","usr",
    "usr/bin","usr/games","usr/include","usr/lib","usr/lib64","usr/local","usr/local/bin","usr/local/lib",
    "usr/local/sbin","usr/local/share","usr/sbin","usr/share","usr/src","var","var/cache","var/lib","var/local","var/log",
    "var/mail","var/opt","var/spool","var/tmp"]

/-- The place of a path from the root. -/
def placeOf (path : String) : Place := Text.splitOn '/' (txt path)

/-- A user that every system has. -/
structure Account where
  name : String
  user : Nat
  group : Nat
  /-- What is said of the user. -/
  remark : String
  home : String
  /-- The program that the user begins with. -/
  program : String

/-- A user of the system itself, who begins with nothing. -/
def Account.ofSystem (name : String) (number : Nat) (remark home : String) : Account :=
  ⟨name,number,number,remark,home,"/usr/sbin/nologin"⟩

/-- The users that every system has. -/
def accounts : List Account :=
  [⟨"root",0,0,"root","/root","/bin/bash"⟩,.ofSystem "daemon" 1 "daemon" "/usr/sbin",.ofSystem "bin" 2 "bin" "/bin",
    .ofSystem "sys" 3 "sys" "/dev",⟨"sync",4,65534,"sync","/bin","/bin/sync"⟩,
    ⟨"games",5,60,"games","/usr/games","/usr/sbin/nologin"⟩,⟨"man",6,12,"man","/var/cache/man","/usr/sbin/nologin"⟩,
    .ofSystem "lp" 7 "lp" "/var/spool/lpd",.ofSystem "mail" 8 "mail" "/var/mail",
    .ofSystem "news" 9 "news" "/var/spool/news",.ofSystem "uucp" 10 "uucp" "/var/spool/uucp",
    .ofSystem "proxy" 13 "proxy" "/bin",.ofSystem "www-data" 33 "www-data" "/var/www",
    .ofSystem "backup" 34 "backup" "/var/backups",.ofSystem "list" 38 "Mailing List Manager" "/var/list",
    .ofSystem "irc" 39 "ircd" "/run/ircd",⟨"_apt",42,65534,"","/nonexistent","/usr/sbin/nologin"⟩,
    .ofSystem "nobody" 65534 "nobody" "/nonexistent"]

/-- The line of a user in the file of the users. -/
def Account.line (a : Account) : Text :=
  Text.join [':'] [txt a.name,['x'],Numeral.ofNat a.user,Numeral.ofNat a.group,txt a.remark,txt a.home,txt a.program] ++
    ['\n']

/-- The descriptors that have names in the file system. -/
def standardDescriptors : List (Nat × String) := [(0,"stdin"),(1,"stdout"),(2,"stderr")]

/-- The devices, and the files that stand for what a process has open. -/
def devices : List (Place × Node) :=
  [(placeOf "dev/fd",.link (txt "/proc/self/fd")),(placeOf "dev/full",.zeros false),(placeOf "dev/null",.sink),
    (placeOf "dev/tty",.terminal),(placeOf "dev/zero",.zeros true)] ++
  standardDescriptors.flatMap fun d =>
    [(placeOf ("dev/" ++ d.2),.descriptor d.1),(placeOf "proc/self/fd" ++ [Numeral.ofNat d.1],.descriptor d.1)]

/-- The files of the system. -/
def system : FileSystem :=
  ⟨directories.map (fun d => (placeOf d,.directory)) ++
    ["bin","lib","lib64","sbin"].map (fun d => (placeOf d,.link (txt "usr/" ++ txt d))) ++ devices ++
    [(placeOf "etc/passwd",.file false (Utf8.encode (accounts.flatMap Account.line)))] ++
    programs.map (fun name => ([txt "usr",txt "bin",txt name],.program (txt name)))⟩

end FileSystem

namespace Machine

/-- The home directories of the users that every system has. -/
def systemHomes : Bindings := FileSystem.accounts.map (fun a => (txt a.name,txt a.home))

/-- What the shell has as its standard input. -/
inductive Input where
  /-- Nothing. -/
  | empty
  /-- A file with this content. -/
  | file (content : Bytes)
  /-- A terminal on which this is typed. -/
  | terminal (keys : List Bytes)

/-- Whether the input is a terminal. -/
def Input.isTerminal : Input → Bool
  | .terminal _ => true
  | _ => false

/-- The number of the process of the shell. -/
def shellPid : Pid := 1000

/-- How many changes of processes a shell can see. -/
def eventLimit : Nat := 100000

/-- The process of the shell at the beginning. On a terminal it has a group of its own. -/
def shellProcess (environment : Bindings) (here : Place) (onTerminal : Bool) : Process where
  pid := shellPid
  parent := firstPid
  group := if onTerminal then shellPid else shellPid - 1
  descriptors := [(0,0),(1,1),(2,2)]
  held := []
  here := here
  environment := environment
  pending := []
  task := .shell
  state := .running
  news := none
  delayed := []
  ignored := []
  caught := Signal.memoryFaults
  arrived := []
  ready := 0

/-- The place of the file that is the input of a shell. No path leads there. -/
def inputPlace : Place := [[],txt "input"]

/-- A machine with files, on which a shell begins. What it writes is kept, by one keeper when it has a
    terminal, and by one for its output and one for its errors otherwise. -/
def start (files : FileSystem) (environment : Bindings) (here : Place) (input : Input) (epoch : Nat) : Machine where
  files :=
    match input with
    | .file content => files.put inputPlace (.file false content)
    | _ => files
  homes := systemHomes
  descriptions :=
    match input with
    | .empty => #[.sink true false,.keeper 0,.keeper 1]
    | .file _ => #[.file inputPlace 0 false true false,.keeper 0,.keeper 1]
    | .terminal _ => #[.terminal,.terminal,.terminal]
  pipes := #[]
  kept := #[[],[]]
  processes := [shellProcess environment here input.isTerminal]
  nextPid := shellPid + 1
  current := shellPid
  callers := []
  clock := 0
  budget := eventLimit
  foreground := 0
  terminalGroup := shellPid
  abandoned := []
  interrupted := false
  hasTerminal := input.isTerminal
  keys := match input with
    | .terminal keys => ⟨[],keys⟩
    | _ => ⟨[],[]⟩
  logging := none
  epoch := epoch

/-- What was written to the output, and to the errors. -/
def output (m : Machine) : Bytes × Bytes := (m.keptBy 0,m.keptBy 1)

/-- The machine with nothing written yet. -/
def withoutOutput (m : Machine) : Machine := { m with kept := (m.kept.set! 0 []).set! 1 [] }

end Machine
end JobShell
