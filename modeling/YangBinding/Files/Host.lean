namespace YangBinding.Files

-- Why the operating system refuses something.
inductive OsError where
  | notFound
  | alreadyExists
  | notDirectory
  | isDirectory
  | nameTooLong
  | nulInPath
  | nulInArgument
  | notText
  | other (message : String)
deriving Repr, DecidableEq

def OsError.message : OsError → String
  | .notFound => "No such file or directory (os error 2)"
  | .alreadyExists => "File exists (os error 17)"
  | .notDirectory => "Not a directory (os error 20)"
  | .isDirectory => "Is a directory (os error 21)"
  | .nameTooLong => "File name too long (os error 36)"
  | .nulInPath => "file name contained an unexpected NUL byte"
  | .nulInArgument => "nul byte found in provided data"
  | .notText => "stream did not contain valid UTF-8"
  | .other message => message

inductive EntryKind where
  | file
  | directory
deriving Repr, DecidableEq

-- How a program ended.
inductive ExitStatus where
  | code (n : Nat)
  | signal (n : Nat)
deriving Repr, DecidableEq

def signalNames : List (Nat × String) := [
  (1, "SIGHUP"), (2, "SIGINT"), (3, "SIGQUIT"), (4, "SIGILL"), (5, "SIGTRAP"), (6, "SIGABRT"),
  (7, "SIGBUS"), (8, "SIGFPE"), (9, "SIGKILL"), (10, "SIGUSR1"), (11, "SIGSEGV"),
  (12, "SIGUSR2"), (13, "SIGPIPE"), (14, "SIGALRM"), (15, "SIGTERM"), (16, "SIGSTKFLT"),
  (17, "SIGCHLD"), (18, "SIGCONT"), (19, "SIGSTOP"), (20, "SIGTSTP"), (21, "SIGTTIN"),
  (22, "SIGTTOU"), (23, "SIGURG"), (24, "SIGXCPU"), (25, "SIGXFSZ"), (26, "SIGVTALRM"),
  (27, "SIGPROF"), (28, "SIGWINCH"), (29, "SIGIO"), (30, "SIGPWR"), (31, "SIGSYS")]

def ExitStatus.isSuccess : ExitStatus → Bool
  | .code n => n == 0
  | .signal _ => false

def ExitStatus.text : ExitStatus → String
  | .code n => "exit status: " ++ toString n
  | .signal n =>
    "signal: " ++ toString n ++
      (match signalNames.lookup n with
        | some name => " (" ++ name ++ ")"
        | none => "")

-- What the program needs of the machine it runs on. `kind?` says what a path leads to, if
-- anything, and `javadoc` runs the documentation tool with some arguments.
structure Host (m : Type → Type) where
  read : String → m (Except OsError String)
  write : String → String → m (Except OsError Unit)
  makeDir : String → m (Except OsError Unit)
  kind? : String → m (Option EntryKind)
  list : String → m (Except OsError (List String))
  javadoc : List String → m (Except OsError ExitStatus)

end YangBinding.Files
