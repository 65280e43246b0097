import PageRefresh.Broadcast.Kind

/-!
Everything that can go wrong, by cause.

Each type of error has the text a user is shown (`message`), a code for programs (`code`), whether
the user rather than the system is to blame (`isUserError`), and the text of the error it was
caused by, if it wraps one (`cause?`).
-/

namespace PageRefresh

/-- Why a refresher could not be stopped, restarted or cycled. -/
inductive RefreshError where
  | stopFailed (fragment detail : String)
  | restartFailed (fragment detail : String)
  | notRunning (fragment : String)
  | unknownFragment (fragment : String)
  /-- A broadcast ended at the refresher in this position, which failed with `source`. -/
  | broadcastAborted (kind : BroadcastKind) (index : Nat) (source : RefreshError)
deriving DecidableEq, Repr

namespace RefreshError

def message : RefreshError → String
  | stopFailed fragment detail => "Failed to stop refresh of '" ++ fragment ++ "': " ++ detail
  | restartFailed fragment detail =>
      "Failed to restart refresh of '" ++ fragment ++ "': " ++ detail
  | notRunning fragment => "Refresher for '" ++ fragment ++ "' is stopped"
  | unknownFragment fragment => "Fragment '" ++ fragment ++ "' is not owned by this refresher"
  | broadcastAborted kind index source =>
      kind.name ++ " broadcast aborted at refresher #" ++ Nat.repr index ++ ": " ++ source.message

def code : RefreshError → String
  | stopFailed .. => "REFRESH_STOP_FAILED"
  | restartFailed .. => "REFRESH_RESTART_FAILED"
  | notRunning .. => "REFRESH_NOT_RUNNING"
  | unknownFragment .. => "REFRESH_UNKNOWN_FRAGMENT"
  | broadcastAborted .. => "REFRESH_BROADCAST_ABORTED"

def isUserError : RefreshError → Bool
  | unknownFragment _ => true
  | _ => false

def cause? : RefreshError → Option String
  | broadcastAborted _ _ source => some source.message
  | _ => none

end RefreshError

/-- Why an operation on the page shell failed. -/
inductive ShellError where
  | noOpenModal
  | refresh (error : RefreshError)
deriving DecidableEq, Repr

namespace ShellError

def message : ShellError → String
  | noOpenModal => "No modal is open"
  | refresh error => error.message

def code : ShellError → String
  | noOpenModal => "SHELL_NO_OPEN_MODAL"
  | refresh error => error.code

def isUserError : ShellError → Bool
  | noOpenModal => true
  | refresh error => error.isUserError

def cause? : ShellError → Option String
  | noOpenModal => none
  | refresh error => error.cause?

end ShellError

/-- Why a file could not be read as text. -/
inductive ReadFailure where
  | notFound
  | isDirectory
  | invalidUtf8
  | other (text : String)
deriving DecidableEq, Repr

def ReadFailure.message : ReadFailure → String
  | notFound => "No such file or directory (os error 2)"
  | isDirectory => "Is a directory (os error 21)"
  | invalidUtf8 => "stream did not contain valid UTF-8"
  | other text => text

/-- The longest polling interval a configuration may ask for, in seconds: one day. -/
def maxIntervalSecs : Nat := 86400

/-- What makes a readable configuration unacceptable. -/
inductive ConfigFault where
  | intervalTooShort
  | intervalTooLong (secs : Nat)
  | other (text : String)
deriving DecidableEq, Repr

def ConfigFault.message : ConfigFault → String
  | intervalTooShort => "refresh.interval_secs must be at least 1"
  | intervalTooLong secs =>
      "refresh.interval_secs must be at most " ++ Nat.repr maxIntervalSecs ++
        " (got " ++ Nat.repr secs ++ ")"
  | other text => text

/-- Why no configuration could be had. -/
inductive ConfigError where
  /-- The file at `path` is not the text of a configuration. -/
  | unparsable (path detail : String)
  | invalidPolicy (text : String)
  | invalid (fault : ConfigFault)
  | unreadable (failure : ReadFailure)
deriving DecidableEq, Repr

namespace ConfigError

def message : ConfigError → String
  | unparsable path detail => "Failed to parse config file '" ++ path ++ "': " ++ detail
  | invalidPolicy text =>
      "Invalid broadcast policy '" ++ text ++ "'. Supported policies: isolate, abort"
  | invalid fault => "Invalid configuration: " ++ fault.message
  | unreadable failure => "IO error reading config: " ++ failure.message

def code : ConfigError → String
  | unparsable .. => "CONFIG_PARSE_ERROR"
  | invalidPolicy _ => "INVALID_POLICY"
  | invalid _ => "INVALID_CONFIGURATION"
  | unreadable _ => "CONFIG_IO_ERROR"

def isUserError : ConfigError → Bool
  | unreadable _ => false
  | _ => true

def cause? : ConfigError → Option String
  | unreadable failure => some failure.message
  | _ => none

end ConfigError

end PageRefresh
