import PageRefresh.Config.Toml
import PageRefresh.Event

/-!
Where a configuration comes from: up to two files, the user's and the project's, the second of
which wins.

A file that is not there says nothing. Any other file that cannot be had is an error, the user's
first; what is merged is checked last.
-/

namespace PageRefresh

/-- What there is at the path of a file. -/
inductive Source where
  | missing
  | directory
  /-- Something that could not be read, for this reason. -/
  | unreadable (reason : String)
  | file (content : ByteArray)

def Source.read : Source → Except ReadFailure String
  | .missing => .error .notFound
  | .directory => .error .isDirectory
  | .unreadable reason => .error (.other reason)
  | .file content =>
      match String.fromUTF8? content with
      | some text => .ok text
      | none => .error .invalidUtf8

/-- A path and what there is at it. -/
structure ConfigFile where
  path : String
  source : Source

/-- What stands in the place of an explanation why a text is no configuration. -/
def unexplained : String := "<parser message>"

def ConfigFile.load (f : ConfigFile) : Except ConfigError Config :=
  match f.source.read with
  | .error failure => .error (.unreadable failure)
  | .ok text =>
      match Config.ofToml? text with
      | some config => .ok config
      | none => .error (.unparsable f.path unexplained)

/-- The configuration in a file that need not be there, and what is logged about it. -/
def ConfigFile.loadOptional (f : ConfigFile) : Except ConfigError Config × List Event :=
  match f.load with
  | .ok config => (.ok config, [.configLoaded f.path])
  | .error (.unreadable .notFound) => (.ok .empty, [])
  | .error e => (.error e, [])

/-- Merge the configurations in files on top of one another, first to last. -/
def loadMerged (base : Config) : List ConfigFile → Except ConfigError Config × List Event
  | [] => (.ok base, [])
  | f :: rest =>
      match f.loadOptional with
      | (.error e, events) => (.error e, events)
      | (.ok config, events) =>
          let (result, later) := loadMerged (base.merge config) rest
          (result, events ++ later)

/-- The configuration that the user's and the project's file make together, each of which may not
even have a path, and what is logged on the way. -/
def loadHierarchy (user project : Option ConfigFile) : Except ConfigError Config × List Event :=
  match loadMerged .empty (user.toList ++ project.toList) with
  | (.error e, events) => (.error e, events)
  | (.ok config, events) =>
      match config.validate with
      | .ok () => (.ok config, events)
      | .error e => (.error e, events)

end PageRefresh
