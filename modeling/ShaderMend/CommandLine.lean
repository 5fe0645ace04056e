import ShaderMend.Bundle
import ShaderMend.Config

/-!
# The command line

The program reports on the archives in a directory: the one that the arguments name,
else the one of the configuration. `CommandLine.run` says what it prints, given the
files that it sees.
-/

namespace ShaderMend

/-- The version of the library. -/
def version : String := "0.1.0"

namespace CommandLine

/-- What the arguments ask for. -/
structure Arguments where
  config : Option Path
  directory : Option Path
  /-- The arguments that mean nothing, in order. -/
  ignored : List String
  deriving DecidableEq, Repr

namespace Arguments

/-- Nothing is asked for. -/
def empty : Arguments := ⟨none, none, []⟩

/-- Takes the arguments one after the other; of several for one purpose the last
counts. An option without a value means nothing. -/
def read (arguments : Arguments) : List String → Arguments
  | [] => arguments
  | "--config" :: value :: rest => read { arguments with config := some ⟨value⟩ } rest
  | "--dir" :: value :: rest => read { arguments with directory := some ⟨value⟩ } rest
  | word :: rest => read { arguments with ignored := arguments.ignored ++ [word] } rest

/-- What a list of arguments asks for. -/
def ofList (words : List String) : Arguments :=
  read empty words

end Arguments

/-- Why there is no report. -/
inductive Failure where
  | config (error : ConfigError)
  | archives (error : Bundle.Error)
  deriving DecidableEq, Repr

/-- The text shown for a failure. -/
def Failure.message : Failure → String
  | .config (.file error) => error.message
  | .config .unreadable => "configuration TOML invalide"
  | .config .unwritable => "configuration non représentable en TOML"
  | .archives error => error.message

/-- What a run prints and whether it fails. -/
structure Outcome where
  output : String
  errors : String
  failed : Bool
  deriving DecidableEq, Repr

/-- The configuration that the arguments name, else the standard one. -/
def config (tree : FileTree) (arguments : Arguments) : Except Failure Config :=
  match arguments.config with
  | some path => (Config.load tree path).mapError .config
  | none => .ok .standard

/-- The directory to report on. -/
def directory (tree : FileTree) (arguments : Arguments) : Except Failure Path := do
  let config ← config tree arguments
  return arguments.directory.getD config.bundleDirectory

/-- The report that the arguments ask for. -/
def report (tree : FileTree) (arguments : Arguments) : Except Failure String := do
  let directory ← directory tree arguments
  (Bundle.directoryReport tree directory).mapError .archives

/-- The note on an argument that means nothing. -/
def ignoredLine (word : String) : String :=
  s!"Argument ignoré: {word}\n"

/-- The run with a list of arguments. -/
def run (tree : FileTree) (words : List String) : Outcome :=
  let arguments := Arguments.ofList words
  let notes := String.join (arguments.ignored.map ignoredLine)
  match report tree arguments with
  | .ok report => ⟨report ++ "\n", notes, false⟩
  | .error failure => ⟨"", notes ++ s!"Error: {failure.message}\n", true⟩

end CommandLine

end ShaderMend
