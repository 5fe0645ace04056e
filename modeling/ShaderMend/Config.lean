import ShaderMend.FileTree
import ShaderMend.Toml.Printer
import ShaderMend.Toml.Reader

/-!
# Configuration

The options of a repair, kept in a TOML file with one pair per option. An option that
the file leaves out has its default; pairs that name no option do not count.

* `Config.ofEntries?` — the options that a document sets.
* `Config.store` — nothing is written unless all options can be.
-/

namespace ShaderMend

/-- The options of a repair. -/
structure Config where
  /-- Keep a record of every shader to be replaced. -/
  shaderDebugging : Bool
  /-- Download more archives. -/
  downloadNewBundles : Bool
  /-- Leave shaders without replacement as they are, instead of showing the invalid
  shader. -/
  showUnsupportedShaders : Bool
  /-- Rendering takes several passes, so that nothing needs repair. -/
  enableMultiPassRendering : Bool
  /-- Show a notice when shaders stay without replacement. -/
  showUnresolvedNotice : Bool
  /-- Where the local archives are. -/
  bundleDirectory : Path
  /-- How long to wait for downloaded archives, in milliseconds. -/
  webBundleTimeout : UInt64
  deriving DecidableEq, Repr

/-- Why a configuration cannot be loaded or saved. -/
inductive ConfigError where
  | file (error : FileError)
  | unreadable
  | unwritable
  deriving DecidableEq, Repr

namespace Config

/-- The options unless something else is said. -/
def standard : Config where
  shaderDebugging := true
  downloadNewBundles := true
  showUnsupportedShaders := false
  enableMultiPassRendering := false
  showUnresolvedNotice := true
  bundleDirectory := ⟨"./ShaderBundles"⟩
  webBundleTimeout := 30000

instance : Inhabited Config := ⟨standard⟩

/-! ### Reading -/

/-- The truth value that a node is. -/
def boolean? : Toml.Node → Option Bool
  | .scalar (.boolean value) => some value
  | _ => none

/-- The path that a node is. -/
def path? : Toml.Node → Option Path
  | .scalar (.string text) => some ⟨text⟩
  | _ => none

/-- The span of time that a node is. -/
def span? : Toml.Node → Option UInt64
  | .scalar (.integer value) => if 0 ≤ value then some (UInt64.ofNat value.toNat) else none
  | _ => none

/-- The value of an option in a document. An absent option has its default, one of the
wrong kind has none. -/
def option? {α : Type} (entries : Toml.Entries) (value? : Toml.Node → Option α) (key : String)
    (default : α) : Option α :=
  match entries.lookup key with
  | some node => value? node
  | none => some default

/-- The options that a document sets. -/
def ofEntries? (entries : Toml.Entries) : Option Config := do
  return {
    shaderDebugging := ← option? entries boolean? "shader_debugging" standard.shaderDebugging
    downloadNewBundles :=
      ← option? entries boolean? "download_new_bundles" standard.downloadNewBundles
    showUnsupportedShaders :=
      ← option? entries boolean? "show_unsupported_shaders" standard.showUnsupportedShaders
    enableMultiPassRendering :=
      ← option? entries boolean? "enable_multi_pass_rendering" standard.enableMultiPassRendering
    showUnresolvedNotice :=
      ← option? entries boolean? "show_unresolved_notice" standard.showUnresolvedNotice
    bundleDirectory := ← option? entries path? "bundle_directory" standard.bundleDirectory
    webBundleTimeout := ← option? entries span? "web_bundle_timeout_ms" standard.webBundleTimeout }

/-- The options that a text sets. -/
def parse? (text : String) : Option Config :=
  (Toml.parse? text).bind ofEntries?

/-- The options in a file. -/
def load (tree : FileTree) (path : Path) : Except ConfigError Config := do
  let text ← (tree.readText path).mapError .file
  match parse? text with
  | some config => return config
  | none => throw .unreadable

/-- The options in a file, or the standard ones if it cannot be loaded. -/
def loadOrStandard (tree : FileTree) (path : Path) : Config :=
  (load tree path).toOption.getD standard

/-! ### Writing -/

/-- The longest span of time that can be written: integers have a sign. -/
def maxSpan : UInt64 := 9223372036854775807

/-- The options as pairs of keys and values. -/
def settings (config : Config) : List (String × Toml.Scalar) :=
  [("shader_debugging", .boolean config.shaderDebugging),
    ("download_new_bundles", .boolean config.downloadNewBundles),
    ("show_unsupported_shaders", .boolean config.showUnsupportedShaders),
    ("enable_multi_pass_rendering", .boolean config.enableMultiPassRendering),
    ("show_unresolved_notice", .boolean config.showUnresolvedNotice),
    ("bundle_directory", .string config.bundleDirectory.text),
    ("web_bundle_timeout_ms", .integer config.webBundleTimeout.toNat)]

/-- The text of the options, one pair a line. -/
def text? (config : Config) : Option String :=
  if maxSpan < config.webBundleTimeout then none
  else some (.ofList (Toml.linesText config.settings))

/-- Writes the options to a file: the files afterwards, and what came of it. The text is made
before any file is touched. -/
def store (config : Config) (tree : FileTree) (path : Path) :
    FileTree × Except ConfigError Unit :=
  match config.text? with
  | none => (tree, .error .unwritable)
  | some text =>
      match tree.write path (Bytes.ofText text) with
      | .ok written => (written, .ok ())
      | .error error => (tree, .error (.file error))

/-- The files after the options were written to one, if they were. -/
def save (config : Config) (tree : FileTree) (path : Path) : Except ConfigError FileTree :=
  let (written, outcome) := config.store tree path
  outcome.map fun _ => written

end Config

end ShaderMend
