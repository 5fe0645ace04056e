import ShaderMend.FileTree
import ShaderMend.Manifest.Data
import ShaderMend.Zip.Archive

/-!
# Archives of shaders

An archive of shaders is a zip with two entries that count: the manifest and the
payload of the native bundle, in whatever folders. `Bundle.select` picks them and
`Bundle.assemble` reads them; both see an archive as the list of its entries, of
which some may not open.
-/

namespace ShaderMend.Bundle

/-- The extension of archives of shaders. -/
def fileExtension : String := "shaderbundle"

/-- The name of the entry with the manifest. -/
def manifestName : String := "manifest.json"

/-- The name of the entry with the payload. -/
def payloadName : String := "shaders.bundle"

/-- Why an archive cannot be used. -/
inductive Error where
  | file (error : FileError)
  | content (error : Zip.ContentError)
  | archive (error : Zip.ArchiveError)
  | manifest (error : Json.ReadError)
  | missingEntry (name : String)
  | listing (path : Path) (error : FileError)
  deriving DecidableEq, Repr

/-- The text shown for a manifest that cannot be read: only an empty one is told
apart. -/
def faultMessage : Json.Fault → String
  | .endOfText => "EOF while parsing a value at line 1 column 0"
  | .malformed => "expected value at line 1 column 1"

/-- The text shown for an archive that cannot be used. -/
def Error.message : Error → String
  | .file error => s!"erreur d'E/S: {error.message}"
  | .content error => s!"erreur d'E/S: {error.message}"
  | .archive error => s!"archive zip invalide: {error.message}"
  | .manifest (.fault fault) => s!"manifeste JSON invalide: {faultMessage fault}"
  | .manifest (.mismatch mismatch) => s!"manifeste JSON invalide: {mismatch.message}"
  | .missingEntry name => s!"entrée {name} absente de l'archive"
  | .listing path error =>
      s!"erreur de parcours: IO error for operation on {path.text}: {error.message}"

/-- What an archive holds. -/
structure Contents where
  path : Path
  entries : List Entry
  payload : Bytes
  deriving Repr

/-! ### Reading -/

/-- An entry of an archive, or why it does not open. -/
abbrev Opened := Except Zip.ArchiveError Zip.Entry

/-- The first entry that is no directory and has the file name. An entry before it
that does not open is an error. -/
def select (name : String) : List Opened → Except Error Zip.Entry
  | [] => .error (.missingEntry name)
  | .error error :: _ => .error (.archive error)
  | .ok entry :: rest =>
      if !entry.isDirectory ∧ entry.fileName = Bytes.ofText name then .ok entry
      else select name rest

/-- Reads the manifest and the payload among the entries of an archive. -/
def assemble (path : Path) (opened : List Opened) : Except Error Contents := do
  let manifest ← select manifestName opened
  let payload ← select payloadName opened
  let content ← manifest.content.mapError .content
  let some text := Bytes.toText? content | throw (.file .invalidText)
  let entries ← (Manifest.parse text).mapError .manifest
  let payload ← payload.content.mapError .content
  return ⟨path, entries, payload⟩

/-- Reads an archive. -/
def read (tree : FileTree) (path : Path) : Except Error Contents := do
  match tree.locate path with
  | .error error => throw (.file error)
  | .ok (_, .directory) => throw (.archive .truncated)
  | .ok (_, .file bytes) =>
      let archive ← (Zip.Archive.ofBytes bytes).mapError .archive
      assemble path (archive.headers.map archive.entry)

/-! ### Listing -/

/-- Whether the path has the extension of archives of shaders, in any case. -/
def isArchive (path : Path) : Bool :=
  match path.extension? with
  | some text => Text.sameUpToCase text.toList fileExtension.toList
  | none => false

/-- The archives in a directory, in ascending order. A file in the place of the
directory is listed itself. -/
def archivesIn (tree : FileTree) (directory : Path) : Except Error (List Path) :=
  match tree.locate directory with
  | .error error => .error (.listing directory error)
  | .ok (_, .file _) => .ok ([directory].filter isArchive)
  | .ok (place, .directory) =>
      let names := Catalogue.ofList id (tree.filesIn place)
      .ok ((names.map directory.join).filter isArchive)

/-! ### Report -/

/-- The lines on one archive. -/
def describe (tree : FileTree) (path : Path) : String :=
  match read tree path with
  | .ok contents =>
      let lines := contents.entries.map fun entry =>
        let properties := entry.signature.properties.length
        s!"  {entry.signature.name} [{properties} propriétés] <- {entry.assetPath}\n"
      s!"{path.text} ({contents.entries.length} shaders, {contents.payload.length} octets)\n"
        ++ String.join lines
  | .error error => s!"{path.text}\n  ❌ Inutilisable: {error.message}\n"

/-- The report on the archives in a directory. -/
def directoryReport (tree : FileTree) (directory : Path) : Except Error String := do
  let archives ← archivesIn tree directory
  let header := s!"=== RAPPORT DES SHADERBUNDLES ===\n\nArchives trouvées: {archives.length}\n\n"
  return header ++ String.join (archives.map fun path => describe tree path ++ "\n")

end ShaderMend.Bundle
