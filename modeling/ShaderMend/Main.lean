import ShaderMend.CommandLine

/-!
# The program

Copies the files that the run needs from disk into a tree, and prints what the run
says.
-/

namespace ShaderMend.CommandLine

/-- The tree with what lies on disk at a path: a file, or a directory and the files in
it. -/
def load (tree : FileTree) (path : Path) : IO FileTree := do
  let place := (← IO.currentDir) / path.text
  if ← place.isDir then
    let items ← place.readDir
    items.foldlM (fun tree item => do
      if ← item.path.isDir then return tree
      else
        let content ← IO.FS.readBinFile item.path
        return tree.add (path.join item.fileName) (.file content.data.toList))
      (tree.add path .directory)
  else if ← place.pathExists then
    return tree.add path (.file (← IO.FS.readBinFile place).data.toList)
  else return tree

end ShaderMend.CommandLine

open ShaderMend

/-- Reports on the archives that the arguments name. -/
def main (words : List String) : IO UInt32 := do
  let arguments := CommandLine.Arguments.ofList words
  let tree ← arguments.config.toList.foldlM CommandLine.load FileTree.empty
  let tree ←
    match CommandLine.directory tree arguments with
    | .ok directory => CommandLine.load tree directory
    | .error _ => pure tree
  let outcome := CommandLine.run tree words
  (← IO.getStderr).putStr outcome.errors
  (← IO.getStdout).putStr outcome.output
  return if outcome.failed then 1 else 0
