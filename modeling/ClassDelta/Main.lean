import ClassDelta.Program

/-!
# Entry point

The outer layer of the program: it looks up paths on the file system, and prints
what a run leaves behind.
-/

namespace ClassDelta.Main

/-- The directory at a path with everything below it.  What is neither a file
nor a directory is not opened. -/
partial def readDirectory (path : String) : IO FileTree := do
  let entries ← ((← IO.currentDir) / path).readDir
  let children ← entries.toList.mapM fun entry => do
    let below := path ++ "/" ++ entry.fileName
    match (← entry.path.symlinkMetadata).type with
    | .dir => return (entry.fileName, ← readDirectory below)
    | .file => return (entry.fileName, .file (← IO.FS.readBinFile entry.path).toList)
    | .symlink | .other => return (entry.fileName, .special [])
  return .directory children

/-- What is at a path. -/
def find? (path : String) : IO (Option FileTree) := do
  let full := (← IO.currentDir) / path
  if ← full.isDir then return some (← readDirectory path)
  else if ← full.pathExists then return some (.file (← IO.FS.readBinFile full).toList)
  else return none

end ClassDelta.Main

/-- Run the program, print its output and its messages, and return its exit code. -/
def main (arguments : List String) : IO UInt32 := do
  let result ← ClassDelta.Program.run ClassDelta.Main.find? (← IO.getEnv "TERM") arguments
  for event in result.events do
    IO.eprintln event.line
  if let some complaint := result.complaint then
    IO.eprint complaint
  IO.print result.output
  return UInt32.ofNat result.exitCode
