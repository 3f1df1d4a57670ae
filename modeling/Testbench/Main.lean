import Testbench.CommandLine
import Testbench.Sink.Device

/-! The program on a real machine. It looks at the files that the arguments name, runs on
that picture of them, and then prints and stores what came out. -/
namespace Testbench.Main

/-- Where a path leads if none of its names is a link. -/
def locate (path : String) : Location :=
  let names := (path.splitOn "/").filter fun name => !name.isEmpty && name != "."
  let start := if path.startsWith "/" then [] else FileSystem.workingDirectory
  names.foldl (fun location name => if name = ".." then location.tail else name :: location) start

def isDirectory (path : String) : IO Bool :=
  try (← IO.FS.realPath path).isDir
  catch _ => return false

def lookAt (path : String) (files : FileSystem) : IO FileSystem := do
  let location := locate path
  if ← isDirectory path then return files.put location .directory
  if (files.node? location).isSome then return files
  try
    return files.put location (.file (← IO.FS.readBinFile path))
  catch error =>
    match error with
    | .noFileOrDirectory .. => return files
    | error =>
      let failure := IoError.rejected (toString error)
      return { files.put location (.file ByteArray.empty) with
        medium := fun other =>
          if other = location then ⟨some failure, some failure, fun _ => none⟩
          else files.medium other }

def survey (path : String) (files : FileSystem) : IO FileSystem := do
  let names := path.splitOn "/"
  let mut files := files
  for length in [1:names.length + 1] do
    let ancestor := "/".intercalate (names.take length)
    unless ancestor.isEmpty do
      files ← lookAt ancestor files
  return files

/-- Stores a file that the run has changed. Failing to is no fault of the run. -/
def storeFile (before after : FileSystem) (path : String) : IO Unit := do
  let location := locate path
  match before.node? location, after.node? location with
  | some (.file old), some (.file new) => if old != new then write new
  | none, some (.file new) => write new
  | _, _ => return ()
where
  write (contents : ByteArray) : IO Unit :=
    try IO.FS.writeBinFile path contents
    catch error => IO.eprintln (toString error)

end Testbench.Main

open Testbench Testbench.Main in
def main (arguments : List String) : IO UInt32 := do
  let mut files := FileSystem.initial
  let mut written := []
  if let .run options := CommandLine.read arguments then
    if let some path := options.config then
      files ← survey path files
    if let .ok config := options.resolve files then
      written := config.outputs
      for path in config.initialMemory.toList ++ written do
        files ← survey path files
  let completion := CommandLine.invoke arguments files Device.accepting
  let stdout ← IO.getStdout
  stdout.write completion.out.contents
  stdout.flush
  for event in completion.events do
    unless event.level = .debug do
      IO.eprintln event.text
  for path in written do
    storeFile files completion.files path
  if let some refusal := completion.refusal then
    IO.eprintln refusal.message
  return completion.status.toUInt32
