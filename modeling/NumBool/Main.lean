import NumBool.Cli

/-!
# The program

The command line works on a disk that is a value.  The program loads the places that
its arguments can lead to, runs the command line on them, prints what it printed and
stores what it changed.
-/

namespace NumBool.Program

open Disk

/-- The places that a walk along a path can come by. -/
def placesOn (cwd : Place) (path : String) : List Place :=
  let names := ((Path.ofText path).absolute cwd).names
  (List.range (names.length + 1)).map fun n => (names.take n).foldl Path.follow []

/-- What stands at a place. -/
def load (place : Place) : IO (Option Item) := do
  let path := (← IO.currentDir) / place.text
  if ← path.isDir then
    return some .directory
  else if ← path.pathExists then
    return some (.file (← IO.FS.readBinFile path).toList)
  else
    return none

/-- The part of the disk that some paths can lead to. -/
def loadAll (cwd : Place) (paths : List String) : IO Disk := do
  let mut disk : Disk := ⟨cwd, []⟩
  for place in paths.flatMap (placesOn cwd) do
    if let some item ← load place then
      disk := disk.put place item
  return disk

/-- Stores what has changed between two states of the disk. -/
def store (before after : Disk) : IO Unit := do
  for (place, item) in after.items do
    if before.item? place ≠ some item then
      match item with
      | .directory => IO.FS.createDir place.text
      | .file bytes => IO.FS.writeBinFile place.text ⟨bytes.toArray⟩

/-- Runs the command line; the status is that of the process. -/
def run (args : List String) : IO UInt32 := do
  let cwd := namesOf (← IO.currentDir).toString
  let debug := ((← IO.getEnv "SEMCHECK_DEBUG").getD "") != ""
  let disk ← loadAll cwd ("." :: args.filter (!Report.hasNull ·))
  let (ending, world) := Cli.run Disk.Device.sound args debug { disk }
  store disk world.disk
  (← IO.getStdout).putStr world.out
  (← IO.getStderr).putStr world.err
  match ending with
  | .exit status trace =>
    if let some error := trace then
      (← IO.getStderr).putStrLn error.message
    return status.toUInt32
  | .escaped error =>
    (← IO.getStderr).putStrLn error.message
    return 1

end NumBool.Program

/-- The entry point. -/
def main (args : List String) : IO UInt32 :=
  NumBool.Program.run args
