import MixinCatalog.Command.Run

/-!
# The program

The part of the file system that a run may look at is read first, the run itself is a function, and
the files it makes are written at the end.
-/

namespace MixinCatalog

namespace Snapshot

private def spelled (place : Place) : String := "/" ++ place.spelled

/-- Add what stands at a place, and the directories on the way to it. The bytes of a file are read
only if they are asked for. -/
def addEntry (fs : FileSystem) (place : Place) (withBytes : Bool) : IO FileSystem := do
  let path := (← IO.currentDir) / spelled place
  if place.isEmpty || (fs.get? place).isSome || !(← path.pathExists) then return fs
  let fs := fs.makeParents place
  if ← path.isDir then return fs.insert place .directory
  let bytes ← if withBytes then IO.FS.readBinFile path else pure .empty
  return fs.insert place (.file bytes)

/-- Add the files of a directory that settings and ignore rules come from. -/
def addSettings (fs : FileSystem) (dir : Place) : IO FileSystem :=
  ((Name.ofChars? Config.fileName.toList).toList :: FileSystem.ignoreFiles).foldlM
    (fun fs names => addEntry fs (dir ++ names) true) fs

/-- Add the settings of a directory and of all directories above it. -/
def addWithParents (fs : FileSystem) (dir : Place) : IO FileSystem :=
  (List.range (dir.length + 1)).foldlM (fun fs n => addSettings fs (dir.take n)) fs

partial def addTree (fs : FileSystem) (dir : Place) : IO FileSystem := do
  let path := (← IO.currentDir) / spelled dir
  let mut fs ← addSettings fs dir
  for entry in ← path.readDir do
    let place := dir ++ (Name.ofChars? entry.fileName.toList).toList
    if ← entry.path.isDir then
      fs ← addTree (fs.insert place .directory) place
    else
      fs ← addEntry fs place (Language.ofPath ⟨entry.fileName⟩ != .unknown)
  return fs

def placeOf (current : Place) (p : Path) : Place :=
  p.segments.foldl
    (fun place s =>
      if s = [] || s = ['.'] then place
      else if s = ['.', '.'] then place.dropLast
      else place ++ (Name.ofChars? s).toList)
    (if p.isAbsolute then [] else current)

/-- What a command may look at. -/
def take (current : Place) (command : Option Command) : IO FileSystem := do
  let fs ← addEntry { FileSystem.empty with current } current false
  let fs ← addWithParents fs current
  match command with
  | some (.analyze flags _) =>
    let root := placeOf current flags.path
    let fs ← addEntry fs root true
    let fs ← addWithParents fs root.dropLast
    let fs ← if fs.get? root = some .directory then addTree fs root else pure fs
    match flags.output with
    | some output => addEntry fs (placeOf current output) false
    | none => return fs
  | _ => return fs

end Snapshot

def runProgram (args : List String) : IO UInt32 := do
  let environment : Environment :=
    { noImplicitReturn := ← IO.getEnv "MIXINMAP_NO_IMPLICIT_RETURN"
      log := ← IO.getEnv "RUST_LOG"
      color := ← (← IO.getStdout).isTty
      full := (·.spelled == "dev/full") }
  let current := Snapshot.placeOf [] ⟨(← IO.currentDir).toString⟩
  let fs ← Snapshot.take current (Command.parse environment.noImplicitReturn args).toOption
  let outcome := Command.run fs environment args
  for event in outcome.log do
    IO.eprintln event.line
  for (place, bytes) in fs.newFiles outcome.fileSystem do
    IO.FS.writeBinFile ((← IO.currentDir) / Snapshot.spelled place) bytes
  IO.print outcome.printed
  if let some e := outcome.rejection then
    if e.exitCode != 0 then IO.eprintln e.text
  if let some f := outcome.failure then IO.eprintln f.report
  return outcome.code.toUInt32

end MixinCatalog

def main (args : List String) : IO UInt32 := MixinCatalog.runProgram args
