import Semicolon.Command.Program

/-!
# The executable

Takes a picture of the file system, runs the program on it, and carries out what the program has
decided: the files it changed, its output and its exit status.

The picture holds the working folder with all that is below it, and what the arguments lead to if
they are taken as paths.
-/

namespace Semicolon.Main

/-- The absolute path of a place. -/
def pathOf (place : Location) : String :=
  String.ofList ('/' :: ['/'].intercalate place)

/-- Adds what is at a place, if anything is. -/
def note (tree : FileTree) (place : Location) : IO FileTree := do
  try
    let path ← IO.FS.realPath (pathOf place)
    if ← path.isDir then return tree.makeFolder place
    else
      let content ← IO.FS.readBinFile path
      return (tree.makeFolder place.dropLast).put place content.toList
  catch _ => return tree

/-- Adds everything below a place. -/
partial def noteBelow (tree : FileTree) (place : Location) : IO FileTree := do
  let mut tree ← note tree place
  if tree.isFolder place then
    for entry in ← (← IO.FS.realPath (pathOf place)).readDir do
      let inner := place ++ [entry.fileName.toList]
      tree ← if ← entry.path.isDir then noteBelow tree inner else note tree inner
  return tree

/-- Adds what is on the way from a place.  Where the way leads on by a pattern, everything below is
added. -/
def noteWay (tree : FileTree) (place : Location) : List Text → IO FileTree
  | [] => return tree
  | piece :: rest => do
    if Glob.isPattern piece then noteBelow tree place
    else
      let next :=
        if piece = ['.'] then place
        else if piece = ['.', '.'] then place.dropLast
        else place ++ [piece]
      noteWay (← note tree next) next rest

/-- The picture of the file system for a command line. -/
def picture (args : List String) : IO FileTree := do
  let base := (Path.ofString (← IO.FS.realPath ".").toString).pieces
  let mut tree ← noteBelow (.bare base) base
  for arg in args do
    let path := Path.ofString arg
    tree ← noteWay tree (tree.start path) path.pieces
  return tree

/-- Writes the files that differ between two trees. -/
def apply (before after : FileTree) : IO Unit := do
  for (place, content) in after.files do
    if before.content? place ≠ some content then
      IO.FS.writeBinFile (pathOf place) (ByteArray.mk content.toArray)

/-- All of standard input, if the request may need it. -/
def standardInput (request : Request) : IO Bytes := do
  if request.readsStandardInput then return (← (← IO.getStdin).readBinToEnd).toList
  else return []

/-- The time that each document of a job takes. -/
def times (job : Job) (world : World) : IO (Source → Json.Value) := do
  let settings := do
    let config ← job.config world.tree
    (job.settings config).mapError Job.badConfig
  match settings, Source.resolve world.tree.lookup job.inputs with
  | .ok settings, .ok sources =>
    let mut noted : List (Source × Json.Value) := []
    for source in sources do
      let start ← IO.monoNanosNow
      let _ ← IO.lazyPure fun _ => ((Job.document settings source).run world : Except _ _ × World)
      noted := (source, Report.milliseconds ((← IO.monoNanosNow) - start)) :: noted
    let found := noted
    return fun source => (found.lookup source).getD (Report.milliseconds 0)
  | _, _ => return fun _ => Report.milliseconds 0

/-- What the program works on. -/
def world (args : List String) : IO World := do
  let tree ← picture args
  match Request.parse? args with
  | none => return { tree }
  | some request =>
    let world : World := { tree, stdin := ← standardInput request }
    match request with
    | .command (.process job) => return { world with time := ← times job world }
    | _ => return world

end Semicolon.Main

open Semicolon in
/-- Runs the program. -/
def main (args : List String) : IO UInt32 := do
  let world ← Main.world args
  let ended := Program.run args world
  Main.apply world.tree ended.world.tree
  let output ← IO.getStdout
  output.putStr (String.ofList ended.world.stdout)
  output.flush
  if let some complaint := ended.complaint? then
    (← IO.getStderr).putStrLn complaint
  return ended.status.toUInt32
