import PageMacro.Command.Execute
import PageMacro.Disk.Encoding
import PageMacro.Machine.Key

/-!
# The program

Reads the texts below the working directory and the program's own directory, executes the command
line on them, writes back what has changed and prints the result. Requests to the network find no
one, and encrypted secrets do not outlast the command: this layer has neither a network nor a
cipher.
-/

namespace PageMacro.Main

/-- The text of a file, if there is one. -/
def readText (path : String) : IO (Option String) := do
  try return some (← IO.FS.readFile path) catch _ => return none

/-- Reads the texts at and below a path; hidden directories are passed over. -/
partial def readTree (disk : Disk) (path : String) : IO Disk := do
  match ← readText path with
  | some text => return disk.put (Disk.placeOf path) (.file (.decode text))
  | none =>
    let mut disk := disk.put (Disk.placeOf path) .directory
    for name in ← names path do
      if !Text.beginsWith "." name || Text.beginsWith ".env" name || name == ".dotpipe" then
        disk ← readTree disk (Path.join path name)
    return disk
where
  /-- The names in a directory. -/
  names (path : String) : IO (List String) := do
    let directory := (← IO.currentDir) / path
    try return (← directory.readDir).toList.map (·.fileName) catch _ => return []

/-- Writes the texts that are new or have changed. -/
def writeChanges (old new : Disk) : IO Unit := do
  for (place, node) in new.nodes do
    if old.node? place != some node then
      let path := "/" ++ Text.join "/" place
      match node with
      | .directory => IO.FS.createDirAll path
      | .file content =>
        if let some text := content.encode? then IO.FS.writeFile path text

/-- The surroundings of the program. -/
def surroundings : IO Site := do
  let here := toString (← IO.currentDir)
  let home := (← IO.getEnv "HOME").getD "/"
  let seed ← IO.rand 0 (0x4000000000000000)
  let disk ← readTree {} here
  let disk ← readTree disk (Path.join home ".dotpipe")
  return { disk, here, home, scratch := "/tmp/dotpipe-page", naming := { fresh := madeUpKey seed } }

/-- Executes a command line once and gives the exit code. -/
def once (site : Site) (words : List String) (input : String) : IO UInt32 := do
  let (result, console) := (Command.execute {} words input).run { site }
  IO.print console.out
  IO.eprint console.err
  writeChanges site.disk console.site.disk
  match result with
  | .ok _ => return 0
  | .error e =>
    IO.eprintln ((if e.code == 1 then "Error: " else "panic: runtime error: ") ++ e.message)
    return e.code

/-- Executes a command line again whenever a watched file has changed, as long as nothing fails. -/
partial def watch (words files : List String) (seen : List (Option String)) : IO UInt32 := do
  IO.sleep 200
  let now ← files.mapM readText
  let code ← if now == seen then pure 0 else once (← surroundings) words ""
  if code == 0 then watch words files now else return code

end PageMacro.Main

open PageMacro in
/-- Executes the command line. -/
def main (words : List String) : IO UInt32 := do
  let site ← Main.surroundings
  let input ← if Command.needsInput words then (← IO.getStdin).getLine else pure ""
  let code ← Main.once site words input
  let files := Command.watchedBy site words
  if code == 0 && !files.isEmpty then Main.watch words files (← files.mapM Main.readText)
  else return code
