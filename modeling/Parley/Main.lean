import Parley.Startup.Program

/-! The program itself: the words and the environment of the process, the files that are named, one
line of input at a time, and what is printed as it comes. -/
namespace Parley.Run

def toBytes (s : String) : Bytes := s.toUTF8.toList

def fetch (fs : Files) (path : Bytes) : IO Files := do
  match Utf8.decode? path with
  | none => return fs
  | some name =>
    try
      let contents ← IO.FS.readBinFile (String.ofList name)
      return fs.addFile path contents.toList
    catch _ => return fs

def report {α : Type} (before : Shell) (p : Progress α) : IO (Option α) := do
  let out ← IO.getStdout
  out.putStr (String.ofList (printedText none (p.2.printed.drop before.printed.length)))
  out.flush
  match p.1 with
  | .ok a => return some a
  | .error t =>
    IO.eprintln ("Error: " ++ String.ofList t.chain)
    return none

def codeOf {α : Type} : Option α → UInt32
  | some _ => 0
  | none => 1

partial def readLines (input : IO.FS.Stream) (s : Shell) : IO UInt32 := do
  let line ← input.getLine
  if line.isEmpty then
    return codeOf (← report s (s.settle s.patience.atEnd))
  let entries := Script.entries [.octets (toBytes line)]
  let wanted := entries.filterMap Shell.fileWanted?
  let fs ← wanted.foldlM fetch s.files
  let s := { s with files := fs }
  match entries with
  | .line l :: _ =>
    let p := s.readLine l
    let flow : Option Flow ← report s p
    match flow with
    | none => return 1
    | some .quit => return 0
    | some .goOn => readLines input p.2
  | _ => readLines input s

def surroundings (options : Options) : IO Surroundings := do
  let directory := toBytes (← IO.currentDir).toString
  let places : Places := {
    configHome := (← IO.getEnv "XDG_CONFIG_HOME").map toBytes
    home := toBytes ((← IO.getEnv "HOME").getD "") }
  let empty : Files := { directory := Files.placeFrom [] directory }
  let configFile := (options.config.map Utf8.encode).getD places.configFile
  return { files := ← fetch empty configFile, places, directory, launcher := noLauncher }

def start (options : Options) : IO UInt32 := do
  let w ← surroundings options
  match resolveConfig w.files w.places options with
  | .error e =>
    IO.eprintln ("Error: " ++ String.ofList e.message)
    return 1
  | .ok config =>
    let s := w.shell config
    if ← (← IO.getStdin).isTty then
      IO.println (String.ofList helpText)
    let first : Progress Flow := if options.start then s.execute (.run none) else (.ok .goOn, s)
    match ← report s first with
    | none => return 1
    | some _ => readLines (← IO.getStdin) first.2

end Parley.Run

def main (args : List String) : IO UInt32 := do
  match Parley.Options.parse (args.map String.toList) with
  | .error e =>
    IO.print (String.ofList e.text)
    return if e.text = [] then 2 else 0
  | .ok options => Parley.Run.start options
