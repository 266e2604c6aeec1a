import ClaimCheck.Check
import ClaimCheck.Event
/-!
The command line. The configuration and the document are read from disk. No network is
reached: the answer of the model is what stands on standard input.
-/
namespace ClaimCheck.Main

def readEntry (name : String) : IO Listing := do
  try
    let contents ← IO.FS.readBinFile name
    return [(name, .file contents.toList)]
  catch _ => return []

/-- Levels of nesting that are passed before the stack is at its end. -/
def depths : Yaml.Depths := ⟨480, 482⟩

/-- The variables that tell the size of the screen and those that a configuration refers to, as far
as they are set. -/
def readEnvironment (files : Files) (config : String) : IO Environment := do
  let referred := match (files.contents? config).map (Config.parseContents depths) with
    | some (.ok data) => Environment.names data
    | _ => []
  ("COLUMNS" :: "LINES" :: referred).filterMapM fun name => do
    return (← IO.getEnv name).map fun value => (name, value)

def seconds : IO Binary64 := do
  return Binary64.ofRatio false (← IO.monoMsNow) 1000

def answerOf (content : String) : Answer :=
  ⟨.text "", .text "", none, none, none, some (.text content)⟩

def check (files : Files) (options : Check.Options) : IO UInt32 := do
  let env ← readEnvironment files options.config
  let start ← seconds
  let content ← (← IO.getStdin).getLine
  let stop ← seconds
  let answer := answerOf content.trimAscii.toString
  let clock : Clock := [start, start, stop, stop]
  let run := Check.run ⟨files, env, clock, .answer answer, Console.plain, depths⟩ options
  for event in run.events do
    IO.eprintln (if options.logFormat == "json" then event.object else event.line)
  IO.eprint run.stderr
  IO.print run.stdout
  if run.escaped.isSome then IO.eprintln "The check was ended by an error of its inputs."
  return run.exitCode.toUInt32

end ClaimCheck.Main

def main (args : List String) : IO UInt32 := do
  let names := match ClaimCheck.Check.read ⟨[], none, none, false, "console"⟩ none args with
    | some reading => reading.arguments ++ reading.document.toList
    | none => []
  let files := ClaimCheck.Files.ofListing (← names.mapM ClaimCheck.Main.readEntry).flatten
  match ClaimCheck.Check.Options.ofArguments? files args with
  | some options => ClaimCheck.Main.check files options
  | none =>
    IO.eprintln "Usage: check CONFIG_PATH --document FILE --claim TEXT [--bespoke-minicheck] [--log-format FORMAT]"
    return 2
