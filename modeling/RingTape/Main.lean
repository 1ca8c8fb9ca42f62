import RingTape.CommandLine.Answer

/-!
# The program

The outer layer: it collects what the library wants to know of a process,
lets the library decide, and moves bytes.  A run is followed in slices.
After each one its new output is written, the clock is read and the waiting
side makes a round.  A run is held up before each reading, and then one line
of standard input is put into its script.  Nothing is logged.
-/

namespace RingTape
namespace Shell

/-- The name the program goes by in its reports. -/
def programName : String := "bftape"

/-- The variables that the library asks for. -/
def variableNames : List String :=
  "XDG_CONFIG_HOME" :: "HOME" :: Setting.all.map (Setting.key .environment)

/-- The number of instructions between two readings of the clock. -/
def slice : Nat := 100000

/-- What a path leads to: the content of a file, why there is none to be
had, or nothing at all. -/
def readFile (path : String) : IO (Option (Except String (List UInt8))) := do
  try
    return some (.ok (← IO.FS.readBinFile path).data.toList)
  catch error =>
    match error with
    | .permissionDenied _ code details =>
      return some (.error (details ++ " (os error " ++ toString code ++ ")"))
    | _ => return none

/-- Look a name up among pairs. -/
def lookup? {Value : Type} (pairs : List (String × Value)) (name : String) : Option Value :=
  (pairs.find? fun pair => pair.1 == name).map Prod.snd

/-- What the library may see of this process. -/
def surroundings (list : List String) : IO CommandLine.Surroundings := do
  let mut known := []
  for name in variableNames do
    if let some value ← IO.getEnv name then
      known := (name, value) :: known
  let program := (CommandLine.Arguments.read? list).bind fun arguments => arguments.path
  let mut files := []
  let mut unreadable := []
  for path in (Settings.filePath? (lookup? known)).toList ++ program.toList do
    match ← readFile path with
    | some (.ok content) => files := (path, content) :: files
    | some (.error reason) => unreadable := (path, reason) :: unreadable
    | none => pure ()
  let terminal ← (← IO.getStderr).isTty
  let inputTerminal ← (← IO.getStdin).isTty
  return {
    program := programName
    environment := lookup? known
    file? := lookup? files
    unreadable? := lookup? unreadable
    terminal := terminal
    inputTerminal := inputTerminal }

/-- One line of standard input, its ending included, or what is left. -/
partial def readLine (taken : Array UInt8) : IO (Array UInt8) := do
  let next ← (← IO.getStdin).read 1
  match next.data[0]? with
  | none => return taken
  | some byte =>
    if byte = InputScript.lineFeed then
      return taken.push byte
    else
      readLine (taken.push byte)

/-- Write what a run has written since `shown` bytes of it were written. -/
def publish (progress : Progress) (shown : Nat) : IO Unit := do
  let output ← IO.getStdout
  output.write ⟨progress.written.extract shown progress.written.size⟩
  output.flush

/-- Put a line into the script of a run. -/
def feed (run : Run) (content : Array UInt8) : Run :=
  { run with console :=
    { run.console with input := run.console.input ++ .ofBytes content.toList } }

/-- What the waiting side does between two slices. -/
def round (expired : Bool) : List CommandLine.Event :=
  (if expired then [.expire] else []) ++ [.deliver, .look, .look, .look, .look]

/-- Follow a run to a verdict. -/
partial def attend (job : CommandLine.Job) (began shown : Nat) (watch : CommandLine.Watch) :
    IO CommandLine.Verdict := do
  let reads (run : Run) := run.awaitsInput job.options job.program
  let progress := watch.progress.iterateUntil job.options job.program reads slice
  publish progress shown
  let shown := progress.written.size
  let now ← IO.monoMsNow
  let expired := job.timeout.any fun time => began + time ≤ now
  let watch := CommandLine.Watch.follow .off job.options job.program job.timeout
    { watch with progress := progress } (round expired)
  match watch.verdict? with
  | some verdict => return verdict
  | none =>
    match watch.progress with
    | .running run =>
      if reads run then
        if let some prompt := job.options.prompt then
          IO.eprint prompt
        let fed := feed run (← readLine #[])
        attend job began shown
          { watch with progress := fed.advance job.options job.program }
      else
        attend job began shown watch
    | _ => attend job began shown watch

/-- Run a command with this argument list and return its exit code. -/
def command (list : List String) : IO UInt32 := do
  let surroundings ← surroundings list
  match CommandLine.Job.ofList surroundings list with
  | .error refusal =>
    IO.eprint (refusal.report surroundings)
    return refusal.code.toUInt32
  | .ok job =>
    let verdict ← attend job (← IO.monoMsNow) 0
      { progress := Run.begin job.options job.tape {} }
    IO.eprint (job.wording surroundings verdict)
    return verdict.code.toUInt32

end Shell
end RingTape

/-- The entry point. -/
def main (list : List String) : IO UInt32 :=
  RingTape.Shell.command list
