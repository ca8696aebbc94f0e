import Gateware.Cli.Invocation
import Gateware.Compile.Compiler
import Gateware.Device.Boards
import Gateware.Program.Json
import Gateware.Text.Control

/-!
# Running commands

A command works on a tree of files and yields what is printed, the exit code and the files as they
are afterwards.  Errors are printed with the word `error` in front, and the exit code is then 1; a
command line that makes no sense gives 2.  Notes are printed beside the result as they are made, if
they matter enough for the options given.
-/

namespace Gateware.Cli

/-- The outcome of a command. -/
structure Printout where
  code : Nat := 0
  /-- What is printed as a result. -/
  output : String := ""
  /-- What is printed beside the result. -/
  messages : String := ""
  files : FileTree := {}

/-! ## Columns -/

/-- Spaces up to a width. -/
def padding (width : Nat) (text : String) : String :=
  String.ofList (List.replicate (width - text.length) ' ')

/-- A text at the left of a column. -/
def alignLeft (width : Nat) (text : String) : String := text ++ padding width text

/-- A text at the right of a column. -/
def alignRight (width : Nat) (text : String) : String := padding width text ++ text

/-- A number of bytes in the largest unit that divides it. -/
def bytesText (bytes : Nat) : String :=
  if gibibyte ≤ bytes && bytes % gibibyte == 0 then s!"{bytes / gibibyte} GiB"
  else if mebibyte ≤ bytes && bytes % mebibyte == 0 then s!"{bytes / mebibyte} MiB"
  else s!"{bytes} B"

/-! ## Notes and errors -/

/-- The last severity on the scale of which notes are printed. -/
def noteLimit (options : Options) : Severity :=
  if options.quiet then .error else if options.verbose then .debug else .warning

/-- A note as it is printed: after its label and its origin in brackets, with all lines but the
first indented, and without control characters.  A control sequence that is still open at the end
takes the end of the line with it. -/
def noteText (r : Remark) : String :=
  Text.withoutControls
    (s!"[{alignLeft 5 r.severity.label} {r.origin.name}] " ++ r.text.replace "\n" "\n    " ++ "\n")

/-- The notes that are printed. -/
def notesText (options : Options) (notes : List Note) : String :=
  let shown := (Journal.shown notes).filter fun r => r.severity.rank ≤ (noteLimit options).rank
  String.join (shown.map noteText)

/-- A printout for an error, after what was printed before it. -/
def failure (files : FileTree) (before message : String) : Printout :=
  { code := 1, messages := before ++ s!"error: {message}\n", files }

/-! ## Devices -/

/-- One line of the table of devices. -/
def deviceLine (width : Nat) (m : Manifest) : String :=
  let channels := String.intercalate ", " m.channels
  s!"{alignLeft width m.name}  {alignLeft 10 m.family} {alignLeft 8 m.toolChain} " ++
    s!"{alignRight 8 m.clock.render}  {alignRight 9 (bytesText m.memory)}  {channels}\n"

/-- The table of devices. -/
def deviceTable (devices : List Manifest) : String :=
  let width := devices.foldl (fun width m => max width m.name.utf8ByteSize) 0
  String.join (devices.map (deviceLine width))

/-- Lists the supported devices. -/
def runDevices (format : Format) : String :=
  let devices := Registry.standard.supported
  match format with
  | .text => deviceTable devices
  | .json => (Json.array (devices.map Manifest.toJson)).pretty ++ "\n"

/-! ## Costs -/

/-- How the delay of an operation was found. -/
def delayLine (e : Estimate) : String :=
  let origin := match e.source with
    | .exact => "measured"
    | .scaled width signed => s!"scaled from {signWord signed}{width}"
  s!"  delay {fixedText 3 e.delay} ns, {origin}\n"

/-- Further lines about the cost of an operation on a device. -/
def costDetails (d : Device) (op : Operation) : Traced DeviceError String := do
  let table ← d.delays.mapError .timing
  match table.resolve op with
  | none => .fail (.timing (.missingOperator d.name op.operator.mnemonic))
  | some e => pure (delayLine e ++ s!"  clock period {fixedText 3 d.manifest.periodNs} ns\n")

/-- The cost of an operation on a device. -/
def costText (options : Options) (device : String) (op : Operation) :
    Traced DeviceError String := do
  let cycles ← Registry.standard.price device op
  if options.quiet then pure (plainText cycles.value ++ "\n")
  else
    let line := s!"{op.render} on {device}: {cycles.render} ({cycles.whole} whole)\n"
    if options.verbose then
      let d ← Registry.standard.find device
      let details ← costDetails d op
      pure (line ++ details)
    else pure line

/-- Prices an operation on a device. -/
def runCost (options : Options) (device : String) (op : Operation) (files : FileTree) : Printout :=
  let cost := costText options device op
  let before := notesText options cost.notes
  match cost.result with
  | .error e => failure files before e.message
  | .ok output => { output, messages := before, files }

/-! ## Requests and memory -/

/-- The path of the request. -/
def requestPath (options : Options) : String := options.config.getD (Path.join "." Request.fileName)

/-- The request in a file. -/
def loadRequest (options : Options) (files : FileTree) : Except RequestError Request :=
  match files.read (requestPath options) with
  | .error e => .error (.unreadable e.message)
  | .ok source => Request.parse source

/-- The memory settings of a request. -/
def memoryText (format : Format) (device : String) (m : MemorySettings) : String :=
  match format with
  | .text =>
    s!"device          {device}\nalignment       {m.alignment} bytes\n" ++
      s!"minimum prefix  {m.minimumPrefix} cells ({m.headerBytes} bytes)\n"
  | .json =>
    (Json.object [("device", .text device), ("alignment", .int m.alignment),
      ("minimum_prefix", .int m.minimumPrefix), ("header_bytes", .int m.headerBytes)]).pretty ++ "\n"

/-- Shows the memory settings of the request, perhaps for another device. -/
def runMemory (options : Options) (device : Option String) (format : Format) (files : FileTree) :
    Printout :=
  match loadRequest options files with
  | .error e => failure files "" e.message
  | .ok request =>
    let request := { request with device := device.getD request.device }
    let memory := Registry.standard.memoryFor request
    let before := notesText options memory.notes
    match memory.result with
    | .error e => failure files before e.message
    | .ok m => { output := memoryText format request.device m, messages := before, files }

/-! ## Compilation -/

/-- The program in a file. -/
def loadProgram (path : String) (files : FileTree) : Except CompileError Program :=
  match files.read path with
  | .error e => .error (.programUnreadable path e)
  | .ok source =>
    match Program.read source with
    | none => .error .programMalformed
    | some program => .ok program

/-- A member in the summary. -/
def memberLine (c : MemberCost) : String :=
  s!"      Member {c.member} -> {c.entity}: {c.cycles.render} ({c.wait} wait)\n"

/-- The memory layout in the summary. -/
def layoutLine (l : MemoryLayout) : String :=
  s!"      Memory {l.totalBytes} bytes ({l.headerBytes} header, {l.payloadBytes} payload)\n"

/-- What is printed after a compilation. -/
def summary (r : Representation) : String :=
  let channel := r.channel.getD "no channel"
  s!"      Device {r.manifest.name} ({channel})\n" ++ String.join (r.costs.map memberLine) ++
    (match r.layout with
      | some l => layoutLine l
      | none => "") ++
    s!"       Wrote {r.implementation.path} [{r.implementation.checksum.short}]\n"

/-- What is printed about a step that failed. -/
def warningLine (f : StepFailure StepError) : String :=
  s!"warning: step '{f.step}' failed: {f.error.message}\n"

/-- The printout of a compilation, after what was printed before it. -/
def report (quiet : Bool) (before : String) (c : Compilation Unit) : Printout :=
  match c.result with
  | .error e => failure c.files before e.message
  | .ok .cancelled => { code := 130, messages := before ++ "   Cancelled\n", files := c.files }
  | .ok (.completed r failures) =>
    { messages := before ++ String.join (failures.map warningLine) ++
        (if quiet then "" else summary r)
      files := c.files }

/-- Compiles a program. -/
def runBuild (options : Options) (path : String) (outputDir : Option String) (files : FileTree) :
    Printout :=
  match loadRequest options files with
  | .error e => failure files "" e.message
  | .ok request =>
    let request := { request with outputDir := outputDir.getD request.outputDir }
    match loadProgram path files with
    | .error e => failure files "" e.message
    | .ok program =>
      let compiler : Compiler Unit := .new .standard .abort
      let opening := if options.quiet then "" else s!"   Compiling {path} for {request.device}\n"
      let c := compiler.compile program request false files ()
      let before := notesText options Compiler.newNotes ++ opening ++ notesText options c.notes
      report options.quiet before c

/-! ## Commands -/

/-- Runs a command. -/
def runCommand (options : Options) (files : FileTree) : Command → Printout
  | .devices format => { output := runDevices format, files }
  | .cost device op => runCost options device op files
  | .memory device format => runMemory options device format files
  | .build program outputDir => runBuild options program outputDir files

/-- A reminder of the commands. -/
def usage : String :=
  "Usage: kiln [--quiet] [--verbose] [--config PATH] COMMAND\n\n" ++
    "  devices [--format text|json]\n" ++
    "  cost --device NAME --op OPERATOR --width BITS [--signed]\n" ++
    "  memory [--device NAME] [--format text|json]\n" ++
    "  build --program PATH [--output-dir PATH]\n"

/-- Runs a command line. -/
def run (words : List String) (files : FileTree) : Printout :=
  match parse words with
  | .error e => { code := 2, messages := s!"error: {e.message}\n\n" ++ usage, files }
  | .ok .version => { output := "kiln 0.1.0\n", files }
  | .ok .help => { output := usage, files }
  | .ok (.run options command) => runCommand options files command

/-- The paths of the files that a command line reads. -/
def inputs (words : List String) : List String :=
  match parse words with
  | .ok (.run options (.memory ..)) => [requestPath options]
  | .ok (.run options (.build program _)) => [requestPath options, program]
  | _ => []

end Gateware.Cli
