import Mastership.CommandLine.Arguments
import Mastership.CommandLine.Directory
import Mastership.Moment
import Mastership.Settings.Source

namespace Mastership.CommandLine

/-- How a command ends. One that writes leaves the writing to its caller. -/
inductive Ending where
  /-- With an exit code, after printing a text. -/
  | exit (code : Nat) (output : String)
  /-- With a file to be written, then a text to be printed; with a failure if the file cannot be
  written. -/
  | save (path content output : String)
deriving DecidableEq, Repr

def failure : Nat := 1

/-- Exit code after arguments that make no sense. -/
def misuse : Nat := 2

def crash : Nat := 101

def lines (ls : List String) : String := String.join (ls.map (· ++ "\n"))

def templateOpening : List String :=
  ["# WolfMaster Configuration",
    "# Generated configuration file",
    "",
    "[node]"]

def templateClosing : List String :=
  ["",
    "[mastership]",
    "# Delay between two audit passes over all devices",
    "audit_interval_secs = 60",
    "# Devices checked at once during an audit pass",
    "audit_concurrency = 16",
    "# Upper bound on a single device check",
    "device_check_timeout_ms = 5000",
    "",
    "[events]",
    "buffer_size = 1024",
    "",
    "[logging]",
    "level = \"info\"",
    "format = \"pretty\""]

/-- The settings file for a member, in which all other settings have their defaults. -/
def template (node : String) : String :=
  lines (templateOpening ++ ["id = \"" ++ node ++ "\""] ++ templateClosing)

def settingsIn : Found → Except Failure Settings
  | .text content => Settings.ofText content
  | .missing => .error .io
  | .unreadable => .error .io

/-- Writes a settings file, unless it could not be loaded again. -/
def init (output node : String) : Ending :=
  match Settings.ofText (template node) with
  | .error _ => .exit failure ""
  | .ok _ => .save output (template node)
      (lines ["Configuration file created: " ++ output,
        "Then try: wolfmaster --config " ++ output ++ " simulate"])

def validate (file : Found) : Ending :=
  match settingsIn file with
  | .error _ => .exit failure ""
  | .ok s => .exit 0
      (lines ["✓ Configuration is valid",
        "  Node ID: " ++ s.node,
        "  Audit Interval: " ++ toString s.audit.interval ++ " s"])

def info (file : Found) : Ending :=
  match settingsIn file with
  | .error _ => .exit failure ""
  | .ok s => .exit 0
      (lines ["WolfMaster Node Information",
        "===========================",
        "",
        "Node ID:          " ++ s.node,
        "",
        "Mastership Configuration:",
        "  Audit Interval: " ++ toString s.audit.interval ++ " s",
        "  Concurrency:    " ++ toString s.audit.concurrency,
        "  Check Timeout:  " ++ toString s.audit.timeout ++ " ms",
        "",
        "Events:",
        "  Buffer Size:    " ++ toString s.buffer,
        "",
        "Logging:",
        "  Level:          " ++ s.log.level,
        "  Format:         " ++ s.log.format])

/-- The settings of a simulation: those in the file, or defaults if there is no file. -/
def settingsOr (file : Found) : Except Failure Settings :=
  match file with
  | .missing => .ok (Settings.forNode "node")
  | file => settingsIn file

/-- Name of a simulated device by its number, in sixteen hexadecimal digits. -/
def deviceName (n : Nat) : DeviceId :=
  let digits := Nat.toDigits 16 n
  ⟨Simulation.scheme ++ ":" ++
    String.ofList (List.replicate (16 - digits.length) '0' ++ digits)⟩

/-- Runs moves of a simulation one after the other, up to the first that fails. -/
def inTurn {α : Type} (move : Simulation → α → Simulation × Outcome) :
    List α → Simulation → Simulation × Outcome
  | [], s => (s, .done)
  | a :: as, s =>
    match move s a with
    | (s, .done) => inTurn move as s.followUp
    | (s, outcome) => (s, outcome)

def connectAll (devices : Nat) (s : Simulation) : Simulation × Outcome :=
  inTurn Simulation.connect ((List.range devices).map fun i => deviceName (i + 1)) s

def failOver (s : Simulation) : Simulation × Outcome :=
  inTurn (fun s d => match s.master? d with
    | none => (s, .done)
    | some master => s.disconnect master d) s.devices.keys s

/-- An event of a simulation that started at a moment. -/
def recordedToData (start : Nat) (e : Simulation.Recorded) : Data :=
  .map [("node", e.node.toData), ("event_type", e.event.kind.toData),
    ("device", e.event.device.id.toData), ("available", .bool e.event.device.available),
    ("role", .ofOption Role.toData e.event.role),
    ("time", .text (Moment.text (start + e.time)))]

/-- Runs a cluster: connects devices, fails each over once, and prints what became of them. -/
def simulate (file : Found) (start nodes devices settleSecs : Nat) : Ending :=
  match settingsOr file with
  | .error _ => .exit failure ""
  | .ok settings =>
    match Simulation.start settings nodes with
    | .failed _ => .exit failure ""
    | .crashed => .exit crash ""
    | .running s =>
      match connectAll devices s with
      | (_, .failed _) => .exit failure ""
      | (_, .crashed) => .exit crash ""
      | (s, .done) =>
        let s := (s.awaitConvergence (settleSecs * 1000)).1
        let before := s.view
        match failOver s with
        | (_, .failed _) => .exit failure ""
        | (_, .crashed) => .exit crash ""
        | (s, .done) =>
          let s := (s.awaitConvergence (settleSecs * 1000)).1
          let after := s.view
          let s := s.shutdown
          let report : Data := .map [("before_failover", before.toData),
            ("after_failover", after.toData),
            ("events", .list (s.events.map (recordedToData start)))]
          .exit 0 (lines [Data.Json.writeIndented 0 report])

def helpText : String :=
  lines ["Device mastership reconciliation for clustered network controllers",
    "",
    "Usage: wolfmaster [OPTIONS] <COMMAND>",
    "",
    "Commands:",
    "  init      Initialize a new configuration file",
    "  validate  Validate configuration file",
    "  info      Show node information",
    "  simulate  Run an in-process cluster, fail every device over once and print " ++
      "the resulting roles as JSON",
    "  help      Print this message or the help of the given subcommand(s)",
    "",
    "Options:",
    "  -c, --config <CONFIG>        Path to configuration file [default: wolfmaster.toml]",
    "  -l, --log-level <LOG_LEVEL>  Log level (trace, debug, info, warn, error) [default: info]",
    "  -h, --help                   Print help",
    "  -V, --version                Print version"]

def versionText : String := lines ["wolfmaster 0.3.2"]

/-- Runs a command at a moment. The settings file of the invocation is given by a look-up. -/
def perform (find : String → Found) (start : Nat) : Request → Ending
  | .help => .exit 0 helpText
  | .version => .exit 0 versionText
  | .misuse => .exit misuse ""
  | .run invocation =>
    match invocation.command with
    | .init output node => init output node
    | .validate => validate (find invocation.config)
    | .info => info (find invocation.config)
    | .simulate nodes devices settleSecs =>
      simulate (find invocation.config) start nodes devices settleSecs

/-- Runs the program in a directory; answers with the exit code, the output and the directory
afterwards. -/
def run (d : Directory) (start : Nat) (args : List String) : Nat × String × Directory :=
  match perform d.read start (request args) with
  | .exit code output => (code, output, d)
  | .save path content output =>
    match d.write path content with
    | none => (failure, "", d)
    | some d => (0, output, d)

end Mastership.CommandLine
