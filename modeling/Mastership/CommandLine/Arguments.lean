namespace Mastership.CommandLine

inductive Command where
  /-- Write a settings file for a member. -/
  | init (output node : String)
  | validate
  | info
  /-- Run a simulated cluster and fail every device over once. -/
  | simulate (nodes devices settleSecs : Nat)
deriving DecidableEq, Repr

structure Invocation where
  config : String
  logLevel : String
  command : Command
deriving DecidableEq, Repr

inductive Request where
  | run (invocation : Invocation)
  | help
  | version
  | misuse
deriving DecidableEq, Repr

/-- The settings file, unless another is named. -/
def defaultFile : String := "wolfmaster.toml"

structure Opt where
  long : String
  short : Option Char := none
  accepts : String → Bool := fun _ => true

/-- A number without sign, or with a plus, up to a bound. -/
def number? (bound : Nat) (s : String) : Option Nat :=
  let digits := match s.toList with
    | '+' :: r => r
    | r => r
  if digits.isEmpty ∨ !digits.all Char.isDigit then none
  else
    let n := digits.foldl (fun n c => n * 10 + (c.toNat - '0'.toNat)) 0
    if n ≤ bound then some n else none

def isPath (s : String) : Bool := s ≠ ""

def isNumber (bound : Nat) (s : String) : Bool := (number? bound s).isSome

def programOptions : List Opt :=
  [{ long := "config", short := some 'c', accepts := isPath },
    { long := "log-level", short := some 'l' }]

def initOptions : List Opt :=
  [{ long := "output", short := some 'o', accepts := isPath }, { long := "node-id" }]

def maxNodes : Nat := 0xffffffffffffffff

def maxDevices : Nat := 0xffffffff

def maxSeconds : Nat := 0xffffffffffffffff

def simulateOptions : List Opt :=
  [{ long := "nodes", short := some 'n', accepts := isNumber maxNodes },
    { long := "devices", short := some 'd', accepts := isNumber maxDevices },
    { long := "settle-secs", accepts := isNumber maxSeconds }]

/-- Options with their values, and the arguments from the first on that is no option. -/
inductive Scan where
  | options (values : List (String × String)) (rest : List String)
  | help
  | version
  | misuse
deriving Repr

/-- Whether an argument can be the value of the option before it. -/
def isValue (arg : String) : Bool :=
  match arg.toList with
  | '-' :: _ :: _ => false
  | _ => true

/-- Takes over a value, unless the option has one already or does not accept it. -/
def give (values : List (String × String)) (o : Opt) (value : String) :
    Option (List (String × String)) :=
  if (values.lookup o.long).isSome ∨ !o.accepts value then none
  else some (values ++ [(o.long, value)])

/-- How an argument begins an option: the option if there is such a one, with the value that the
argument itself holds. -/
inductive Lead where
  | option (o : Opt) (value : Option String)
  | help
  | version
  /-- No option, but the end of all options. -/
  | divider
  | unknown
  | plain

def lead (options : List Opt) (hasVersion : Bool) (arg : String) : Lead :=
  match arg.toList with
  | ['-'] => .plain
  | ['-', '-'] => .divider
  | '-' :: '-' :: cs =>
    let name := String.ofList (cs.takeWhile (· ≠ '='))
    let value := match cs.dropWhile (· ≠ '=') with
      | _ :: r => some (String.ofList r)
      | [] => none
    match options.find? (·.long = name) with
    | some o => .option o value
    | none =>
      if name = "help" ∧ value.isNone then .help
      else if name = "version" ∧ value.isNone ∧ hasVersion then .version
      else .unknown
  | '-' :: c :: cs =>
    match options.find? (·.short = some c) with
    | some o =>
      .option o (match cs with
        | [] => none
        | '=' :: r => some (String.ofList r)
        | r => some (String.ofList r))
    | none =>
      if c = 'h' then .help
      else if c = 'V' ∧ hasVersion then .version
      else .unknown
  | _ => .plain

/-- Reads options up to the first argument that is none. -/
def scan (options : List Opt) (hasVersion : Bool) (values : List (String × String)) :
    List String → Scan
  | [] => .options values []
  | arg :: rest =>
    match lead options hasVersion arg, rest with
    | .help, _ => .help
    | .version, _ => .version
    | .unknown, _ => .misuse
    | .plain, _ => .options values (arg :: rest)
    | .divider, [] => .options values []
    | .divider, _ :: _ => .misuse
    | .option o (some value), rest =>
      match give values o value with
      | some values => scan options hasVersion values rest
      | none => .misuse
    | .option _ none, [] => .misuse
    | .option o none, value :: rest =>
      if isValue value then
        match give values o value with
        | some values => scan options hasVersion values rest
        | none => .misuse
      else .misuse

/-- Reads the options of a command, which takes nothing else. -/
def commandRequest (options : List Opt) (args : List String)
    (command : List (String × String) → Request) : Request :=
  match scan options false [] args with
  | .options values [] => command values
  | .options _ (_ :: _) => .misuse
  | .help => .help
  | .version => .version
  | .misuse => .misuse

def valueOf (values : List (String × String)) (long default : String) : String :=
  (values.lookup long).getD default

def numberOf (values : List (String × String)) (long : String) (default : Nat) : Nat :=
  (((values.lookup long).bind (number? maxNodes))).getD default

def commands : List String := ["init", "validate", "info", "simulate"]

def request (args : List String) : Request :=
  match scan programOptions true [] args with
  | .help => .help
  | .version => .version
  | .misuse => .misuse
  | .options _ [] => .misuse
  | .options values (name :: rest) =>
    let run (command : Command) : Request :=
      .run ⟨valueOf values "config" defaultFile, valueOf values "log-level" "info", command⟩
    match name with
    | "init" => commandRequest initOptions rest fun vs =>
      run (.init (valueOf vs "output" defaultFile) (valueOf vs "node-id" "node-1"))
    | "validate" => commandRequest [] rest fun _ => run .validate
    | "info" => commandRequest [] rest fun _ => run .info
    | "simulate" => commandRequest simulateOptions rest fun vs =>
      run (.simulate (numberOf vs "nodes" 3) (numberOf vs "devices" 4)
        (numberOf vs "settle-secs" 10))
    | "help" =>
      match rest with
      | [] => .help
      | [name] => if name ∈ commands ∨ name = "help" then .help else .misuse
      | _ => .misuse
    | _ => .misuse

end Mastership.CommandLine
