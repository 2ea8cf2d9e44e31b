import DeclCheck.Config

/-!
# Command line arguments

The arguments of the command line name a command and its options. They are read from left to right, and the
first one that fits nowhere refuses them all.

Options of a check may stand before, between and behind the units. The value of an option is attached to
it by an equals sign or is the next argument; an argument that begins with a dash is no value, except the
dash alone. Behind two dashes everything is a unit. Only the search directories may be given more than
once.
-/

namespace DeclCheck.Cli

/-- **What the command line is asked to do.** -/
inductive Request where
  /-- Check units, named in order, with additional search directories. -/
  | check (units directories : List String) (config : Config)
  /-- Tell about the program. -/
  | about
  /-- Tell the version alone. -/
  | version
  /-- Tell how the program is used. -/
  | help
  deriving DecidableEq, Repr

/-- An option of a check that takes a value. -/
inductive Setting where
  | directory
  | format
  | context
  deriving DecidableEq, Repr

/-- What an argument of a check means by itself. -/
inductive Argument where
  | unit
  /-- Everything behind it is a unit. -/
  | separator
  /-- A setting, perhaps with its value attached. -/
  | setting (setting : Setting) (value : Option String)
  | emitTyped
  | help
  | unknown
  deriving DecidableEq, Repr

/-- Whether an argument looks like an option. -/
def isDashed (arg : String) : Bool := arg.startsWith "-" && arg != "-"

/-- The setting of a long option. -/
def setting? (name : List Char) : Option Setting :=
  if name = "search-path".toList then some .directory
  else if name = "format".toList then some .format
  else if name = "context".toList then some .context
  else none

/-- The meaning of a long option, without its dashes. -/
def readLong (option : List Char) : Argument :=
  let name := option.takeWhile (· != '=')
  let value := option.dropWhile (· != '=')
  match setting? name, value with
  | some setting, [] => .setting setting none
  | some setting, _ :: value => .setting setting (some (String.ofList value))
  | none, [] =>
    if name = "emit-typed".toList then .emitTyped
    else if name = "help".toList then .help
    else .unknown
  | none, _ :: _ => .unknown

/-- The meaning of short options, without their dash. -/
def readShort : List Char → Argument
  | ['I'] => .setting .directory none
  | 'I' :: '=' :: value => .setting .directory (some (String.ofList value))
  | 'I' :: value => .setting .directory (some (String.ofList value))
  | 'h' :: _ => .help
  | _ => .unknown

/-- The meaning of an argument of a check. -/
def readArgument (arg : String) : Argument :=
  match arg.toList with
  | ['-', '-'] => .separator
  | '-' :: '-' :: option => readLong option
  | ['-'] => .unit
  | '-' :: options => readShort options
  | _ => .unit

/-- The number that a text spells in decimal digits, perhaps behind a plus sign. It has to fit a word. -/
def number? (text : String) : Option UInt64 :=
  let digits :=
    match text.toList with
    | '+' :: digits => digits
    | digits => digits
  if digits.isEmpty || !digits.all (fun digit => '0' ≤ digit && digit ≤ '9') then none
  else
    let value := digits.foldl (fun value digit => value * 10 + (digit.toNat - 48)) 0
    if value < UInt64.size then some (UInt64.ofNat value) else none

/-- What the arguments of a check have said so far. -/
structure CheckArguments where
  units : List String := []
  directories : List String := []
  format : Option OutputFormat := none
  contextLines : Option UInt64 := none
  emitTyped : Bool := false
  deriving Repr

namespace CheckArguments

/-- Give a setting a value. -/
def set? (args : CheckArguments) (setting : Setting) (value : String) : Option CheckArguments :=
  match setting with
  | .directory =>
    if value.isEmpty then none else some { args with directories := args.directories ++ [value] }
  | .format =>
    match args.format, OutputFormat.ofWord? value with
    | none, some format => some { args with format := some format }
    | _, _ => none
  | .context =>
    match args.contextLines, number? value with
    | none, some count => some { args with contextLines := some count }
    | _, _ => none

/-- The request once all arguments are read. There has to be a unit. -/
def request? (args : CheckArguments) : Option Request :=
  if args.units.isEmpty then none
  else
    let config := Config.initial
    some (.check args.units args.directories
      { config with
        format := args.format.getD config.format
        contextLines := args.contextLines.getD config.contextLines
        emitTyped := args.emitTyped })

/-- Read further arguments. A setting may still wait for its value. -/
def read? (args : CheckArguments) (waiting : Option Setting) : List String → Option Request
  | [] => if waiting.isSome then none else args.request?
  | arg :: rest =>
    match waiting with
    | some setting =>
      if isDashed arg then none
      else (args.set? setting arg).bind fun args => args.read? none rest
    | none =>
      match readArgument arg with
      | .unit => { args with units := args.units ++ [arg] : CheckArguments }.read? none rest
      | .separator => { args with units := args.units ++ rest : CheckArguments }.request?
      | .setting setting none => args.read? (some setting) rest
      | .setting setting (some value) =>
        (args.set? setting value).bind fun args => args.read? none rest
      | .emitTyped =>
        if args.emitTyped then none else { args with emitTyped := true }.read? none rest
      | .help => some .help
      | .unknown => none

end CheckArguments

/-- The request of a command that takes no arguments but a plea for help. -/
def plain? (request : Request) : List String → Option Request
  | [] | ["--"] => some request
  | arg :: _ => if readArgument arg = .help then some .help else none

/-- **The request that the arguments spell.** There is none if they are refused. -/
def Request.ofArguments? : List String → Option Request
  | [] => none
  | "check" :: args => CheckArguments.read? {} none args
  | "version" :: args => plain? .about args
  | ["help"] | ["help", "check"] | ["help", "version"] | ["help", "help"] => some .help
  | arg :: _ =>
    match arg.toList with
    | '-' :: 'V' :: _ => some .version
    | _ =>
      if arg = "--version" then some .version
      else if readArgument arg = .help then some .help
      else none

end DeclCheck.Cli
