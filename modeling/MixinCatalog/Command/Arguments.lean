import MixinCatalog.Path
import MixinCatalog.Report.Writer

/-!
# Command lines

The first argument names a command; the others are its options, in any order, and for `analyze` one
path. A value follows its option as the next argument, behind an equals sign, or directly behind a
short option; short options may be written in one argument. A value that stands alone is looked at
only when the next argument has been recognised, so an argument that is not known is reported first.
-/

namespace MixinCatalog

structure AnalyzeFlags where
  path : Path
  format : ReportFormat := .terminal
  output : Option Path := none
  languages : Option (List String) := none
  ignore : Option (List String) := none
  noImplicitReturn : Bool := false
deriving DecidableEq, Repr

inductive Command where
  | init (force : Bool)
  | analyze (flags : AnalyzeFlags) (verbosity : Nat)
deriving DecidableEq, Repr

namespace Command

inductive Topic where
  | program
  | analyze
  | init
  | help
deriving DecidableEq, Repr

inductive ArgumentError where
  | help (topic : Topic)
  | version
  | noCommand
  | invalidCommand
  | unknownArgument
  | invalidValue
  | conflict
  | tooManyValues
  | missingArgument
deriving DecidableEq, Repr

/-- Help and version are not failures. -/
def ArgumentError.exitCode : ArgumentError → Nat
  | help _ | version => 0
  | _ => 2

/-! ### The form of an argument -/

inductive Form where
  /-- Two hyphens: only words follow. -/
  | stop
  | long (name : List Char) (value : Option (List Char))
  | shorts (letters : List Char)
  | word
deriving DecidableEq, Repr

/-- The text in front of the first equals sign and the text behind it. -/
def splitEquals : List Char → List Char × Option (List Char)
  | [] => ([], none)
  | c :: cs =>
    if c = '=' then ([], some cs)
    else
      let (name, value) := splitEquals cs
      (c :: name, value)

def formOf : List Char → Form
  | ['-', '-'] => .stop
  | '-' :: '-' :: cs =>
    let (name, value) := splitEquals cs
    .long name value
  | '-' :: c :: cs => .shorts (c :: cs)
  | _ => .word

/-! ### The options of `analyze` -/

inductive Switch where
  | noImplicitReturn
  | verbose
  | help
deriving DecidableEq, Repr

inductive Slot where
  | path
  | format
  | output
  | languages
  | ignore
deriving DecidableEq, Repr

inductive Known where
  | switch (s : Switch)
  | slot (s : Slot)
deriving DecidableEq, Repr

def knownLong? (name : List Char) : Option Known :=
  match String.ofList name with
  | "format" => some (.slot .format)
  | "output" => some (.slot .output)
  | "languages" => some (.slot .languages)
  | "ignore" => some (.slot .ignore)
  | "no-implicit-return" => some (.switch .noImplicitReturn)
  | "verbose" => some (.switch .verbose)
  | "help" => some (.switch .help)
  | _ => none

def knownShort? (c : Char) : Option Known :=
  if c = 'f' then some (.slot .format)
  else if c = 'o' then some (.slot .output)
  else if c = 'v' then some (.switch .verbose)
  else if c = 'h' then some (.switch .help)
  else none

structure Given where
  path : Option Path := none
  format : Option ReportFormat := none
  output : Option Path := none
  languages : Option (List String) := none
  ignore : Option (List String) := none
  noImplicitReturn : Bool := false
  verbosity : Nat := 0
deriving DecidableEq, Repr

def splitList (value : List Char) : List String := (Text.split ',' value).map String.ofList

/-- How often an option counts at most. -/
def maxVerbosity : Nat := 255

namespace Given

/-- A path may not be empty. -/
def pathOf (value : List Char) : Except ArgumentError Path :=
  if value.isEmpty then .error .invalidValue else .ok ⟨String.ofList value⟩

/-- Give a slot a value. Lists grow, everything else is given once. -/
def store (g : Given) (slot : Slot) (value : List Char) : Except ArgumentError Given :=
  match slot with
  | .path => if g.path.isSome then .error .conflict else do
    return { g with path := some (← pathOf value) }
  | .format =>
    if g.format.isSome then .error .conflict
    else match ReportFormat.ofName? (String.ofList value) with
      | some f => .ok { g with format := some f }
      | none => .error .invalidValue
  | .output => if g.output.isSome then .error .conflict else do
    return { g with output := some (← pathOf value) }
  | .languages => .ok { g with languages := some (g.languages.getD [] ++ splitList value) }
  | .ignore => .ok { g with ignore := some (g.ignore.getD [] ++ splitList value) }

def turnOn (g : Given) : Switch → Except ArgumentError Given
  | .noImplicitReturn =>
    if g.noImplicitReturn then .error .conflict else .ok { g with noImplicitReturn := true }
  | .verbose => .ok { g with verbosity := min maxVerbosity (g.verbosity + 1) }
  | .help => .error (.help .analyze)

end Given

/-- What is left to do for the arguments so far. -/
inductive Pending where
  | nothing
  /-- A slot waits for the next argument. -/
  | waits (slot : Slot)
  /-- A value has not been looked at yet. -/
  | has (slot : Slot) (value : List Char)
deriving DecidableEq, Repr

def Given.settle (g : Given) : Pending → Except ArgumentError Given
  | .nothing => .ok g
  | .waits _ => .error .invalidValue
  | .has slot value => g.store slot value

def pathSeen (g : Given) : Pending → Bool
  | .has .path _ => true
  | _ => g.path.isSome

/-- Read short options in one argument. All letters behind an option with a value are the value. -/
def readShorts (g : Given) (p : Pending) : List Char → Except ArgumentError (Given × Pending)
  | [] => .ok (g, p)
  | c :: cs =>
    match knownShort? c with
    | none => .error .unknownArgument
    | some (.switch s) => do
      let g ← g.settle p
      readShorts (← g.turnOn s) .nothing cs
    | some (.slot s) => do
      let g ← g.settle p
      match cs with
      | [] => return (g, .waits s)
      | '=' :: value => return (← g.store s value, .nothing)
      | value => return (← g.store s value, .nothing)

/-- Read one word that is no option and no value of one. -/
def readWord (g : Given) (p : Pending) (word : List Char) :
    Except ArgumentError (Given × Pending) :=
  if pathSeen g p then .error .unknownArgument
  else do return (← g.settle p, .has .path word)

def readWords (g : Given) (p : Pending) : List String → Except ArgumentError Given
  | [] => g.settle p
  | arg :: args => do
    let (g, p) ← readWord g p arg.toList
    readWords g p args

def readArguments (g : Given) (p : Pending) : List String → Except ArgumentError Given
  | [] => g.settle p
  | arg :: args =>
    match formOf arg.toList with
    | .stop => readWords g p args
    | .long name value =>
      match knownLong? name, value with
      | none, _ => .error .unknownArgument
      | some (.switch _), some _ => .error .tooManyValues
      | some (.switch s), none => do
        let g ← g.settle p
        readArguments (← g.turnOn s) .nothing args
      | some (.slot s), some value => do
        let g ← g.settle p
        readArguments (← g.store s value) .nothing args
      | some (.slot s), none => do readArguments (← g.settle p) (.waits s) args
    | .shorts letters => do
      let (g, p) ← readShorts g p letters
      readArguments g p args
    | .word =>
      match p with
      | .waits slot => readArguments g (.has slot arg.toList) args
      | p => do
        let (g, p) ← readWord g p arg.toList
        readArguments g p args

/-- The environment's word on implicit returns, which counts if the command line has none. -/
def noImplicitReturn (g : Given) (environment : Option String) : Except ArgumentError Bool :=
  if g.noImplicitReturn then .ok true
  else match environment with
    | none => .ok false
    | some "true" => .ok true
    | some "false" => .ok false
    | some _ => .error .invalidValue

def Given.finish (g : Given) (environment : Option String) : Except ArgumentError Command := do
  let strict ← Command.noImplicitReturn g environment
  match g.path with
  | none => .error .missingArgument
  | some path =>
    return .analyze
      { path
        format := g.format.getD .terminal
        output := g.output
        languages := g.languages
        ignore := g.ignore
        noImplicitReturn := strict }
      g.verbosity

/-! ### The options of `init` -/

private def readInitShorts (force : Bool) : List Char → Except ArgumentError Bool
  | [] => .ok force
  | c :: cs =>
    if c = 'f' then if force then .error .conflict else readInitShorts true cs
    else if c = 'h' then .error (.help .init)
    else .error .unknownArgument

def readInit (force : Bool) : List String → Except ArgumentError Bool
  | [] => .ok force
  | arg :: args =>
    match formOf arg.toList with
    | .stop => if args.isEmpty then .ok force else .error .unknownArgument
    | .long name value =>
      match String.ofList name, value with
      | "force", none => if force then .error .conflict else readInit true args
      | "help", none => .error (.help .init)
      | "force", some _ | "help", some _ => .error .tooManyValues
      | _, _ => .error .unknownArgument
    | .shorts letters => do readInit (← readInitShorts force letters) args
    | .word => .error .unknownArgument

/-! ### Commands -/

def Topic.ofName? : String → Option Topic
  | "analyze" => some analyze
  | "init" => some init
  | "help" => some help
  | _ => none

/-- Help about the command that is named, or about the program. -/
def readHelp : List String → ArgumentError
  | [] => .help .program
  | [name] =>
    match Topic.ofName? name with
    | some topic => .help topic
    | none => .invalidCommand
  | _ => .invalidCommand

private def programOption : Form → ArgumentError
  | .long name value =>
    match String.ofList name, value with
    | "help", none => .help .program
    | "version", none => .version
    | "help", some _ | "version", some _ => .tooManyValues
    | _, _ => .unknownArgument
  | .shorts ('h' :: _) => .help .program
  | .shorts ('V' :: _) => .version
  | _ => .unknownArgument

/-- The command of a command line without the name of the program. -/
def parse (environment : Option String) : List String → Except ArgumentError Command
  | [] => .error .noCommand
  | arg :: args =>
    match arg with
    | "analyze" => do (← readArguments {} .nothing args).finish environment
    | "init" => do return .init (← readInit false args)
    | "help" => .error (readHelp args)
    | arg =>
      match formOf arg.toList, args with
      | .stop, [] => .error .noCommand
      | .stop, name :: _ =>
        .error (if (Topic.ofName? name).isSome then .unknownArgument else .invalidCommand)
      | .word, _ => .error .invalidCommand
      | form, _ => .error (programOption form)

end Command

end MixinCatalog
