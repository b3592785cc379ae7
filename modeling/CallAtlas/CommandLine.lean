import CallAtlas.Project

/-!
The command line: its options, and the program they start.
-/

namespace CallAtlas

namespace CommandLine

inductive Setting where
  | path
  | output
  | format
  | jobs
  | config
  | top
  deriving DecidableEq

inductive Switch where
  | verbose
  | noTests
  | help
  | version
  deriving DecidableEq

inductive Opt where
  | setting (s : Setting)
  | switch (s : Switch)
  deriving DecidableEq

def Opt.ofLetter? : Char → Option Opt
  | 'p' => some (.setting .path)
  | 'o' => some (.setting .output)
  | 'f' => some (.setting .format)
  | 'j' => some (.setting .jobs)
  | 'c' => some (.setting .config)
  | 'v' => some (.switch .verbose)
  | 'h' => some (.switch .help)
  | 'V' => some (.switch .version)
  | _ => none

def Opt.ofWord? : String → Option Opt
  | "path" => some (.setting .path)
  | "output" => some (.setting .output)
  | "format" => some (.setting .format)
  | "jobs" => some (.setting .jobs)
  | "config" => some (.setting .config)
  | "top" => some (.setting .top)
  | "verbose" => some (.switch .verbose)
  | "no-tests" => some (.switch .noTests)
  | "help" => some (.switch .help)
  | "version" => some (.switch .version)
  | _ => none

structure Options where
  path : Option String := none
  output : Option String := none
  format : Option Format := none
  jobs : Option Nat := none
  config : Option String := none
  top : Option Nat := none
  verbose : Bool := false
  noTests : Bool := false
  deriving DecidableEq

inductive Stop where
  | help
  | version
  | misuse
  deriving DecidableEq

abbrev Reading := Except Stop

/-- A number of at most 64 bits, in digits. A plus sign may stand before it. -/
def natural? (text : String) : Option Nat :=
  let digits :=
    match text.toList with
    | '+' :: rest => rest
    | all => all
  if digits.isEmpty || !digits.all Char.isDigit then none
  else
    let n := digits.foldl (fun n c => n * 10 + (c.toNat - '0'.toNat)) 0
    if n ≤ 18446744073709551615 then some n else none

def nonempty? (text : String) : Option String := if text = "" then none else some text

def once {α : Type} : Option α → Option α → Reading (Option α)
  | none, some a => .ok (some a)
  | _, _ => .error .misuse

def onceOnly : Bool → Reading Bool
  | false => .ok true
  | true => .error .misuse

namespace Options

def assign (o : Options) (text : String) : Setting → Reading Options
  | .path => return { o with path := ← once o.path (nonempty? text) }
  | .output => return { o with output := ← once o.output (some text) }
  | .format => return { o with format := ← once o.format (Format.ofWord? text) }
  | .jobs => return { o with jobs := ← once o.jobs (natural? text) }
  | .config => return { o with config := ← once o.config (nonempty? text) }
  | .top => return { o with top := ← once o.top (natural? text) }

def turnOn (o : Options) : Switch → Reading Options
  | .verbose => return { o with verbose := ← onceOnly o.verbose }
  | .noTests => return { o with noTests := ← onceOnly o.noTests }
  | .help => .error .help
  | .version => .error .version

end Options

def afterEquals? (text : List Char) : Option String :=
  match text.dropWhile (· != '=') with
  | [] => none
  | _ :: rest => some (String.ofList rest)

abbrev Step := Options × Option Setting

def longOption (o : Options) (text : List Char) : Reading Step :=
  match Opt.ofWord? (String.ofList (text.takeWhile (· != '='))), afterEquals? text with
  | some (.setting s), some v => return (← o.assign v s, none)
  | some (.setting s), none => .ok (o, some s)
  | some (.switch s), none => return (← o.turnOn s, none)
  | _, _ => .error .misuse

/-- A group of letters. The first that takes a value has the rest of the group for it. -/
def shortOptions (o : Options) : List Char → Reading Step
  | [] => .ok (o, none)
  | c :: rest =>
    match Opt.ofLetter? c with
    | none => .error .misuse
    | some (.switch s) => do shortOptions (← o.turnOn s) rest
    | some (.setting s) =>
      match rest with
      | [] => .ok (o, some s)
      | '=' :: v => return (← o.assign (String.ofList v) s, none)
      | v => return (← o.assign (String.ofList v) s, none)

def isOption : List Char → Bool
  | '-' :: _ :: _ => true
  | _ => false

def read (o : Options) (pending : Option Setting) : List String → Reading Options
  | [] => if pending.isSome then .error .misuse else .ok o
  | arg :: rest =>
    match pending with
    | some s =>
      if isOption arg.toList then .error .misuse
      else do read (← o.assign arg s) none rest
    | none =>
      match arg.toList with
      | ['-', '-'] => if rest.isEmpty then .ok o else .error .misuse
      | '-' :: '-' :: word => do
        let (o, pending) ← longOption o word
        read o pending rest
      | '-' :: c :: letters => do
        let (o, pending) ← shortOptions o (c :: letters)
        read o pending rest
      | _ => .error .misuse

def parse (args : List String) : Reading Options := read {} none args

def Options.apply (o : Options) (s : Settings) : Settings :=
  { s with
    includesTests := s.includesTests && !o.noTests
    limit := o.top <|> s.limit
    jobs := o.jobs <|> s.jobs
    format := o.format <|> s.format }

def Options.job (o : Options) (s : Settings) (createdAt : String) : Project.Job where
  path := o.path.getD "."
  output := o.output.getD "code_structure.md"
  format := (o.apply s).format.getD .markdown
  settings := o.apply s
  createdAt := createdAt

structure Outcome where
  exit : Nat
  output : String := ""
  failure : Option String := none
  deriving DecidableEq

def version : String := "gomap 0.1.0\n"

def help : String :=
  "Map the structure and call graph of a Go project\n\n" ++
  "Usage: gomap [OPTIONS]\n\n" ++
  "Options:\n" ++
  "  -p, --path <PATH>      Project root to analyze [default: .]\n" ++
  "  -o, --output <OUTPUT>  Output file path [default: code_structure.md]\n" ++
  "  -f, --format <FORMAT>  Output format (overrides the config file) [possible values: markdown, json, dot]\n" ++
  "  -v, --verbose          Log at debug level\n" ++
  "  -j, --jobs <JOBS>      Worker threads (default: half the cores)\n" ++
  "  -c, --config <CONFIG>  Config file (default: <path>/gomap.toml if present)\n" ++
  "      --top <TOP>        Rows in the most-called table\n" ++
  "      --no-tests         Skip _test.go files\n" ++
  "  -h, --help             Print help\n" ++
  "  -V, --version          Print version\n"

variable {m : Type → Type} [Monad m]

def start (disk : Disk m) (createdAt : String) (o : Options) : ExceptT RunError m Unit := do
  let s ← Settings.discover disk o.config (o.path.getD ".")
  let _ ← (o.job s createdAt).run disk

def run (disk : Disk m) (createdAt : String) (args : List String) : m Outcome := do
  match parse args with
  | .error .help => return { exit := 0, output := help }
  | .error .version => return { exit := 0, output := version }
  | .error .misuse => return { exit := 2 }
  | .ok o =>
    match ← (start disk createdAt o).run with
    | .ok () => return { exit := 0 }
    | .error e => return { exit := 1, failure := some e.message }

end CommandLine

end CallAtlas
