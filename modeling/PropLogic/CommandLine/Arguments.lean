/-!
# Command-line arguments

Arguments are read from left to right. The first one that asks for the version or for help, or that
does not fit, ends the reading; conflicts between options are looked for at the end.
-/

namespace PropLogic.CommandLine

structure Options where
  expression? : Option String
  /-- The file with a batch of requests. -/
  file? : Option String
  instructions : Bool
  /-- How many times more log records were asked for. -/
  verbosity : Nat
  /-- Whether to keep all log records but errors back. -/
  quiet : Bool
  deriving DecidableEq, Repr

/-- Why the reading of arguments ends without options. -/
inductive Refusal where
  | version
  | help
  | usage
  deriving DecidableEq, Repr

/-- What is known after some arguments. -/
structure Reading where
  options : Options
  /-- Whether the next argument is the name of a file. -/
  fileDue : Bool
  /-- Whether all further arguments are operands. -/
  operandsOnly : Bool
  deriving DecidableEq, Repr

namespace Reading

def start : Reading := ⟨⟨none, none, false, 0, false⟩, false, false⟩

def operand (r : Reading) (arg : String) : Except Refusal Reading :=
  if r.options.expression?.isSome then .error .usage
  else .ok { r with options := { r.options with expression? := some arg } }

/-- Takes the name of the file, which is not empty; there is at most one. -/
def file (r : Reading) (path : List Char) : Except Refusal Reading :=
  if path.isEmpty || r.options.file?.isSome then .error .usage
  else .ok
    { r with
      options := { r.options with file? := some (String.ofList path) }
      fileDue := false }

def awaitFile (r : Reading) : Except Refusal Reading := .ok { r with fileDue := true }

def verbose (r : Reading) : Reading :=
  { r with options := { r.options with verbosity := r.options.verbosity + 1 } }

def quiet (r : Reading) : Except Refusal Reading :=
  if r.options.quiet then .error .usage
  else .ok { r with options := { r.options with quiet := true } }

def instructions (r : Reading) : Except Refusal Reading :=
  if r.options.instructions then .error .usage
  else .ok { r with options := { r.options with instructions := true } }

/-- Reads an option with a long name, and the value attached to it after a `=`. -/
def long (r : Reading) (name : String) (value? : Option (List Char)) : Except Refusal Reading :=
  match name, value? with
  | "file", some path => r.file path
  | "file", none => r.awaitFile
  | "instructions", none => r.instructions
  | "verbose", none => .ok r.verbose
  | "quiet", none => r.quiet
  | "help", none => .error .help
  | "version", none => .error .version
  | _, _ => .error .usage

/-- Reads options of one letter each. What follows the letter of the file is its name. -/
def cluster (r : Reading) : List Char → Except Refusal Reading
  | [] => .ok r
  | 'f' :: [] => r.awaitFile
  | 'f' :: '=' :: path => r.file path
  | 'f' :: path => r.file path
  | 'v' :: rest => r.verbose.cluster rest
  | 'q' :: rest => do
      let r ← r.quiet
      r.cluster rest
  | 'h' :: _ => .error .help
  | 'V' :: _ => .error .version
  | _ => .error .usage

/-- Whether an argument has the form of an option. A lone dash has not. -/
def isOption : List Char → Bool
  | '-' :: _ :: _ => true
  | _ => false

def step (r : Reading) (arg : String) : Except Refusal Reading :=
  let cs := arg.toList
  if r.operandsOnly then r.operand arg
  else if r.fileDue then
    if isOption cs then .error .usage else r.file cs
  else
    match cs with
    | ['-', '-'] => .ok { r with operandsOnly := true }
    | '-' :: '-' :: option =>
        let name := String.ofList (option.takeWhile (· != '='))
        match option.dropWhile (· != '=') with
        | [] => r.long name none
        | _ :: value => r.long name (some value)
    | ['-'] => r.operand arg
    | '-' :: letters => r.cluster letters
    | _ => r.operand arg

/-- The options, if no argument is missing and no two of them exclude each other. -/
def finish (r : Reading) : Except Refusal Options :=
  let o := r.options
  if r.fileDue || (o.expression?.isSome && o.file?.isSome) || (o.quiet && o.verbosity != 0) then
    .error .usage
  else .ok o

end Reading

def Options.ofArguments (args : List String) : Except Refusal Options := do
  let r ← args.foldlM Reading.step .start
  r.finish

end PropLogic.CommandLine
