import PropLogic.CommandLine.Arguments
import PropLogic.Journal.Answer
import PropLogic.Table.Printer

/-!
# Reports

A run of the command line ends in a report: its exit status and what it prints. Log records carry
the time of day, which is left open until they are printed.
-/

namespace PropLogic.CommandLine

inductive Diagnostic where
  | record (level : Journal.Level) (message : String)
  | notice (message : String)
  deriving DecidableEq, Repr

/-- A diagnostic as printed at a time of day. -/
def Diagnostic.text (time : String) : Diagnostic → String
  | .record level message => s!"{time} [{level.label}] {message}\n"
  | .notice message => message ++ "\n"

/-- What a run prints, and its exit status. -/
structure Report where
  status : Nat
  output : String
  diagnostics : List Diagnostic
  deriving DecidableEq, Repr

inductive Source where
  | standardInput
  | file (path : String)
  deriving DecidableEq, Repr

namespace Source

def label : Source → String
  | .standardInput => "stdin"
  | .file path => path

def description : Source → String
  | .standardInput => "stdin"
  | .file path => s!"file '{path}'"

end Source

inductive Job where
  | instructions
  | single (request : String)
  | batch (source : Source)
  deriving DecidableEq, Repr

def Options.job (o : Options) : Job :=
  if o.instructions then .instructions
  else
    match o.expression?, o.file? with
    | some request, _ => .single request
    | none, some path => .batch (.file path)
    | none, none => .batch .standardInput

def Job.source? : Job → Option Source
  | .batch source => some source
  | _ => none

/-- The least important level of log records that are printed. -/
def Options.threshold (o : Options) : Journal.Level :=
  if o.quiet then .error
  else
    match o.verbosity with
    | 0 => .warn
    | 1 => .info
    | 2 => .debug
    | _ => .trace

def Options.shown (o : Options) (records : List Journal.Record) : List Diagnostic :=
  (records.filter fun r => r.level.rank ≤ o.threshold.rank).map fun r =>
    .record r.level r.message

def instructionsText : String :=
  "COMO USAR O GERADOR DE TABELAS-VERDADE

1. DIGITE SUA PROPOSIÇÃO:
   • Use as variáveis: p, q, r
   • Operadores disponíveis:
     ¬ ou !   Negação
     ∧ ou &   Conjunção (E)
     ∨ ou |   Disjunção (OU)
     → ou =>  Condicional
     ↔ ou <=> Bicondicional

2. EXEMPLOS VÁLIDOS:
   • p ∧ q
   • (p ∨ q) → r
   • ¬p ↔ (q ∧ r)

3. RESULTADOS:
   • Tabela com todas combinações possíveis
   • Classificação como:
     - Tautologia (sempre verdadeira)
     - Contradição (sempre falsa)
     - Contingência (depende dos valores)"

/-- The message to users about a request that was not answered. -/
def describe : RequestError → String
  | .unbalancedParentheses => "Parênteses desbalanceados! Verifique sua expressão."
  | .invalidCharacterSet =>
      "Expressão inválida!\n\nOperadores permitidos:\n" ++
        "¬ ou ! (Negação)\n∧ ou & (E)\n∨ ou | (OU)\n" ++
        "→ ou => (Condicional)\n↔ ou <=> (Bicondicional)\n\nUse apenas as variáveis p, q, r"
  | .evaluationFailure cause => "Não foi possível avaliar a expressão: " ++ cause.message

namespace Report

def ofInstructions : Report := ⟨0, instructionsText ++ "\n", []⟩

def ofRequest (o : Options) (request : String) : Report :=
  let answered := Journal.answer request
  match answered.value with
  | .ok t => ⟨0, t.text ++ "\n", o.shown answered.records⟩
  | .error e => ⟨1, "", o.shown answered.records ++ [.notice s!"Erro: {describe e}"]⟩

/-- The printed form of an entry of a batch. -/
def entryText (e : Entry) : String :=
  match e.outcome with
  | .ok t => e.expression ++ "\n" ++ t.text ++ "\n"
  | .error _ => e.expression ++ "\n"

def entryNotice? (e : Entry) : Option Diagnostic :=
  match e.outcome with
  | .ok _ => none
  | .error error => some (.notice s!"Linha {e.line}: {describe error}")

/-- The output for the entries of a batch, with an empty line between one and the next. -/
def entriesText (entries : List Entry) : String :=
  String.intercalate "\n" (entries.map entryText)

def ofBatch (o : Options) (source : Source) (content : Except ReadError ByteArray) : Report :=
  let opening := Journal.Record.reading source.label
  let answered := do
    Journal.Logged.emit opening
    match content with
    | .ok bytes => Journal.batchOfStream [bytes]
    | .error e => return .error e
  match answered.value with
  | .ok entries =>
      ⟨if entries.all Entry.succeeded then 0 else 1, entriesText entries,
        o.shown answered.records ++ entries.filterMap entryNotice?⟩
  | .error e =>
      ⟨1, "", o.shown answered.records ++
        [.notice s!"Error reading {source.description}: {e.message}"]⟩

def versionText : String := "truth-table 1.0.0"

def helpText : String :=
  "Truth tables and tautology checking for formulas over p, q and r

Usage: truth-table [OPTIONS] [EXPRESSION]

Arguments:
  [EXPRESSION]  Formula to tabulate (formulas are read from stdin, one per line, if omitted)

Options:
  -f, --file <FILE>   Read formulas from a file, one per line ('#' starts a comment line)
      --instructions  Print usage instructions and exit
  -v, --verbose...    Increase log output (-v info, -vv debug, -vvv trace)
  -q, --quiet         Only log errors
  -h, --help          Print help
  -V, --version       Print version"

def ofRefusal : Refusal → Report
  | .version => ⟨0, versionText ++ "\n", []⟩
  | .help => ⟨0, helpText ++ "\n", []⟩
  | .usage => ⟨2, "", [.notice "error: invalid arguments; for more information, try '--help'."]⟩

end Report

/-- The report of a run with given options. `content` is what the source of the job contains, and
is not looked at by a job without a source. -/
def Report.ofOptions (o : Options) (content : Except ReadError ByteArray) : Report :=
  match o.job with
  | .instructions => ofInstructions
  | .single request => ofRequest o request
  | .batch source => ofBatch o source content

/-- What a source contains, given the standard input and the files. -/
def Source.content (standardInput : ByteArray) (fileContent : String → Except ReadError ByteArray) :
    Source → Except ReadError ByteArray
  | .standardInput => .ok standardInput
  | .file path => fileContent path

def run (args : List String) (standardInput : ByteArray)
    (fileContent : String → Except ReadError ByteArray) : Report :=
  match Options.ofArguments args with
  | .error refusal => .ofRefusal refusal
  | .ok o =>
      match o.job.source? with
      | some source => .ofOptions o (source.content standardInput fileContent)
      | none => .ofOptions o (.ok .empty)

end PropLogic.CommandLine
