import PropLogic.Formula.Semantics
import PropLogic.Formula.Printer

/-!
# Journal records

What happens while a request is answered is recorded. A record has a level and a text.
-/

namespace PropLogic.Journal

/-- The levels of records, from the most to the least important. -/
inductive Level where
  | error
  | warn
  | info
  | debug
  | trace
  deriving DecidableEq, Repr

namespace Level

def rank : Level → Nat
  | .error => 0
  | .warn => 1
  | .info => 2
  | .debug => 3
  | .trace => 4

def label : Level → String
  | .error => "ERROR"
  | .warn => "WARN"
  | .info => "INFO"
  | .debug => "DEBUG"
  | .trace => "TRACE"

end Level

/-- The checks that reject a request before it is read. -/
inductive Check where
  | parentheses
  | characters
  deriving DecidableEq, Repr

/-- One thing that happened while requests were answered. -/
inductive Record where
  | rejected (request : String) (check : Check)
  | normalized (request canonical : String)
  | parsed (text : String) (f : Formula)
  | tabulating (f : Formula) (columns : Nat)
  | evaluated (bindings : List (Variable × Bool)) (result : Bool)
  | failed (line : Nat) (e : RequestError)
  | processed (count : Nat)
  | reading (source : String)
  deriving DecidableEq, Repr

namespace Record

def level : Record → Level
  | .failed .. => .warn
  | .reading .. => .info
  | .parsed .. | .evaluated .. => .trace
  | _ => .debug

def bindingsText (bindings : List (Variable × Bool)) : String :=
  let items := bindings.map fun (v, b) => s!"{v.capital}: {b}"
  "\x7b" ++ String.intercalate ", " items ++ "\x7d"

def message : Record → String
  | .rejected request .parentheses => s!"rejected {Text.quoted request}: unbalanced parentheses"
  | .rejected request .characters => s!"rejected {Text.quoted request}: invalid characters"
  | .normalized request canonical =>
      s!"normalized {Text.quoted request} to {Text.quoted canonical}"
  | .parsed text f => s!"parsed {Text.quoted text} into {f.outline}"
  | .tabulating f columns => s!"tabulating {f} over {columns} variable(s)"
  | .evaluated bindings result => s!"{bindingsText bindings} => {result}"
  | .failed line e => s!"line {line}: {e.message}"
  | .processed count => s!"processed {count} expression(s)"
  | .reading source => s!"reading formulas from {source}"

end Record

end PropLogic.Journal
