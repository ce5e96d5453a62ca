import PropLogic.Table.Classification

/-!
# Printed truth tables

A table is printed with one line for each row, under a header and a rule of dashes as wide as the
header. Truth values are printed as `1` and `0`.
-/

namespace PropLogic

def bit (b : Bool) : Nat := if b then 1 else 0

def columnSeparator : String := " | "

def resultHeader : String := "Resultado"

def Row.text (row : Row) : String :=
  String.intercalate columnSeparator ((row.values ++ [row.result]).map fun b => toString (bit b))

def TruthTable.header (t : TruthTable) : String :=
  String.intercalate columnSeparator (t.columns.map toString ++ [resultHeader])

def TruthTable.text (t : TruthTable) : String :=
  let rule := String.ofList (List.replicate t.header.length '-')
  String.join ((t.header :: rule :: t.rows.map Row.text).map fun line => line ++ "\n")

def ClassifiedTable.text (t : ClassifiedTable) : String :=
  t.table.text ++ t.classification.sentence

end PropLogic
