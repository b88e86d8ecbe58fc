import CostWatch.Cost.Record
import CostWatch.Text.WhiteSpace

/-!
Reports of the analysis: a JSON array with one item for each procedure.

A report is taken as a whole. Either every item becomes a record, and the records come in the order
of their lines, or the first bad item is the reason why there are none.
-/

set_option autoImplicit false

namespace CostWatch

inductive ReportedDegree where
  | number (n : UInt32)
  | text (s : String)

structure ReportedCost where
  polynomial : String
  degree : ReportedDegree
  bigO : String

structure ReportItem where
  name : String
  file : String
  line : Int
  allocation : ReportedCost
  execution : ReportedCost

inductive ReportFault where
  | notJson (fault : Json.Fault)
  | emptyName
  | invalidLine (line : Int) (name : String)
  | invalidDegree (text : String)
  /-- A reason in the words of whoever refused the report. -/
  | other (reason : String)

def ReportFault.message : ReportFault → String
  | .notJson fault => fault.message
  | .emptyName => "procedure_name must not be empty"
  | .invalidLine line name => s!"invalid line number {line} for " ++ name
  | .invalidDegree text => "invalid hum_degree " ++ Text.quote text
  | .other reason => reason

open Json

def ReportedCost.schema : Schema :=
  .record "struct RawCost"
    (.cons "hum" .required
      (.record "struct RawHumanCost"
        (.cons "hum_polynomial" .required .string <|
          .cons "hum_degree" .required (.either "RawDegree" .word32 .string) <|
          .cons "big_o" .required .string .nil)) .nil)

def ReportItem.schema : Schema :=
  .record "struct RawCostItem"
    (.cons "procedure_name" .required .string <|
      .cons "loc" .required
        (.record "struct RawLocation"
          (.cons "file" .required .string <| .cons "lnum" .required .integer .nil)) <|
      .cons "alloc_cost" .required ReportedCost.schema <|
      .cons "exec_cost" .required ReportedCost.schema .nil)

def ReportedDegree.ofData : Nat ⊕ String → ReportedDegree
  | .inl n => .number (UInt32.ofNat n)
  | .inr s => .text s

def ReportedCost.ofData : ReportedCost.schema.Data → ReportedCost
  | ((polynomial, degree, bigO, ()), ()) => ⟨polynomial, .ofData degree, bigO⟩

def ReportItem.ofData : ReportItem.schema.Data → ReportItem
  | (name, (file, line, ()), allocation, execution, ()) =>
    ⟨name, file, line, .ofData allocation, .ofData execution⟩

def unboundedMark : String := "Top"

def ReportedDegree.resolve : ReportedDegree → Except ReportFault (Option UInt32)
  | .number n => .ok (some n)
  | .text s =>
    let t := Text.trim s
    if t = unboundedMark then .ok none
    else
      match Text.natural? Text.maxWord32 t with
      | some n => .ok (some (UInt32.ofNat n))
      | none => .error (.invalidDegree t)

def ReportedCost.resolve (c : ReportedCost) : Except ReportFault Cost :=
  c.degree.resolve.map fun degree => ⟨c.polynomial, degree, c.bigO⟩

/-- The record of an item. Its name is judged first, then its line, then the degrees of its
allocation and execution costs. -/
def ReportItem.toRecord (documentOf : String → Document) (item : ReportItem) :
    Except ReportFault Record :=
  if Text.trim item.name = "" then .error .emptyName
  else if item.line < 0 ∨ Int.ofNat Text.maxWord32 < item.line then
    .error (.invalidLine item.line item.name)
  else do
    let allocation ← item.allocation.resolve
    let execution ← item.execution.resolve
    .ok
      { id := .of (documentOf item.file) item.name
        method := item.name
        location := ⟨item.file, UInt32.ofNat item.line.toNat⟩
        allocation
        execution
        timestamp := none }

def insertByLine (r : Record) : List Record → List Record
  | [] => [r]
  | s :: rest =>
    if r.location.line ≤ s.location.line then r :: s :: rest else s :: insertByLine r rest

/-- Records in the order of their lines; those of one line keep their order. -/
def sortByLine : List Record → List Record
  | [] => []
  | r :: rest => insertByLine r (sortByLine rest)

def recordsOf (documentOf : String → Document) (items : List ReportItem) :
    Except ReportFault (List Record) :=
  (items.mapM (ReportItem.toRecord documentOf)).map sortByLine

def decodeReport (bytes : List UInt8) : Except ReportFault (List ReportItem) :=
  match (Schema.list ReportItem.schema).decode (symbolsOfBytes bytes) with
  | .ok items => .ok (List.map ReportItem.ofData items)
  | .error fault => .error (.notJson fault)

/-- The records of a report; `documentOf` tells to which document a file name of the report
belongs. -/
def readReport (documentOf : String → Document) (bytes : List UInt8) :
    Except ReportFault (List Record) := do
  recordsOf documentOf (← decodeReport bytes)

end CostWatch
