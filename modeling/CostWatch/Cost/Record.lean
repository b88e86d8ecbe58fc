import CostWatch.Json.Schema
import CostWatch.Path

/-!
Cost records: what an analysis found out about one method.

A document is known by its path, letter for letter. The key of a method joins the path of its
document and its name, so overloads share a key.
-/

set_option autoImplicit false

namespace CostWatch

structure Document where
  path : String
  deriving DecidableEq, Repr

namespace Document

/-- The file name; the whole path if it names no file. -/
def fileName (d : Document) : String :=
  ((Path.fileName? d.path.toList).map String.ofList).getD d.path

/-- The file name without its extension; the whole path if it names no file. -/
def stem (d : Document) : String :=
  ((Path.fileName? d.path.toList).map fun name => String.ofList (Path.stemOf name)).getD d.path

def isJava (d : Document) : Bool :=
  ((Path.fileName? d.path.toList).bind Path.extensionOf?) == some ['j', 'a', 'v', 'a']

end Document

structure MethodId where
  key : String
  deriving DecidableEq, Repr

def MethodId.of (document : Document) (method : String) : MethodId :=
  ⟨document.path ++ ":" ++ method⟩

/-- Where a method is declared, as the analysis reports it: lines count from one. -/
structure Location where
  file : String
  line : UInt32
  deriving DecidableEq, Repr

structure Cost where
  polynomial : String
  /-- The degree; absent if the cost has no bound. -/
  degree : Option UInt32
  bigO : String
  deriving DecidableEq, Repr

def Cost.isUnbounded (c : Cost) : Bool :=
  c.degree.isNone

structure Record where
  id : MethodId
  method : String
  location : Location
  allocation : Cost
  execution : Cost
  /-- When it was found out; only entries of a history tell. -/
  timestamp : Option String
  deriving DecidableEq, Repr

def constructorName : String := "<init>"

def staticInitializerName : String := "<clinit>"

namespace Record

def stamped (r : Record) (time : String) : Record :=
  { r with timestamp := some time }

def sameExecution (r s : Record) : Bool :=
  r.execution.polynomial == s.execution.polynomial

def isInitializer (r : Record) : Bool :=
  r.method == constructorName || r.method == staticInitializerName

end Record

/-! The JSON form -/

namespace Json.Schema

def string : Schema := .text "a string"

def word32 : Schema := .natural Text.maxWord32 "u32"

end Json.Schema

open Json

def Location.schema : Schema :=
  .record "struct Location"
    (.cons "file" .required .string <| .cons "lnum" .required .word32 .nil)

def Cost.schema : Schema :=
  .record "struct Cost"
    (.cons "polynomial" .required .string <|
      .cons "degree" .required (.nullable .word32) <|
      .cons "big_o" .required .string .nil)

def Record.schema : Schema :=
  .record "struct CostRecord"
    (.cons "id" .required .string <|
      .cons "method_name" .required .string <|
      .cons "location" .required Location.schema <|
      .cons "alloc_cost" .required Cost.schema <|
      .cons "exec_cost" .required Cost.schema <|
      .cons "timestamp" .optional (.nullable .string) .nil)

def Location.ofData : Location.schema.Data → Location
  | (file, line, ()) => ⟨file, UInt32.ofNat line⟩

def Location.data (l : Location) : Location.schema.Data :=
  (l.file, l.line.toNat, ())

def Cost.ofData : Cost.schema.Data → Cost
  | (polynomial, degree, bigO, ()) =>
    ⟨polynomial, Option.map UInt32.ofNat degree, bigO⟩

def Cost.data (c : Cost) : Cost.schema.Data :=
  (c.polynomial, c.degree.map UInt32.toNat, c.bigO, ())

def Record.ofData : Record.schema.Data → Record
  | (id, method, location, allocation, execution, timestamp, ()) =>
    { id := ⟨id⟩
      method
      location := .ofData location
      allocation := .ofData allocation
      execution := .ofData execution
      timestamp := Option.getD timestamp none }

def Record.data (r : Record) : Record.schema.Data :=
  (r.id.key, r.method, r.location.data, r.allocation.data, r.execution.data,
    r.timestamp.map some, ())

def Record.toValue (r : Record) : Value :=
  Record.schema.write r.data

def Record.decode (symbols : List Symbol) : Except Fault Record :=
  (Record.schema.decode symbols).map .ofData

def Record.listSchema : Schema := .list Record.schema

def Record.listToValue (rs : List Record) : Value :=
  Record.listSchema.write (rs.map Record.data)

end CostWatch
