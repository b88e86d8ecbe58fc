import CostWatch.Cost.Record
import CostWatch.Folder
import CostWatch.Json.Printer

/-!
Caches of costs: one file for the last analysis of the project and one for each stem of an analysed
file. A cache that cannot be read counts as missing.
-/

set_option autoImplicit false

namespace CostWatch

structure CachedDocument where
  document : Document
  records : List Record
  deriving DecidableEq, Repr

namespace CachedDocument

open Json

def schema : Schema :=
  .record "struct CachedDocument"
    (.cons "document" .required .string <| .cons "records" .required Record.listSchema .nil)

def listSchema : Schema := .list schema

def ofData : schema.Data → CachedDocument
  | (document, records, ()) => ⟨⟨document⟩, List.map Record.ofData records⟩

def data (c : CachedDocument) : schema.Data :=
  (c.document.path, c.records.map Record.data, ())

end CachedDocument

namespace Cache

def projectName : String := "project-costs.json"

def fileName (stem : String) : String :=
  "file-" ++ stem ++ "-costs.json"

def encode (documents : List CachedDocument) : List UInt8 :=
  Text.Utf8.encode (CachedDocument.listSchema.write (documents.map CachedDocument.data)).indented

def decode (bytes : List UInt8) : Except Json.Fault (List CachedDocument) :=
  (CachedDocument.listSchema.decode (Json.symbolsOfBytes bytes)).map
    (List.map CachedDocument.ofData)

def load? (folder : Folder) (name : String) : Option (List CachedDocument) :=
  match folder.read name with
  | .error _ => none
  | .ok bytes => (decode bytes).toOption

def store (folder : Folder) (name : String) (documents : List CachedDocument) :
    Option IoFault × Folder :=
  folder.write name (encode documents)

end Cache

end CostWatch
