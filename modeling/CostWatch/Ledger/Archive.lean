import CostWatch.Ledger.Storage

/-!
Archives: a database as one JSON text, with keys and values as lists of bytes.
-/

set_option autoImplicit false

namespace CostWatch.Archive

open Json

def bytesSchema : Schema := .list (.natural 255 "byte")

def entrySchema : Schema :=
  .record "struct Entry"
    (.cons "key" .required bytesSchema <| .cons "value" .required bytesSchema .nil)

def schema : Schema :=
  .record "struct Archive"
    (.cons "histories" .required (.list entrySchema) <|
      .cons "whitelist" .required (.list entrySchema) .nil)

def entryData (entry : List UInt8 × List UInt8) : entrySchema.Data :=
  (entry.1.map UInt8.toNat, entry.2.map UInt8.toNat, ())

def entryOf : entrySchema.Data → List UInt8 × List UInt8
  | (key, value, ()) => (List.map UInt8.ofNat key, List.map UInt8.ofNat value)

def treeOf (entries : List entrySchema.Data) : Tree :=
  entries.foldl (fun t data => t.insert (entryOf data).1 (entryOf data).2) .empty

def encode (s : Storage) : List UInt8 :=
  Text.Utf8.encode (Schema.write schema
    (s.histories.entries.map entryData, s.whitelist.entries.map entryData, ())).compact

def decode (bytes : List UInt8) : Except Fault Storage :=
  match schema.decode (symbolsOfBytes bytes) with
  | .ok (histories, whitelist, ()) => .ok ⟨treeOf histories, treeOf whitelist⟩
  | .error fault => .error fault

end CostWatch.Archive
