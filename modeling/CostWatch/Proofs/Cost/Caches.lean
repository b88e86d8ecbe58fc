import CostWatch.Cost.Cache
import CostWatch.Proofs.Files
import CostWatch.Proofs.Ledger.Storage

/-!
What a cache holds is what was written into it, and the cache of the project is none of those of
files.
-/

set_option autoImplicit false

namespace CostWatch

open Json

theorem CachedDocument.ofData_data (c : CachedDocument) : ofData c.data = c :=
  congrArg (CachedDocument.mk c.document) (Record.ofData_list c.records)

theorem CachedDocument.readable_data (c : CachedDocument) : schema.Readable c.data :=
  ⟨by decide, trivial, Record.readable_list c.records, trivial⟩

namespace Cache

@[simp] theorem decode_encode (documents : List CachedDocument) :
    decode (encode documents) = .ok documents := by
  have readable :
      CachedDocument.listSchema.Readable (documents.map CachedDocument.data) := by
    intro d member
    obtain ⟨c, _, rfl⟩ := List.mem_map.mp member
    exact c.readable_data
  have read : CachedDocument.listSchema.decode (symbolsOfBytes (encode documents)) =
      .ok (documents.map CachedDocument.data) := by
    rw [encode, symbolsOfBytes_encode]
    exact Schema.decode_indented readable (by decide)
  rw [decode, read]
  refine congrArg Except.ok ?_
  rw [List.map_map, List.map_congr_left fun c _ => c.ofData_data, List.map_id']

theorem load?_of_read {folder : Folder} {name : String} {documents : List CachedDocument}
    (holds : folder.read name = .ok (encode documents)) :
    load? folder name = some documents := by
  rw [load?, holds]
  dsimp only
  rw [decode_encode]
  rfl

@[simp] theorem load?_absent (name : String) : load? .absent name = none :=
  rfl

theorem load?_eq_some_iff {folder : Folder} {name : String} {documents : List CachedDocument} :
    load? folder name = some documents ↔
      ∃ bytes, folder.read name = .ok bytes ∧ decode bytes = .ok documents := by
  rw [load?]
  cases folder.read name with
  | error fault => simp
  | ok bytes => cases decoded : decode bytes <;> simp [decoded, Except.toOption]

/-- What is loaded after a cache was written is that cache, or could be loaded before. -/
theorem load?_of_store {folder : Folder} {name other : String}
    {documents loaded : List CachedDocument}
    (found : load? (store folder name documents).2 other = some loaded) :
    loaded = documents ∨ load? folder other = some loaded := by
  obtain ⟨bytes, read, decoded⟩ := load?_eq_some_iff.mp found
  rcases Folder.read_of_write read with rfl | before
  · rw [decode_encode] at decoded
    exact .inl (Except.ok.inj decoded).symm
  · exact .inr (load?_eq_some_iff.mpr ⟨bytes, before, decoded⟩)

/-- A cache is found right in its folder. -/
structure Direct (name : String) : Prop where
  single : '/' ∉ name.toList
  named : Files.isName name = true

theorem direct_projectName : Direct projectName := by
  constructor <;> decide +kernel

theorem direct_fileName {stem : String} (single : '/' ∉ stem.toList) : Direct (fileName stem) := by
  have starts : (fileName stem).toList = 'f' :: ("ile-" ++ stem ++ "-costs.json").toList := by
    simp [fileName]
  constructor
  case single => simp [fileName, single]
  case named =>
    simp only [Files.isName, Bool.and_eq_true, bne_iff_ne, ne_eq]
    refine ⟨⟨?_, ?_⟩, ?_⟩ <;>
    · intro same
      rw [same] at starts
      simp at starts

theorem direct_of_isJava {d : Document} (java : d.isJava = true) : Direct (fileName d.stem) :=
  direct_fileName (Document.fileName_eq_of_isJava java).2.2

theorem Direct.components_append {name : String} (direct : Direct name) (folder : String) :
    Path.components (Path.append folder name).toList =
      Path.components folder.toList ++ [.name name.toList] := by
  have text (other : String) : name.toList = other.toList ↔ name = other := String.toList_inj
  have named := direct.named
  simp only [Files.isName, Bool.and_eq_true, bne_iff_ne, ne_eq, ← text] at named
  have counts : Path.Component.ofSegment? name.toList = some (.name name.toList) := by
    rw [Path.Component.ofSegment?]
    exact (if_neg (not_or.mpr named.1)).trans (if_neg named.2)
  rw [Path.append, String.toList_ofList]
  exact Path.components_join_name _ direct.single counts

theorem read_store_other {folder : Folder} {name other : String} {documents : List CachedDocument}
    (direct : Direct name) (otherDirect : Direct other) (apart : other ≠ name)
    (bytes : List UInt8) :
    (store folder name documents).2.read other = .ok bytes ↔ folder.read other = .ok bytes :=
  Folder.read_write_other direct.single otherDirect.single direct.named otherDirect.named apart bytes

theorem fileName_inj {stem other : String} : fileName stem = fileName other ↔ stem = other := by
  rw [fileName, fileName, String.append_left_inj, String.append_right_inj]

theorem fileName_ne_projectName (stem : String) : fileName stem ≠ projectName := by
  intro same
  have first := congrArg (fun name => name.toList.head?) same
  simp [fileName, projectName] at first

end Cache

end CostWatch
