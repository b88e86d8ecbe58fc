import CostWatch.Proofs.Host.Lines
import CostWatch.Proofs.Json.Tagged
import CostWatch.Proofs.Ledger.Storage

/-!
What editor and host send to each other arrives as it was sent.
-/

set_option autoImplicit false

namespace CostWatch

open Json

/-! Requests -/

namespace Request

theorem union_sound : union.Sound := by
  constructor <;> decide

theorem writes (r : Request) : union.Writes r r.command r.entries := by
  cases r with
  | enableForFile | reExecute | reExecuteFileInProject | disable | cleanOutput | shutdown =>
    exact .of rfl () trivial rfl rfl
  | enableForProject text | whitelistAdd text | whitelistRemove text =>
    exact .of rfl (text, ()) ⟨trivial, trivial⟩ rfl rfl
  | openDetail method =>
    exact .of rfl (method.key, ()) ⟨trivial, trivial⟩ rfl rfl
  | openOverview selected =>
    exact .of rfl (some selected, ())
      ⟨fun _ _ => ⟨rfl, fun _ _ => trivial⟩, trivial⟩ rfl rfl
  | documentActivated document text | documentChanged document text
  | documentSaved document text =>
    exact .of rfl (document.path, text, ()) ⟨trivial, trivial, trivial⟩ rfl rfl

theorem decode_encode (r : Request) : decode r.encode = .ok r :=
  union_sound.decode_object r.writes

theorem visible_encode (r : Request) : Visible r.encode.toList := by
  have fits : r.toValue.Fits 127 := ⟨trivial, union_sound.fits r.writes⟩
  rw [encode, Value.compact, String.toList_ofList]
  exact r.toValue.visible_print fits

def line (r : Request) : List UInt8 :=
  Text.Utf8.encode (r.encode ++ "\n")

end Request

/-! Events -/

theorem Point.ofData_data (p : Point) : Point.ofData p.data = p := by
  simp [ofData, data]

theorem Point.readable_data (p : Point) : Point.schema.Readable p.data :=
  ⟨by decide, readable_word32 p.line, readable_word32 p.character, trivial⟩

theorem Range.ofData_data (r : Range) : Range.ofData r.data = r := by
  simp only [ofData, data, Point.ofData_data]

theorem Range.readable_data (r : Range) : Range.schema.Readable r.data :=
  ⟨by decide, r.start.readable_data, r.finish.readable_data, trivial⟩

theorem Decoration.ofData_data (d : Decoration) : Decoration.ofData d.data = d := by
  simp only [ofData, data, Range.ofData_data]

theorem Decoration.readable_data (d : Decoration) : Decoration.schema.Readable d.data :=
  ⟨by decide, trivial, trivial, d.range.readable_data, d.nameRange.readable_data, trivial, trivial,
    trivial⟩

theorem Decoration.ofData_list (items : List Decoration) :
    (items.map Decoration.data).map Decoration.ofData = items := by
  rw [List.map_map, List.map_congr_left fun d _ => d.ofData_data, List.map_id']

theorem Level.ofName_name (level : Level) : Level.ofName level.name = level := by
  cases level <;> rfl

theorem Level.name_mem (level : Level) : level.name ∈ Level.names := by
  cases level <;> decide

theorem Panel.ofName_name (panel : Panel) : Panel.ofName panel.name = panel := by
  cases panel <;> rfl

theorem Panel.ofName_list (panels : List Panel) :
    (panels.map Panel.name).map Panel.ofName = panels := by
  rw [List.map_map, List.map_congr_left fun panel _ => panel.ofName_name, List.map_id']

theorem Panel.name_mem (panel : Panel) : panel.name ∈ Panel.names := by
  cases panel <;> decide

namespace Event

theorem union_sound : union.Sound := by
  constructor <;> decide

theorem writes (e : Event) : union.Writes e e.name e.entries := by
  cases e with
  | notice level message =>
    refine .of rfl (level.name, message, ()) ⟨level.name_mem, trivial, trivial⟩ rfl ?_
    exact congrArg (notice · message) level.ofName_name
  | decorations document stale items =>
    refine .of rfl (document.path, stale, items.map Decoration.data, ())
      ⟨trivial, trivial, ?_, trivial⟩ rfl ?_
    · intro d member
      obtain ⟨item, _, rfl⟩ := List.mem_map.mp member
      exact item.readable_data
    · exact congrArg (decorations document stale) (Decoration.ofData_list items)
  | panel kind title html =>
    refine .of rfl (kind.name, title, html, ())
      ⟨kind.name_mem, trivial, trivial, trivial⟩ rfl ?_
    exact congrArg (panel · title html) kind.ofName_name
  | progress active title =>
    exact .of rfl (active, title, ()) ⟨trivial, trivial, trivial⟩ rfl rfl
  | cleared panels =>
    refine .of rfl (panels.map Panel.name, ()) ⟨?_, trivial⟩ rfl ?_
    · intro name member
      obtain ⟨panel, _, rfl⟩ := List.mem_map.mp member
      exact panel.name_mem
    · exact congrArg cleared (Panel.ofName_list panels)

theorem decode_encode (e : Event) : decode e.encode = .ok e :=
  union_sound.decode_object e.writes

theorem visible_encode (e : Event) : Visible e.encode.toList := by
  have fits : e.toValue.Fits 127 := ⟨trivial, union_sound.fits e.writes⟩
  rw [encode, Value.compact, String.toList_ofList]
  exact e.toValue.visible_print fits

end Event

/-! Lines -/

theorem encode_line (s : String) :
    Text.Utf8.encode (s ++ "\n") = Text.Utf8.encode s ++ [10] := by
  have newline : Text.Utf8.encode "\n" = [10] := by decide
  rw [← newline]
  simp [Text.Utf8.encode]

theorem newline_not_mem_of_visible {s : String} (visible : Visible s.toList) :
    10 ∉ Text.Utf8.encode s :=
  Text.Utf8.newline_not_mem_encode fun member => absurd (visible '\n' member) (by decide)

theorem cut_line {line : List UInt8} (inLine : 10 ∉ line) (held rest : List UInt8) :
    cut held (line ++ 10 :: rest) =
      ((held ++ line ++ [10]) :: (cut [] rest).1, (cut [] rest).2) := by
  induction line generalizing held with
  | nil => rw [List.nil_append, cut, if_pos rfl, List.append_nil]
  | cons b line ih =>
    rw [List.mem_cons, not_or] at inLine
    rw [List.cons_append, cut, if_neg (Ne.symm inLine.1), ih inLine.2, List.append_assoc held,
      List.singleton_append]

theorem pieces_line {line : List UInt8} (inLine : 10 ∉ line) (rest : List UInt8) :
    pieces (line ++ 10 :: rest) = (line ++ [10]) :: pieces rest := by
  rw [pieces, cut_line inLine, List.nil_append, pieces, List.cons_append]

/-- The lines of a stream that a newline ends, without their newlines. -/
def completeLines (bytes : List UInt8) : List (List UInt8) :=
  (bytes.splitOn 10).dropLast

section
variable {α : Type} {encode : α → String} (visible : ∀ a, Visible (encode a).toList)
include visible

/-- Texts without control characters are told apart by the newlines that are put after them. -/
theorem splitOn_lines (items : List α) :
    (items.flatMap fun a => Text.Utf8.encode (encode a ++ "\n")).splitOn 10 =
      items.map (fun a => Text.Utf8.encode (encode a)) ++ [[]] := by
  induction items with
  | nil => rfl
  | cons a rest ih =>
    have inLine : ∀ b ∈ Text.Utf8.encode (encode a), (b == 10) = false := fun b member =>
      beq_false_of_ne fun same => newline_not_mem_of_visible (visible a) (same ▸ member)
    rw [List.flatMap_cons, encode_line, List.append_assoc, List.singleton_append, List.splitOn,
      List.splitOnP_append_cons_of_forall_mem inLine 10 rfl, List.map_cons, List.cons_append]
    exact congrArg _ ih

theorem pieces_lines (items : List α) :
    pieces (items.flatMap fun a => Text.Utf8.encode (encode a ++ "\n")) =
      items.map fun a => Text.Utf8.encode (encode a ++ "\n") := by
  induction items with
  | nil => rfl
  | cons a rest ih =>
    rw [List.flatMap_cons, encode_line, List.append_assoc, List.singleton_append,
      pieces_line (newline_not_mem_of_visible (visible a)), ih, List.map_cons, encode_line]

end

def eventOfLine (line : List UInt8) : Except LineFault Event :=
  match Text.Utf8.decode line with
  | .error fault => .error (.notUtf8 fault)
  | .ok text => (Event.decode text).mapError .malformed

theorem eventOfLine_encode (e : Event) : eventOfLine (Text.Utf8.encode e.encode) = .ok e := by
  rw [eventOfLine, Text.Utf8.decode_encode]
  dsimp only
  rw [e.decode_encode]
  rfl

theorem trimList_line {first last : Char} (body : List Char)
    (begins : Text.isWhiteSpace first = false) (ends : Text.isWhiteSpace last = false) :
    Text.trimList (first :: (body ++ [last]) ++ ['\n']) = first :: (body ++ [last]) := by
  have newline : Text.isWhiteSpace '\n' = true := rfl
  simp [Text.trimList, begins, ends, newline]

theorem requestOfLine_line (r : Request) : requestOfLine r.line = .ok (some r) := by
  obtain ⟨body, printed⟩ : ∃ body, r.encode.toList = '\x7b' :: (body ++ ['\x7d']) := by
    rw [Request.encode, Value.compact, String.toList_ofList]
    exact ⟨_, rfl⟩
  have trimmed : Text.trim (r.encode ++ "\n") = r.encode := by
    rw [Text.trim, String.toList_append, printed]
    refine (congrArg String.ofList (trimList_line body rfl rfl)).trans ?_
    rw [← printed, String.ofList_toList]
  have some : r.encode ≠ "" := by
    intro empty
    rw [empty] at printed
    cases printed
  rw [requestOfLine, Request.line, Text.Utf8.decode_encode]
  dsimp only
  rw [trimmed, if_neg some, r.decode_encode]

/-- Requests and events are read back from their encodings. A host takes from its input the requests
whose lines were sent, and what it sends for events has one line for each of them, in order, from
which the event is read back. -/
theorem wire_round_trip :
    (∀ r : Request, Request.decode r.encode = .ok r) ∧
      (∀ e : Event, Event.decode e.encode = .ok e) ∧
      (∀ requests : List Request,
        (pieces (requests.flatMap Request.line)).map requestOfLine =
          requests.map fun r => .ok (some r)) ∧
      ∀ events : List Event,
        (events.flatMap Event.line).splitOn 10 =
            events.map (fun e => Text.Utf8.encode e.encode) ++ [[]] ∧
          (completeLines (events.flatMap Event.line)).mapM eventOfLine = .ok events := by
  refine ⟨Request.decode_encode, Event.decode_encode, fun requests => ?_, fun events => ?_⟩
  · have lines : pieces (requests.flatMap Request.line) = requests.map Request.line :=
      pieces_lines Request.visible_encode requests
    simp only [lines, List.map_map, Function.comp_def, requestOfLine_line]
  · have lines : (events.flatMap Event.line).splitOn 10 =
        events.map (fun e => Text.Utf8.encode e.encode) ++ [[]] :=
      splitOn_lines Event.visible_encode events
    refine ⟨lines, ?_⟩
    rw [completeLines, lines, List.dropLast_concat]
    exact mapM_map_eq_ok fun e _ => eventOfLine_encode e

end CostWatch
