import CostWatch.Host
import CostWatch.Proofs.Session.Run
import Mathlib.Data.List.Induction

/-!
The lines that a host serves, however its input arrives.

The input is a stream of bytes. It arrives in chunks, and between chunks analyses are completed.
What a host does is determined by its turns: it takes lines, each one once, and it passes on what
analyses bring. The lines are the pieces of the stream up to the first request to shut down, but for
one case. The last piece is lost if no newline ends it and an analysis is completed between its last
byte and the end of the input: the call that read it has been given up, and the next call reads
nothing.
-/

set_option autoImplicit false

namespace CostWatch

inductive Arrival where
  | chunk (bytes : List UInt8) (c : Circumstances)
  | completion (analysis : Analysis) (result : Except Failure (List UInt8)) (c : Circumstances)

namespace Arrival

def bytes : Arrival → List UInt8
  | .chunk bytes _ => bytes
  | .completion _ _ _ => []

def isCompletion : Arrival → Bool
  | .chunk _ _ => false
  | .completion _ _ _ => true

end Arrival

def stream (arrivals : List Arrival) : List UInt8 :=
  arrivals.flatMap Arrival.bytes

namespace Host

def meet (h : Host) : Arrival → List Effect × Host
  | .chunk bytes c => h.readBytes c bytes
  | .completion analysis result c => h.completed analysis result c

def meetAll (h : Host) : List Arrival → List Effect × Host
  | [] => ([], h)
  | arrival :: rest =>
    let (effects, h) := h.meet arrival
    let (more, h) := h.meetAll rest
    (effects ++ more, h)

def serve (h : Host) (arrivals : List Arrival) (c : Circumstances) : List Effect × Host :=
  let (effects, h) := h.meetAll arrivals
  let (more, h) := h.inputOver c
  (effects ++ more, h)

end Host

/-! Turns -/

inductive Turn where
  | line (bytes : List UInt8) (c : Circumstances)
  | completion (analysis : Analysis) (result : Except Failure (List UInt8)) (c : Circumstances)

namespace Session

def takeLine (s : Session) (line : List UInt8) (c : Circumstances) : List Effect × Session :=
  match requestOfLine line with
  | .ok none => ([], s)
  | .ok (some request) =>
    if request = .shutdown then ([], s)
    else
      match s.handle request c with
      | (.ok outcome, next) => (outcome.effects, next)
      | (.error f, next) => ([.send (.ofFailure f)], next)
  | .error fault => ([.send (.warning ("Invalid request: " ++ fault.message))], s)

def turn (s : Session) : Turn → List Effect × Session
  | .line bytes c => s.takeLine bytes c
  | .completion analysis result c =>
    let (outcome, next) := s.complete analysis result c
    (outcome.effects, next)

def turns (s : Session) : List Turn → List Effect × Session
  | [] => ([], s)
  | turn :: rest =>
    let (effects, next) := s.turn turn
    let (more, last) := next.turns rest
    (effects ++ more, last)

theorem turns_append (s : Session) (first rest : List Turn) :
    s.turns (first ++ rest) =
      ((s.turns first).1 ++ ((s.turns first).2.turns rest).1,
        ((s.turns first).2.turns rest).2) := by
  induction first generalizing s with
  | nil => rfl
  | cons turn first ih => simp only [List.cons_append, turns, ih, List.append_assoc]

end Session

theorem Session.turns_singleton (s : Session) (turn : Turn) : s.turns [turn] = s.turn turn := by
  simp [turns]

/-! Lines -/

def asksShutdown (line : List UInt8) : Bool :=
  match requestOfLine line with
  | .ok (some request) => request = .shutdown
  | _ => false

def untilShutdown : List (List UInt8) → List (List UInt8)
  | [] => []
  | line :: rest => if asksShutdown line then [line] else line :: untilShutdown rest

/-- The lines that bytes complete, after the bytes of a line begun before, and what is left. -/
def cut (held : List UInt8) : List UInt8 → List (List UInt8) × List UInt8
  | [] => ([], held)
  | b :: rest =>
    if b = 10 then ((held ++ [b]) :: (cut [] rest).1, (cut [] rest).2)
    else cut (held ++ [b]) rest

/-- The pieces of a stream: each one ends after a newline, the last one perhaps without. -/
def pieces (bytes : List UInt8) : List (List UInt8) :=
  (cut [] bytes).1 ++ if (cut [] bytes).2 = [] then [] else [(cut [] bytes).2]

theorem flatten_cut (held bytes : List UInt8) :
    (cut held bytes).1.flatten ++ (cut held bytes).2 = held ++ bytes := by
  induction bytes generalizing held with
  | nil => simp [cut]
  | cons b rest ih =>
    rw [cut]
    split
    · simp [ih]
    · simp [ih]

theorem flatten_pieces (bytes : List UInt8) : (pieces bytes).flatten = bytes := by
  have whole := flatten_cut [] bytes
  rw [List.nil_append] at whole
  rw [pieces, List.flatten_append]
  split
  · next empty => rwa [empty] at whole
  · rwa [List.flatten_singleton]

theorem newline_cut {held : List UInt8} (inLine : 10 ∉ held) (bytes : List UInt8) :
    (∀ line ∈ (cut held bytes).1, ∃ text, 10 ∉ text ∧ line = text ++ [10]) ∧
      10 ∉ (cut held bytes).2 := by
  induction bytes generalizing held with
  | nil => exact ⟨nofun, inLine⟩
  | cons b rest ih =>
    rw [cut]
    split
    · next newline =>
      subst newline
      obtain ⟨lines, left⟩ := ih List.not_mem_nil
      exact ⟨List.forall_mem_cons.mpr ⟨⟨held, inLine, rfl⟩, lines⟩, left⟩
    · next other => exact ih (by simp [inLine, Ne.symm other])

/-- A newline ends every piece but the last one, which may also end with the stream. -/
theorem newline_pieces {bytes piece : List UInt8} {before after : List (List UInt8)}
    (among : pieces bytes = before ++ piece :: after) :
    ∃ text, 10 ∉ text ∧ (piece = text ++ [10] ∨ after = [] ∧ piece = text ∧ text ≠ []) := by
  obtain ⟨lines, left⟩ := newline_cut List.not_mem_nil bytes
  have complete (member : piece ∈ (cut [] bytes).1) :
      ∃ text, 10 ∉ text ∧ (piece = text ++ [10] ∨ after = [] ∧ piece = text ∧ text ≠ []) :=
    (lines piece member).imp fun text found => ⟨found.1, .inl found.2⟩
  rw [pieces] at among
  split at among
  · rw [List.append_nil] at among
    exact complete (among ▸ List.mem_append_right before List.mem_cons_self)
  · next some =>
    rcases List.eq_nil_or_concat after with rfl | ⟨inner, last, rfl⟩
    · obtain ⟨_, same⟩ := List.append_inj' among rfl
      cases same
      exact ⟨_, left, .inr ⟨rfl, rfl, some⟩⟩
    · rw [List.concat_eq_append, ← List.cons_append, ← List.append_assoc] at among
      obtain ⟨same, _⟩ := List.append_inj' among rfl
      exact complete (same ▸ List.mem_append_right before List.mem_cons_self)

theorem cut_append (held first rest : List UInt8) :
    cut held (first ++ rest) =
      ((cut held first).1 ++ (cut (cut held first).2 rest).1, (cut (cut held first).2 rest).2) := by
  induction first generalizing held with
  | nil => rfl
  | cons b first ih =>
    rw [List.cons_append, cut, cut]
    split
    · rw [ih]
      rfl
    · exact ih _

/-! What the turns of a host are -/

def Turn.line? : Turn → Option (List UInt8)
  | .line bytes _ => some bytes
  | .completion _ _ _ => none

def takenLines (turns : List Turn) : List (List UInt8) :=
  turns.filterMap Turn.line?

def lineTurns (held bytes : List UInt8) (c : Circumstances) : List Turn :=
  (cut held bytes).1.map (Turn.line · c)

/-- The turns to which arrivals lead after the bytes of a line begun before, as long as lines are
read; and what is left of the last line. -/
def turnsOf (held : List UInt8) : List Arrival → List Turn × List UInt8
  | [] => ([], held)
  | .chunk bytes c :: rest =>
    let (turns, left) := turnsOf (cut held bytes).2 rest
    (lineTurns held bytes c ++ turns, left)
  | .completion analysis result c :: rest =>
    let (turns, left) := turnsOf held rest
    (.completion analysis result c :: turns, left)

/-- Turns without the lines after the first one that asks to shut down. -/
def served (reading : Bool) : List Turn → List Turn
  | [] => []
  | .line bytes c :: rest =>
    if reading then .line bytes c :: served (!asksShutdown bytes) rest else served false rest
  | .completion analysis result c :: rest =>
    .completion analysis result c :: served reading rest

def readsOn (reading : Bool) (turns : List Turn) : Bool :=
  reading && !(takenLines turns).any asksShutdown

theorem takenLines_lineTurns (held bytes : List UInt8) (c : Circumstances) :
    takenLines (lineTurns held bytes c) = (cut held bytes).1 := by
  rw [takenLines, lineTurns, List.filterMap_map]
  exact List.filterMap_some

theorem takenLines_turnsOf (held : List UInt8) (arrivals : List Arrival) :
    (takenLines (turnsOf held arrivals).1, (turnsOf held arrivals).2) =
      cut held (stream arrivals) := by
  induction arrivals generalizing held with
  | nil => rfl
  | cons arrival rest ih =>
    cases arrival with
    | chunk bytes c =>
      have later := Prod.ext_iff.mp (ih (cut held bytes).2)
      rw [stream, List.flatMap_cons, Arrival.bytes, cut_append, ← stream, ← later.1, ← later.2,
        turnsOf, takenLines, List.filterMap_append, ← takenLines, ← takenLines,
        takenLines_lineTurns]
    | completion analysis result c => exact ih held

theorem served_append (reading : Bool) (first rest : List Turn) :
    served reading (first ++ rest) =
      served reading first ++ served (readsOn reading first) rest := by
  induction first generalizing reading with
  | nil => simp [served, readsOn, takenLines]
  | cons turn first ih =>
    cases turn with
    | line bytes c =>
      cases reading with
      | false => simp [served, ih, readsOn]
      | true => simp [served, ih, readsOn, takenLines, Turn.line?]
    | completion analysis result c => simp [served, ih, readsOn, takenLines, Turn.line?]

@[simp] theorem readsOn_nil (reading : Bool) : readsOn reading [] = reading :=
  Bool.and_true reading

theorem readsOn_append (reading : Bool) (first rest : List Turn) :
    readsOn reading (first ++ rest) = readsOn (readsOn reading first) rest := by
  simp [readsOn, takenLines, Bool.and_assoc]

theorem takenLines_served (reading : Bool) (turns : List Turn) :
    takenLines (served reading turns) =
      if reading then untilShutdown (takenLines turns) else [] := by
  induction turns generalizing reading with
  | nil => cases reading <;> rfl
  | cons turn rest ih =>
    cases turn with
    | line bytes c =>
      cases reading with
      | false => exact ih false
      | true =>
        change bytes :: takenLines (served (!asksShutdown bytes) rest) =
          untilShutdown (bytes :: takenLines rest)
        rw [ih, untilShutdown]
        cases asksShutdown bytes <;> rfl
    | completion analysis result c => exact ih reading

namespace Host

/-- A host as it stands: its session, the bytes of the line begun, how many of them the call under
way has read, and whether it reads. When it does not, it is left open what else it holds. -/
structure Stands (h : Host) (s : Session) (held : List UInt8) (count : Nat) (reading : Bool) :
    Prop where
  session : h.session = s
  reads : h.reading = reading
  line : reading = true → h.line = held.reverse
  readByCall : reading = true → h.readByCall = count

theorem takeLine_eq (h : Host) (c : Circumstances) :
    h.takeLine c =
      ((h.session.takeLine h.line.reverse c).1,
        ⟨(h.session.takeLine h.line.reverse c).2, [], 0,
          h.reading && !asksShutdown h.line.reverse⟩) := by
  obtain ⟨s, line, count, reading⟩ := h
  simp only [takeLine, Session.takeLine, asksShutdown]
  generalize requestOfLine line.reverse = found
  split
  · simp
  · simp
  · next request notShutdown =>
    simp only [if_neg notShutdown, decide_eq_false notShutdown]
    obtain ⟨answer, next⟩ := s.handle request c
    cases answer <;> simp
  · simp

/-- How many bytes of the line begun a call has read, once it has read further ones. -/
def countAfter (count : Nat) : List UInt8 → Nat
  | [] => count
  | b :: rest => if b = 10 then countAfter 0 rest else countAfter (count + 1) rest

def countAfterAll (count : Nat) : List Arrival → Nat
  | [] => count
  | .chunk bytes _ :: rest => countAfterAll (countAfter count bytes) rest
  | .completion _ _ _ :: rest => countAfterAll 0 rest

theorem readByte_of_closed {h : Host} (closed : ¬h.reading = true) (b : UInt8)
    (c : Circumstances) : h.readByte b c = ([], h) :=
  if_neg closed

theorem readByte_of_ne {h : Host} (reads : h.reading = true) {b : UInt8} (inLine : b ≠ 10)
    (c : Circumstances) :
    h.readByte b c = ([], { h with line := b :: h.line, readByCall := h.readByCall + 1 }) := by
  rw [readByte, if_pos reads, if_neg inLine]

theorem readByte_newline {h : Host} (reads : h.reading = true) (c : Circumstances) :
    h.readByte 10 c =
      ((h.session.takeLine (h.line.reverse ++ [10]) c).1,
        ⟨(h.session.takeLine (h.line.reverse ++ [10]) c).2, [], 0,
          !asksShutdown (h.line.reverse ++ [10])⟩) := by
  rw [readByte, if_pos reads, if_pos rfl, takeLine_eq, List.reverse_cons, reads, Bool.true_and]

variable {h : Host} {s : Session} {held : List UInt8} {count : Nat} {reading : Bool}

theorem stands_readByte (stands : h.Stands s held count reading) (b : UInt8) (c : Circumstances) :
    (h.readByte b c).1 = (s.turns (served reading (lineTurns held [b] c))).1 ∧
      (h.readByte b c).2.Stands (s.turns (served reading (lineTurns held [b] c))).2
        (cut held [b]).2 (countAfter count [b]) (readsOn reading (lineTurns held [b] c)) := by
  obtain ⟨rfl, rfl, isLine, isCount⟩ := stands
  by_cases newline : b = 10
  · -- The line is complete. It is taken if the host reads, and passed over otherwise.
    subst newline
    have turns : lineTurns held [10] c = [.line (held ++ [10]) c] := by simp [lineTurns, cut]
    have ends : (cut held [10]).2 = [] := by simp [cut]
    rw [turns, ends]
    by_cases reads : h.reading = true
    · rw [readByte_newline reads, isLine reads, List.reverse_reverse, served, if_pos reads, served,
        Session.turns_singleton, readsOn, reads]
      exact ⟨rfl, rfl, by simp [takenLines, Turn.line?], fun _ => rfl, fun _ => rfl⟩
    · rw [readByte_of_closed reads, served, if_neg reads, readsOn, Bool.eq_false_iff.mpr reads]
      exact ⟨rfl, rfl, Bool.eq_false_iff.mpr reads, nofun, nofun⟩
  · have turns : lineTurns held [b] c = [] := by simp [lineTurns, cut, newline]
    have grows : (cut held [b]).2 = held ++ [b] := by simp [cut, newline]
    have counted : countAfter count [b] = count + 1 := by simp [countAfter, newline]
    rw [turns, grows, counted, readsOn_nil]
    by_cases reads : h.reading = true
    · rw [readByte_of_ne reads newline]
      exact ⟨rfl, rfl, rfl, fun _ => by simp [isLine reads], fun _ => by simp [isCount reads]⟩
    · rw [readByte_of_closed reads]
      exact ⟨rfl, rfl, rfl, fun open' => absurd open' reads, fun open' => absurd open' reads⟩

theorem lineTurns_cons (held : List UInt8) (b : UInt8) (rest : List UInt8) (c : Circumstances) :
    lineTurns held (b :: rest) c =
      lineTurns held [b] c ++ lineTurns (cut held [b]).2 rest c := by
  rw [lineTurns, ← List.singleton_append, cut_append, List.map_append]
  rfl

theorem stands_readBytes (stands : h.Stands s held count reading) (bytes : List UInt8)
    (c : Circumstances) :
    (h.readBytes c bytes).1 = (s.turns (served reading (lineTurns held bytes c))).1 ∧
      (h.readBytes c bytes).2.Stands (s.turns (served reading (lineTurns held bytes c))).2
        (cut held bytes).2 (countAfter count bytes) (readsOn reading (lineTurns held bytes c)) := by
  induction bytes generalizing h s held count reading with
  | nil =>
    rw [← readsOn_nil reading] at stands
    exact ⟨rfl, stands⟩
  | cons b rest ih =>
    -- What stands after the first byte is what the others start from.
    obtain ⟨first, stands⟩ := stands_readByte stands b c
    obtain ⟨others, stands⟩ := ih stands
    have left : (cut held (b :: rest)).2 = (cut (cut held [b]).2 rest).2 := by
      rw [← List.singleton_append, cut_append]
    have counted : countAfter count (b :: rest) = countAfter (countAfter count [b]) rest := by
      simp only [countAfter]
      split <;> rfl
    rw [lineTurns_cons, served_append, Session.turns_append, readsOn_append, left, counted]
    refine ⟨?_, stands⟩
    change (h.readByte b c).1 ++ ((h.readByte b c).2.readBytes c rest).1 = _
    rw [first, others]

theorem stands_completed (stands : h.Stands s held count reading) (analysis : Analysis)
    (result : Except Failure (List UInt8)) (c : Circumstances) :
    (h.completed analysis result c).1 = (s.turn (.completion analysis result c)).1 ∧
      (h.completed analysis result c).2.Stands (s.turn (.completion analysis result c)).2 held 0
        reading := by
  obtain ⟨rfl, rfl, isLine, _⟩ := stands
  exact ⟨rfl, rfl, rfl, isLine, fun _ => rfl⟩

theorem stands_meetAll (stands : h.Stands s held count reading) (arrivals : List Arrival) :
    (h.meetAll arrivals).1 = (s.turns (served reading (turnsOf held arrivals).1)).1 ∧
      (h.meetAll arrivals).2.Stands (s.turns (served reading (turnsOf held arrivals).1)).2
        (turnsOf held arrivals).2 (countAfterAll count arrivals)
        (readsOn reading (turnsOf held arrivals).1) := by
  induction arrivals generalizing h s held count reading with
  | nil =>
    rw [← readsOn_nil reading] at stands
    exact ⟨rfl, stands⟩
  | cons arrival rest ih =>
    cases arrival with
    | chunk bytes c =>
      obtain ⟨first, stands⟩ := stands_readBytes stands bytes c
      obtain ⟨others, stands⟩ := ih stands
      simp only [turnsOf, served_append, Session.turns_append, readsOn_append]
      refine ⟨?_, stands⟩
      change (h.readBytes c bytes).1 ++ ((h.readBytes c bytes).2.meetAll rest).1 = _
      rw [first, others]
    | completion analysis result c =>
      obtain ⟨first, stands⟩ := stands_completed stands analysis result c
      obtain ⟨others, stands⟩ := ih stands
      refine ⟨?_, stands⟩
      change (h.completed analysis result c).1 ++
        ((h.completed analysis result c).2.meetAll rest).1 = _
      rw [first, others]
      rfl

/-- The turns of a host that meets arrivals and then the end of its input. A line that no newline
ends is taken only if the call that meets the end has read some of it. -/
def turnsServed (arrivals : List Arrival) (c : Circumstances) : List Turn :=
  let (turns, left) := turnsOf [] arrivals
  served true (turns ++ if countAfterAll 0 arrivals = 0 then [] else [.line left c])

theorem stands_inputOver (stands : h.Stands s held count reading) (c : Circumstances) :
    let turns := if count = 0 then [] else [Turn.line held c]
    (h.inputOver c).1 = (s.turns (served reading turns)).1 ∧
      (h.inputOver c).2.session = (s.turns (served reading turns)).2 := by
  obtain ⟨rfl, rfl, isLine, isCount⟩ := stands
  unfold inputOver
  by_cases reads : h.reading = true
  · rw [isCount reads, reads]
    by_cases none : count = 0
    · simp [none, served, Session.turns]
    · simp [none, served, Session.turns, Session.turn, takeLine_eq, isLine reads]
  · rw [Bool.eq_false_iff.mpr reads]
    split <;> simp [served, Session.turns]

theorem serve_eq (s : Session) (arrivals : List Arrival) (c : Circumstances) :
    ((new s).serve arrivals c).1 = (s.turns (turnsServed arrivals c)).1 ∧
      ((new s).serve arrivals c).2.session = (s.turns (turnsServed arrivals c)).2 := by
  have start : (new s).Stands s [] 0 true := ⟨rfl, rfl, fun _ => rfl, fun _ => rfl⟩
  obtain ⟨first, stands⟩ := stands_meetAll start arrivals
  obtain ⟨last, session⟩ := stands_inputOver stands c
  simp only [serve, turnsServed, served_append, Session.turns_append]
  exact ⟨by rw [first, last], session⟩

theorem countAfterAll_append (count : Nat) (first rest : List Arrival) :
    countAfterAll count (first ++ rest) = countAfterAll (countAfterAll count first) rest := by
  induction first generalizing count with
  | nil => rfl
  | cons arrival first ih =>
    cases arrival with
    | chunk bytes c => exact ih _
    | completion analysis result c => exact ih _

theorem countAfter_concat (count : Nat) (bytes : List UInt8) (b : UInt8) :
    countAfter count (bytes ++ [b]) = if b = 10 then 0 else countAfter count bytes + 1 := by
  induction bytes generalizing count with
  | nil => simp [countAfter]
  | cons first bytes ih =>
    rw [List.cons_append, countAfter, countAfter]
    split <;> exact ih _

def endsOpen (bytes : List UInt8) : Bool :=
  bytes.getLast?.any (· != 10)

/-- Whether an analysis is completed after the last byte. -/
def completedLast (arrivals : List Arrival) : Bool :=
  (arrivals.reverse.takeWhile (·.bytes.isEmpty)).any (·.isCompletion)

theorem countAfterAll_eq_zero (arrivals : List Arrival) :
    countAfterAll 0 arrivals = 0 ↔
      ¬(endsOpen (stream arrivals) = true ∧ completedLast arrivals = false) := by
  -- From the end: all that matters is the last byte and what comes after it.
  induction arrivals using List.reverseRecOn with
  | nil => simp [countAfterAll, endsOpen, stream]
  | append_singleton arrivals arrival ih =>
    rw [countAfterAll_append]
    cases arrival with
    | completion analysis result c =>
      simp [countAfterAll, completedLast, Arrival.bytes, Arrival.isCompletion]
    | chunk bytes c =>
      rcases List.eq_nil_or_concat bytes with rfl | ⟨init, b, rfl⟩
      · -- A chunk without bytes changes nothing.
        have same : stream (arrivals ++ [.chunk [] c]) = stream arrivals := by
          simp [stream, Arrival.bytes]
        have silent : completedLast (arrivals ++ [.chunk [] c]) = completedLast arrivals := by
          simp [completedLast, Arrival.bytes, Arrival.isCompletion]
        rw [same, silent]
        exact ih
      · simp [countAfterAll, countAfter_concat, endsOpen, stream, completedLast, Arrival.bytes,
          List.concat_eq_append]

theorem left_eq_nil (bytes : List UInt8) : (cut [] bytes).2 = [] ↔ endsOpen bytes = false := by
  rcases List.eq_nil_or_concat bytes with rfl | ⟨init, b, rfl⟩
  · simp [cut, endsOpen]
  · rw [List.concat_eq_append, cut_append]
    by_cases newline : b = 10 <;> simp [cut, endsOpen, newline]

def losesLast (arrivals : List Arrival) : Bool :=
  endsOpen (stream arrivals) && completedLast arrivals

theorem takenLines_turnsServed (arrivals : List Arrival) (c : Circumstances) :
    takenLines (turnsServed arrivals c) =
      untilShutdown (if losesLast arrivals then (pieces (stream arrivals)).dropLast
        else pieces (stream arrivals)) := by
  have taken := takenLines_turnsOf [] arrivals
  have lines := (Prod.ext_iff.mp taken).1
  have left := (Prod.ext_iff.mp taken).2
  dsimp only at lines left
  rw [turnsServed, takenLines_served, if_pos rfl, takenLines, List.filterMap_append, ← takenLines,
    lines, left, losesLast, pieces]
  -- The last piece is taken at the end exactly if the call that meets the end has read of it.
  have counted := countAfterAll_eq_zero arrivals
  have empty := left_eq_nil (stream arrivals)
  cases isOpen : endsOpen (stream arrivals) with
  | false =>
    rw [isOpen] at counted empty
    simp [empty, counted]
  | true =>
    rw [isOpen] at counted empty
    cases completed : completedLast arrivals <;>
      rw [completed] at counted <;>
      simp [empty, counted, Turn.line?]

end Host

/-- What a host does are the turns of its session. The lines among them are the pieces of the stream
in order, each one once, up to the first request to shut down; but the last piece is left out if no
newline ends it and an analysis is completed after its last byte. The pieces are what newlines make
of the stream, and nothing of it is missing in them. -/
theorem lines_served (s : Session) (arrivals : List Arrival) (c : Circumstances) :
    ((Host.new s).serve arrivals c).1 = (s.turns (Host.turnsServed arrivals c)).1 ∧
      ((Host.new s).serve arrivals c).2.session = (s.turns (Host.turnsServed arrivals c)).2 ∧
      takenLines (Host.turnsServed arrivals c) =
        untilShutdown (if Host.losesLast arrivals then (pieces (stream arrivals)).dropLast
          else pieces (stream arrivals)) ∧
      (pieces (stream arrivals)).flatten = stream arrivals ∧
      ∀ before piece after, pieces (stream arrivals) = before ++ piece :: after →
        ∃ text, 10 ∉ text ∧ (piece = text ++ [10] ∨ after = [] ∧ piece = text ∧ text ≠ []) := by
  obtain ⟨effects, session⟩ := Host.serve_eq s arrivals c
  exact ⟨effects, session, Host.takenLines_turnsServed arrivals c, flatten_pieces _,
    fun _ _ _ among => newline_pieces among⟩

namespace Sample

def requests : List UInt8 :=
  Text.Utf8.encode ("\x7b\"command\": \"document_activated\", \"document\": \"/work/A.java\", " ++
    "\"text\": \"\"\x7d\n\x7b\"command\": \"enable_for_file\"\x7d\n" ++
    "\x7b\"command\": \"disable\"\x7d")

def arrivals : List Arrival :=
  [.chunk requests circumstances,
    .completion (analysis 1 (.enable .file)) (.ok [91, 93]) circumstances]

end Sample

def startedBy (effects : List Effect) : List Analysis :=
  effects.filterMap fun
    | .start analysis => some analysis
    | .send _ => none

/-- The host is given three requests and takes two: costs are displayed when its input has ended,
though the last request is to disable that. One newline more, and it is taken. -/
theorem request_lost_at_end :
    startedBy ((Host.new Sample.session).readBytes Sample.circumstances Sample.requests).1 =
        [Sample.analysis 1 (.enable .file)] ∧
      takenLines (Host.turnsServed Sample.arrivals Sample.circumstances) ≠
        untilShutdown (pieces (stream Sample.arrivals)) ∧
      ((Host.new Sample.session).serve Sample.arrivals Sample.circumstances).2.session.mode =
        .file ∧
      (Sample.session.turns
          (turnsOf [] (Sample.arrivals ++ [.chunk [10] Sample.circumstances])).1).2.mode =
        .disabled := by
  decide +kernel

end CostWatch
