import CostWatch.Session.Completion
import CostWatch.Session.Request

/-!
Runs of a session: what it meets, one occurrence after the other, and what it answers.

A session meets requests and completions. An analysis may be completed late, more than once and in
any order with others, but only if it was handed out. Between two occurrences anybody may change the
folders.
-/

set_option autoImplicit false

namespace CostWatch

inductive Occurrence where
  | request (request : Request) (c : Circumstances)
  /-- An analysis ends, with its report or with the reason why there is none. -/
  | completion (analysis : Analysis) (result : Except Failure (List UInt8)) (c : Circumstances)
  /-- Somebody else changes what stands at the places of the folders. -/
  | folders (cache output : Folder)

def Session.meet (s : Session) : Occurrence → Session.Answer
  | .request r c => s.handle r c
  | .completion a result c => Session.answer (s.complete a result c)
  | .folders cache output => { s with cache, output }.tell []

structure Episode where
  session : Session
  occurrence : Occurrence

namespace Episode

def answer (e : Episode) : Except Failure Outcome :=
  (e.session.meet e.occurrence).1

def next (e : Episode) : Session :=
  (e.session.meet e.occurrence).2

def handedOut (e : Episode) : Option Analysis :=
  match e.answer with
  | .ok outcome => outcome.analysis
  | .error _ => none

/-- The analysis that ends, perhaps not for the first time. -/
def completed (e : Episode) : Option Analysis :=
  match e.occurrence with
  | .completion a _ _ => some a
  | _ => none

/-- Whether the session is disabled; a refused request does not disable it. -/
def disables (e : Episode) : Bool :=
  match e.occurrence, e.answer with
  | .request .disable _, .ok _ => true
  | _, _ => false

end Episode

def handedOut (history : List Episode) : List Analysis :=
  history.filterMap Episode.handedOut

/-- Whether an occurrence may come after a history: what ends has been handed out. -/
def Occurrence.Follows (history : List Episode) : Occurrence → Prop
  | .completion a _ _ => a ∈ handedOut history
  | _ => True

/-- The runs of a session, with their episodes, the last one first, and the session at the end. -/
inductive Run (start : Session) : List Episode → Session → Prop where
  | start : Run start [] start
  | next {history : List Episode} {s : Session} {o : Occurrence} :
      Run start history s → o.Follows history → Run start (⟨s, o⟩ :: history) (s.meet o).2

theorem Run.of_suffix {start s : Session} {history earlier : List Episode} {e : Episode}
    (run : Run start history s) (within : e :: earlier <:+ history) :
    Run start earlier e.session ∧ e.occurrence.Follows earlier := by
  induction run with
  | start => exact absurd (List.suffix_nil.mp within) (List.cons_ne_nil e earlier)
  | next run follows ih =>
    rcases List.suffix_cons_iff.mp within with same | before
    · obtain ⟨rfl, rfl⟩ := List.cons.inj same
      exact ⟨run, follows⟩
    · exact ih before

/-! What every occurrence keeps -/

section
variable {start s : Session} (P : Session → Prop)

theorem Run.keeps {history : List Episode} (run : Run start history s) (begins : P start)
    (kept : ∀ s o, P s → P (s.meet o).2) : P s := by
  induction run with
  | start => exact begins
  | next run follows ih => exact kept _ _ ih

theorem Run.keeps_since {later earlier : List Episode} {e : Episode}
    (run : Run start (later ++ e :: earlier) s) (begins : P e.next)
    (kept : ∀ s o, P s → P (s.meet o).2) : P s := by
  induction later generalizing s with
  | nil =>
    cases run with
    | next run follows => exact begins
  | cons f later ih =>
    cases run with
    | next run follows => exact kept _ _ (ih run)

end

/-! Runs made from what is met -/

/-- The episodes and the end of what meets occurrences, given with the last one first. -/
def traced (start : Session) : List Occurrence → List Episode × Session
  | [] => ([], start)
  | o :: earlier =>
    let past := traced start earlier
    (⟨past.2, o⟩ :: past.1, (past.2.meet o).2)

theorem traced_append (start : Session) (later earlier : List Occurrence) :
    traced start (later ++ earlier) =
      ((traced (traced start earlier).2 later).1 ++ (traced start earlier).1,
        (traced (traced start earlier).2 later).2) := by
  induction later with
  | nil => rfl
  | cons o later ih => simp only [List.cons_append, traced, ih]

theorem occurrence_mem_of_traced {start : Session} {occurrences : List Occurrence} {e : Episode}
    (member : e ∈ (traced start occurrences).1) : e.occurrence ∈ occurrences := by
  induction occurrences with
  | nil => cases member
  | cons o earlier ih =>
    rcases List.mem_cons.mp member with rfl | before
    · exact List.mem_cons_self
    · exact List.mem_cons_of_mem o (ih before)

instance (history : List Episode) (o : Occurrence) : Decidable (o.Follows history) :=
  match o with
  | .request _ _ | .folders _ _ => .isTrue trivial
  | .completion a _ _ => inferInstanceAs (Decidable (a ∈ handedOut history))

def Feasible (start : Session) : List Occurrence → Prop
  | [] => True
  | o :: earlier => o.Follows (traced start earlier).1 ∧ Feasible start earlier

instance decideFeasible (start : Session) :
    (occurrences : List Occurrence) → Decidable (Feasible start occurrences)
  | [] => .isTrue trivial
  | o :: earlier =>
    have := decideFeasible start earlier
    inferInstanceAs (Decidable (o.Follows (traced start earlier).1 ∧ Feasible start earlier))

theorem run_traced {start : Session} {occurrences : List Occurrence}
    (feasible : Feasible start occurrences) :
    Run start (traced start occurrences).1 (traced start occurrences).2 := by
  induction occurrences with
  | nil => exact .start
  | cons o earlier ih => exact .next (ih feasible.2) feasible.1

theorem run_traced_after {start : Session} {first : Occurrence} {later : List Occurrence}
    (feasible : Feasible start (later ++ [first])) :
    Run start ((traced (Episode.mk start first).next later).1 ++ [⟨start, first⟩])
      (traced (Episode.mk start first).next later).2 := by
  have run := run_traced feasible
  rw [traced_append] at run
  exact run

/-! A workspace with one document, as an example -/

namespace Sample

def document : Document := ⟨"/work/A.java"⟩

def session : Session :=
  .new { workspace := { root := "/work" } } "/" (fun _ => .error .noTree) (.new none)
    .absent .absent

def extract : Extractor := fun text =>
  let range : Range := ⟨⟨0, 0⟩, ⟨0, 1⟩⟩
  .ok [⟨text, range, range, none⟩]

def circumstances : Circumstances := .favourable ⟨2026, 1, 1, 0, 0, 0⟩

def analysis (id : Nat) (purpose : Purpose) : Analysis :=
  ⟨id, purpose, some document, ⟨.file "/work/A.java", "/tmp/infer-out/A", "/work"⟩⟩

def projectAnalysis (id : Nat) (purpose : Purpose) : Analysis :=
  ⟨id, purpose, none, ⟨.project ["make"], "/tmp/infer-out/project", "/work"⟩⟩

def request (r : Request) : Occurrence := .request r circumstances

def completion (a : Analysis) : Occurrence := .completion a (.ok [91, 93]) circumstances

end Sample

end CostWatch
