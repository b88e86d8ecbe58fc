import CostWatch.Proofs.Change.Comparison
import CostWatch.Proofs.Java.Contexts

/-!
Edits inside one body.

The body of a method is part of the bodies around it, and other methods may be declared in it. An
edit of the body concerns all of these: a body around it is another one as well, with a fingerprint
of its own. So it is not enough for an edit not to count that the method it is in is exempt.
-/

set_option autoImplicit false

namespace CostWatch

open Java

/-- A text is read before an edit and after it: as before around the edited body, all of which the
edit has carried along. -/
structure ReadsAround (parse : String → Except Mark (List JavaTree)) (e : Edit) (c : Context)
    (move : Token → Token) (name : Part) (inside inside' : List JavaTree) : Prop where
  before : parse e.before = .ok (c.fill (.node name inside))
  after : parse e.after = .ok ((c.map move).fill (.node name inside'))
  moves : ∀ token ∈ c.tokens, Begins e token (move token) ∧ Ends e token (move token)
  isBody : name ∈ [.block, .constructorBody]
  edited : IsEdited e inside inside'

def Edit.Alters (e : Edit) (d : Declaration) : Prop :=
  ∃ span pre post, d.body = some span ∧ e.Within pre post span ∧
    fingerprint (pre ++ e.old ++ post) ≠ fingerprint (pre ++ e.new ++ post)

/-- An edit of a body concerns the methods of a name: one of them has the body in its own one and is
altered, or others than before are declared in the body. -/
def Edit.Concerns (e : Edit) (c : Context) (name : Part) (inside inside' : List JavaTree)
    (called : String) : Prop :=
  (∃ d ∈ c.declared (.node name inside), d.name = called ∧ e.Alters d) ∨
    Declaration.prints e.before called (declarationsOf inside) ≠
      Declaration.prints e.after called (declarationsOf inside')

namespace Change

section

variable {e : Edit}

theorem print_kept {d d' : Declaration} (kept : Kept e d d') :
    (d.bodyText e.before).map fingerprint = (d'.bodyText e.after).map fingerprint ↔
      ¬ e.Alters d := by
  have ⟨_, body⟩ := kept
  rw [Declaration.bodyText, Declaration.bodyText, Edit.Alters]
  generalize d.body = before at body
  generalize d'.body = after at body
  cases body with
  | none => simp
  | @some span span' carried =>
    obtain ⟨start, stop, rfl⟩ := carried
    refine (Edit.map_text?_carried fingerprint start stop).trans ?_
    simp

theorem prints_kept {ds ds' : List Declaration} (kept : List.Forall₂ (Kept e) ds ds')
    (name : String) :
    (Declaration.prints e.before name ds).length = (Declaration.prints e.after name ds').length ∧
      (Declaration.prints e.before name ds = Declaration.prints e.after name ds' ↔
        ∀ d ∈ ds, d.name = name → ¬ e.Alters d) := by
  induction kept with
  | nil => exact ⟨rfl, iff_of_true rfl nofun⟩
  | @cons d d' ds ds' first _ ih =>
    have ⟨length, same⟩ := ih
    rw [Declaration.prints_cons, Declaration.prints_cons, first.name, List.forall_mem_cons]
    by_cases own : d.name = name
    · rw [if_pos own, if_pos own, List.length_cons, List.length_cons, length, List.cons.injEq,
        print_kept first, same]
      exact ⟨rfl, and_congr_left fun _ => by simp [own]⟩
    · rw [if_neg own, if_neg own]
      exact ⟨length, same.trans (by simp [own])⟩

theorem append_eq_iff {α : Type} {as bs cs as' bs' cs' : List α} (first : as.length = as'.length)
    (last : cs.length = cs'.length) :
    as ++ bs ++ cs = as' ++ bs' ++ cs' ↔ (as = as' ∧ cs = cs') ∧ bs = bs' := by
  constructor
  · intro same
    have ⟨front, back⟩ := List.append_inj' same last
    have ⟨outer, inner⟩ := List.append_inj front first
    exact ⟨⟨outer, back⟩, inner⟩
  · rintro ⟨⟨rfl, rfl⟩, rfl⟩
    rfl

theorem prints_eq_iff {c : Context} {move : Token → Token} {name : Part}
    {inside inside' : List JavaTree}
    (moves : ∀ token ∈ c.tokens, Begins e token (move token) ∧ Ends e token (move token))
    (isBody : name ∈ [.block, .constructorBody]) (edited : IsEdited e inside inside')
    (called : String) :
    Declaration.prints e.before called (declarationsOf (c.fill (.node name inside))) =
        Declaration.prints e.after called
          (declarationsOf ((c.map move).fill (.node name inside'))) ↔
      ¬ e.Concerns c name inside inside' called := by
  have ⟨front, sameFront⟩ := prints_kept (kept_declaredBefore moves isBody edited) called
  have ⟨back, sameBack⟩ := prints_kept (kept_declaredAfter moves) called
  -- a body is no declaration itself, but there may be some in it
  have own (parts : List JavaTree) :
      Tree.declarations (.node name parts) = declarationsOf parts := by
    rcases List.mem_pair.mp isBody with rfl | rfl <;> rfl
  rw [Context.declarationsOf_fill, Context.declarationsOf_fill, own, own, Edit.Concerns,
    Context.declared]
  simp only [Declaration.prints_append]
  -- around the body there are as many declarations as before, so the lists are cut at its ends
  rw [append_eq_iff front back, sameFront, sameBack, ← List.forall_mem_append]
  simp

end

/-- What a check reports of an edit inside one body. It counts exactly if it concerns methods that
are not exempt, be they the one with the body, others around it or others declared in it. -/
theorem check_body_edit {parse : String → Except Mark (List JavaTree)} {e : Edit} {c : Context}
    {move : Token → Token} {name : Part} {inside inside' : List JavaTree}
    (reads : ReadsAround parse e c move name inside inside') (whitelist : Whitelist) :
    (check (extractBy parse) e.before e.after whitelist).fault = Option.none ∧
      ((check (extractBy parse) e.before e.after whitelist).isSignificant = true ↔
        ∃ called, whitelist.contains called = false ∧ e.Concerns c name inside inside' called) ∧
      ∀ called, called ∈ (check (extractBy parse) e.before e.after whitelist).exempted ↔
        whitelist.contains called = true ∧ e.Concerns c name inside inside' called := by
  have found {text : String} {trees : List JavaTree} (parsed : parse text = .ok trees) :
      extractBy parse text = .ok (declarationsOf trees) := by
    rw [extractBy, parsed]
  have reports := @reports_check _ _ _ whitelist _ _ (found reads.before) (found reads.after)
  have concerned (called : String) :=
    (not_congr (prints_eq_iff reads.moves reads.isBody reads.edited called)).trans Classical.not_not
  refine ⟨reports.fault, reports.significant.trans ?_, fun called => ?_⟩
  · exact exists_congr fun called => and_congr_right fun _ => concerned called
  · exact (reports.mem_exempted called).trans (and_congr_right fun _ => concerned called)

end Change

namespace Sample

def inLine (text : String) (start : Nat) : Token :=
  let stop := start + text.utf8ByteSize
  ⟨text, ⟨start, 0, start⟩, ⟨stop, 0, stop⟩⟩

def header (name : String) (start : Nat) : JavaTree :=
  .node .methodHeader [.node .type [.leaf (inLine "void" start)],
    .node .methodHead [.leaf (inLine name (start + 5)),
      .node .parameters [.leaf (inLine "(" (start + 6)), .leaf (inLine ")" (start + 7))]]]

/-- `class A{void f(){new B(){void g(){h();}};}}`: in a method `f` an object is made whose class has
a method `g`. The body of `g` is emptied. -/
def nested : Edit :=
  ⟨"class A\x7bvoid f()\x7bnew B()\x7bvoid g()", "{h();}", "{}", "\x7d;\x7d\x7d", by decide,
    by decide⟩

def aroundNested : Context :=
  .inside [] [] .program <| .inside [] [] .topLevel <| .inside [] [] .statement <|
  .inside [] [] .declaration <| .inside [] [] .classDeclaration <|
  .inside [.leaf (inLine "class" 0), .leaf (inLine "A" 6)] [] .classBody <|
  .inside [.leaf (inLine "\x7b" 7)] [.leaf (inLine "\x7d" 42)] .method <|
  .inside [header "f" 8] [] .block <|
  .inside [.leaf (inLine "\x7b" 16)] [.leaf (inLine "\x7d" 41)] .statement <|
  .inside [] [] .expressionStatement <| .inside [] [.leaf (inLine ";" 40)] .expression <|
  .inside [] [] .primary <| .inside [] [] .creation <| .inside [] [] .bareCreation <|
  .inside [.leaf (inLine "new" 17), .leaf (inLine "B" 21),
    .node .arguments [.leaf (inLine "(" 22), .leaf (inLine ")" 23)]] [] .classBody <|
  .inside [.leaf (inLine "\x7b" 24)] [.leaf (inLine "\x7d" 39)] .method <|
  .here [header "g" 25] []

def calling : List JavaTree :=
  [.leaf (inLine "\x7b" 33),
    .node .statement [.node .expressionStatement [.node .expression [.node .primary [.node .call
      [.leaf (inLine "h" 34), .node .arguments [.leaf (inLine "(" 35), .leaf (inLine ")" 36)]]]],
      .leaf (inLine ";" 37)]],
    .leaf (inLine "\x7d" 38)]

def empty : List JavaTree :=
  [.leaf (inLine "\x7b" 33), .leaf (inLine "\x7d" 34)]

def moveNested (old : Token) : Token :=
  inLine old.text (nested.carry old.start.byte)

def parseNested (text : String) : Except Mark (List JavaTree) :=
  if text = nested.before then .ok (aroundNested.fill (.node .block calling))
  else if text = nested.after then
    .ok ((aroundNested.map moveNested).fill (.node .block empty))
  else .error ⟨0, 0, 0⟩

theorem readsAround_nested :
    ReadsAround parseNested nested aroundNested moveNested .block calling empty := by
  have outside : ∀ token ∈ aroundNested.tokens, nested.Outside token.start.byte ∧
      nested.Outside token.stop.byte ∧
        (moveNested token).stop.byte = nested.carry token.stop.byte := by decide +kernel
  have differ : nested.after ≠ nested.before := by decide
  constructor
  case before => exact if_pos rfl
  case after => exact (if_neg differ).trans (if_pos rfl)
  case moves =>
    intro token member
    have ⟨start, stop, carried⟩ := outside token member
    exact ⟨⟨rfl, start, rfl⟩, stop, carried⟩
  case isBody => decide
  case edited => exact ⟨by decide +kernel, by decide +kernel, by decide +kernel⟩

theorem alters_nested :
    ∃ d ∈ aroundNested.declared (.node .block calling), d.name = "f" ∧ nested.Alters d := by
  have declared : ((aroundNested.declared (.node .block calling))[0]?).map
      (fun d => (d.name, d.body)) = some ("f", some ⟨16, 42⟩) := by decide +kernel
  obtain ⟨d, first, same⟩ := Option.map_eq_some_iff.mp declared
  have ⟨name, body⟩ := Prod.mk.inj same
  refine ⟨d, List.mem_of_getElem? first, name, _, "\x7bnew B()\x7bvoid g()", "\x7d;\x7d", body,
    ?_, ?_⟩
  · exact ⟨"class A\x7bvoid f()", "\x7d", by decide, by decide, by decide⟩
  · decide +kernel

end Sample

open Sample

theorem check_body_edit_nested :
    ReadsAround parseNested nested aroundNested moveNested .block calling empty ∧
      (Change.check (extractBy parseNested) nested.before nested.after
        (.ofNames ["f", "g"])).isSignificant = false ∧
      (Change.check (extractBy parseNested) nested.before nested.after
        (.ofNames ["g"])).isSignificant = true := by
  have ⟨_, both, _⟩ := Change.check_body_edit readsAround_nested (.ofNames ["f", "g"])
  have ⟨_, one, _⟩ := Change.check_body_edit readsAround_nested (.ofNames ["g"])
  have exempt : ∀ d ∈ aroundNested.declared (.node .block calling),
      (Whitelist.ofNames ["f", "g"]).contains d.name = true := by decide +kernel
  have none (text called : String) : Declaration.prints text called (declarationsOf calling) = [] ∧
      Declaration.prints text called (declarationsOf empty) = [] := ⟨rfl, rfl⟩
  refine ⟨readsAround_nested, Bool.eq_false_iff.mpr fun counts => ?_,
    one.mpr ⟨"f", by decide, .inl alters_nested⟩⟩
  obtain ⟨called, counted, ⟨d, member, rfl, _⟩ | others⟩ := both.mp counts
  · exact Bool.eq_false_iff.mp counted (exempt d member)
  · exact others ((none _ _).1.trans (none _ _).2.symm)

/-- An edit inside of an exempt method counts, since the method is declared inside of another one.
It is reported as exempt as well. -/
theorem exempt_edit_counted :
    (extractBy parseNested nested.before).isOk = true ∧
      (extractBy parseNested nested.after).isOk = true ∧
      (∃ d ∈ aroundNested.declared (.node .block calling), d.name = "g" ∧
        d.body = some nested.oldSpan ∧ (Whitelist.ofNames ["g"]).contains d.name = true) ∧
      (Change.check (extractBy parseNested) nested.before nested.after
        (.ofNames ["g"])).isSignificant = true ∧
      Change.check (extractBy parseNested) nested.before nested.after (.ofNames ["g"]) =
        { Change.none with changed := ["f"], exempted := ["g"] } := by
  have reported : Change.check (extractBy parseNested) nested.before nested.after (.ofNames ["g"]) =
      { Change.none with changed := ["f"], exempted := ["g"] } := by decide +kernel
  exact ⟨by decide +kernel, by decide +kernel, by decide +kernel, reported ▸ rfl, reported⟩

end CostWatch
