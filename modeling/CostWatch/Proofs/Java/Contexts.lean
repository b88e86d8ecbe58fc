import CostWatch.Java.Declarations
import CostWatch.Proofs.Source.Edits
import Mathlib.Data.List.Forall2

/-!
Trees of a text that is edited inside one body.

What is around the body is read again as it was, except for its place in the text. Hence the same
methods are declared there, and their bodies are where the edit has carried them.
-/

set_option autoImplicit false

namespace CostWatch.Java

open Grammar

/-! Trees with other tokens -/

mutual

def Tree.map (f : Token → Token) : JavaTree → JavaTree
  | .leaf token => .leaf (f token)
  | .node name parts => .node name (mapParts f parts)

def mapParts (f : Token → Token) : List JavaTree → List JavaTree
  | [] => []
  | tree :: rest => Tree.map f tree :: mapParts f rest

end

mutual

def Tree.tokens : JavaTree → List Token
  | .leaf token => [token]
  | .node _ parts => tokensOf parts

def tokensOf : List JavaTree → List Token
  | [] => []
  | tree :: rest => Tree.tokens tree ++ tokensOf rest

end

/-- Induction on trees one after the other, where a phrase comes with its parts. -/
theorem parts_induction {holds : List JavaTree → Prop} (nil : holds [])
    (leaf : ∀ token rest, holds rest → holds (.leaf token :: rest))
    (node : ∀ name parts rest, holds parts → holds rest → holds (.node name parts :: rest)) :
    ∀ trees, holds trees
  | [] => nil
  | .leaf token :: rest => leaf token rest (parts_induction nil leaf node rest)
  | .node name parts :: rest =>
    node name parts rest (parts_induction nil leaf node parts) (parts_induction nil leaf node rest)

/-! Contexts -/

/-- The place of a tree among others: the trees beside it, and the phrases that it is in. -/
inductive Context where
  | here (before after : List JavaTree)
  | inside (before after : List JavaTree) (name : Part) (inner : Context)

namespace Context

def fill (tree : JavaTree) : Context → List JavaTree
  | here before after => before ++ tree :: after
  | inside before after name inner => before ++ .node name (inner.fill tree) :: after

def map (f : Token → Token) : Context → Context
  | here before after => here (mapParts f before) (mapParts f after)
  | inside before after name inner =>
    inside (mapParts f before) (mapParts f after) name (inner.map f)

def tokens : Context → List Token
  | here before after => tokensOf before ++ tokensOf after
  | inside before after _ inner => tokensOf before ++ inner.tokens ++ tokensOf after

/-- The declarations before those in a tree; the phrases that it is in are among them. -/
def declaredBefore (tree : JavaTree) : Context → List Declaration
  | here before _ => declarationsOf before
  | inside before _ name inner =>
    declarationsOf before ++ (declaration? name (inner.fill tree)).toList ++
      inner.declaredBefore tree

def declaredAfter : Context → List Declaration
  | here _ after => declarationsOf after
  | inside _ after _ inner => inner.declaredAfter ++ declarationsOf after

def declared (c : Context) (tree : JavaTree) : List Declaration :=
  c.declaredBefore tree ++ c.declaredAfter

theorem declarationsOf_append (trees others : List JavaTree) :
    declarationsOf (trees ++ others) = declarationsOf trees ++ declarationsOf others := by
  induction trees with
  | nil => rfl
  | cons tree rest ih =>
    rw [List.cons_append, declarationsOf, declarationsOf, ih, List.append_assoc]

theorem declarationsOf_fill (c : Context) (tree : JavaTree) :
    declarationsOf (c.fill tree) =
      c.declaredBefore tree ++ Tree.declarations tree ++ c.declaredAfter := by
  induction c with
  | here before after =>
    simp only [fill, declaredBefore, declaredAfter, declarationsOf_append, declarationsOf,
      List.append_assoc]
  | inside before after name inner ih =>
    simp only [fill, declaredBefore, declaredAfter, declarationsOf_append, declarationsOf,
      Tree.declarations, ih, List.append_assoc]

end Context

/-! Trees read again -/

section

variable {α β γ δ : Type} {r : α → β → Prop} {q : γ → δ → Prop}

theorem rel_or {a c : Option α} {b d : Option β} (first : Option.Rel r a b)
    (second : Option.Rel r c d) : Option.Rel r (a.or c) (b.or d) := by
  cases first with
  | some related => exact .some related
  | none => exact second

theorem rel_bind {a : Option α} {b : Option β} {f : α → Option γ} {g : β → Option δ}
    (related : Option.Rel r a b) (next : ∀ x y, r x y → Option.Rel q (f x) (g y)) :
    Option.Rel q (a.bind f) (b.bind g) := by
  cases related with
  | some pair => exact next _ _ pair
  | none => exact .none

end

section

variable (e : Edit)

structure Begins (old new : Token) : Prop where
  text : new.text = old.text
  outside : e.Outside old.start.byte
  carried : new.start.byte = e.carry old.start.byte

structure Ends (old new : Token) : Prop where
  outside : e.Outside old.stop.byte
  carried : new.stop.byte = e.carry old.stop.byte

/-- A body is what has been edited. It begins with the same token as before. -/
structure IsEdited (inside inside' : List JavaTree) : Prop where
  span : spanOf? inside = some e.oldSpan
  span' : spanOf? inside' = some e.newSpan
  opening : (firstOf? inside').map Token.text = (firstOf? inside).map Token.text

/-- Trees before an edit and after it: they differ in edited bodies, and in where their tokens
are. -/
inductive Reread : List JavaTree → List JavaTree → Prop where
  | nil : Reread [] []
  | leaf {token token' : Token} {rest rest' : List JavaTree} :
      Begins e token token' → Ends e token token' → Reread rest rest' →
        Reread (.leaf token :: rest) (.leaf token' :: rest')
  | node {name : Part} {parts parts' rest rest' : List JavaTree} :
      Reread parts parts' → Reread rest rest' →
        Reread (.node name parts :: rest) (.node name parts' :: rest')
  | body {name : Part} {inside inside' rest rest' : List JavaTree} :
      name ∈ [.block, .constructorBody] → IsEdited e inside inside' → Reread rest rest' →
        Reread (.node name inside :: rest) (.node name inside' :: rest')

structure Carried (span span' : Span) : Prop where
  start : e.Outside span.start
  stop : e.Outside span.stop
  carried : span' = e.carried span

structure Kept (d d' : Declaration) : Prop where
  name : d'.name = d.name
  body : Option.Rel (Carried e) d.body d'.body

variable {e} {trees trees' inside inside' : List JavaTree}

theorem Reread.append {others others' : List JavaTree} (reread : Reread e trees trees')
    (also : Reread e others others') : Reread e (trees ++ others) (trees' ++ others') := by
  induction reread with
  | nil => exact also
  | leaf begins ends _ ih => exact .leaf begins ends ih
  | node inner _ _ ih => exact .node inner ih
  | body isBody edited _ ih => exact .body isBody edited ih

theorem reread_mapParts {f : Token → Token} (trees : List JavaTree)
    (moves : ∀ token ∈ tokensOf trees, Begins e token (f token) ∧ Ends e token (f token)) :
    Reread e trees (mapParts f trees) := by
  induction trees using parts_induction with
  | nil => exact .nil
  | leaf token rest ih =>
    have ⟨first, others⟩ := List.forall_mem_append.mp moves
    have ⟨begins, ends⟩ := first token List.mem_cons_self
    exact .leaf begins ends (ih others)
  | node name parts rest inner ih =>
    have ⟨first, others⟩ := List.forall_mem_append.mp moves
    exact .node (inner first) (ih others)

theorem reread_fill {f : Token → Token} {c : Context} {name : Part}
    (moves : ∀ token ∈ c.tokens, Begins e token (f token) ∧ Ends e token (f token))
    (isBody : name ∈ [.block, .constructorBody]) (edited : IsEdited e inside inside') :
    Reread e (c.fill (.node name inside)) ((c.map f).fill (.node name inside')) := by
  induction c with
  | here before after =>
    have ⟨front, back⟩ := List.forall_mem_append.mp moves
    exact (reread_mapParts before front).append (.body isBody edited (reread_mapParts after back))
  | inside before after outer inner ih =>
    have ⟨others, back⟩ := List.forall_mem_append.mp moves
    have ⟨front, middle⟩ := List.forall_mem_append.mp others
    exact (reread_mapParts before front).append (.node (ih middle) (reread_mapParts after back))

/-! What is found in trees that are read again -/

theorem spanOf?_eq_some_iff {parts : List JavaTree} {span : Span} :
    spanOf? parts = some span ↔ ∃ first last, firstOf? parts = some first ∧
      lastOf? parts = some last ∧ span = ⟨first.start.byte, last.stop.byte⟩ := by
  simp only [spanOf?, Option.bind_eq_bind, Option.bind_eq_some_iff, Option.some.injEq,
    exists_and_left, eq_comm (a := span)]

theorem IsEdited.begins (edited : IsEdited e inside inside') :
    Option.Rel (Begins e) (firstOf? inside) (firstOf? inside') := by
  obtain ⟨first, last, isFirst, _, span⟩ := spanOf?_eq_some_iff.mp edited.span
  obtain ⟨first', last', isFirst', _, span'⟩ := spanOf?_eq_some_iff.mp edited.span'
  have start : e.oldSpan.start = first.start.byte := congrArg Span.start span
  have start' : e.newSpan.start = first'.start.byte := congrArg Span.start span'
  have opening := edited.opening
  rw [isFirst, isFirst'] at opening ⊢
  refine .some ⟨Option.some.inj opening, start ▸ Edit.outside_oldSpan.1, ?_⟩
  rw [← start, ← start', ← Edit.carried_oldSpan]
  rfl

theorem IsEdited.ends (edited : IsEdited e inside inside') :
    Option.Rel (Ends e) (lastOf? inside) (lastOf? inside') := by
  obtain ⟨first, last, _, isLast, span⟩ := spanOf?_eq_some_iff.mp edited.span
  obtain ⟨first', last', _, isLast', span'⟩ := spanOf?_eq_some_iff.mp edited.span'
  have stop : e.oldSpan.stop = last.stop.byte := congrArg Span.stop span
  have stop' : e.newSpan.stop = last'.stop.byte := congrArg Span.stop span'
  rw [isLast, isLast']
  refine .some ⟨stop ▸ Edit.outside_oldSpan.2, ?_⟩
  rw [← stop, ← stop', ← Edit.carried_oldSpan]
  rfl

theorem firstOf?_node (name : Part) (parts rest : List JavaTree) :
    firstOf? (.node name parts :: rest) = (firstOf? parts).or (firstOf? rest) := by
  rw [firstOf?, Tree.first?]
  cases firstOf? parts <;> rfl

theorem lastOf?_cons (tree : JavaTree) (rest : List JavaTree) :
    lastOf? (tree :: rest) = (lastOf? rest).or tree.last? := by
  rw [lastOf?]
  cases lastOf? rest <;> rfl

theorem Reread.begins (reread : Reread e trees trees') :
    Option.Rel (Begins e) (firstOf? trees) (firstOf? trees') := by
  induction reread with
  | nil => exact .none
  | leaf begins _ _ _ => exact .some begins
  | node _ _ inner ih =>
    rw [firstOf?_node, firstOf?_node]
    exact rel_or inner ih
  | body _ edited _ ih =>
    rw [firstOf?_node, firstOf?_node]
    exact rel_or edited.begins ih

theorem Reread.ends (reread : Reread e trees trees') :
    Option.Rel (Ends e) (lastOf? trees) (lastOf? trees') := by
  induction reread with
  | nil => exact .none
  | leaf _ ends _ ih =>
    rw [lastOf?_cons, lastOf?_cons]
    exact rel_or ih (.some ends)
  | node _ _ inner ih =>
    rw [lastOf?_cons, lastOf?_cons]
    exact rel_or ih inner
  | body _ edited _ ih =>
    rw [lastOf?_cons, lastOf?_cons]
    exact rel_or ih edited.ends

theorem carried_spanOf? (begins : Option.Rel (Begins e) (firstOf? trees) (firstOf? trees'))
    (ends : Option.Rel (Ends e) (lastOf? trees) (lastOf? trees')) :
    Option.Rel (Carried e) (spanOf? trees) (spanOf? trees') :=
  rel_bind begins fun _ _ begins => rel_bind ends fun _ _ ends =>
    .some ⟨begins.outside, ends.outside, congr (congrArg Span.mk begins.carried) ends.carried⟩

/-- Where no body is looked for, trees that are read again are found. -/
theorem Reread.partsNamed? {names : List Part} (reread : Reread e trees trees')
    (noBody : ∀ name ∈ [Part.block, .constructorBody], name ∉ names) :
    Option.Rel (Reread e) (partsNamed? names trees) (partsNamed? names trees') := by
  induction reread with
  | nil => exact .none
  | leaf _ _ _ ih => exact ih
  | @node name _ _ _ _ inner _ _ ih =>
    rw [Java.partsNamed?, Java.partsNamed?]
    cases names.contains name with
    | true => exact .some inner
    | false => exact ih
  | @body name _ _ _ _ isBody _ _ ih =>
    -- an edited body is passed over, in both lists of trees
    have other : names.contains name = false := by simpa using noBody name isBody
    rw [Java.partsNamed?, Java.partsNamed?, other]
    exact ih

theorem Reread.span {names : List Part} (reread : Reread e trees trees') :
    Option.Rel (Carried e) ((Java.partsNamed? names trees).bind spanOf?)
      ((Java.partsNamed? names trees').bind spanOf?) := by
  induction reread with
  | nil => exact .none
  | leaf _ _ _ ih => exact ih
  | @node name _ _ _ _ inner _ _ ih =>
    rw [Java.partsNamed?, Java.partsNamed?]
    cases names.contains name with
    | true => exact carried_spanOf? inner.begins inner.ends
    | false => exact ih
  | @body name _ _ _ _ _ edited _ ih =>
    rw [Java.partsNamed?, Java.partsNamed?]
    cases names.contains name with
    | true => exact carried_spanOf? edited.begins edited.ends
    | false => exact ih

theorem Reread.tokenAmong? (reread : Reread e trees trees') :
    Option.Rel (Begins e) (tokenAmong? trees) (tokenAmong? trees') := by
  induction reread with
  | nil => exact .none
  | leaf begins _ _ _ => exact .some begins
  | node _ _ _ ih => exact ih
  | body _ _ _ ih => exact ih

theorem Reread.declaredName? (name : Part) (reread : Reread e trees trees') :
    Option.Rel (Begins e) (declaredName? name trees) (declaredName? name trees') := by
  unfold Java.declaredName?
  split
  · exact rel_bind (reread.partsNamed? (by decide)) fun _ _ header =>
      rel_bind (header.partsNamed? (by decide)) fun _ _ head => head.begins
  · exact rel_bind (reread.partsNamed? (by decide)) fun _ _ head => head.tokenAmong?
  · exact reread.tokenAmong?
  · exact .none

theorem Reread.declaration? (name : Part) (reread : Reread e trees trees') :
    Option.Rel (Kept e) (declaration? name trees) (declaration? name trees') :=
  rel_bind (reread.declaredName? name) fun called called' same =>
    rel_bind reread.begins fun _ _ _ => rel_bind reread.ends fun _ _ _ =>
      .some ⟨by rw [same.text], reread.span⟩

/-! Declarations of trees that are read again -/

theorem forall₂_toList {α β : Type} {r : α → β → Prop} {a : Option α} {b : Option β}
    (related : Option.Rel r a b) : List.Forall₂ r a.toList b.toList := by
  cases related with
  | some pair => exact .cons pair .nil
  | none => exact .nil

theorem kept_declarationsOf {f : Token → Token} (trees : List JavaTree)
    (moves : ∀ token ∈ tokensOf trees, Begins e token (f token) ∧ Ends e token (f token)) :
    List.Forall₂ (Kept e) (declarationsOf trees) (declarationsOf (mapParts f trees)) := by
  induction trees using parts_induction with
  | nil => exact .nil
  | leaf token rest ih => exact ih (List.forall_mem_append.mp moves).2
  | node name parts rest inner ih =>
    have ⟨first, others⟩ := List.forall_mem_append.mp moves
    exact List.rel_append (List.rel_append
      (forall₂_toList ((reread_mapParts parts first).declaration? name)) (inner first)) (ih others)

section

variable {f : Token → Token} {c : Context} {name : Part}
  (moves : ∀ token ∈ c.tokens, Begins e token (f token) ∧ Ends e token (f token))

include moves

theorem kept_declaredBefore (isBody : name ∈ [.block, .constructorBody])
    (edited : IsEdited e inside inside') :
    List.Forall₂ (Kept e) (c.declaredBefore (.node name inside))
      ((c.map f).declaredBefore (.node name inside')) := by
  induction c with
  | here before after =>
    exact kept_declarationsOf before (List.forall_mem_append.mp moves).1
  | inside before after outer inner ih =>
    -- the phrase around the body may be a declaration: its parts are read again, body and all
    have ⟨others, _⟩ := List.forall_mem_append.mp moves
    have ⟨front, middle⟩ := List.forall_mem_append.mp others
    exact List.rel_append (List.rel_append (kept_declarationsOf before front)
      (forall₂_toList ((reread_fill middle isBody edited).declaration? outer))) (ih middle)

theorem kept_declaredAfter :
    List.Forall₂ (Kept e) c.declaredAfter (c.map f).declaredAfter := by
  induction c with
  | here before after =>
    exact kept_declarationsOf after (List.forall_mem_append.mp moves).2
  | inside before after outer inner ih =>
    have ⟨others, back⟩ := List.forall_mem_append.mp moves
    exact List.rel_append (ih (List.forall_mem_append.mp others).2) (kept_declarationsOf after back)

end

end

end CostWatch.Java
