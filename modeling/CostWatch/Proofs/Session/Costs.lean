import CostWatch.Proofs.Session.Staleness

/-!
Which costs an analysis brings.

Its records are grouped by document, in increasing order of the documents, so that no document comes
twice. Each document gets the records that belong to it, in the order of the report.
-/

set_option autoImplicit false

namespace CostWatch

/-- Documents in increasing order of their paths. -/
def Increasing (documents : List CachedDocument) : Prop :=
  documents.Pairwise fun c later => c.document.path < later.document.path

def recordsIn? (documents : List CachedDocument) (d : Document) : Option (List Record) :=
  (documents.find? fun c => c.document = d).map CachedDocument.records

theorem recordsIn?_cons (c : CachedDocument) (rest : List CachedDocument) (d : Document) :
    recordsIn? (c :: rest) d = if c.document = d then some c.records else recordsIn? rest d := by
  by_cases same : c.document = d <;> simp [recordsIn?, same]

theorem recordsIn?_eq_none {d : Document} {documents : List CachedDocument}
    (before : ∀ c ∈ documents, d.path < c.document.path) : recordsIn? documents d = none := by
  rw [recordsIn?, Option.map_eq_none_iff, List.find?_eq_none]
  intro c member same
  rw [← of_decide_eq_true same] at before
  exact String.lt_irrefl _ (before c member)

theorem recordsIn?_of_mem {documents : List CachedDocument} (increasing : Increasing documents)
    {c : CachedDocument} (member : c ∈ documents) :
    recordsIn? documents c.document = some c.records := by
  induction documents with
  | nil => cases member
  | cons first rest ih =>
    obtain ⟨least, others⟩ := List.pairwise_cons.mp increasing
    rw [recordsIn?_cons]
    rcases List.mem_cons.mp member with rfl | later
    · exact if_pos rfl
    · have apart : first.document ≠ c.document := fun same =>
        String.lt_irrefl _ (same ▸ least c later)
      rw [if_neg apart, ih others later]

theorem mem_of_recordsIn? {documents : List CachedDocument} {c : CachedDocument}
    (found : recordsIn? documents c.document = some c.records) : c ∈ documents := by
  obtain ⟨other, isOther, records⟩ := Option.map_eq_some_iff.mp found
  have document : other.document = c.document := by simpa using List.find?_some isOther
  cases other
  cases document
  cases records
  exact List.mem_of_find?_eq_some isOther

theorem Increasing.nodup {documents : List CachedDocument} (increasing : Increasing documents) :
    (documents.map CachedDocument.document).Nodup := by
  refine List.pairwise_map.mpr (increasing.imp fun {c later} before same => ?_)
  exact String.lt_irrefl _ (same ▸ before)

theorem Increasing.ext {documents others : List CachedDocument} (increasing : Increasing documents)
    (othersIncreasing : Increasing others)
    (same : ∀ d, recordsIn? documents d = recordsIn? others d) : documents = others := by
  have perm : documents.Perm others := by
    refine (List.perm_ext_iff_of_nodup (increasing.nodup.of_map _)
      (othersIncreasing.nodup.of_map _)).mpr fun c => ⟨fun member => ?_, fun member => ?_⟩
    · exact mem_of_recordsIn? ((same c.document).symm.trans (recordsIn?_of_mem increasing member))
    · exact mem_of_recordsIn? ((same c.document).trans (recordsIn?_of_mem othersIncreasing member))
  exact perm.eq_of_pairwise (fun _ _ _ _ before after => absurd after (String.lt_asymm before))
    increasing othersIncreasing

namespace Session

theorem increasing_addRecord {documents : List CachedDocument} (increasing : Increasing documents)
    (d : Document) (r : Record) : Increasing (addRecord d r documents) := by
  induction documents with
  | nil => exact List.pairwise_singleton _ _
  | cons c rest ih =>
    obtain ⟨first, others⟩ := List.pairwise_cons.mp increasing
    rw [addRecord]
    split
    · exact List.pairwise_cons.mpr ⟨first, others⟩
    · next apart =>
      split
      · next before =>
        refine List.pairwise_cons.mpr ⟨List.forall_mem_cons.mpr ⟨before, ?_⟩, increasing⟩
        exact fun later member => String.lt_trans before (first later member)
      · next notBefore =>
        have after : c.document.path < d.path :=
          Std.lt_of_le_of_ne (String.not_lt.mp notBefore) fun same =>
            apart (congrArg Document.mk same.symm)
        refine List.pairwise_cons.mpr ⟨fun later member => ?_, ih others⟩
        have covered : covers (addRecord d r rest) later.document = true :=
          List.any_eq_true.mpr ⟨later, member, decide_eq_true rfl⟩
        rcases mem_addRecord.mp covered with new | old
        · exact new ▸ after
        · obtain ⟨other, member, same⟩ := List.any_eq_true.mp old
          exact of_decide_eq_true same ▸ first other member

theorem recordsIn?_addRecord {documents : List CachedDocument}
    (increasing : Increasing documents) (d e : Document) (r : Record) :
    recordsIn? (addRecord d r documents) e =
      if d = e then some ((recordsIn? documents e).getD [] ++ [r]) else recordsIn? documents e := by
  induction documents with
  | nil => simp [addRecord, recordsIn?]
  | cons c rest ih =>
    obtain ⟨first, others⟩ := List.pairwise_cons.mp increasing
    rw [addRecord]
    split
    · next same =>
      subst same
      rw [recordsIn?_cons, recordsIn?_cons]
      split <;> simp
    · next apart =>
      split
      · next before =>
        -- Nothing of the new document stands here, nor behind what is greater.
        have absent : recordsIn? (c :: rest) d = none :=
          recordsIn?_eq_none (List.forall_mem_cons.mpr
            ⟨before, fun later member => String.lt_trans before (first later member)⟩)
        rw [recordsIn?_cons]
        split
        · next same =>
          rw [← same, absent, Option.getD_none, List.nil_append]
        · rfl
      · rw [recordsIn?_cons, recordsIn?_cons, ih others]
        by_cases here : c.document = e
        · have other : d ≠ e := fun same => apart (same.trans here.symm)
          simp [here, other]
        · simp [here]

def belonging (s : Session) (a : Analysis) (records : List Record) (d : Document) : List Record :=
  records.filter fun r => s.reportedDocument a r.location.file = d

variable (s : Session) {a : Analysis}

theorem reportedDocument_of_document {d : Document} (analysed : a.document = some d)
    (file : String) : s.reportedDocument a file = d := by
  rw [reportedDocument, analysed]

theorem reportedDocument_of_project (project : a.document = none) (file : String) :
    s.reportedDocument a file = ⟨Path.resolve s.config.workspace.root file⟩ := by
  rw [reportedDocument, project]

theorem belonging_of_document {d : Document} (analysed : a.document = some d)
    (records : List Record) : s.belonging a records d = records := by
  rw [belonging, List.filter_eq_self]
  intro r _
  exact decide_eq_true (s.reportedDocument_of_document analysed _)

variable (a)

theorem belonging_ne_nil {records : List Record} {d : Document} :
    s.belonging a records d ≠ [] ↔ ∃ r ∈ records, s.reportedDocument a r.location.file = d := by
  simp [belonging]

theorem grouped {documents : List CachedDocument} (increasing : Increasing documents)
    (records : List Record) (d : Document) :
    Increasing (records.foldl
        (fun grouped r => addRecord (s.reportedDocument a r.location.file) r grouped) documents) ∧
      recordsIn? (records.foldl
          (fun grouped r => addRecord (s.reportedDocument a r.location.file) r grouped) documents)
          d =
        if s.belonging a records d = [] then recordsIn? documents d
        else some ((recordsIn? documents d).getD [] ++ s.belonging a records d) := by
  induction records generalizing documents with
  | nil => exact ⟨increasing, rfl⟩
  | cons r rest ih =>
    obtain ⟨stays, found⟩ := ih (increasing_addRecord increasing _ r)
    refine ⟨stays, found.trans ?_⟩
    rw [recordsIn?_addRecord increasing]
    by_cases own : s.reportedDocument a r.location.file = d
    · have mine : s.belonging a (r :: rest) d = r :: s.belonging a rest d :=
        List.filter_cons_of_pos (decide_eq_true own)
      rw [mine, if_pos own]
      by_cases last : s.belonging a rest d = [] <;> simp [last]
    · have others : s.belonging a (r :: rest) d = s.belonging a rest d :=
        List.filter_cons_of_neg (by simpa using own)
      rw [others, if_neg own]

theorem increasing_byDocument (records : List Record) : Increasing (s.byDocument a records) := by
  have single : Increasing (a.document.toList.map fun document => ⟨document, []⟩) := by
    cases a.document with
    | none => exact .nil
    | some document => exact List.pairwise_singleton _ _
  exact (s.grouped a single records ⟨""⟩).1

/-- Each document gets its records; the analysed one gets a list even if there are none. -/
theorem recordsIn?_byDocument (records : List Record) (d : Document) :
    recordsIn? (s.byDocument a records) d =
      if a.document = some d ∨ s.belonging a records d ≠ [] then some (s.belonging a records d)
      else none := by
  cases analysed : a.document with
  | none =>
    have empty : Increasing [] := .nil
    have found := (s.grouped a empty records d).2
    rw [byDocument, analysed]
    refine found.trans ?_
    by_cases none : s.belonging a records d = [] <;> simp [none, recordsIn?]
  | some document =>
    have found := (s.grouped a (List.pairwise_singleton _ ⟨document, []⟩) records d).2
    rw [byDocument, analysed]
    refine found.trans ?_
    rw [recordsIn?_cons]
    by_cases same : document = d <;>
      by_cases none : s.belonging a records d = [] <;>
      simp [same, none, recordsIn?]

/-- Records are grouped in the same way if those of each document come in the same order. -/
theorem byDocument_eq {records others : List Record}
    (same : ∀ d, s.belonging a records d = s.belonging a others d) :
    s.byDocument a records = s.byDocument a others := by
  refine (s.increasing_byDocument a records).ext (s.increasing_byDocument a others) fun d => ?_
  rw [recordsIn?_byDocument, recordsIn?_byDocument, same]

theorem perm_addRecord (d : Document) (r : Record) (documents : List CachedDocument) :
    ((addRecord d r documents).flatMap CachedDocument.records).Perm
      (documents.flatMap CachedDocument.records ++ [r]) := by
  induction documents with
  | nil => exact .refl _
  | cons c rest ih =>
    rw [addRecord]
    split
    · have last : ([r] ++ rest.flatMap CachedDocument.records).Perm
          (rest.flatMap CachedDocument.records ++ [r]) := List.perm_append_comm
      simpa using last.append_left c.records
    · split
      · exact (List.perm_append_singleton r _).symm
      · simpa using ih.append_left c.records

theorem perm_byDocument (records : List Record) :
    ((s.byDocument a records).flatMap CachedDocument.records).Perm records := by
  have grouped (documents : List CachedDocument) :
      ((records.foldl
          (fun grouped r => addRecord (s.reportedDocument a r.location.file) r grouped)
          documents).flatMap CachedDocument.records).Perm
        (documents.flatMap CachedDocument.records ++ records) := by
    induction records generalizing documents with
    | nil => simp
    | cons r rest ih =>
      refine (ih _).trans ?_
      simpa using (perm_addRecord _ r documents).append_right rest
  have empty : (a.document.toList.map fun document => (⟨document, []⟩ : CachedDocument)).flatMap
      CachedDocument.records = [] := by
    cases a.document <;> rfl
  have all := grouped (a.document.toList.map fun document => ⟨document, []⟩)
  rwa [empty, List.nil_append] at all

end Session

theorem Store.get?_setAll {documents : List CachedDocument} (increasing : Increasing documents)
    (store : Store) (d : Document) :
    (store.setAll documents).get? d = (recordsIn? documents d).or (store.get? d) := by
  induction documents generalizing store with
  | nil => rfl
  | cons c rest ih =>
    obtain ⟨first, others⟩ := List.pairwise_cons.mp increasing
    have next : store.setAll (c :: rest) = (store.set c.document c.records).setAll rest := rfl
    rw [next, ih others, get?_set, recordsIn?_cons]
    by_cases same : c.document = d
    · subst same
      simp [recordsIn?_eq_none first]
    · simp [same, Ne.symm same]

/-- Once an analysis has been taken up, the documents that it covers have the costs of its report,
and all others those that they had. -/
theorem Session.get?_settled (s : Session) (a : Analysis) (records : List Record) (ledger : Ledger)
    (d : Document) :
    (s.settled a records ledger).store.get? d =
      if a.document = some d ∨ s.belonging a records d ≠ [] then some (s.belonging a records d)
      else s.store.get? d := by
  have kept : (s.settled a records ledger).store.get? d =
      (s.store.setAll (s.byDocument a records)).get? d := rfl
  rw [kept, Store.get?_setAll (s.increasing_byDocument a records), recordsIn?_byDocument]
  split <;> rfl

end CostWatch
