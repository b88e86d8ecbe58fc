import CostWatch.Proofs.Ledger.Whitelisting
import CostWatch.Proofs.Session.Step

/-!
Requests that are rejected.

A rejected request leaves the session as it is. Two things can have changed before the request
fails: the folder of the caches, if the output of the analyzer could not be removed after it, and
the whitelist in memory, if the database refuses the name.
-/

set_option autoImplicit false

namespace CostWatch

theorem Ledger.update_error {l next : Ledger} {u : Update} {attempt : Attempt} {e : LedgerError}
    (failed : l.update u attempt = (.error e, next)) :
    ∃ whitelist, next = { l with whitelist } ∧
      (whitelist = l.whitelist ∨ ∃ reason, attempt = .fails reason ∧ e = .database reason) := by
  have outcome := l.updates u attempt
  rw [failed] at outcome
  cases outcome with
  | blank _ => exact ⟨_, rfl, .inl rfl⟩
  | refused _ _ refusal => exact ⟨_, rfl, .inr ⟨_, refusal, rfl⟩⟩

namespace Session

variable {s : Session} {r : Request} {c : Circumstances} {f : Failure}

/-- What is left of a session after a request was rejected. -/
structure Rejected (s : Session) (r : Request) (c : Circumstances) (f : Failure) (t : Session) :
    Prop where
  kept : t =
    { s with
      cache := t.cache
      ledger := { s.ledger with whitelist := t.ledger.whitelist } }
  /-- The caches are gone if the output could not be removed after them. -/
  cache : t.cache = s.cache ∨ r = .cleanOutput ∧ t.cache = .absent ∧
    ∃ fault, s.output.remove c.outputRemoval = .error fault ∧ f = .io fault
  /-- A name that the database refuses stays as it was asked for. -/
  whitelist : t.ledger.whitelist = s.ledger.whitelist ∨ exempts r = true ∧
    ∃ reason, c.ledgerWrite = .fails reason ∧ f = .ledger (.database reason)

theorem rejected_self : s.Rejected r c f s :=
  ⟨rfl, .inl rfl, .inl rfl⟩

theorem rejected_cleanOutput (rejected : (s.cleanOutput c).1 = .error f) :
    s.Rejected .cleanOutput c f (s.cleanOutput c).2 := by
  cases idle : s.ensureIdle with
  | error g =>
    have same : s.cleanOutput c = s.refuse g := require_error idle
    rw [same]
    exact rejected_self
  | ok u =>
    have first : s.cleanOutput c = _ := require_ok idle
    cases removal : s.cache.remove c.cacheRemoval with
    | error fault =>
      rw [removal] at first
      rw [first]
      exact rejected_self
    | ok removed =>
      obtain ⟨wasThere, cache⟩ := removed
      have gone : (s.cache.remove c.cacheRemoval).mapError Failure.io = .ok (wasThere, cache) := by
        rw [removal]
        rfl
      obtain rfl : cache = .absent := absent_of_remove gone
      rw [removal] at first
      cases emptying : s.output.remove c.outputRemoval with
      | error fault =>
        simp only [Except.mapError, require, emptying, refuse] at first
        rw [first] at rejected ⊢
        cases rejected
        exact ⟨rfl, .inr ⟨rfl, rfl, fault, emptying, rfl⟩, .inl rfl⟩
      | ok emptied =>
        simp only [Except.mapError, require, emptying] at first
        rw [first] at rejected
        split at rejected <;> cases rejected

theorem rejected_exempted {u : Ledger.Update} {e : LedgerError} {ledger : Ledger}
    (exempt : exempts r = true)
    (failed : s.ledger.update u c.ledgerWrite = (.error e, ledger)) :
    s.Rejected r c (.ofLedger e) { s with ledger } := by
  obtain ⟨whitelist, rfl, same | ⟨reason, refusal, rfl⟩⟩ := Ledger.update_error failed
  · exact ⟨rfl, .inl rfl, .inl same⟩
  · exact ⟨rfl, .inl rfl, .inr ⟨exempt, reason, refusal, rfl⟩⟩

theorem rejected_whitelistAdd {name : String} (rejected : (s.whitelistAdd name c).1 = .error f) :
    s.Rejected (.whitelistAdd name) c f (s.whitelistAdd name c).2 := by
  unfold whitelistAdd at rejected ⊢
  split at rejected
  next added ledger found =>
  rw [← Ledger.update_listed] at found
  cases added with
  | error e =>
    cases rejected
    exact rejected_exempted rfl found
  | ok added => cases rejected

theorem rejected_whitelistRemove {name : String}
    (rejected : (s.whitelistRemove name c).1 = .error f) :
    s.Rejected (.whitelistRemove name) c f (s.whitelistRemove name c).2 := by
  unfold whitelistRemove at rejected ⊢
  split at rejected
  next removed ledger found =>
  rw [← Ledger.update_not_listed] at found
  cases removed with
  | error e =>
    cases rejected
    exact rejected_exempted rfl found
  | ok removed => cases rejected

theorem rejected_of_step {t : Session} (step : s.Step (.request r c) (.error f) t)
    (cleans : r ≠ .cleanOutput) (keeps : exempts r = false) : t = s := by
  generalize answered : (Except.error f : Except Failure Outcome) = answer at step
  cases step with
  | refused _ _ => rfl
  | cleanedInPart _ => exact absurd rfl cleans
  | exempted exempt _ => cases keeps.symm.trans exempt
  | _ => cases answered

theorem rejected_handle (rejected : (s.handle r c).1 = .error f) :
    s.Rejected r c f (s.handle r c).2 := by
  by_cases special : r = .cleanOutput ∨ exempts r = true
  · cases r with
    | cleanOutput => exact rejected_cleanOutput rejected
    | whitelistAdd name => exact rejected_whitelistAdd rejected
    | whitelistRemove name => exact rejected_whitelistRemove rejected
    | _ => simp [exempts] at special
  · obtain ⟨cleans, keeps⟩ := not_or.mp special
    have step := s.step_handle r c
    rw [rejected] at step
    rw [rejected_of_step step cleans (Bool.eq_false_iff.mpr keeps)]
    exact rejected_self

/-- While the database accepts what is written, a rejected request leaves all of the session in
memory as it is. On disk only the caches can be gone, if the output of the analyzer could not be
removed after them. -/
theorem rejected_request (written : c.ledgerWrite = .succeeds)
    (rejected : (s.handle r c).1 = .error f) :
    ∃ cache, (s.handle r c).2 = { s with cache } ∧
      (cache = s.cache ∨ r = .cleanOutput ∧ cache = .absent ∧
        ∃ fault, s.output.remove c.outputRemoval = .error fault ∧ f = .io fault) := by
  have left := rejected_handle rejected
  have whitelist : (s.handle r c).2.ledger.whitelist = s.ledger.whitelist := by
    rcases left.whitelist with same | ⟨_, reason, refusal, _⟩
    · exact same
    · cases written.symm.trans refusal
  refine ⟨(s.handle r c).2.cache, ?_, left.cache⟩
  rw [left.kept, whitelist]

end Session

def Sample.cluttered : Session :=
  { Sample.session with
    cache := .holding ⟨.empty, false⟩
    output := .plainFile }

theorem rejected_request_cleaning :
    (Sample.cluttered.handle .cleanOutput Sample.circumstances).1 = .error (.io .notADirectory) ∧
      ∃ cache, (Sample.cluttered.handle .cleanOutput Sample.circumstances).2 =
        { Sample.cluttered with cache } := by
  have rejected : (Sample.cluttered.handle .cleanOutput Sample.circumstances).1 =
      .error (.io .notADirectory) := rfl
  obtain ⟨cache, kept, _⟩ := Session.rejected_request rfl rejected
  exact ⟨rejected, cache, kept⟩

end CostWatch
