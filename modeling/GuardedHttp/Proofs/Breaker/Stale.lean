import GuardedHttp.Proofs.Breaker.Delivery
import GuardedHttp.Proofs.Breaker.Generations

/-!
# Calls that end too late

A call may end long after it was admitted, when the circuit has changed its state, was reset or was
forced open, once or many times. Its permit is then of an older generation (`Run.Dated`), and the
circuit looks at nothing else before it lets the call go: no field changes, nothing is recorded, and no
listener hears of it. A call that ends in its own period is always recorded, exactly once, whatever
listeners do on hearing of it.

Main statement: `stale_calls_inert`.
-/

namespace GuardedHttp.Breaker

open Circuit (CompleteCase ReleaseCase)

section

variable {settings : Settings} {b : Breaker} {now : Instant} {c : Circuit} {p : Permit}
  {failed : Bool}

/-- The end of a call with a permit of another generation is no step. -/
theorem Circuit.complete_of_ne (h : p.generation ≠ c.generation) :
    c.complete settings now p failed = (c, []) := by
  unfold complete
  rw [if_pos h]

/-- Dropping a call with a permit of another generation is no step. -/
theorem Circuit.release_of_ne (h : p.generation ≠ c.generation) : c.release p = c := by
  unfold release
  rw [if_neg (fun hg => h hg.1)]

/-- What the end of a call of the current generation records. -/
def Circuit.verdict (c : Circuit) (failed : Bool) : Event :=
  if failed then .failure c.state c.countFailure.failures else .success c.state

/-- The end of a call of the current generation is recorded once. -/
theorem Circuit.verdicts_of_eq (h : p.generation = c.generation) :
    (c.complete settings now p failed).2.filter Event.isVerdict = [c.verdict failed] := by
  cases c.complete_case settings now p failed with
  | stale hg => exact absurd h hg
  | succeeds _ hv hs e | trialSucceeds _ hv hs _ e | closes _ hv hs _ e | fails _ hv hs _ e
  | trips _ hv hs _ e | reopens _ hv hs e =>
    rw [e, hv, verdict, hs]
    rfl
  | whileOpen _ hs e =>
    rw [e, verdict, hs]
    cases failed <;> rfl

/-- If the step of the circuit is none, the breaker does nothing. -/
theorem complete_of_nil (h : c.complete b.settings now p failed = (c, [])) :
    b.complete now p failed c = { circuit := c } := by
  unfold complete update
  rw [h, deliver_nil]
  rfl

end

/-- A call that was admitted before the latest change of state, reset or forced opening does nothing
when it ends or is dropped: the circuit stays as it is, and nothing is recorded, reported or heard. A
call that was admitted later leaves exactly one record of a success or a failure when it ends. -/
theorem stale_calls_inert {b : Breaker} {r : Run} (hr : Reachable b.settings r)
    (hb : r.bumps < 2 ^ 64) {a : Admission} (ha : a ∈ r.outstanding) :
    (¬ r.Current a →
      (∀ failed, b.complete r.now a.permit failed r.circuit = { circuit := r.circuit }) ∧
        abandon a.permit r.circuit = { circuit := r.circuit }) ∧
    (r.Current a → ∀ failed,
      (b.complete r.now a.permit failed r.circuit).events.filter Event.isVerdict =
        [r.circuit.verdict failed]) := by
  have hcurrent := (hr.dated hb).current_iff a ha
  refine ⟨fun hstale => ?_, fun h failed => ?_⟩
  · have hg : a.permit.generation ≠ r.circuit.generation := mt hcurrent.mp hstale
    refine ⟨fun failed => complete_of_nil (Circuit.complete_of_ne hg), ?_⟩
    unfold abandon
    rw [Circuit.release_of_ne hg]
  · rw [verdicts_complete, Circuit.verdicts_of_eq (hcurrent.mpr h)]

/-- A call of the closed period that fails in the half-open one changes nothing and tells nothing. -/
theorem stale_overlapping :
    Reachable twoTrials overlapping ∧ overlapping.bumps < 2 ^ 64 ∧
      ⟨1, ⟨0⟩⟩ ∈ overlapping.outstanding ∧ ¬ overlapping.Current ⟨1, ⟨0⟩⟩ ∧
      complete { settings := twoTrials } overlapping.now ⟨0⟩ true overlapping.circuit =
        { circuit := overlapping.circuit } := by
  have ha : ⟨1, ⟨0⟩⟩ ∈ overlapping.outstanding := by decide
  have hstale : ¬ overlapping.Current ⟨1, ⟨0⟩⟩ := by decide
  obtain ⟨hinert, -⟩ :=
    stale_calls_inert (b := { settings := twoTrials }) reachable_overlapping bumps_overlapping ha
  exact ⟨reachable_overlapping, bumps_overlapping, ha, hstale, (hinert hstale).1 true⟩

end GuardedHttp.Breaker
