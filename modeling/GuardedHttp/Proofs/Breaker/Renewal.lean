import GuardedHttp.Proofs.Breaker.Representation
import GuardedHttp.Proofs.Breaker.SideBySide

/-!
# A reset makes a breaker as good as new

A reset leaves one thing of the past behind, the generation, and calls that hold permits of older ones.
Neither can be told from the outside: generations are only compared (`Circuit.acquire_shift` and the
lemmas next to it), and a call from before the reset ends too late to be noticed, whenever it ends. So
whatever happens next, the breaker and a new one that goes through the same look the same (`Renewed`).

Main statement: `reset_like_new`.
-/

namespace GuardedHttp.Breaker

variable {α ε : Type}

/-- The breaker is reset, which is the move `.control .reset`. -/
def Roster.reset (b : Breaker) (x : Roster) : Roster :=
  { x with run := x.run.step b.settings (.control .reset) }

/-- A roster looks like a new one, but for what happened before, and for the calls of the first so many
steps. -/
structure Roster.Renewed (b : Breaker) (classify : Classifier α ε) (steps : Nat)
    (before : List Event) (x new : Roster) : Prop where
  /-- It is the same time. -/
  now : x.run.now = new.run.now
  /-- The circuits have the same fields, but for the generation. -/
  circuit : x.run.circuit = { new.run.circuit with generation := x.run.circuit.generation }
  /-- The time since the last change is the same. -/
  age : x.run.circuit.age x.run.now = new.run.circuit.age new.run.now
  /-- The same events have happened since. -/
  events : x.run.events = before ++ new.run.events
  /-- The next move is answered alike, unless it ends one of the older calls. -/
  replies : ∀ m : Move α ε,
    (∀ name a, m.ends = some name → x.calls name = some a → steps ≤ a.number) →
    x.reply b classify m = new.reply b classify m

section

variable {settings : Settings} {r : Run} {b : Breaker} {classify : Classifier α ε} {x : Roster}

/-- What a reset leaves is a new circuit, but for the generation. -/
theorem Run.Counted.circuit_reset (h : r.Counted settings) :
    (r.circuit.control r.now .reset).1 =
      (Circuit.new r.now).shift (r.circuit.control r.now .reset).1.generation := by
  cases r.circuit.control_case r.now .reset with
  | resets _ _ e => simp [e, Circuit.shift, Circuit.new, Circuit.enter]
  | renews _ hs e =>
    obtain ⟨hi, hw, -⟩ := h.closed hs
    simp [e, Circuit.shift, Circuit.new, hs, hi, hw, h.published]
  | opens hc | staysOpen hc | closes hc | staysClosed hc => cases hc

/-- The reset is a record of its own, and ends a period. -/
theorem latest_reset (settings : Settings) (r : Run) :
    latest Record.breaks (r.step settings (.control .reset)).past = r.past.length := by
  have hbreaks : (Record.of (.control .reset) r.now r.circuit
      (r.effect settings (.control .reset))).breaks = true := by simp [Record.of, Record.breaks]
  rw [Run.past_step settings (show r.Allows (.control .reset) from trivial), latest, if_pos hbreaks]

/-- A reset keeps the names standing for calls of the run. -/
theorem Roster.Sound.reset (h : x.Sound b.settings) : (x.reset b).Sound b.settings :=
  ⟨h.reached.step (.control .reset), h.out, h.apart⟩

/-- Right after a reset a roster is like a new one, but for the calls that it has in flight. -/
theorem Roster.Sound.alike_reset (h : x.Sound b.settings) (hb : (x.reset b).run.bumps < 2 ^ 64) :
    (x.reset b).Alike b.settings (x.run.circuit.control x.run.now .reset).1.generation
      (fun _ a => a.number < x.run.past.length) (.fresh x.run.now) := by
  have hbefore := Run.bumps_le_step b.settings x.run (.control .reset)
  have hcounted := h.reached.counted (Nat.lt_of_le_of_lt hbefore hb)
  refine ⟨h.reset, Roster.sound_fresh _ _, ⟨rfl, hcounted.circuit_reset⟩, fun name => ?_⟩
  show Shares _ _ name (x.calls name) none
  cases hx : x.calls name with
  | none => exact .inl (agree_none.mpr rfl)
  | some a => exact .inr ⟨rfl, a, rfl, h.reached.number_lt a (h.out _ _ hx)⟩

/-- No call from before a reset has a current permit at any time after it. -/
theorem Roster.Sound.harmless_of_reset (h : x.Sound b.settings) {done : List (Move α ε)} {m : Move α ε}
    (hb : ((x.reset b).play b classify done).run.bumps < 2 ^ 64) :
    Harmless (fun _ a => a.number < x.run.past.length) ((x.reset b).play b classify done) m := by
  intro name a _ ha hlt hg
  have hsound := h.reset.play classify done
  -- The latest change is the reset or a later one, and the call is older than the reset.
  have hlatest := latest_mono Record.breaks (past_play b classify (x.reset b) done)
  have hreset : latest Record.breaks (x.reset b).run.past = x.run.past.length :=
    latest_reset b.settings x.run
  have hcurrent := ((hsound.reached.dated hb).current_iff a (hsound.out _ _ ha)).mp hg
  unfold Run.Current at hcurrent
  omega

end

/-- After a reset a breaker cannot be told from one that is built at the same moment, whatever happens
next: they admit and reject the same calls and answer them alike, show the same state and the same
counts, and have the same events, whenever and however the calls from before the reset end. -/
theorem reset_like_new {b : Breaker} (classify : Classifier α ε) {x : Roster}
    (hx : x.Sound b.settings) (moves : List (Move α ε))
    (hb : ((x.reset b).play b classify moves).run.bumps < 2 ^ 64) :
    ((x.reset b).play b classify moves).Renewed b classify x.run.past.length (x.reset b).run.events
      ((Roster.fresh x.run.now).play b classify moves) := by
  have hfirst := Run.bumps_mono (Roster.past_play b classify (x.reset b) moves)
  have halike := hx.alike_reset (Nat.lt_of_le_of_lt hfirst hb)
  have hharmless (done : List (Move α ε)) (m : Move α ε) (rest : List (Move α ε))
      (he : moves = done ++ m :: rest) : Roster.Harmless (fun _ a => a.number < x.run.past.length)
        ((x.reset b).play b classify done) m := by
    -- What has happened by then is part of the whole run.
    have hpart := Run.bumps_mono
      (Roster.past_play b classify ((x.reset b).play b classify done) (m :: rest))
    rw [← Roster.play_append, ← he] at hpart
    exact hx.harmless_of_reset (Nat.lt_of_le_of_lt hpart hb)
  obtain ⟨hlater, events, hevents, hnew⟩ := halike.play hharmless
  have hcircuit := hlater.run.circuit
  have hchanged : ((x.reset b).play b classify moves).run.circuit.changedAt =
      ((Roster.fresh x.run.now).play b classify moves).run.circuit.changedAt := by
    rw [hcircuit]
    rfl
  refine ⟨hlater.run.now, ?_, ?_, ?_, fun m hm => hlater.reply_eq fun name hname => ?_⟩
  · rw [hcircuit]
    rfl
  · unfold Circuit.age
    rw [hlater.run.now, hchanged]
  · rw [hevents, hnew]
    rfl
  · rcases hlater.calls name with hagree | ⟨-, a, ha, hlt⟩
    · exact hagree
    · exact absurd hlt (Nat.not_lt_of_le (hm name a hname ha))

/-- A call of the closed period fails after the reset, then a new call and a former trial succeed, and
another new call fails. -/
def aftermath : List (Move Nat Nat) :=
  [.finish 1 (.returned (.error 1)), .ask 7, .ask 8, .finish 7 (.returned (.ok 7)),
    .finish 5 (.returned (.ok 5)), .finish 8 (.returned (.error 8))]

/-- After a reset with two calls in flight, both of them end without effect, and the circuit opens at the
first failure of a call since. -/
theorem renewed_overlapping :
    overlapping.roster.Sound twoTrials ∧
      ((overlapping.roster.reset { settings := twoTrials }).play { settings := twoTrials } anyError
        aftermath).run.bumps < 2 ^ 64 ∧
      ((Roster.fresh overlapping.now).play { settings := twoTrials } anyError aftermath).run.events =
        [.permitted .closed, .permitted .closed, .success .closed, .failure .closed 1,
          .transition .closed .opened] ∧
      ((overlapping.roster.reset { settings := twoTrials }).play { settings := twoTrials } anyError
        aftermath).run.circuit.state = .opened := by
  have hsound := reachable_overlapping.roster_spec.1
  have hb : ((overlapping.roster.reset { settings := twoTrials }).play { settings := twoTrials }
      anyError aftermath).run.bumps < 2 ^ 64 := by decide
  have hrenewed := reset_like_new (b := { settings := twoTrials }) anyError hsound aftermath hb
  refine ⟨hsound, hb, by decide, ?_⟩
  rw [hrenewed.circuit]
  decide

end GuardedHttp.Breaker
