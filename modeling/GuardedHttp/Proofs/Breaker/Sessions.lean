import GuardedHttp.Breaker.Session
import GuardedHttp.Proofs.Breaker.Delivery
import GuardedHttp.Proofs.Breaker.Run

/-!
# Sessions are runs

The laws of the breaker are stated of runs, whose steps are those of the circuit. A session is made of
larger acts: a whole call asks, runs and ends, and while its events are delivered any listener may give
commands. Every act is a number of steps all the same, and `Tells` says what of a run the users of a
breaker can tell: the time, the circuit, the permits that are out, in whatever order, the events, and the
samples of the metrics.

Main statements: `Session.Sound.run`, whatever users and listeners do, a session stays a run;
`Session.Tells.history`, the events and the samples of its acts are those of the run.
-/

namespace GuardedHttp.Breaker

open Circuit (Control)

variable {settings : Settings} {b : Breaker} {now : Instant} {c : Circuit} {p : Permit}
  {permits : List Permit} {log : List Event} {emitted : List Emission}

/-- Some run leads to this time and circuit with these permits out. -/
def Attains (settings : Settings) (now : Instant) (c : Circuit) (permits : List Permit) : Prop :=
  ∃ r, Reachable settings r ∧ r.now = now ∧ r.circuit = c ∧
    (r.outstanding.map (·.permit)).Perm permits

/-- Some run leads to this time and circuit with these permits out and this log, whose metrics have been
reported. -/
def Tells (settings : Settings) (now : Instant) (c : Circuit) (permits : List Permit)
    (log : List Event) (emitted : List Emission) : Prop :=
  (∃ r, Reachable settings r ∧ r.now = now ∧ r.circuit = c ∧
    (r.outstanding.map (·.permit)).Perm permits ∧ r.events = log) ∧
  samples emitted = samples (log.flatMap (Event.emissions settings.name))

/-- A run has a log, whose metrics can have been reported. -/
theorem Attains.tells (h : Attains settings now c permits) :
    ∃ log, Tells settings now c permits log (log.flatMap (Event.emissions settings.name)) := by
  obtain ⟨r, hr, hnow, hc, hout⟩ := h
  exact ⟨r.events, ⟨r, hr, hnow, hc, hout, rfl⟩, rfl⟩

/-- A permit that is out is held by an outstanding call. -/
theorem exists_admission {r : Run} (hout : (r.outstanding.map (·.permit)).Perm (p :: permits)) :
    ∃ a ∈ r.outstanding, a.permit = p ∧
      ((r.outstanding.erase a).map (·.permit)).Perm permits := by
  obtain ⟨a, ha, rfl⟩ := List.mem_map.mp (hout.symm.subset List.mem_cons_self)
  have herase := (List.perm_cons_erase ha).map (·.permit)
  exact ⟨a, ha, rfl, (herase.symm.trans hout).cons_inv⟩

namespace Tells

/-- What a run tells is attained by it. -/
theorem attains (h : Tells settings now c permits log emitted) : Attains settings now c permits := by
  obtain ⟨⟨r, hr, hnow, hc, hout, -⟩, -⟩ := h
  exact ⟨r, hr, hnow, hc, hout⟩

/-- The permits that are out stand in no order. -/
theorem perm {others : List Permit} (h : Tells settings now c permits log emitted)
    (hp : permits.Perm others) : Tells settings now c others log emitted := by
  obtain ⟨⟨r, hr, hnow, hc, hout, hlog⟩, hs⟩ := h
  exact ⟨⟨r, hr, hnow, hc, hout.trans hp, hlog⟩, hs⟩

/-- The events of a step are reported. -/
theorem samples_append_emissions (events : List Event)
    (h : samples emitted = samples (log.flatMap (Event.emissions settings.name))) :
    samples (emitted ++ events.flatMap (Event.emissions settings.name)) =
      samples ((log ++ events).flatMap (Event.emissions settings.name)) := by
  unfold samples at *
  rw [List.filterMap_append, h, List.flatMap_append, List.filterMap_append]

/-- Asking for a permit is a step: the permit, if there is one, is out, and the events of the step are
reported. -/
theorem acquire (h : Tells settings now c permits log emitted) :
    Tells settings now (c.acquire settings now).2.1 (permits ++ (c.acquire settings now).1.toList)
      (log ++ (c.acquire settings now).2.2)
      (emitted ++ (c.acquire settings now).2.2.flatMap (Event.emissions settings.name)) := by
  obtain ⟨⟨r, hr, rfl, rfl, hout, rfl⟩, hs⟩ := h
  have hevents := Run.events_step settings (show r.Allows .acquire from trivial)
  refine ⟨⟨_, hr.step .acquire, rfl, rfl, ?_, hevents⟩, samples_append_emissions _ hs⟩
  rw [Run.outstanding_acquire, List.map_append]
  apply hout.append
  cases (r.circuit.acquire settings r.now).1 <;> exact .refl _

/-- The end of a call is a step: its permit is out no longer, and the events of the step are reported. -/
theorem complete {failed : Bool} (h : Tells settings now c (p :: permits) log emitted) :
    Tells settings now (c.complete settings now p failed).1 permits
      (log ++ (c.complete settings now p failed).2)
      (emitted ++ (c.complete settings now p failed).2.flatMap (Event.emissions settings.name)) := by
  obtain ⟨⟨r, hr, rfl, rfl, hout, rfl⟩, hs⟩ := h
  obtain ⟨a, ha, rfl, hrest⟩ := exists_admission hout
  have hnow : (r.step settings (.complete a failed)).now = r.now := by simp [Run.step, ha, Run.note]
  have hevents := Run.events_step settings (show r.Allows (.complete a failed) from ha)
  refine ⟨⟨_, hr.step (.complete a failed), hnow, Run.circuit_complete ha, ?_, hevents⟩,
    samples_append_emissions _ hs⟩
  rw [Run.outstanding_complete ha]
  exact hrest

/-- Giving a permit back is a step without events. -/
theorem release (h : Tells settings now c (p :: permits) log emitted) :
    Tells settings now (c.release p) permits log emitted := by
  obtain ⟨⟨r, hr, rfl, rfl, hout, rfl⟩, hs⟩ := h
  obtain ⟨a, ha, rfl, hrest⟩ := exists_admission hout
  have hnow : (r.step settings (.abandon a)).now = r.now := by simp [Run.step, ha, Run.note]
  have hevents := Run.events_step settings (show r.Allows (.abandon a) from ha)
  refine ⟨⟨_, hr.step (.abandon a), hnow, Run.circuit_abandon ha, ?_, ?_⟩, hs⟩
  · rw [Run.outstanding_abandon ha]
    exact hrest
  · exact hevents.trans (List.append_nil _)

/-- A control is a step, whose events are reported. -/
theorem control (h : Tells settings now c permits log emitted) (how : Control) :
    Tells settings now (c.control now how).1 permits (log ++ (c.control now how).2)
      (emitted ++ (c.control now how).2.flatMap (Event.emissions settings.name)) := by
  obtain ⟨⟨r, hr, rfl, rfl, hout, rfl⟩, hs⟩ := h
  have hevents := Run.events_step settings (show r.Allows (.control how) from trivial)
  exact ⟨⟨_, hr.step (.control how), rfl, rfl, hout, hevents⟩, samples_append_emissions _ hs⟩

/-- Time may pass. -/
theorem advance (h : Tells settings now c permits log emitted) (d : Duration) :
    Tells settings (now.after d) c permits log emitted := by
  obtain ⟨⟨r, hr, rfl, rfl, hout, rfl⟩, hs⟩ := h
  have hevents := Run.events_step settings (show r.Allows (.advance d) from trivial)
  exact ⟨⟨_, hr.step (.advance d), rfl, rfl, hout, hevents.trans (List.append_nil _)⟩, hs⟩

/-- A line of text is no sample. -/
theorem line (h : Tells settings now c permits log emitted) (l : LogLine) :
    Tells settings now c permits log (emitted ++ [.line l]) := by
  obtain ⟨hr, hs⟩ := h
  refine ⟨hr, ?_⟩
  unfold samples at *
  rw [List.filterMap_append, hs]
  exact List.append_nil _

end Tells

/-! ## What is done through the breaker -/

/-- What an update adds to a log and to what has been reported. -/
def Update.Tells (settings : Settings) (now : Instant) (permits : List Permit) (log : List Event)
    (emitted : List Emission) (u : Update) : Prop :=
  Breaker.Tells settings now u.circuit permits (log ++ u.events) (emitted ++ u.emitted)

namespace Update.Tells

variable {u : Update} {α ε : Type} {classify : Classifier α ε} {outcome : Outcome α ε}

/-- Doing nothing adds nothing. -/
theorem of_idle (h : Breaker.Tells settings now c permits log emitted) :
    Update.Tells settings now permits log emitted { circuit := c } := by
  unfold Update.Tells
  rw [List.append_nil, List.append_nil]
  exact h

/-- The commands of listeners are steps by hand. -/
theorem deliver (h : u.Tells b.settings now permits log emitted) (depth : Nat) (events : List Event) :
    (b.deliver now depth events u).Tells b.settings now permits log emitted := by
  refine deliver_induction (P := Update.Tells b.settings now permits log emitted)
    (fun _ _ _ h => h) ?_ (fun _ _ h => h) depth events h
  intro u how _ hu
  unfold Update.Tells Update.take
  rw [← List.append_assoc, ← List.append_assoc]
  exact hu.control how

/-- A step is taken, and its events are delivered. -/
theorem update {step : Circuit.Step} (h : Breaker.Tells b.settings now step.1 permits (log ++ step.2)
    (emitted ++ step.2.flatMap (Event.emissions b.settings.name))) :
    (b.update now step { circuit := c }).Tells b.settings now permits log emitted := by
  have htake : (Update.take b.settings.name { circuit := c } step).Tells b.settings now permits log
      emitted := h
  exact htake.deliver _ _

/-- A permit that a breaker gives is out, whatever its listeners do on hearing of it. -/
theorem acquire (h : Breaker.Tells b.settings now c permits log emitted) :
    (b.acquire now c).2.Tells b.settings now (permits ++ (b.acquire now c).1.toList) log emitted := by
  have hupdate : (b.update now (c.acquire b.settings now).2 { circuit := c }).Tells b.settings now
      (permits ++ (c.acquire b.settings now).1.toList) log emitted := update h.acquire
  unfold Breaker.acquire Update.Tells
  rw [← List.append_assoc]
  exact hupdate.line _

/-- A call that begins holds the permit it got. -/
theorem start (h : Breaker.Tells b.settings now c permits log emitted) :
    (b.start now c).2.Tells b.settings now (permits ++ (b.start now c).1.toList) log emitted := by
  have hacquire := acquire h
  unfold Breaker.start
  rcases hs : b.acquire now c with ⟨_ | p, u⟩ <;> rw [hs] at hacquire <;> exact hacquire

/-- A call that ends, in a result or in a panic, gives its permit back. -/
theorem finish (h : Breaker.Tells b.settings now c (p :: permits) log emitted) :
    (b.finish classify now p outcome c).2.Tells b.settings now permits log emitted := by
  cases outcome with
  | returned result => exact update h.complete
  | panicked message => exact of_idle h.release

/-- What an update tells is where a later one begins. -/
theorem followedBy {later : Update}
    (h : later.Tells settings now permits (log ++ u.events) (emitted ++ u.emitted)) :
    (u.followedBy later).Tells settings now permits log emitted := by
  unfold Update.Tells Update.followedBy
  rw [← List.append_assoc, ← List.append_assoc]
  exact h

/-- A whole call leaves the permits that are out as they were. -/
theorem call (h : Breaker.Tells b.settings now c permits log emitted) :
    (b.call classify now outcome c).2.Tells b.settings now permits log emitted := by
  have hstart := start h
  unfold Breaker.call
  rcases hs : b.start now c with ⟨_ | p, u⟩ <;> rw [hs] at hstart
  · simpa using hstart
  -- The permit that has just been given is the one that the call gives back.
  · have hbegun : Breaker.Tells b.settings now u.circuit (p :: permits) (log ++ u.events)
        (emitted ++ u.emitted) := Breaker.Tells.perm hstart List.perm_append_comm
    exact followedBy (finish hbegun)

/-- A use of a service leaves the permits that are out as they were, be the service ready or not. -/
theorem use {service : Service α ε} (h : Breaker.Tells b.settings now c permits log emitted) :
    (b.use classify now service c).2.Tells b.settings now permits log emitted := by
  cases service with
  | unready e => exact of_idle h
  | ready outcome => exact call h

/-- A control leaves the permits that are out as they were. -/
theorem control (h : Breaker.Tells b.settings now c permits log emitted) (how : Control) :
    (b.control now how c).Tells b.settings now permits log emitted :=
  update (h.control how)

end Update.Tells

/-! ## Sessions -/

/-- The calls in flight are the one of a name, if there is one, and those of other names. -/
theorem perm_without (inFlight : List (String × Permit)) (hn : (inFlight.map (·.1)).Nodup)
    (name : String) : (inFlight.map (·.2)).Perm
      ((inFlight.lookup name).toList ++ (inFlight.filter (·.1 ≠ name)).map (·.2)) := by
  induction inFlight with
  | nil => exact .refl _
  | cons entry rest ih =>
    obtain ⟨key, p⟩ := entry
    rw [List.map_cons, List.nodup_cons] at hn
    obtain ⟨hkey, hrest⟩ := hn
    by_cases h : key = name
    -- No other entry has the name of this one.
    · subst h
      have hother : rest.filter (·.1 ≠ key) = rest := by
        refine List.filter_eq_self.mpr fun entry hentry => ?_
        exact decide_eq_true fun he => hkey (List.mem_map.mpr ⟨entry, hentry, he⟩)
      rw [List.lookup_cons_self, List.filter_cons_of_neg (by simp), hother]
      exact .refl _
    · have hne : (name == key) = false := by simpa using Ne.symm h
      rw [List.lookup_cons, hne, List.filter_cons_of_pos (by simpa using h)]
      exact ((ih hrest).cons p).trans List.perm_middle.symm

namespace Session

/-- The session is what users see of some run, and no two calls in flight have the same name. -/
structure Sound (settings : Settings) (s : Session) : Prop where
  /-- No two calls in flight have the same name. -/
  names : (s.inFlight.map (·.1)).Nodup
  /-- Some run leads to the session. -/
  attains : Attains settings s.now s.circuit (s.inFlight.map (·.2))

/-- The session is what users see of some run with this log, whose metrics have been reported. -/
structure Tells (settings : Settings) (s : Session) (log : List Event) (emitted : List Emission) :
    Prop where
  /-- No two calls in flight have the same name. -/
  names : (s.inFlight.map (·.1)).Nodup
  /-- Some run leads to the session, and has this log. -/
  tells : Breaker.Tells settings s.now s.circuit (s.inFlight.map (·.2)) log emitted

variable {α ε : Type} {classify : Classifier α ε} {s : Session}

/-- A new session is a run without events. -/
theorem tells_new : ({} : Session).Tells settings [] [] :=
  ⟨List.nodup_nil, ⟨_, .fresh .start, rfl, rfl, .refl _, rfl⟩, rfl⟩

/-- Dropping the call of a name gives up its permit. -/
theorem Tells.dropped {inFlight : List (String × Permit)} (hn : (inFlight.map (·.1)).Nodup)
    (name : String)
    (h : Breaker.Tells settings now c (inFlight.map (·.2) ++ permits) log emitted) :
    (dropped inFlight name c).Tells settings now
      ((inFlight.filter (·.1 ≠ name)).map (·.2) ++ permits) log emitted := by
  replace h := h.perm ((perm_without inFlight hn name).append_right permits)
  unfold Session.dropped
  cases hp : inFlight.lookup name with
  | none => exact .of_idle (by simpa [hp] using h)
  | some p =>
    rw [hp] at h
    exact .of_idle h.release

/-- Names stay different when one is dropped. -/
theorem nodup_without (hn : (s.inFlight.map (·.1)).Nodup) (name : String) :
    ((s.without name).inFlight.map (·.1)).Nodup :=
  (List.filter_sublist.map _).nodup hn

/-- Names stay different when the call of a name takes the place of an earlier one. -/
theorem nodup_holding (hn : (s.inFlight.map (·.1)).Nodup) (name : String) (p : Permit) :
    (((s.without name).holding name p).inFlight.map (·.1)).Nodup := by
  have hother : name ∉ (s.without name).inFlight.map (·.1) := by simp [without]
  unfold holding
  rw [List.map_append, List.nodup_append]
  refine ⟨nodup_without hn name, by simp, fun key hkey other ho he => ?_⟩
  rw [List.map_singleton, List.mem_singleton] at ho
  rw [he, ho] at hkey
  exact hother hkey

/-- Every act of a user keeps a session a run, and adds its events and samples to it. -/
theorem Tells.act (h : s.Tells b.settings log emitted) (a : Act α ε) :
    (s.act b classify a).2.2.Tells b.settings (log ++ (s.act b classify a).2.1.events)
      (emitted ++ (s.act b classify a).2.1.emitted) := by
  obtain ⟨hn, hs⟩ := h
  cases a with
  | call outcome => exact ⟨hn, Update.Tells.call hs⟩
  | use service => exact ⟨hn, Update.Tells.use hs⟩
  | start name =>
    have hstart := Update.Tells.start hs
    rcases hb : b.start s.now s.circuit with ⟨_ | p, u⟩ <;> rw [hb] at hstart <;>
      simp only [Session.act, hb]
    · exact ⟨hn, Breaker.Tells.perm hstart (by simp [after])⟩
    -- The earlier call of the name is dropped after the new one has been admitted.
    · have hdropped := Update.Tells.followedBy (Tells.dropped hn name hstart)
      refine ⟨nodup_holding hn name p, Breaker.Tells.perm hdropped ?_⟩
      simp [holding, without, after]
  | finish name outcome =>
    cases hp : s.inFlight.lookup name with
    | none =>
      simp only [Session.act, hp]
      exact ⟨hn, Update.Tells.of_idle hs⟩
    | some p =>
      have hout := hs.perm (perm_without s.inFlight hn name)
      rw [hp] at hout
      simp only [Session.act, hp]
      exact ⟨nodup_without hn name, Update.Tells.finish hout⟩
  | drop name =>
    have hout := Tells.dropped hn name (hs.perm (by rw [List.append_nil]))
    rw [List.append_nil] at hout
    exact ⟨nodup_without hn name, hout⟩
  | advance d => exact ⟨hn, Breaker.Tells.advance (Update.Tells.of_idle hs) d⟩
  | control how => exact ⟨hn, Update.Tells.control hs how⟩
  | look => exact ⟨hn, Update.Tells.of_idle hs⟩

/-- Acts of users, one after another, each of a breaker with its listeners as they are then: a listener that
remembers need not do the same in every act. -/
def attended (classify : Classifier α ε) : Session → List (Breaker × Act α ε) → List (Entry α ε)
  | _, [] => []
  | s, (b, a) :: rest =>
    let (reply, update, s) := s.act b classify a
    ⟨reply, update, s⟩ :: s.attended classify rest

/-- The session after such acts. -/
def attend (classify : Classifier α ε) (s : Session) (acts : List (Breaker × Act α ε)) : Session :=
  acts.foldl (fun s x => (s.act x.1 classify x.2).2.2) s

/-- A history is that of listeners who always do the same. -/
theorem history_eq_attended (b : Breaker) (classify : Classifier α ε) (s : Session)
    (acts : List (Act α ε)) : s.history b classify acts = s.attended classify (acts.map (b, ·)) := by
  induction acts generalizing s with
  | nil => rfl
  | cons a rest ih => exact congrArg (_ :: ·) (ih _)

/-- A session of a breaker is one whose listeners always do the same. -/
theorem run_eq_attend (b : Breaker) (classify : Classifier α ε) (s : Session)
    (acts : List (Act α ε)) : s.run b classify acts = s.attend classify (acts.map (b, ·)) := by
  unfold run attend
  rw [List.foldl_map]

/-- Whatever users do, and listeners on hearing of it, a session is a run, whose events and samples are
those of the acts. -/
theorem Tells.attended (h : s.Tells settings log emitted) {acts : List (Breaker × Act α ε)}
    (hb : ∀ x ∈ acts, x.1.settings = settings) :
    (s.attend classify acts).Tells settings
      (log ++ (s.attended classify acts).flatMap (·.update.events))
      (emitted ++ (s.attended classify acts).flatMap (·.update.emitted)) := by
  induction acts generalizing s log emitted with
  | nil => simpa [Session.attended, Session.attend] using h
  | cons x rest ih =>
    obtain ⟨hx, hrest⟩ := List.forall_mem_cons.mp hb
    subst hx
    have hact : (s.act x.1 classify x.2).2.2.Tells x.1.settings _ _ := h.act x.2
    have hlater := ih hact hrest
    rw [List.append_assoc, List.append_assoc] at hlater
    exact hlater

/-- The events and samples of a session with a breaker are those of its history. -/
theorem Tells.history (h : s.Tells b.settings log emitted) (acts : List (Act α ε)) :
    (s.run b classify acts).Tells b.settings
      (log ++ (s.history b classify acts).flatMap (·.update.events))
      (emitted ++ (s.history b classify acts).flatMap (·.update.emitted)) := by
  rw [run_eq_attend, history_eq_attended]
  apply h.attended
  simp

/-- Whatever users do, and listeners on hearing of it, a session is what users see of some run. -/
theorem Sound.run (h : s.Sound b.settings) (acts : List (Act α ε)) :
    (s.run b classify acts).Sound b.settings := by
  obtain ⟨log, htells⟩ := h.attains.tells
  have hrun : (s.run b classify acts).Tells b.settings _ _ :=
    Tells.history ⟨h.names, htells⟩ acts
  exact ⟨hrun.names, hrun.tells.attains⟩

end Session

end GuardedHttp.Breaker
