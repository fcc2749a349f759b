import GuardedHttp.Breaker.Session
import GuardedHttp.Proofs.Breaker.Serial

/-!
# Uses of services behind a breaker

The use of a service behind a breaker can fail in two places: the service refuses to become ready, or its
call fails. The breaker guards the second alone. `use_eq_inner_iff` says what it means that a use ends in an
error of the service: that it was not ready, of which the breaker does not know, or that the call was
admitted, ran and was recorded.

Main statements: `opens_after_adverse_uses` and `turns_away_while_open`. If services become ready whenever
they are used, as many failures in a row as the threshold open the circuit, and the circuit turns every use
away as long as it is open. Uses of services that are not ready neither count nor are turned away
(`unready_uses_pass_by`, `unready_use_passes_open_circuit`).
-/

namespace GuardedHttp.Breaker

variable {α ε : Type} {b : Breaker} {classify : Classifier α ε} {now : Instant} {c : Circuit}

/-! ## One use -/

/-- A use ends in an error of the service if the service is not ready, or if the call is admitted, ends in
the error and is recorded with the verdict of the classifier. -/
theorem use_eq_inner_iff (b : Breaker) (classify : Classifier α ε) (now : Instant)
    (service : Service α ε) (c : Circuit) (e : ε) :
    (b.use classify now service c).1 = .ended (.error (.inner e)) ↔
      service = .unready e ∨
        service = .ready (.returned (.error e)) ∧ ∃ p u, b.start now c = (some p, u) ∧
          (b.use classify now service c).2 =
            u.followedBy (b.complete now p (classify (.error e)) u.circuit) := by
  cases service with
  | unready refusal =>
    constructor
    · intro h
      cases h
      exact .inl rfl
    · rintro (h | ⟨h, -⟩) <;> cases h
      rfl
  | ready outcome =>
    show (b.call classify now outcome c).1 = _ ↔ _ ∨ _ ∧ ∃ p u, _ ∧ (b.call classify now outcome c).2 = _
    unfold call
    cases hstart : b.start now c with | mk permit u =>
    cases permit with
    | none => exact ⟨nofun, by rintro (h | ⟨-, p, u', h, -⟩) <;> cases h⟩
    | some p =>
      -- Of the calls that are admitted, only one that returns an error ends in an inner one.
      constructor
      · intro h
        cases outcome with
        | panicked message => cases h
        | returned result =>
          cases result with
          | ok value => cases h
          | error refusal =>
            cases h
            exact .inr ⟨rfl, p, u, rfl, rfl⟩
      · rintro (h | ⟨h, -⟩) <;> cases h
        rfl

namespace Serial

/-- Where the machine stands after the use of a service. A call that panics is not recorded. -/
def meet (settings : Settings) (classify : Classifier α ε) (now : Instant) (m : Serial) :
    Service α ε → Serial
  | .unready _ => m
  | .ready outcome =>
    match m.ask settings now, outcome with
    | none, _ => m
    | some later, .returned result => later.record settings now (classify result)
    | some later, .panicked _ => later

/-- What the user of a service gets. -/
def answer (settings : Settings) (now : Instant) (m : Serial) : Service α ε → CallResult α ε
  | .unready e => .ended (.error (.inner e))
  | .ready outcome =>
    match m.ask settings now, outcome with
    | none, _ => .ended (.error .rejected)
    | some _, .returned result => .ended (result.mapError .inner)
    | some _, .panicked message => .panicked message

variable {settings : Settings} {m : Serial} {p : Permit}

/-- A call that is given up leaves the machine where it was while the call ran. -/
theorem release_describes (h : m.Describes settings 1 c) (hp : p.generation = c.generation) :
    m.Describes settings 0 (c.release p) := by
  unfold Circuit.release
  cases m with
  | closed failures =>
    rw [if_neg (fun hhalf => by rw [h.1] at hhalf; cases hhalf.2)]
    exact h
  | opened since => cases h.2.2
  | halfOpen successes =>
    -- The place of a trial is given back; nowhere else are calls under way counted.
    obtain ⟨hs, hsuccesses, hmore, hrunning⟩ := h
    rw [if_pos ⟨hp, hs⟩]
    exact ⟨hs, hsuccesses, hmore, by simp [hrunning]⟩

end Serial

/-- Without listeners, a call that the machine does not admit is rejected and leaves the circuit as it
is. -/
theorem call_of_ask_eq_none {m : Serial} (classify : Classifier α ε) (hb : b.reactors = [])
    (hd : b.depth ≠ 0) (h : m.Describes b.settings 0 c) (hask : m.ask b.settings now = none)
    (outcome : Outcome α ε) :
    (b.call classify now outcome c).1 = .ended (.error .rejected) ∧
      (b.call classify now outcome c).2.circuit = c := by
  obtain ⟨hpermit, hcircuit, -⟩ := acquire_spec hb hd now c
  rw [Serial.acquire_of_ask_eq_none h hask] at hpermit hcircuit
  unfold call start
  cases hacquire : b.acquire now c with | mk permit u =>
  rw [hacquire] at hpermit hcircuit
  cases hpermit
  exact ⟨rfl, hcircuit⟩

/-- Without listeners, a use takes machine and circuit the same way, and the user gets the machine's
answer. -/
theorem use_describes {m : Serial} (classify : Classifier α ε) (now : Instant) (hb : b.reactors = [])
    (hd : b.depth ≠ 0) (h : m.Describes b.settings 0 c) (service : Service α ε) :
    (m.meet b.settings classify now service).Describes b.settings 0
        (b.use classify now service c).2.circuit ∧
      (b.use classify now service c).1 = m.answer b.settings now service := by
  cases service with
  | unready e => exact ⟨h, rfl⟩
  | ready outcome =>
    cases hask : m.ask b.settings now with
    | none =>
      obtain ⟨hreply, hcircuit⟩ := call_of_ask_eq_none classify hb hd h hask outcome
      simp only [use, Serial.meet, Serial.answer, hask]
      exact ⟨hcircuit.symm ▸ h, hreply⟩
    | some later =>
      -- The permit belongs to the present generation, so that the outcome counts when it is recorded.
      obtain ⟨p, admitted, events, hgiven, hp, hlater, -⟩ := Serial.acquire_of_ask_eq_some h hask
      obtain ⟨hpermit, hcircuit, -⟩ := acquire_spec hb hd now c
      simp only [use, call, start, Serial.meet, Serial.answer, hask]
      cases hacquire : b.acquire now c with | mk permit u =>
      rw [hacquire, hgiven] at hpermit hcircuit
      cases hpermit
      cases hcircuit
      cases outcome with
      | panicked message => exact ⟨Serial.release_describes hlater hp, rfl⟩
      | returned result =>
        have hrecorded := (Serial.complete_describes now (classify result) hlater hp).1
        have hcomplete := (complete_spec hb hd now u.circuit p (classify result)).1
        exact ⟨hcomplete.symm ▸ hrecorded, rfl⟩

/-! ## Uses one after another -/

/-- The act is a use that fails in a way that counts, or fails before the call, or time passes. -/
def Act.Adverse (classify : Classifier α ε) : Act α ε → Prop
  | .use (.ready (.returned result)) => classify result = true
  | .use (.unready _) | .advance _ => True
  | .use (.ready (.panicked _)) | .call _ | .start _ | .finish .. | .drop _ | .control _ | .look => False

/-- The act is the use of a service that becomes ready. -/
def Act.ready : Act α ε → Bool
  | .use (.ready _) => true
  | .use (.unready _) | .call _ | .start _ | .finish .. | .drop _ | .advance _ | .control _ | .look => false

/-- The act is the use of a service, or time passes. -/
def Act.Serves : Act α ε → Prop
  | .use _ | .advance _ => True
  | .call _ | .start _ | .finish .. | .drop _ | .control _ | .look => False

/-- What the user gets whom an open circuit turns away, unless the service is not ready. -/
def Act.refused : Act α ε → Reply α ε
  | .use (.unready e) => .result (.ended (.error (.inner e)))
  | .use (.ready _) => .result (.ended (.error .rejected))
  | .call _ | .start _ | .finish .. | .drop _ | .advance _ | .control _ | .look => .done

namespace Serial

variable {settings : Settings} {m : Serial}

/-- The circuit is open, or so many more failures in a row open it. -/
def Nears (settings : Settings) (left : Nat) : Serial → Prop
  | closed failures => settings.threshold.toNat ≤ failures + left
  | opened _ => True
  | halfOpen _ => False

/-- A failure that counts brings the machine one failure nearer to the open state, or leaves it open. -/
theorem Nears.meet {left : Nat} {result : Except ε α} (h : m.Nears settings (left + 1))
    (hfailed : classify result = true) :
    (m.meet settings classify now (.ready (.returned result))).Nears settings left := by
  cases m with
  | closed failures =>
    simp only [Serial.meet, ask, record, hfailed, Bool.not_true, Bool.false_eq_true, if_false]
    split
    · trivial
    · exact Nat.le_trans h (by omega)
  | opened since =>
    -- If the circuit has been open for long enough, the call is a trial, and its failure opens it anew.
    by_cases hwaited : settings.openDuration ≤ now.since since
    · simp only [Serial.meet, ask, if_pos hwaited, record, hfailed, if_true]
      trivial
    · simp only [Serial.meet, ask, if_neg hwaited]
      trivial
  | halfOpen successes => cases h

end Serial

/-- As many failures in a row as the threshold open the circuit, however much time passes between them and
however many services are not ready in between. -/
theorem opens_after_adverse_uses (hb : b.reactors = []) (hd : b.depth ≠ 0) {s : Session}
    {failures : Nat} (hclosed : (Serial.closed failures).Describes b.settings 0 s.circuit)
    {acts : List (Act α ε)} (hadverse : ∀ a ∈ acts, a.Adverse classify)
    (hmany : b.settings.threshold.toNat ≤ failures + acts.countP Act.ready) :
    (s.run b classify acts).circuit.state = .opened := by
  -- The induction is on the acts, whatever state short of half-open they begin in.
  suffices hall : ∀ m : Serial, m.Describes b.settings 0 s.circuit →
      m.Nears b.settings (acts.countP Act.ready) →
        (s.run b classify acts).circuit.state = .opened from hall _ hclosed hmany
  clear hclosed hmany
  induction acts generalizing s with
  | nil =>
    intro m hm hnears
    cases m with
    | closed => exact absurd hm.2.2 (Nat.not_lt_of_le hnears)
    | opened => exact hm.1
    | halfOpen => cases hnears
  | cons a rest ih =>
    obtain ⟨hfirst, hrest⟩ := List.forall_mem_cons.mp hadverse
    intro m hm hnears
    cases a with
    | advance d => exact ih hrest m hm hnears
    | use service =>
      obtain ⟨hnext, -⟩ := use_describes classify s.now hb hd hm service
      cases service with
      | unready e => exact ih hrest m hnext hnears
      | ready outcome =>
        cases outcome with
        | returned result =>
          rw [List.countP_cons_of_pos rfl] at hnears
          exact ih hrest _ hnext (hnears.meet hfirst)
        | panicked => cases hfirst
    | call | start | finish | drop | control | look => cases hfirst

/-- Time does not run backwards. -/
theorem Session.now_le_run (b : Breaker) (classify : Classifier α ε) (s : Session)
    {acts : List (Act α ε)} (hserves : ∀ a ∈ acts, a.Serves) : s.now ≤ (s.run b classify acts).now := by
  induction acts generalizing s with
  | nil => exact Nat.le_refl _
  | cons a rest ih =>
    obtain ⟨hfirst, hrest⟩ := List.forall_mem_cons.mp hserves
    refine Nat.le_trans ?_ (ih _ hrest)
    cases a with
    | use => exact Nat.le_refl _
    | advance d => exact Nat.le_add_right _ _
    | call | start | finish | drop | control | look => cases hfirst

/-- The reply and the circuit after an act that no call of a service gets past. -/
theorem Session.act_refused (b : Breaker) (classify : Classifier α ε) {s : Session} {a : Act α ε}
    (hserves : a.Serves)
    (hready : ∀ outcome, a = .use (.ready outcome) →
      (b.call classify s.now outcome s.circuit).1 = .ended (.error .rejected) ∧
        (b.call classify s.now outcome s.circuit).2.circuit = s.circuit) :
    (s.act b classify a).1 = a.refused ∧ (s.act b classify a).2.2.circuit = s.circuit := by
  cases a with
  | advance d => exact ⟨rfl, rfl⟩
  | use service =>
    cases service with
    | unready e => exact ⟨rfl, rfl⟩
    | ready outcome =>
      obtain ⟨hreply, hcircuit⟩ := hready outcome rfl
      exact ⟨congrArg Reply.result hreply, hcircuit⟩
  | call | start | finish | drop | control | look => cases hserves

/-- While the circuit is open and the open duration has not passed, every use of a service that becomes
ready is rejected, and nothing changes but the time. -/
theorem turns_away_while_open (hb : b.reactors = []) (hd : b.depth ≠ 0) {s : Session}
    (hopen : s.circuit.state = .opened) {acts : List (Act α ε)} (hserves : ∀ a ∈ acts, a.Serves)
    (hearly : ¬ b.settings.openDuration ≤
      (s.run b classify acts).now.since s.circuit.changedAt) :
    (s.history b classify acts).map (·.reply) = acts.map Act.refused ∧
      (s.run b classify acts).circuit = s.circuit := by
  induction acts generalizing s with
  | nil => exact ⟨rfl, rfl⟩
  | cons a rest ih =>
    -- It is too early now, because it still is at the end.
    have hask : (Serial.opened s.circuit.changedAt).ask b.settings s.now = none := by
      have hlast := s.now_le_run b classify hserves
      refine if_neg fun hwaited => hearly ?_
      rw [Duration.le_iff, Instant.since, Duration.nanos_clamp] at hwaited ⊢
      rw [Instant.le_iff] at hlast
      omega
    have hdescribes : (Serial.opened s.circuit.changedAt).Describes b.settings 0 s.circuit :=
      ⟨hopen, rfl, rfl⟩
    obtain ⟨hfirst, hrest⟩ := List.forall_mem_cons.mp hserves
    obtain ⟨hreply, hcircuit⟩ := Session.act_refused b classify (s := s) hfirst
      fun outcome _ => call_of_ask_eq_none classify hb hd hdescribes hask outcome
    obtain ⟨hreplies, hafter⟩ := ih (s := (s.act b classify a).2.2) (hcircuit ▸ hopen) hrest
      (hcircuit.symm ▸ hearly)
    exact ⟨congrArg₂ List.cons hreply hreplies, hafter.trans hcircuit⟩

/-- Uses of services that are not ready end in the errors of the services, whatever the circuit, and leave
the circuit as it is. -/
theorem unready_uses_pass_by (b : Breaker) (classify : Classifier α ε) (s : Session)
    {acts : List (Act α ε)} (hserves : ∀ a ∈ acts, a.Serves) (hnone : ∀ a ∈ acts, a.ready = false) :
    (s.history b classify acts).map (·.reply) = acts.map Act.refused ∧
      (s.run b classify acts).circuit = s.circuit := by
  induction acts generalizing s with
  | nil => exact ⟨rfl, rfl⟩
  | cons a rest ih =>
    obtain ⟨hfirst, hrest⟩ := List.forall_mem_cons.mp hserves
    obtain ⟨hunready, hothers⟩ := List.forall_mem_cons.mp hnone
    obtain ⟨hreply, hcircuit⟩ := Session.act_refused b classify (s := s) hfirst
      fun outcome h => by rw [h] at hunready; cases hunready
    obtain ⟨hreplies, hafter⟩ := ih (s.act b classify a).2.2 hrest hothers
    exact ⟨congrArg₂ List.cons hreply hreplies, hafter.trans hcircuit⟩

/-- A call has failed and opened the circuit; the next use finds the service unready, and is not turned
away. -/
theorem unready_use_passes_open_circuit :
    ¬ ∀ (s : Session) (service : Service Unit Nat), s.circuit.state = .opened →
      ¬ twoTrials.openDuration ≤ s.now.since s.circuit.changedAt →
        (s.act ⟨twoTrials, [], 64⟩ anyError (.use service)).1 = .result (.ended (.error .rejected)) := by
  intro hrejected
  have hreply := hrejected
    (({} : Session).run ⟨twoTrials, [], 64⟩ (α := Unit) anyError [.use (.ready (.returned (.error 503)))])
    (.unready 503) (by decide) (by decide)
  cases hreply

end GuardedHttp.Breaker
