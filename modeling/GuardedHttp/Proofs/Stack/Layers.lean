import GuardedHttp.Stack.Layers
import GuardedHttp.Proofs.Stack.Contacts

/-!
# What layers do to innermost services

A `Custody` says which innermost services something has in its care and in what state they have to be. A
service is `Lawful` if its operations touch no other services than those in the care of whoever uses it,
and if nothing is called but a service that has been driven. Every layer around lawful services is lawful:
`Lawful.guarded`, `Lawful.retried` and `Lawful.attempted`, and by them every stack (`Stacked.lawful`).

A layer does more than the services inside. The service that its call leaves behind has not been called and
is not in the care of the call (`Lawful.Renews`), so that it can be called again.
-/

namespace GuardedHttp.Stack

variable {ρ α ε κ : Type} {own : List Instance} {service : Instance} {w w' w'' : World}

/-! ## Custodies -/

/-- What holders of services have in their care. -/
structure Custody (κ : Type) where
  /-- The services that a holder may still call or clone. -/
  owned : κ → List Instance
  /-- The services are as the holder needs them. -/
  Sound : κ → World → Prop
  /-- They stay so while others act. -/
  sound_grows : ∀ {holder : κ} {w w' : World} {own : List Instance}, Sound holder w →
    (∀ service ∈ owned holder, service < w.made) → w.Grows own w' →
      (∀ service ∈ owned holder, service ∉ own) → Sound holder w'

namespace Custody

variable (C : Custody κ) {holder : κ}

/-- A holder is in order: its services have not been called, no two of them are the same, and they are as
the holder needs them. -/
structure Keeps (holder : κ) (w : World) : Prop where
  /-- They are as the holder needs them. -/
  sound : C.Sound holder w
  /-- They have not been called. -/
  fresh : ∀ service ∈ C.owned holder, w.Fresh service
  /-- No two of them are the same. -/
  nodup : (C.owned holder).Nodup

/-- Whoever owns some services can get from one world to a holder in another. -/
structure Leads (own : List Instance) (w : World) (holder : κ) (w' : World) : Prop where
  /-- Nothing else is called. -/
  grows : w.Grows own w'
  /-- Whatever is called has been driven. -/
  orderly : w'.Orderly
  /-- The holder is in order. -/
  keeps : C.Keeps holder w'
  /-- Its services were owned before, or are new. -/
  owned : ∀ service ∈ C.owned holder, service ∈ own ∨ w.made ≤ service

variable {C}

/-- A holder stays in order while others act. -/
theorem Keeps.grows (h : C.Keeps holder w) (hgrows : w.Grows own w')
    (hown : ∀ service ∈ C.owned holder, service ∉ own) : C.Keeps holder w' :=
  ⟨C.sound_grows h.sound (fun service hs => (h.fresh service hs).known) hgrows hown,
    fun service hs => (h.fresh service hs).grows hgrows (hown service hs), h.nodup⟩

/-- A holder stays in order through what services do not see. -/
theorem Keeps.of_alike (h : C.Keeps holder w) (halike : w.Alike w') : C.Keeps holder w' :=
  h.grows (.of_alike [] halike) fun _ _ => List.not_mem_nil

/-- A holder in order makes one of another kind in order that has the same services in its care. -/
theorem Keeps.as {ι : Type} {D : Custody ι} {other : ι} (h : C.Keeps holder w)
    (howned : D.owned other = C.owned holder) (hsound : C.Sound holder w → D.Sound other w) :
    D.Keeps other w :=
  ⟨hsound h.sound, howned ▸ h.fresh, howned ▸ h.nodup⟩

/-- Who gets to a holder gets to one of another kind that has the same services in its care. -/
theorem Leads.as {ι : Type} {D : Custody ι} {other : ι} (h : C.Leads own w holder w')
    (howned : D.owned other = C.owned holder) (hsound : C.Sound holder w' → D.Sound other w') :
    D.Leads own w other w' :=
  ⟨h.grows, h.orderly, h.keeps.as howned hsound, howned ▸ h.owned⟩

/-- What happens besides is not seen. -/
theorem Leads.alike (h : C.Leads own w holder w') (halike : w'.Alike w'') :
    C.Leads own w holder w'' :=
  ⟨h.grows.trans (.of_alike own halike) fun _ => .inl, h.orderly.of_alike halike,
    h.keeps.of_alike halike, h.owned⟩

/-- The same from an earlier world, if nothing else has been called in between. -/
theorem Leads.after (h : C.Leads own w' holder w'') (hgrows : w.Grows own w') :
    C.Leads own w holder w'' :=
  ⟨hgrows.trans h.grows fun _ => .inl, h.orderly, h.keeps,
    fun service hs => (h.owned service hs).imp_right (Nat.le_trans hgrows.made)⟩

end Custody

/-! ## Laws -/

/-- The laws of services that can be wrapped in layers. -/
structure Lawful (S : Service ρ α ε) extends Custody S.Call where
  /-- A service can be called. -/
  Primed : Instance → World → Prop
  /-- It can still be called if others have acted. -/
  primed_grows : ∀ {service : Instance} {w w' : World} {own : List Instance}, Primed service w →
    service < w.made → w.Grows own w' → service ∉ own → Primed service w'
  /-- To ask a service calls none. -/
  ask_grows : ∀ (w : World) (service : Instance), w.Grows [] (S.ask service w).2
  /-- To ask a service breaks nothing. -/
  ask_orderly : ∀ {w : World} (service : Instance), w.Orderly → (S.ask service w).2.Orderly
  /-- A service that says that it is ready can be called. -/
  ask_primed : ∀ {w : World} {service : Instance}, w.Fresh service → (S.ask service w).1.succeeded = true →
    Primed service (S.ask service w).2
  /-- A service that can be called is called properly. -/
  call_leads : ∀ {w : World} {service : Instance} (request : ρ), w.Orderly → w.Fresh service →
    Primed service w →
      toCustody.Leads [service] w (S.call request service w).1 (S.call request service w).2.2
  /-- A call that is in order runs properly. -/
  poll_leads : ∀ {w : World} {call : S.Call}, w.Orderly → toCustody.Keeps call w →
    toCustody.Leads (owned call) w (S.poll call w).2.1 (S.poll call w).2.2
  /-- Services do not see that a call is dropped. -/
  drop_alike : ∀ (w : World) (call : S.Call), w.Alike (S.drop call w)

/-- The service that a call leaves behind is as good as new, and is left to the caller. -/
def Lawful.Renews {S : Service ρ α ε} (L : Lawful S) : Prop :=
  ∀ {w : World} {service : Instance} (request : ρ), w.Orderly → w.Fresh service →
    (S.call request service w).2.2.Fresh (S.call request service w).2.1 ∧
      (S.call request service w).2.1 ∉ L.owned (S.call request service w).1 ∧
      ((S.call request service w).2.1 = service ∨ w.made ≤ (S.call request service w).2.1)

/-- An innermost service can be called once it has been driven. -/
def lawfulInnermost (nature : Nature ρ α ε) : Lawful (innermost nature) where
  owned _ := []
  Sound _ _ := True
  sound_grows _ _ _ _ := trivial
  Primed service w := Driven service w.contacts
  primed_grows := Driven.grows
  ask_grows _ _ := .record _ _ rfl
  ask_orderly _ horderly := horderly.record rfl (Nat.le_refl _) rfl
  ask_primed {w service} hfresh hsaid := by
    show Driven service (w.record (.asked service (nature.readiness service w).succeeded)).contacts
    rw [show (nature.readiness service w).succeeded = true from hsaid]
    exact hfresh.driven
  call_leads _ horderly hfresh hdriven :=
    ⟨.call _ _, horderly.call hfresh hdriven, ⟨trivial, nofun, List.nodup_nil⟩, nofun⟩
  poll_leads horderly _ :=
    ⟨.record _ _ rfl, horderly.record rfl (Nat.le_refl _) rfl, ⟨trivial, nofun, List.nodup_nil⟩, nofun⟩
  drop_alike _ _ := ⟨rfl, rfl⟩

variable {S : Service ρ α ε}

namespace Lawful

variable (L : Lawful S)

/-! ## Calls that take their service along -/

/-- The service goes with the call until it is called. -/
def relay (κ : Type) : Custody (Relay S κ) where
  owned
    | .waiting service _ => [service]
    | .running _ call => L.owned call
    | .ended => []
  Sound
    | .waiting service _, w => L.Primed service w
    | .running _ call, w => L.Sound call w
    | .ended, _ => True
  sound_grows {call _ _ _} hsound hknown hgrows hown :=
    match call with
    | .waiting service _ =>
      L.primed_grows hsound (hknown service (List.mem_singleton.mpr rfl)) hgrows
        (hown service (List.mem_singleton.mpr rfl))
    | .running .. => L.sound_grows hsound hknown hgrows hown
    | .ended => trivial

section

variable {L}

/-- A call that is over has nothing in its care. -/
theorem relay_ended (hgrows : w.Grows own w') (horderly : w'.Orderly) :
    (L.relay κ).Leads own w .ended w' :=
  ⟨hgrows, horderly, ⟨trivial, nofun, List.nodup_nil⟩, nofun⟩

/-- The service that has become ready goes with the call. -/
theorem relay_waiting (request : ρ) (horderly : w.Orderly) (hfresh : w.Fresh service)
    (hprimed : L.Primed service w) (halike : (w.clone service).2.Alike w') :
    (L.relay κ).Leads [service] w (.waiting service request) w' := by
  have hclone : w.Grows [] (w.clone service).2 := .clone _ _ _
  have hkeeps : (L.relay κ).Keeps (.waiting service request) w :=
    ⟨hprimed, fun _ hs => List.mem_singleton.mp hs ▸ hfresh, List.nodup_singleton _⟩
  have hcloned : (L.relay κ).Leads [service] w (.waiting service request) (w.clone service).2 :=
    ⟨hclone.mono (List.nil_subset _), horderly.clone _, hkeeps.grows hclone fun _ _ => List.not_mem_nil,
      fun _ => .inl⟩
  exact hcloned.alike halike

/-- The service that goes with a call is called. -/
theorem relay_enter {request : ρ} {ticket : κ} (horderly : w.Orderly)
    (hkeeps : (L.relay κ).Keeps (.waiting service request) w) (halike : w.Alike w') :
    (L.relay κ).Leads [service] w (.running ticket (S.call request service w').1)
      (S.call request service w').2.2 := by
  have hkeeps' := hkeeps.of_alike halike
  have hcalls := L.call_leads request (horderly.of_alike halike)
    (hkeeps'.fresh service (List.mem_singleton.mpr rfl)) hkeeps'.sound
  have hruns : (L.relay κ).Leads [service] w' (.running ticket _) _ := hcalls.as rfl id
  exact hruns.after (.of_alike _ halike)

/-- A call that has been made runs. -/
theorem relay_running {call : S.Call} {ticket : κ} (horderly : w.Orderly)
    (hkeeps : (L.relay κ).Keeps (.running ticket call) w) :
    (L.relay κ).Leads (L.owned call) w (.running ticket (S.poll call w).2.1) (S.poll call w).2.2 := by
  have hcall : L.Keeps call w := hkeeps.as rfl id
  exact (L.poll_leads horderly hcall).as rfl id

/-- A call runs for the last time. -/
theorem relay_finishes {call : Relay S κ} (h : (L.relay κ).Leads own w call w') (halike : w'.Alike w'') :
    (L.relay κ).Leads own w .ended w'' :=
  relay_ended (h.alike halike).grows (h.alike halike).orderly

end

/-! ## Guarding -/

/-- A guarded call runs properly, stage by stage. -/
theorem guarded_poll (b : Breaker) (classify : Breaker.Classifier α ε)
    {call : Relay S Breaker.Permit} (horderly : w.Orderly) (hkeeps : (L.relay _).Keeps call w) :
    (L.relay _).Leads ((L.relay _).owned call) w (guardedPoll b classify S call w).2.1
      (guardedPoll b classify S call w).2.2 := by
  unfold guardedPoll
  cases call with
  | waiting service request =>
    dsimp only
    obtain ⟨permit, u⟩ := b.start w.now w.circuit
    have halike := w.alike_absorb u
    cases permit with
    -- A call that is turned away takes its service with it, ready as it is.
    | none => exact relay_ended (.of_alike _ halike) (horderly.of_alike halike)
    | some permit => exact relay_enter horderly hkeeps halike
  | running permit call =>
    have hruns := relay_running horderly hkeeps
    dsimp only
    generalize S.poll call w = polled at hruns ⊢
    obtain ⟨said, later, w'⟩ := polled
    cases said with
    | pending => exact hruns
    | ready result => exact relay_finishes hruns (w'.alike_absorb _)
  | ended => exact relay_ended (.refl _ _) horderly

/-- A breaker around lawful services. -/
def guarded (b : Breaker) (classify : Breaker.Classifier α ε) : Lawful (Stack.guarded b classify S) where
  toCustody := L.relay _
  Primed := L.Primed
  primed_grows := L.primed_grows
  ask_grows := L.ask_grows
  ask_orderly := L.ask_orderly
  ask_primed hfresh hsaid := L.ask_primed hfresh (Poll.succeeded_map_mapError _ _ ▸ hsaid)
  call_leads request horderly hfresh hprimed :=
    relay_waiting request horderly hfresh hprimed ⟨rfl, rfl⟩
  poll_leads := L.guarded_poll b classify
  drop_alike w call :=
    match call with
    | .running _ call =>
      have h := L.drop_alike w call
      ⟨h.made, h.contacts⟩
    | .waiting .. | .ended => ⟨rfl, rfl⟩

/-! ## Retrying -/

/-- A retried call keeps the service that it clones, besides the clone for the current attempt. -/
def retrying : Custody (Retrying S) where
  owned
    | .begun service _ => [service]
    | .readying course copy => [course.service, copy]
    | .calling course call => course.service :: L.owned call
    | .resting course _ => [course.service]
    | .ended => []
  Sound
    | .calling _ call, w => L.Sound call w
    | .begun .., _ | .readying .., _ | .resting .., _ | .ended, _ => True
  sound_grows {call _ _ _} hsound hknown hgrows hown :=
    match call with
    | .calling .. =>
      L.sound_grows hsound (fun service hs => hknown service (List.mem_cons_of_mem _ hs)) hgrows
        fun service hs => hown service (List.mem_cons_of_mem _ hs)
    | .begun .. | .readying .. | .resting .. | .ended => trivial

section

variable {L} {course : Course ρ}

/-- The clone of an attempt is new, and so it differs from the service that is cloned. -/
theorem retrying_launch (course : Course ρ) (horderly : w.Orderly) (hfresh : w.Fresh course.service) :
    L.retrying.Leads [course.service] w (launch S course w).2.1 (launch S course w).2.2 := by
  have hclone : w.Grows [] (w.clone course.service).2 := .clone _ _ _
  have hdistinct : course.service ≠ w.made := Nat.ne_of_lt hfresh.known
  refine ⟨hclone.mono (List.nil_subset _), horderly.clone _, ⟨trivial, fun service hs => ?_, ?_⟩,
    fun service hs => ?_⟩
  · rcases List.mem_pair.mp hs with rfl | rfl
    · exact hfresh.grows hclone List.not_mem_nil
    · exact horderly.fresh_clone _
  · exact List.nodup_cons.mpr ⟨fun hs => hdistinct (List.mem_singleton.mp hs), List.nodup_singleton _⟩
  · rcases List.mem_pair.mp hs with rfl | rfl
    · exact .inl (List.mem_singleton.mpr rfl)
    · exact .inr (Nat.le_refl _)

/-- After an attempt, only the service that is cloned is left. -/
theorem retrying_settle (policy : Retry.Policy ε) (result : Except ε α) (hgrows : w.Grows own w')
    (horderly : w'.Orderly) (hfresh : w'.Fresh course.service) (hown : course.service ∈ own) :
    L.retrying.Leads own w (settle policy S course result w').2.1
      (settle policy S course result w').2.2 := by
  unfold settle
  dsimp only
  generalize policy.judge (w'.now.since course.started) course.attempt result = verdict
  have halike := w'.alike_hear policy.name course.attempt verdict
  have hgrows' := hgrows.trans (.of_alike own halike) fun _ => .inl
  have horderly' := horderly.of_alike halike
  cases verdict with
  | retry delay =>
    have hfresh' := hfresh.grows (.of_alike [] halike) List.not_mem_nil
    exact ⟨hgrows', horderly',
      ⟨trivial, fun _ hs => List.mem_singleton.mp hs ▸ hfresh', List.nodup_singleton _⟩,
      fun _ hs => .inl (List.mem_singleton.mp hs ▸ hown)⟩
  | success | ignored | exhausted | deadline =>
    exact ⟨hgrows', horderly', ⟨trivial, nofun, List.nodup_nil⟩, nofun⟩

/-- The call of an attempt leaves the service that is cloned alone. -/
theorem retrying_calling {call : S.Call} (h : L.Leads own w call w') (hfresh : w.Fresh course.service)
    (hown : course.service ∉ own) :
    L.retrying.Leads (course.service :: own) w (.calling course call) w' := by
  refine ⟨h.grows.mono (List.subset_cons_self _ _), h.orderly, ⟨h.keeps.sound, fun service hs => ?_, ?_⟩,
    fun service hs => ?_⟩
  · rcases List.mem_cons.mp hs with rfl | hs
    · exact hfresh.grows h.grows hown
    · exact h.keeps.fresh service hs
  · exact List.nodup_cons.mpr ⟨fun hs => (h.owned _ hs).elim hown (Nat.not_le_of_lt hfresh.known),
      h.keeps.nodup⟩
  · rcases List.mem_cons.mp hs with rfl | hs
    · exact .inl List.mem_cons_self
    · exact (h.owned service hs).imp_left (List.mem_cons_of_mem _)

end

/-- A retried call runs properly, stage by stage. -/
theorem retried_poll (policy : Retry.Policy ε) {call : Retrying S} (horderly : w.Orderly)
    (hkeeps : L.retrying.Keeps call w) :
    L.retrying.Leads (L.retrying.owned call) w (retriedPoll policy S call w).2.1
      (retriedPoll policy S call w).2.2 := by
  unfold retriedPoll
  cases call with
  | begun service request =>
    exact retrying_launch ⟨service, request, w.now, 0⟩ horderly
      (hkeeps.fresh service (List.mem_singleton.mpr rfl))
  | readying course copy =>
    have hservice := hkeeps.fresh course.service List.mem_cons_self
    have hcopy := hkeeps.fresh copy (List.mem_cons_of_mem _ (List.mem_singleton.mpr rfl))
    have hgrows := L.ask_grows w copy
    have hasked := L.ask_orderly copy horderly
    have hprimed := L.ask_primed hcopy
    dsimp only
    generalize S.ask copy w = asked at hgrows hasked hprimed ⊢
    obtain ⟨said, w'⟩ := asked
    cases said with
    | pending =>
      exact ⟨hgrows.mono (List.nil_subset _), hasked, hkeeps.grows hgrows fun _ _ => List.not_mem_nil,
        fun _ => .inl⟩
    | ready result =>
      cases result with
      | error e =>
        exact retrying_settle policy _ (hgrows.mono (List.nil_subset _)) hasked
          (hservice.grows hgrows List.not_mem_nil) List.mem_cons_self
      | ok =>
        -- The clone is used up, and the service that is cloned is not: it serves the next attempt.
        have hdistinct : course.service ∉ [copy] := (List.nodup_cons.mp hkeeps.nodup).1
        have hcalls := L.call_leads course.request hasked (hcopy.grows hgrows List.not_mem_nil)
          (hprimed rfl)
        exact (retrying_calling hcalls (hservice.grows hgrows List.not_mem_nil) hdistinct).after
          (hgrows.mono (List.nil_subset _))
  | calling course call =>
    have hservice := hkeeps.fresh course.service List.mem_cons_self
    obtain ⟨hdistinct, hnodup⟩ := List.nodup_cons.mp hkeeps.nodup
    -- The call inside has all that the retried call has, but for the service that is cloned.
    have hcall : L.Keeps call w :=
      ⟨hkeeps.sound, fun service hs => hkeeps.fresh service (List.mem_cons_of_mem _ hs), hnodup⟩
    have hpolls := L.poll_leads horderly hcall
    dsimp only
    generalize S.poll call w = polled at hpolls ⊢
    obtain ⟨said, later, w'⟩ := polled
    cases said with
    | pending => exact retrying_calling hpolls hservice hdistinct
    | ready result =>
      exact retrying_settle policy _ (hpolls.grows.mono (List.subset_cons_self _ _)) hpolls.orderly
        (hservice.grows hpolls.grows hdistinct) List.mem_cons_self
  | resting course due =>
    dsimp only
    split
    · exact retrying_launch { course with attempt := course.attempt + 1 } horderly
        (hkeeps.fresh course.service (List.mem_singleton.mpr rfl))
    · exact ⟨.refl _ _, horderly, hkeeps, fun _ => .inl⟩
  | ended => exact ⟨.refl _ _, horderly, hkeeps, fun _ => .inl⟩

/-- Retries around lawful services. -/
def retried (policy : Retry.Policy ε) : Lawful (Stack.retried policy S) where
  toCustody := L.retrying
  Primed _ _ := True
  primed_grows _ _ _ _ := trivial
  ask_grows _ _ := .refl _ _
  ask_orderly _ horderly := horderly
  ask_primed _ _ := trivial
  call_leads _ horderly _ _ :=
    ⟨.clone _ _ _, horderly.clone _, ⟨trivial, fun _ hs => List.mem_singleton.mp hs ▸
      horderly.fresh_clone _, List.nodup_singleton _⟩,
      fun _ hs => .inr (Nat.le_of_eq (List.mem_singleton.mp hs).symm)⟩
  poll_leads := L.retried_poll policy
  drop_alike w call :=
    match call with
    | .calling _ call => L.drop_alike w call
    | .begun .. | .readying .. | .resting .. | .ended => ⟨rfl, rfl⟩

end Lawful

/-! ## Single attempts -/

namespace Lawful

variable {S : Service Request Response TransportError} (L : Lawful S)

/-- A call that makes one attempt runs properly, stage by stage. -/
theorem attempted_poll {call : Relay S Errand} (horderly : w.Orderly)
    (hkeeps : (L.relay _).Keeps call w) :
    (L.relay _).Leads ((L.relay _).owned call) w (attemptedPoll S call w).2.1
      (attemptedPoll S call w).2.2 := by
  unfold attemptedPoll
  cases call with
  | waiting service request => exact relay_enter horderly hkeeps ⟨rfl, rfl⟩
  | running errand call =>
    have hruns := relay_running horderly hkeeps
    dsimp only
    generalize S.poll call w = polled at hruns ⊢
    obtain ⟨said, later, w'⟩ := polled
    cases said with
    | pending =>
      dsimp only
      split
      · have hdropped := L.drop_alike w' later
        exact relay_finishes hruns ⟨hdropped.made, hdropped.contacts⟩
      · exact hruns
    | ready result => exact relay_finishes hruns (w'.alike_report _)
  | ended => exact relay_ended (.refl _ _) horderly

/-- Attempts around lawful services. -/
def attempted : Lawful (Stack.attempted S) where
  toCustody := L.relay _
  Primed := L.Primed
  primed_grows := L.primed_grows
  ask_grows := L.ask_grows
  ask_orderly := L.ask_orderly
  ask_primed hfresh hsaid := L.ask_primed hfresh (Poll.succeeded_map_mapError _ _ ▸ hsaid)
  call_leads _ horderly hfresh hprimed := relay_waiting _ horderly hfresh hprimed ⟨rfl, rfl⟩
  poll_leads := L.attempted_poll
  drop_alike w call :=
    match call with
    | .running _ call => L.drop_alike w call
    | .waiting .. | .ended => ⟨rfl, rfl⟩

end Lawful

/-! ## Stacks -/

/-- Every stack is lawful. -/
theorem Stacked.lawful {S : Service ρ α ε} (h : Stacked S) : Nonempty (Lawful S) := by
  induction h with
  | innermost nature => exact ⟨lawfulInnermost nature⟩
  | guarded b classify _ ih => exact ih.map (Lawful.guarded · b classify)
  | retried policy _ ih => exact ih.map (Lawful.retried · policy)
  | attempted _ ih => exact ih.map Lawful.attempted

/-- A layer that keeps a clone when it is called has a service to be called again. -/
theorem renews_of_clone (horderly : w.Orderly) (hfresh : w.Fresh service) :
    (w.clone service).2.Fresh (w.clone service).1 ∧ (w.clone service).1 ∉ [service] ∧
      ((w.clone service).1 = service ∨ w.made ≤ (w.clone service).1) :=
  ⟨horderly.fresh_clone _, fun hs => Nat.ne_of_gt hfresh.known (List.mem_singleton.mp hs),
    .inr (Nat.le_refl _)⟩

/-- A stack with a layer leaves a service behind that can be called again. -/
theorem Layered.renews {S : Service ρ α ε} (h : Layered S) : ∃ L : Lawful S, L.Renews := by
  cases h with
  | guarded b classify inside =>
    obtain ⟨L⟩ := inside.lawful
    exact ⟨L.guarded b classify, fun _ => renews_of_clone⟩
  | retried policy inside =>
    obtain ⟨L⟩ := inside.lawful
    refine ⟨L.retried policy, fun _ horderly hfresh => ⟨?_, ?_, .inl rfl⟩⟩
    -- The call takes the clone along, and the service stays with the user.
    · exact hfresh.grows (.clone [] _ _) List.not_mem_nil
    · exact fun hs => Nat.ne_of_lt hfresh.known (List.mem_singleton.mp hs)
  | attempted inside =>
    obtain ⟨L⟩ := inside.lawful
    refine ⟨L.attempted, fun _ horderly hfresh => ?_⟩
    have hrenewed := renews_of_clone horderly hfresh
    exact ⟨hrenewed.1.grows (.of_alike [] (World.alike_report _ _)) List.not_mem_nil, hrenewed.2⟩

end GuardedHttp.Stack
