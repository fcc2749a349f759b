import GuardedHttp.Stack.Service
import Mathlib.Data.List.Nodup

/-!
# What innermost services have been through

`Driven` says of a service what the contract asks before a call: it has come into being, has then said that
it is ready, and has not been called since. A world is `Orderly` if every call that has reached a service
found it driven, and no service has been called twice. `Orderly.record` and `Orderly.call` keep it so.

Whoever acts on a world leaves the services of others alone. `World.Grows` says which services may have been
called between two worlds: those that are somebody's own, and those that are new. What others know of their
services stays true (`Fresh.grows`, `Driven.grows`).
-/

namespace GuardedHttp.Stack

variable {mine own : List Instance} {service : Instance} {contact : Contact} {w w' w'' : World}

/-- The service that comes into being by a contact. -/
def Contact.born? : Contact → Option Instance
  | built service => some service
  | cloned _ copy => some copy
  | asked .. | called _ | polled _ => none

/-- The service that is called. -/
def Contact.callee? : Contact → Option Instance
  | called service => some service
  | built _ | cloned .. | asked .. | polled _ => none

/-- The services that have been called, one entry for each call. -/
def callees (contacts : List Contact) : List Instance := contacts.filterMap Contact.callee?

/-- A service has come into being, has then said that it is ready, and has not been called since. -/
def Driven (service : Instance) (contacts : List Contact) : Prop :=
  ∃ since before, contacts = since ++ .asked service true :: before ∧
    .called service ∉ since ∧ ∃ contact ∈ before, contact.born? = some service

/-- Every call found its service driven, and was the only one of it. -/
structure World.Orderly (w : World) : Prop where
  /-- A service has been driven before it is called. -/
  driven : ∀ later service earlier, w.contacts = later ++ .called service :: earlier →
    Driven service earlier
  /-- No service is called twice. -/
  once : (callees w.contacts).Nodup
  /-- Services that are still to come have not been called. -/
  known : ∀ service ∈ callees w.contacts, service < w.made

/-- A service that exists and has not been called. -/
structure World.Fresh (w : World) (service : Instance) : Prop where
  /-- It has come into being. -/
  born : ∃ contact ∈ w.contacts, contact.born? = some service
  /-- It has not been called. -/
  uncalled : .called service ∉ w.contacts
  /-- It is none of those to come. -/
  known : service < w.made

/-- Between two worlds no services are called but some own ones and new ones. -/
structure World.Grows (own : List Instance) (w w' : World) : Prop where
  /-- Services do not disappear. -/
  made : w.made ≤ w'.made
  /-- Contacts are only added. -/
  contacts : ∃ more, w'.contacts = more ++ w.contacts ∧
    ∀ service, .called service ∈ more → service ∈ own ∨ w.made ≤ service

/-! ## Worlds that differ in what services do not see -/

/-- Two worlds have seen the same services and contacts. -/
structure World.Alike (w w' : World) : Prop where
  /-- The same services. -/
  made : w'.made = w.made
  /-- The same contacts. -/
  contacts : w'.contacts = w.contacts

/-- Services see nothing of what is reported. -/
theorem World.alike_report (w : World) (emissions : List Emission) : w.Alike (w.report emissions) :=
  ⟨rfl, rfl⟩

/-- Services see nothing of what retry listeners hear. -/
theorem World.alike_hear (w : World) (name : String) (attempt : Nat) (verdict : Retry.Verdict) :
    w.Alike (w.hear name attempt verdict) := ⟨rfl, rfl⟩

/-- Services see nothing of what a breaker does. -/
theorem World.alike_absorb (w : World) (u : Breaker.Update) : w.Alike (w.absorb u) := ⟨rfl, rfl⟩

/-! ## Growth -/

namespace World.Grows

/-- What services do not see adds no call. -/
theorem of_alike (own : List Instance) (h : w.Alike w') : w.Grows own w' :=
  ⟨Nat.le_of_eq h.made.symm, [], h.contacts, nofun⟩

/-- When nothing happens, no call is added. -/
theorem refl (own : List Instance) (w : World) : w.Grows own w := of_alike own ⟨rfl, rfl⟩

/-- Who owns more may call more. -/
theorem mono (h : w.Grows own w') (hown : own ⊆ mine) : w.Grows mine w' := by
  obtain ⟨more, hmore, hcalls⟩ := h.contacts
  exact ⟨h.made, more, hmore, fun service hc => (hcalls service hc).imp_left (hown ·)⟩

/-- One thing after another: what is owned in between is owned before, or has come in between. -/
theorem trans (h : w.Grows mine w') (h' : w'.Grows own w'')
    (hown : ∀ service ∈ own, service ∈ mine ∨ w.made ≤ service) : w.Grows mine w'' := by
  obtain ⟨more, hmore, hcalls⟩ := h.contacts
  obtain ⟨more', hmore', hcalls'⟩ := h'.contacts
  refine ⟨Nat.le_trans h.made h'.made, more' ++ more, ?_, fun service hc => ?_⟩
  · rw [hmore', hmore, List.append_assoc]
  · rcases List.mem_append.mp hc with hc | hc
    -- What is new later on is new from the beginning.
    · rcases hcalls' service hc with hc | hc
      · exact hown service hc
      · exact .inr (Nat.le_trans h.made hc)
    · exact hcalls service hc

/-- A contact that is no call. -/
theorem record (own : List Instance) (w : World) (hcontact : contact.callee? = none) :
    w.Grows own (w.record contact) := by
  refine ⟨Nat.le_refl _, [contact], rfl, fun service hc => ?_⟩
  rw [← List.mem_singleton.mp hc] at hcontact
  cases hcontact

/-- The call of an own service. -/
theorem call (w : World) (service : Instance) : w.Grows [service] (w.record (.called service)) := by
  refine ⟨Nat.le_refl _, [.called service], rfl, fun other hc => .inl ?_⟩
  cases List.mem_singleton.mp hc
  exact List.mem_singleton.mpr rfl

/-- To clone a service is no call. -/
theorem clone (own : List Instance) (w : World) (service : Instance) :
    w.Grows own (w.clone service).2 :=
  ⟨Nat.le_succ _, [.cloned service w.made], rfl,
    fun _ hc => nomatch List.mem_singleton.mp hc⟩

/-- To build a service is no call. -/
theorem build (own : List Instance) (w : World) : w.Grows own w.build.2 :=
  ⟨Nat.le_succ _, [.built w.made], rfl, fun _ hc => nomatch List.mem_singleton.mp hc⟩

end World.Grows

/-! ## What stays true -/

/-- A service stays uncalled while others are called. -/
theorem World.Fresh.grows (h : w.Fresh service) (hgrows : w.Grows own w') (hown : service ∉ own) :
    w'.Fresh service := by
  obtain ⟨more, hmore, hcalls⟩ := hgrows.contacts
  refine ⟨?_, ?_, Nat.lt_of_lt_of_le h.known hgrows.made⟩
  · obtain ⟨contact, hmem, hborn⟩ := h.born
    exact ⟨contact, hmore ▸ List.mem_append_right _ hmem, hborn⟩
  · rw [hmore, List.mem_append]
    rintro (hc | hc)
    · exact (hcalls service hc).elim hown (Nat.not_le_of_lt h.known)
    · exact h.uncalled hc

/-- A driven service stays driven while others are called. -/
theorem Driven.grows (h : Driven service w.contacts) (hknown : service < w.made)
    (hgrows : w.Grows own w') (hown : service ∉ own) : Driven service w'.contacts := by
  obtain ⟨since, before, heq, hsince, hborn⟩ := h
  obtain ⟨more, hmore, hcalls⟩ := hgrows.contacts
  refine ⟨more ++ since, before, ?_, ?_, hborn⟩
  · rw [hmore, heq, List.append_assoc]
  · rw [List.mem_append]
    rintro (hc | hc)
    · exact (hcalls service hc).elim hown (Nat.not_le_of_lt hknown)
    · exact hsince hc

/-- A service that says that it is ready is driven. -/
theorem World.Fresh.driven (h : w.Fresh service) :
    Driven service (w.record (.asked service true)).contacts :=
  ⟨[], w.contacts, rfl, List.not_mem_nil, h.born⟩

namespace World.Orderly

/-- A world without contacts is orderly. -/
theorem new (w : World) (h : w.contacts = []) : w.Orderly := by
  refine ⟨fun later service earlier heq => ?_, ?_, ?_⟩
  · rw [h] at heq
    exact absurd heq.symm (List.append_ne_nil_of_right_ne_nil _ (List.cons_ne_nil _ _))
  · rw [h]
    exact List.nodup_nil
  · rw [h]
    exact nofun

/-- A world stays orderly through what services do not see. -/
theorem of_alike (h : w.Orderly) (halike : w.Alike w') : w'.Orderly :=
  ⟨halike.contacts ▸ h.driven, halike.contacts ▸ h.once,
    halike.contacts.symm ▸ halike.made.symm ▸ h.known⟩

/-- Contacts that are no calls keep a world orderly, and so do new services. -/
theorem record (h : w.Orderly) (hcontact : contact.callee? = none) (hmade : w.made ≤ w'.made)
    (hcontacts : w'.contacts = contact :: w.contacts) : w'.Orderly := by
  have hcallees : callees w'.contacts = callees w.contacts := by
    rw [hcontacts]
    exact List.filterMap_cons_none hcontact
  refine ⟨fun later service earlier heq => ?_, hcallees ▸ h.once, fun service hs => ?_⟩
  · rw [hcontacts] at heq
    -- The latest contact is no call, and the calls before it are those that there were.
    cases later with
    | nil => cases heq; cases hcontact
    | cons _ later =>
      injection heq with _ heq
      exact h.driven _ _ _ heq
  · exact Nat.lt_of_lt_of_le (h.known service (hcallees ▸ hs)) hmade

/-- A driven service that has not been called may be called. -/
theorem call (h : w.Orderly) (hfresh : w.Fresh service) (hdriven : Driven service w.contacts) :
    (w.record (.called service)).Orderly := by
  have huncalled : service ∉ callees w.contacts := by
    intro hs
    obtain ⟨contact, hmem, hcallee⟩ := List.mem_filterMap.mp hs
    cases contact <;> cases hcallee
    exact hfresh.uncalled hmem
  -- The latest call is that of the driven service; the earlier ones have been in order before.
  refine ⟨fun later other earlier heq => ?_, List.nodup_cons.mpr ⟨huncalled, h.once⟩,
    fun other hs => ?_⟩
  · cases later with
    | nil => cases heq; exact hdriven
    | cons _ later =>
      injection heq with _ heq
      exact h.driven _ _ _ heq
  · rcases List.mem_cons.mp hs with rfl | hs
    · exact hfresh.known
    · exact h.known other hs

/-- Cloning a service keeps a world orderly. -/
theorem clone (h : w.Orderly) (service : Instance) : (w.clone service).2.Orderly :=
  h.record rfl (Nat.le_succ _) rfl

/-- Building a service keeps a world orderly. -/
theorem build (h : w.Orderly) : w.build.2.Orderly := h.record rfl (Nat.le_succ _) rfl

/-- The next service has not been called. -/
theorem uncalled (h : w.Orderly) : .called w.made ∉ w.contacts := fun hc =>
  Nat.lt_irrefl _ (h.known _ (List.mem_filterMap.mpr ⟨_, hc, rfl⟩))

/-- A clone has not been called. -/
theorem fresh_clone (h : w.Orderly) (service : Instance) :
    (w.clone service).2.Fresh (w.clone service).1 :=
  ⟨⟨_, List.mem_cons_self, rfl⟩, fun hc => (List.mem_cons.mp hc).elim nofun h.uncalled,
    Nat.lt_succ_self _⟩

/-- A service that has just been built has not been called. -/
theorem fresh_build (h : w.Orderly) : w.build.2.Fresh w.build.1 :=
  ⟨⟨_, List.mem_cons_self, rfl⟩, fun hc => (List.mem_cons.mp hc).elim nofun h.uncalled,
    Nat.lt_succ_self _⟩

end World.Orderly

end GuardedHttp.Stack
