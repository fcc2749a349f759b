import GuardedHttp.Proofs.Client.Scopes
import GuardedHttp.Proofs.Client.Traffic

/-!
# Requests as the transport gets them

A send puts an id into its request when it begins, the one that is current inside its scopes unless the
request has one of its own, and each of its attempts puts that id into a header. `Bears` says what the
transport must get of a caller's request. `requests_carry_own_ids` says that it gets this at every call of
every send, whatever other sends do in between, and that the slot which all of them share is empty between
their turns.
-/

namespace GuardedHttp.Client

/-! ## What must be sent -/

/-- The id that a call is made with: that of the request, or else that of the innermost scope. -/
def Caller.requestId (c : Caller) : Option RequestId := c.request.requestId.or c.scopes.getLast?

/-- What the transport gets is the request of a caller, with the request id in its header. -/
structure Bears (c : Caller) (sent : Request) : Prop where
  /-- The method is that of the caller. -/
  method : sent.method = c.request.method
  /-- The URL is that of the caller. -/
  url : sent.url = c.request.url
  /-- The body is that of the caller. -/
  body : sent.body = c.request.body
  /-- All other headers are those of the caller, in the same order. -/
  others : sent.headers.fields.filter (·.1 ≠ requestIdHeader) =
    c.request.headers.fields.filter (·.1 ≠ requestIdHeader)
  /-- The header holds the id, if it can. -/
  id : ∀ id, c.requestId = some id → isHeaderValue id.text = true →
    sent.headers.get? requestIdHeader = some id.text
  /-- There is one value under each name, as in the request of the caller. -/
  distinct : (c.request.headers.fields.map (·.1)).Nodup → (sent.headers.fields.map (·.1)).Nodup
  /-- Otherwise the headers are left alone. -/
  untouched : (∀ id, c.requestId = some id → isHeaderValue id.text = false) →
    sent.headers = c.request.headers

/-- The request of a send with its id and a deadline. -/
def Send.named (s : Send) (deadline : Option Instant) : Request :=
  { s.request.withRequestIdIfAbsent s.scopes.getLast? with deadline }

/-- A value that is put under a name leaves the fields of other names where they are. -/
theorem filter_insertField (name value : String) (fields : List (String × String)) :
    (Headers.insertField name value fields).filter (·.1 ≠ name) = fields.filter (·.1 ≠ name) := by
  induction fields with
  | nil => simp [Headers.insertField]
  | cons f rest ih =>
    by_cases hname : f.1 = name
    · simp [Headers.insertField, hname]
    · simp only [Headers.insertField, if_neg hname, List.filter_cons, ih]

/-- A name under which there has been no value comes last. -/
theorem names_insertField (name value : String) (fields : List (String × String)) :
    (Headers.insertField name value fields).map (·.1) =
      if name ∈ fields.map (·.1) then fields.map (·.1) else fields.map (·.1) ++ [name] := by
  induction fields with
  | nil => rfl
  | cons f rest ih =>
    by_cases hname : f.1 = name
    · simp [Headers.insertField, hname]
    · simp only [Headers.insertField, if_neg hname, List.map_cons, ih, List.mem_cons, Ne.symm hname,
        false_or]
      split <;> rfl

/-- A value that is put under a name leaves every name there once. -/
theorem nodup_insertField {name value : String} {fields : List (String × String)}
    (h : (fields.map (·.1)).Nodup) : ((Headers.insertField name value fields).map (·.1)).Nodup := by
  rw [names_insertField]
  split
  · exact h
  · rename_i hnot
    exact h.append (List.nodup_singleton name) (List.disjoint_singleton.mpr hnot)

/-- A request whose id is no value of a header goes out as it is. -/
theorem prepare_of_invalid {request : Request}
    (h : ∀ id, request.requestId = some id → isHeaderValue id.text = false) :
    (Attempt.prepare request).1 = request := by
  unfold Attempt.prepare
  split
  · rfl
  · rename_i id hid
    rw [if_neg (Bool.eq_false_iff.mp (h id hid))]

/-- A request whose id can be a value of a header carries it in its header. -/
theorem prepare_of_valid {request : Request} {id : RequestId} (hid : request.requestId = some id)
    (h : isHeaderValue id.text = true) : (Attempt.prepare request).1 =
      { request with headers := request.headers.insert requestIdHeader id.text } := by
  unfold Attempt.prepare
  rw [hid]
  dsimp only
  rw [if_pos h]

/-- An attempt sends the request of the caller with its id. -/
theorem bears_prepare {c : Caller} {s : Send} (hrequest : s.request = c.request)
    (hscopes : s.scopes = c.scopes) (deadline : Option Instant) :
    Bears c (Attempt.prepare (s.named deadline)).1 := by
  have hid : (s.named deadline).requestId = c.requestId := by
    rw [Caller.requestId, ← hrequest, ← hscopes]
    rfl
  have hheaders : (s.named deadline).headers = c.request.headers := (congrArg Request.headers hrequest :)
  have hmethod : (s.named deadline).method = c.request.method := (congrArg Request.method hrequest :)
  have hurl : (s.named deadline).url = c.request.url := (congrArg Request.url hrequest :)
  have hbody : (s.named deadline).body = c.request.body := (congrArg Request.body hrequest :)
  -- The header is set if there is an identifier that may stand in one, and else nothing changes.
  by_cases hvalid : ∃ id, c.requestId = some id ∧ isHeaderValue id.text = true
  · obtain ⟨id, hsome, hvalid⟩ := hvalid
    rw [prepare_of_valid (hid.trans hsome) hvalid]
    refine ⟨hmethod, hurl, hbody, ?_, fun other hother _ => ?_, fun hdistinct => ?_, fun hnone => ?_⟩
    · rw [← hheaders]
      exact filter_insertField _ _ _
    · obtain rfl : id = other := Option.some.inj (hsome.symm.trans hother)
      exact (Headers.get?_insert ..).trans (if_pos rfl)
    · rw [← hheaders] at hdistinct
      exact nodup_insertField hdistinct
    · exact absurd hvalid (Bool.eq_false_iff.mp (hnone id hsome))
  · have hnone : ∀ id, (s.named deadline).requestId = some id → isHeaderValue id.text = false :=
      fun id h => Bool.eq_false_iff.mpr fun hv => hvalid ⟨id, hid ▸ h, hv⟩
    rw [prepare_of_invalid hnone]
    refine ⟨hmethod, hurl, hbody, by rw [hheaders], fun id hsome hv => ?_, fun hdistinct => ?_,
      fun _ => hheaders⟩
    · exact absurd ⟨id, hsome, hv⟩ hvalid
    · rwa [hheaders]

/-! ## What is sent -/

section

variable {config : Config} {w : World} {s : Send}

/-- A send that is being made has put its id into its request when it began. -/
theorem Pass.request {r : World × Stage} (h : Pass config w s r)
    (hslot : w.slot = s.scopes.getLast?)
    (hbefore : ∀ call phase, s.stage = .active call phase → ∃ deadline, call.request = s.named deadline) :
    ∀ call phase, r.2 = .active call phase → ∃ deadline, call.request = s.named deadline := by
  intro call phase hactive
  cases h.outline with
  | rejected | finishes | drops => cases hactive
  | admitted waits grants =>
    cases hactive
    exact ⟨w.now.after? config.timeout, by rw [hslot]; rfl⟩
  | calls hstage | rests hstage =>
    cases hactive
    exact hbefore _ _ hstage
  | retries rested =>
    cases hactive
    have hsame := hbefore _ _ rested
    exact hsame

end

/-- A party has its id in the request that it makes and in those that it has made. -/
structure Party.Named (p : Party) : Prop where
  /-- The request that it makes. -/
  request : ∀ call phase, p.send.stage = .active call phase →
    ∃ deadline, call.request = p.send.named deadline
  /-- The requests that it has made. -/
  calls : ∀ contact ∈ p.calls, ∃ deadline, contact.request = (Attempt.prepare (p.send.named deadline)).1

/-- What the transport has seen of a call. -/
def Contact.sighting (c : Contact) : Sighting := .call c.time c.request

/-- The calls among some sightings are the sightings of the calls. -/
theorem map_sighting_contact? (turn : Nat) (sightings : List Sighting) :
    (sightings.filterMap (contact? turn)).map (·.sighting) = sightings.filter (·.isCall) := by
  induction sightings with
  | nil => rfl
  | cons seen rest ih =>
    cases seen with
    | call time request => exact congrArg (Sighting.call time request :: ·) ih
    | notReady time => exact ih

/-- An element that has more than the one in whose place it is put adds this to what all have. -/
theorem flatMap_set_perm {α β : Type} {f : α → List β} {l : List α} {i : Nat} {a b : α} {more : List β}
    (ha : l[i]? = some a) (hb : f b = f a ++ more) :
    ((l.set i b).flatMap f).Perm (l.flatMap f ++ more) := by
  induction l generalizing i with
  | nil => cases ha
  | cons first rest ih =>
    cases i with
    | zero =>
      cases ha
      rw [List.set_cons_zero, List.flatMap_cons, List.flatMap_cons, hb, List.append_assoc,
        List.append_assoc]
      exact List.perm_append_comm.append_left _
    | succ i =>
      rw [List.set_cons_succ, List.flatMap_cons, List.flatMap_cons, List.append_assoc]
      exact (ih ha).append_left _

namespace Traffic

variable {config : Config} {t : Traffic}

/-- Every party has its own id in its requests, the transport has seen the calls of the parties, each of
them once, and no id is current between turns. -/
structure AllNamed (t : Traffic) : Prop where
  /-- The requests. -/
  named : ∀ p ∈ t.parties, p.Named
  /-- The calls. -/
  seen : (t.world.sightings.filter (·.isCall)).Perm (t.parties.flatMap fun p => p.calls.map (·.sighting))
  /-- The current id. -/
  slot : t.world.slot = none

/-- The turn of a party keeps the requests of all parties with their own ids. -/
theorem AllNamed.reach (h : t.AllNamed) {i : Nat} {p : Party} {r : World × Stage}
    (hp : t.parties[i]? = some p) (hr : Pass config (t.world.inside p.send) p.send r) :
    (t.reach config i p r).AllNamed := by
  obtain ⟨more, hmore, hcase⟩ := hr.sights
  have hcalls : (p.after t.world (t.stale i) r).calls = p.calls ++ more.filterMap (contact? p.turn) :=
    Party.calls_after _ hmore
  have hmade : (more.filterMap (contact? p.turn)).map (·.sighting) = more.filter (·.isCall) :=
    map_sighting_contact? ..
  -- Of the parties only the one that acts changes, and by at most one call.
  refine ⟨fun q hq => ?_, ?_, h.slot⟩
  · obtain ⟨j, hq⟩ := List.mem_iff_getElem?.mp hq
    rcases parties_reach hq with ⟨-, rfl⟩ | ⟨-, hq⟩
    · obtain ⟨hrequest, hnamed⟩ := h.named p (List.mem_of_getElem? hp)
      have hslot : (t.world.inside p.send).slot = p.send.scopes.getLast? := by
        show Correlation.enterAll p.send.scopes t.world.slot = _
        rw [Correlation.enterAll_eq, h.slot, Option.or_none]
      refine ⟨hr.request hslot hrequest, fun contact hcontact => ?_⟩
      rw [hcalls] at hcontact
      rcases List.mem_append.mp hcontact with hcontact | hcontact
      · exact hnamed contact hcontact
      · rcases hcase with hnone | ⟨call, due, plan, hs, rfl⟩
        · rw [List.map_eq_nil_iff.mp (hmade.trans hnone)] at hcontact
          cases hcontact
        · obtain ⟨deadline, hdeadline⟩ := hrequest call _ hs
          obtain rfl := List.mem_singleton.mp hcontact
          exact ⟨deadline, congrArg (fun request => (Attempt.prepare request).1) hdeadline⟩
    · exact h.named q (List.mem_of_getElem? hq)
  · have hseen : (t.reach config i p r).world.sightings = t.world.sightings ++ more := hmore
    have hparty : (p.after t.world (t.stale i) r).calls.map (·.sighting) =
        p.calls.map (·.sighting) ++ more.filter (·.isCall) := by
      rw [hcalls, List.map_append, hmade]
    rw [hseen, List.filter_append]
    -- The calls stand in the order of the transport there, and of the parties here.
    exact (h.seen.append_right _).trans (flatMap_set_perm hp hparty).symm

/-- Whatever happens, every party has its own id in its requests. -/
theorem allNamed_play (config : Config) (now : Instant) (transport : Transport) (callers : List Caller)
    (acts : List Act) : ((start now transport callers).play config acts).AllNamed := by
  refine play_induction (P := AllNamed) ⟨fun p hp => ?_, ?_, rfl⟩ (fun ht hp hr => ht.reach hp hr)
    (fun _ ht => ⟨ht.named, ht.seen, ht.slot⟩) (fun _ ht => ⟨ht.named, ht.seen, ht.slot⟩) acts
  · obtain ⟨c, -, rfl⟩ := List.mem_map.mp hp
    exact ⟨fun _ _ hs => (by cases hs), fun _ hc => absurd hc List.not_mem_nil⟩
  · have hnone : (callers.map Party.of).flatMap (fun p => p.calls.map (·.sighting)) = [] := by
      refine List.flatMap_eq_nil_iff.mpr fun p hp => ?_
      obtain ⟨c, -, rfl⟩ := List.mem_map.mp hp
      rfl
    exact .of_eq hnone.symm

end Traffic

open Correlation (Item Crowd Pick Running runBranches)

/-- Every request carries its own id. Whatever happens to a client, every call of the transport that a send
makes has the method, the URL, the body and the headers of its caller's request, and the caller's id in the
header of that name whenever a header can hold it; the calls of the sends are the calls that the transport
has seen, and between turns no id is current. Work in scopes of its own sees what it would see alone,
whatever other work takes turns with it or is dropped, and leaving scopes puts back the id around them,
wherever work has stopped inside them. -/
theorem requests_carry_own_ids (config : Config) (now : Instant) (transport : Transport)
    (callers : List Caller) (acts : List Act) :
    let t := (Traffic.start now transport callers).play config acts
    (∀ (i : Nat) (c : Caller) (p : Party), callers[i]? = some c → t.parties[i]? = some p →
      ∀ contact ∈ p.calls, Bears c contact.request) ∧
    (t.world.sightings.filter (·.isCall)).Perm
      (t.parties.flatMap fun p => p.calls.map (·.sighting)) ∧
    t.world.slot = none ∧
    (∀ (work : List (List Item)) (picks : List Pick), ((Crowd.start work).play picks).Apart work) ∧
    (∀ work : List (List Item), runBranches work = work.map (Item.seesAll none)) ∧
    ∀ (b : Correlation.Branch) (slot : Correlation.Slot) (k : Nat),
      Running.unwind ((b.stopped slot).2.frames.take k) (b.stopped slot).2.slot =
        Correlation.current ((b.stopped slot).2.scopes.drop k) slot := by
  intro t
  obtain ⟨hnamed, hseen, hslot⟩ := Traffic.allNamed_play config now transport callers acts
  refine ⟨fun i c p hc hp contact hcontact => ?_, hseen, hslot, Crowd.play_spec,
    Correlation.runBranches_eq, fun b slot k => (b.nested_stopped slot).unwind_take k⟩
  obtain ⟨deadline, hrequest⟩ := (hnamed p (List.mem_of_getElem? hp)).calls contact hcontact
  obtain ⟨hsame, hscopes, -, -⟩ := Traffic.standsFor_play config now transport callers acts i c p hc hp
  rw [hrequest]
  exact bears_prepare hsame hscopes deadline

/-- The first of two sends in scopes of their own tries again while the second one is on its way. -/
example :
    let config : Config :=
      ⟨{ maxRetries := 1, failureThreshold := 1 }, by decide, by decide, by decide, by decide⟩
    let transport := Transport.ofTurns #[{ plan := .answer .zero (.error .timeout) }]
      { plan := .answer .zero (.ok { status := .ok }) }
    let callers := [{ request := visit.request, scopes := [⟨"outer"⟩, ⟨"inner"⟩] },
      { request := visit.request, scopes := [⟨"other"⟩] }]
    let acts := [.go 0, .go 0, .go 1, .go 0, .advance (.ofSeconds 1), .go 1, .go 0, .go 1, .go 0, .go 0]
    ((Traffic.start .start transport callers).play config acts).parties.map (fun p =>
      p.calls.map (·.request.headers.get? requestIdHeader)) =
        [[some "inner", some "inner"], [some "other"]] := by
  decide +kernel

end GuardedHttp.Client
