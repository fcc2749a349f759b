import GuardedHttp.Client.Failure
import GuardedHttp.Retry.Run

/-!
# Transports

A transport carries requests. All that a client can tell about it is what it does when it is called for
the first time, the second and so on: each of these is a `Turn`. What the transport sees in return is a
list of `Sighting`s.
-/

namespace GuardedHttp

/-- What a transport does once it has been asked whether it is ready. -/
inductive Plan where
  /-- It is not ready, and no call is made. -/
  | refuse (e : TransportError)
  /-- It is called and answers after some time. -/
  | answer (after : Duration) (result : Except TransportError Response)
  /-- It is called and never answers. -/
  | hang

/-- One turn of a transport. -/
structure Turn where
  /-- How long it takes to tell whether it is ready. -/
  readyAfter : Duration := .zero
  /-- What it does then. -/
  plan : Plan

/-- A transport with the turns that it has taken. -/
structure Transport where
  /-- What it does at each turn. -/
  turn : Nat → Turn
  /-- The number of turns that it has taken. -/
  taken : Nat := 0

namespace Transport

/-- The transport that takes the given turns and then one other for ever. -/
def ofTurns (turns : Array Turn) (last : Turn) : Transport := { turn := fun i => turns.getD i last }

/-- The transport that refuses the address of every request, before it uses any network. -/
def refusing (reason : String) : Transport :=
  { turn := fun _ => { plan := .answer .zero (.error (.request reason)) } }

/-- The next turn, and the transport after it. -/
def next (t : Transport) : Turn × Transport := (t.turn t.taken, { t with taken := t.taken + 1 })

end Transport

/-- What a transport sees of one attempt. -/
inductive Sighting where
  /-- It was called with a request. -/
  | call (time : Instant) (request : Request)
  /-- It was asked and was not ready. -/
  | notReady (time : Instant)
deriving DecidableEq

end GuardedHttp
