import GuardedHttp.Breaker.Call
import GuardedHttp.Retry.Policy

/-!
# Services

A service is asked whether it is ready, is called and is cloned; what it returns is a call on its way, which
runs stage by stage and can be dropped. A `Service` is all that can be done with services of one kind.
Between two stages anything may happen; a call that gets through several of them at once is one that is
polled several times. A call that panics is one that is dropped.

Every service is a number of layers around an innermost one, and the layers of one kind differ in nothing
else: a service is known by the innermost service in it. A `World` remembers what becomes of each of these,
so that it can be told which of them has been called when. What they answer is their `Nature`.
-/

namespace GuardedHttp.Stack

/-- An innermost service, which is told from its clones by its number. -/
abbrev Instance := Nat

/-- What happens to innermost services. -/
inductive Contact where
  /-- A service comes into being. -/
  | built (service : Instance)
  /-- A service is cloned. -/
  | cloned (service copy : Instance)
  /-- A service is asked whether it is ready, and says so or does not. -/
  | asked (service : Instance) (ready : Bool)
  /-- A service is called. -/
  | called (service : Instance)
  /-- The call of a service is asked for its result. -/
  | polled (service : Instance)
deriving DecidableEq

/-- What services act on. -/
structure World where
  /-- The time. -/
  now : Instant := .start
  /-- What the breaker remembers. -/
  circuit : Breaker.Circuit := .new .start
  /-- How many innermost services there have been. -/
  made : Nat := 0
  /-- What has happened to innermost services, the latest first. -/
  contacts : List Contact := []
  /-- What has happened to the breaker, in order. -/
  events : List Breaker.Event := []
  /-- What has been decided about retries, in order. -/
  decisions : List Retry.Event := []
  /-- What has been reported, in order. -/
  emitted : List Emission := []

namespace World

/-- The world after one more contact. -/
def record (w : World) (contact : Contact) : World := { w with contacts := contact :: w.contacts }

/-- A new innermost service. -/
def build (w : World) : Instance × World :=
  (w.made, { w with made := w.made + 1 }.record (.built w.made))

/-- A clone of an innermost service. -/
def clone (w : World) (service : Instance) : Instance × World :=
  (w.made, { w with made := w.made + 1 }.record (.cloned service w.made))

/-- The world with more reports. -/
def report (w : World) (emissions : List Emission) : World :=
  { w with emitted := w.emitted ++ emissions }

/-- The world after an update of its breaker. -/
def absorb (w : World) (u : Breaker.Update) : World :=
  { w with circuit := u.circuit, events := w.events ++ u.events, emitted := w.emitted ++ u.emitted }

/-- The world after a retry policy of a name has decided what follows the attempt of an index. -/
def hear (w : World) (name : String) (attempt : Nat) (verdict : Retry.Verdict) : World :=
  { w with
    decisions := w.decisions ++ [verdict.event attempt]
    emitted := w.emitted ++ verdict.emissions name attempt }

end World

/-- What comes of asking for something. -/
inductive Poll (β : Type) where
  /-- It is not there yet. -/
  | pending
  /-- It is there. -/
  | ready (value : β)
deriving DecidableEq

namespace Poll

variable {β γ ε : Type}

/-- What is made of the thing asked for. -/
def map (f : β → γ) : Poll β → Poll γ
  | pending => pending
  | ready value => ready (f value)

/-- It is there, and is no error. -/
def succeeded : Poll (Except ε β) → Bool
  | ready (.ok _) => true
  | ready (.error _) | pending => false

/-- Readiness does not depend on what an error is mapped to. -/
theorem succeeded_map_mapError {δ : Type} (f : ε → δ) (said : Poll (Except ε β)) :
    (said.map (Except.mapError f)).succeeded = said.succeeded := by
  cases said with
  | pending => rfl
  | ready result => cases result <;> rfl

end Poll

/-- What can be done with services that take requests of a type and answer with values or errors. -/
structure Service (ρ α ε : Type) where
  /-- A call on its way. -/
  Call : Type
  /-- Asks a service whether it is ready. -/
  ask : Instance → World → Poll (Except ε Unit) × World
  /-- Calls a service. It may be another one afterwards. -/
  call : ρ → Instance → World → Call × Instance × World
  /-- Lets a call run one stage further. -/
  poll : Call → World → Poll (Except ε α) × Call × World
  /-- Gives a call up. -/
  drop : Call → World → World

variable {ρ α ε : Type}

/-- What innermost services do, whatever has happened before. -/
structure Nature (ρ α ε : Type) where
  /-- What a service says that is asked whether it is ready. -/
  readiness : Instance → World → Poll (Except ε Unit)
  /-- What has become of the call of a service with a request. -/
  answer : Instance → ρ → World → Poll (Except ε α)

/-- The innermost services of a nature. -/
def innermost (nature : Nature ρ α ε) : Service ρ α ε where
  Call := Instance × ρ
  ask service w :=
    let said := nature.readiness service w
    (said, w.record (.asked service said.succeeded))
  call request service w := ((service, request), service, w.record (.called service))
  poll call w := (nature.answer call.1 call.2 w, call, w.record (.polled call.1))
  drop _ w := w

end GuardedHttp.Stack
