import GuardedHttp.Client.Attempt
import GuardedHttp.Client.Correlation
import GuardedHttp.Config

/-!
# Clients

A client is built from a configuration alone: its breaker and its retry policy carry the settings
unchanged. `World` is what its calls act on: the clock, the circuit, the transport and the slot of the
current request id, together with what has been seen and reported.
-/

namespace GuardedHttp

namespace Config

/-- The settings of a client's breaker. -/
def breakerSettings (config : Config) : Breaker.Settings :=
  { name := config.name
    threshold := config.failureThreshold
    openDuration := config.openDuration
    trials := config.halfOpenTrials
    threshold_pos := config.failureThreshold_pos
    trials_pos := config.halfOpenTrials_pos }

/-- A client's breaker. -/
def breaker (config : Config) : Breaker := { settings := config.breakerSettings }

/-- A client's retry policy: delays that grow by the configured step, within the time of the call. -/
def retryPolicy (config : Config) : Retry.Policy AttemptError :=
  { name := config.name
    maxAttempts := config.maxAttempts
    backoff := .linear config.retryDelay none
    retryOn := some AttemptError.isRetryable
    budget := some config.timeout }

end Config

namespace Client

/-- What the calls of a client act on. -/
structure World where
  /-- The time. -/
  now : Instant := .start
  /-- What the breaker remembers. -/
  circuit : Breaker.Circuit := .new .start
  /-- The transport. -/
  transport : Transport
  /-- The current request id. -/
  slot : Correlation.Slot := none
  /-- What the transport has seen, in order. -/
  sightings : List Sighting := []
  /-- What has been reported, in order. -/
  emitted : List Emission := []

namespace World

/-- The world with more reports. -/
def report (w : World) (emissions : List Emission) : World :=
  { w with emitted := w.emitted ++ emissions }

/-- The world after an update of its breaker. -/
def absorb (w : World) (u : Breaker.Update) : World :=
  { w with circuit := u.circuit, emitted := w.emitted ++ u.emitted }

/-- The world with one more sighting. -/
def see (w : World) (sighting : Sighting) : World :=
  { w with sightings := w.sightings ++ [sighting] }

/-- The world after its circuit has been controlled by hand. -/
def control (config : Config) (how : Breaker.Circuit.Control) (w : World) : World :=
  w.absorb (config.breaker.control w.now how w.circuit)

/-- The world after some time. -/
def advance (d : Duration) (w : World) : World := { w with now := w.now.after d }

end World

/-- The text that shows a client. -/
def describe (config : Config) (w : World) : String :=
  "ResilientClient \x7b name: " ++ Text.quote config.name ++ ", breaker: "
    ++ config.breaker.describe w.circuit ++ ", .. \x7d"

end Client

end GuardedHttp
