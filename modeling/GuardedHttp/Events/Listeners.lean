import GuardedHttp.Duration

/-!
# Listeners

A listener hears events and acts on a state that it shares with others; it may also panic, after it has
acted. `Listeners.emit` lets every listener hear an event, in the order in which they were added: a
panic goes no further than the listener.

Main statement: `Listeners.emit_congr`, two sets of listeners that act alike leave the same state,
whichever of them panic.
-/

namespace GuardedHttp

/-- An event with the name of what it happened to and the moment when it did. -/
structure Notice (κ : Type) where
  /-- The name of what it happened to. -/
  source : String
  /-- The moment when it happened. -/
  time : Instant
  /-- What happened. -/
  event : κ

/-- What hearing an event has led to. -/
structure Heard (σ : Type) where
  /-- The shared state afterwards. -/
  state : σ
  /-- The text of the panic, if the listener panicked. -/
  panic : Option String := none

/-- What a listener does on hearing an event. -/
abbrev Listener (ε σ : Type) := ε → σ → Heard σ

/-- Listeners in the order in which they were added. -/
structure Listeners (ε σ : Type) where
  /-- The listeners, first one first. -/
  toList : List (Listener ε σ) := []

namespace Listeners

variable {ε σ : Type}

/-- The listeners with one more. -/
def add (ls : Listeners ε σ) (l : Listener ε σ) : Listeners ε σ := ⟨ls.toList ++ [l]⟩

/-- The number of listeners. -/
def size (ls : Listeners ε σ) : Nat := ls.toList.length

/-- There are no listeners. -/
def isEmpty (ls : Listeners ε σ) : Bool := ls.toList.isEmpty

/-- Lets every listener hear an event; what they leave is the state after the last one. -/
def emit (ls : Listeners ε σ) (event : ε) (state : σ) : σ :=
  ls.toList.foldl (fun s l => (l event s).state) state

/-- Lets every listener hear events one after another. -/
def emitAll (ls : Listeners ε σ) (events : List ε) (state : σ) : σ :=
  events.foldl (fun s e => ls.emit e s) state

/-- Listeners that act alike leave the same state, whether they panic or not. -/
theorem emit_congr {a b : Listeners ε σ}
    (h : a.toList.map (fun l e s => (l e s).state) = b.toList.map fun l e s => (l e s).state)
    (event : ε) (state : σ) : a.emit event state = b.emit event state := by
  have fold (ls : Listeners ε σ) : ls.emit event state =
      (ls.toList.map fun l e s => (l e s).state).foldl (fun s f => f event s) state := by
    simp [emit, List.foldl_map]
  rw [fold a, fold b, h]

end Listeners

end GuardedHttp
