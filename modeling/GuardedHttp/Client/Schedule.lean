import GuardedHttp.Client.Send

/-!
# Calls that share a client

Several calls of one client run at once: at every moment each runs as far as it gets, in the order in
which they are listed, and when none gets any further the clock jumps to the earliest moment at which
one does. `complete` goes on like this until all are over, or wait for something that never comes.
-/

namespace GuardedHttp.Client

/-- Calls that share a client, in the order in which they take turns. -/
abbrev Fleet := List Send

namespace Fleet

/-- Every call runs as far as it gets, in order. -/
def poll (config : Config) : World → Fleet → World × Fleet
  | w, [] => (w, [])
  | w, s :: rest =>
    let (w, s) := s.poll config w
    let (w, rest) := poll config w rest
    (w, s :: rest)

/-- The earliest moment at which a call runs again, if one does. -/
def wake (fleet : Fleet) : Option Instant := fleet.foldl (fun t s => earlier t s.stage.wake) none

/-- Runs calls, the clock jumping at most so many times. -/
def run (config : Config) : (jumps : Nat) → World → Fleet → World × Fleet
  | 0, w, fleet => (w, fleet)
  | jumps + 1, w, fleet =>
    let (w, fleet) := poll config w fleet
    match wake fleet with
    | none => (w, fleet)
    | some moment => run config jumps { w with now := max w.now moment } fleet

/-- How often the clock can jump before all calls are over: each jump takes a call a stage further. -/
def jumpLimit (config : Config) (fleet : Fleet) : Nat := fleet.length * (Send.stageLimit config + 1) + 1

/-- Runs calls to their ends. -/
def complete (config : Config) (w : World) (fleet : Fleet) : World × Fleet :=
  run config (jumpLimit config fleet) w fleet

/-- The results of the calls that are over. -/
def results (fleet : Fleet) : List (Option SendResult) := fleet.map (·.stage.result?)

end Fleet

/-- Makes one call to its end. -/
def send (config : Config) (w : World) (s : Send) : World × Option SendResult :=
  let (w, fleet) := Fleet.complete config w [s]
  (w, fleet.head?.bind (·.stage.result?))

end GuardedHttp.Client
