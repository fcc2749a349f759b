import GuardedHttp.Breaker.Call

/-!
# Sessions with a breaker

A `Session` is a breaker with a clock, its circuit and the calls that are in flight, each under a name.
`Session.act` is one act of its users: whole calls, calls that begin, end or are dropped, controls by
hand, and time that passes. `Session.history` is what any number of acts lead to, one after another.

Main statement: `Session.run_eq_history`, the last entry of a history holds the session afterwards.
-/

namespace GuardedHttp.Breaker

open Circuit (Control)

/-- A breaker in use. -/
structure Session where
  /-- The time. -/
  now : Instant := .start
  /-- What the breaker remembers. -/
  circuit : Circuit := .new .start
  /-- The calls in flight, under their names. -/
  inFlight : List (String × Permit) := []

/-- Something that a user does. -/
inductive Act (α ε : Type) where
  /-- Makes a whole call. -/
  | call (outcome : Outcome α ε)
  /-- Uses a service behind the breaker. -/
  | use (service : Service α ε)
  /-- Begins a call and leaves it in flight under a name; an earlier call of the name is dropped. -/
  | start (name : String)
  /-- Ends the call of a name. -/
  | finish (name : String) (outcome : Outcome α ε)
  /-- Drops the call of a name. -/
  | drop (name : String)
  /-- Lets time pass. -/
  | advance (d : Duration)
  /-- Controls the circuit by hand. -/
  | control (how : Control)
  /-- Looks at the breaker and does nothing. -/
  | look

/-- What a user gets. -/
inductive Reply (α ε : Type) where
  /-- The result of a call. -/
  | result (r : CallResult α ε)
  /-- The call is in flight. -/
  | pending
  /-- No call of the name is in flight. -/
  | absent
  /-- The call has been dropped. -/
  | dropped
  /-- Nothing. -/
  | done

namespace Session

variable {α ε : Type}

/-- The session after an update of its breaker. -/
def after (s : Session) (u : Update) : Session := { s with circuit := u.circuit }

/-- The session without the call of a name. -/
def without (s : Session) (name : String) : Session :=
  { s with inFlight := s.inFlight.filter (·.1 ≠ name) }

/-- The session with one more call in flight. -/
def holding (s : Session) (name : String) (p : Permit) : Session :=
  { s with inFlight := s.inFlight ++ [(name, p)] }

/-- What dropping the call of a name does, if there is one. -/
def dropped (inFlight : List (String × Permit)) (name : String) (c : Circuit) : Update :=
  match inFlight.lookup name with
  | none => { circuit := c }
  | some p => abandon p c

/-- One act of a user: what it gets, what the breaker does, and the session afterwards. -/
def act (b : Breaker) (classify : Classifier α ε) (s : Session) : Act α ε → Reply α ε × Update × Session
  | .call outcome =>
    let (r, u) := b.call classify s.now outcome s.circuit
    (.result r, u, s.after u)
  | .use service =>
    let (r, u) := b.use classify s.now service s.circuit
    (.result r, u, s.after u)
  | .start name =>
    match b.start s.now s.circuit with
    | (none, u) => (.result (.ended (.error .rejected)), u, s.after u)
    | (some p, u) =>
      let u := u.followedBy (dropped s.inFlight name u.circuit)
      (.pending, u, (s.after u).without name |>.holding name p)
  | .finish name outcome =>
    match s.inFlight.lookup name with
    | none => (.absent, { circuit := s.circuit }, s)
    | some p =>
      let (r, u) := b.finish classify s.now p outcome s.circuit
      (.result r, u, (s.after u).without name)
  | .drop name =>
    let u := dropped s.inFlight name s.circuit
    (if (s.inFlight.lookup name).isSome then .dropped else .absent, u, (s.after u).without name)
  | .advance d => (.done, { circuit := s.circuit }, { s with now := s.now.after d })
  | .control how =>
    let u := b.control s.now how s.circuit
    (.done, u, s.after u)
  | .look => (.done, { circuit := s.circuit }, s)

/-- An act that is over. -/
structure Entry (α ε : Type) where
  /-- What the user got. -/
  reply : Reply α ε
  /-- What the breaker did. -/
  update : Update
  /-- The session afterwards. -/
  session : Session

/-- The acts of users, one after another. -/
def history (b : Breaker) (classify : Classifier α ε) : Session → List (Act α ε) → List (Entry α ε)
  | _, [] => []
  | s, a :: rest =>
    let (reply, update, s) := s.act b classify a
    ⟨reply, update, s⟩ :: s.history b classify rest

/-- The session after some acts. -/
def run (b : Breaker) (classify : Classifier α ε) (s : Session) (acts : List (Act α ε)) : Session :=
  acts.foldl (fun s a => (s.act b classify a).2.2) s

/-- The session after all calls in flight have been dropped. -/
def close (s : Session) : Session :=
  { s with circuit := s.inFlight.foldl (fun c call => c.release call.2) s.circuit, inFlight := [] }

/-- The last entry of a history holds the session afterwards. -/
theorem run_eq_history (b : Breaker) (classify : Classifier α ε) (s : Session) (acts : List (Act α ε)) :
    s.run b classify acts = ((s.history b classify acts).getLast?.map (·.session)).getD s := by
  induction acts generalizing s with
  | nil => rfl
  | cons a rest ih =>
    show (s.act b classify a).2.2.run b classify rest = _
    rw [ih]
    simp only [history]
    cases history b classify (s.act b classify a).2.2 rest with
    | nil => rfl
    | cons e es => rw [List.getLast?_cons_cons, List.getLast?_cons]; rfl

end Session

end GuardedHttp.Breaker
