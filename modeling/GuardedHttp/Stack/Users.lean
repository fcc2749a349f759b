import GuardedHttp.Stack.Service

/-!
# Users of services

A `Scene` is what the users of services of one kind have in hand: services, each with the mark that it has
said to be ready, and calls on their way, any number of both at once. `Scene.act` is one act of a user. To
call a service uses up its mark, and a clone has none; users who respect the contract call a service only
if it is marked (`Scene.respects`).
-/

namespace GuardedHttp.Stack

variable {ρ α ε : Type} (S : Service ρ α ε)

/-- Something that a user has. -/
inductive Holding where
  /-- A service, which is marked once it has said that it is ready. -/
  | service (value : Instance) (ready : Bool)
  /-- A call on its way. -/
  | pending (call : S.Call)

/-- What users of services have in hand. -/
structure Scene where
  /-- What the services act on. -/
  world : World := {}
  /-- What the users have. -/
  holdings : List (Holding S) := []

/-- Something that a user does to a service or to a call. -/
inductive Deed (ρ : Type) where
  /-- Clones a service. -/
  | clone
  /-- Asks a service whether it is ready. -/
  | ask
  /-- Calls a service. -/
  | call (request : ρ)
  /-- Lets a call run. -/
  | poll
  /-- Drops a service or a call. -/
  | drop

/-- Something that a user does. -/
inductive Act (ρ : Type) where
  /-- Builds a service from scratch. -/
  | build
  /-- Does something to what is in hand at a place. -/
  | handle (place : Nat) (deed : Deed ρ)
  /-- Lets time pass. -/
  | advance (d : Duration)
  /-- Does something else to the breaker. -/
  | meddle (circuit : Breaker.Circuit)

/-- What is done to a holding respects the contract: a service that is called has said that it is ready. -/
def Holding.allows {S : Service ρ α ε} : Holding S → Deed ρ → Bool
  | .service _ ready, .call _ => ready
  | .service .., .clone | .service .., .ask | .service .., .poll | .service .., .drop | .pending _, _ => true

namespace Scene

variable {S}

/-- Something is done to the holding at a place. Services are not polled, and calls are not cloned, asked or
called. -/
def handle (s : Scene S) (place : Nat) : Holding S → Deed ρ → Scene S
  | .service value _, .clone =>
    let (copy, world) := s.world.clone value
    { world, holdings := .service copy false :: s.holdings }
  | .service value ready, .ask =>
    let (said, world) := S.ask value s.world
    { world, holdings := s.holdings.set place (.service value (ready || said.succeeded)) }
  | .service value _, .call request =>
    let (call, value, world) := S.call request value s.world
    { world, holdings := .pending call :: s.holdings.set place (.service value false) }
  | .service .., .drop => { s with holdings := s.holdings.eraseIdx place }
  | .pending call, .poll =>
    match S.poll call s.world with
    | (.pending, call, world) => { world, holdings := s.holdings.set place (.pending call) }
    | (.ready _, _, world) => { world, holdings := s.holdings.eraseIdx place }
  | .pending call, .drop =>
    { world := S.drop call s.world, holdings := s.holdings.eraseIdx place }
  | .service .., .poll | .pending _, .clone | .pending _, .ask | .pending _, .call _ => s

/-- One act of a user. -/
def act (s : Scene S) : Act ρ → Scene S
  | .build =>
    let (value, world) := s.world.build
    { world, holdings := .service value false :: s.holdings }
  | .handle place deed =>
    match s.holdings[place]? with
    | some holding => s.handle place holding deed
    | none => s
  | .advance d => { s with world := { s.world with now := s.world.now.after d } }
  | .meddle circuit => { s with world := { s.world with circuit } }

/-- The act respects the contract. -/
def respects (s : Scene S) : Act ρ → Bool
  | .handle place deed => s.holdings[place]?.all (·.allows deed)
  | .build | .advance _ | .meddle _ => true

/-- The scene after some acts. -/
def run (s : Scene S) (acts : List (Act ρ)) : Scene S := acts.foldl act s

/-- All acts respect the contract, one after another. -/
def respectsAll : Scene S → List (Act ρ) → Bool
  | _, [] => true
  | s, a :: rest => s.respects a && (s.act a).respectsAll rest

end Scene

end GuardedHttp.Stack
