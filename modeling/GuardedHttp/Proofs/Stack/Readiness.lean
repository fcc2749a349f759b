import GuardedHttp.Stack.Users
import GuardedHttp.Proofs.Stack.Layers
import Mathlib.Data.List.Perm.Basic

/-!
# Services are ready when they are called

What users of a stack have in hand is a custody like any other (`Lawful.holding`): a service that is marked
can be called, and a call on its way has what it needs. `Lawful.InOrder` is the invariant of a scene:
everything is in order, and no innermost service is in the care of two. An act replaces one holding by
others that have no services but those of the old one and new ones, which keeps the rest in order
(`InOrder.replace`).

Main statement: `calls_reach_driven_services`. Whatever users do who respect the contract, every call that
reaches an innermost service finds it driven, and reaches one that no other call has reached.
-/

namespace GuardedHttp.Stack

variable {ρ α ε : Type} {S : Service ρ α ε} {w w' : World} {own : List Instance}

namespace Lawful

variable (L : Lawful S)

/-- A user has the services in hand and those of the calls on their way. -/
def holding : Custody (Holding S) where
  owned
    | .service value _ => [value]
    | .pending call => L.owned call
  Sound
    | .service value ready, w => ready = true → L.Primed value w
    | .pending call, w => L.Sound call w
  sound_grows {holding _ _ _} hsound hknown hgrows hown :=
    match holding with
    | .service value _ => fun hready =>
      L.primed_grows (hsound hready) (hknown value (List.mem_singleton.mpr rfl)) hgrows
        (hown value (List.mem_singleton.mpr rfl))
    | .pending _ => L.sound_grows hsound hknown hgrows hown

/-- Two holdings have no service in common. -/
def Apart (holding other : Holding S) : Prop :=
  (L.holding.owned holding).Disjoint (L.holding.owned other)

variable {L} in
/-- Holdings are apart from each other in both directions. -/
theorem Apart.symm {holding other : Holding S} (h : L.Apart holding other) : L.Apart other holding :=
  fun _ hother hs => h hs hother

/-- All that users have is in order, and no service is in the care of two. -/
structure InOrder (holdings : List (Holding S)) (w : World) : Prop where
  /-- Whatever has been called had been driven. -/
  orderly : w.Orderly
  /-- Each holding is in order. -/
  keeps : ∀ holding ∈ holdings, L.holding.Keeps holding w
  /-- No two of them have a service in common. -/
  apart : holdings.Pairwise L.Apart

namespace InOrder

variable {L} {holdings others rest : List (Holding S)} {holding : Holding S} {place : Nat}

/-- It makes no difference in which order holdings stand. -/
theorem perm (h : L.InOrder holdings w) (hperm : holdings.Perm others) : L.InOrder others w :=
  ⟨h.orderly, fun holding hh => h.keeps holding (hperm.mem_iff.mpr hh),
    (hperm.pairwise_iff Apart.symm).mp h.apart⟩

/-- Some holdings are replaced by others. What these have in their care was in the care of the old ones, or
is new. -/
theorem replace (before after : List (Holding S)) (h : L.InOrder (before ++ rest) w)
    (hown : ∀ service ∈ own, ∃ holding ∈ before, service ∈ L.holding.owned holding)
    (hgrows : w.Grows own w') (horderly : w'.Orderly)
    (hkeeps : ∀ holding ∈ after, L.holding.Keeps holding w') (hapart : after.Pairwise L.Apart)
    (howned : ∀ holding ∈ after, ∀ service ∈ L.holding.owned holding,
      service ∈ own ∨ w.made ≤ service) : L.InOrder (after ++ rest) w' := by
  obtain ⟨-, hrest, hbetween⟩ := List.pairwise_append.mp h.apart
  have hkept : ∀ other ∈ rest, L.holding.Keeps other w :=
    fun other ho => h.keeps other (List.mem_append_right _ ho)
  -- Nothing that is done here touches the services of the rest.
  have hothers : ∀ other ∈ rest, ∀ service ∈ L.holding.owned other, service ∉ own := by
    intro other ho service hs hservice
    obtain ⟨holding, hholding, howns⟩ := hown service hservice
    exact hbetween holding hholding other ho howns hs
  refine ⟨horderly, fun holding hh => ?_, List.pairwise_append.mpr ⟨hapart, hrest, ?_⟩⟩
  · rcases List.mem_append.mp hh with hh | hh
    · exact hkeeps holding hh
    · exact (hkept holding hh).grows hgrows (hothers holding hh)
  · intro holding hh other ho service hs hother
    rcases howned holding hh service hs with hservice | hnew
    · exact hothers other ho service hother hservice
    · exact Nat.not_lt_of_le hnew ((hkept other ho).fresh service hother).known

/-- Nobody sees a difference between worlds that are alike. -/
theorem of_alike (h : L.InOrder holdings w) (halike : w.Alike w') : L.InOrder holdings w' :=
  ⟨h.orderly.of_alike halike, fun holding hh => (h.keeps holding hh).of_alike halike, h.apart⟩

/-- One holding becomes another. -/
theorem become {next : Holding S} (h : L.InOrder (holding :: rest) w)
    (hleads : L.holding.Leads (L.holding.owned holding) w next w') : L.InOrder (next :: rest) w' :=
  replace [holding] [next] h
    (fun _ hs => ⟨holding, List.mem_singleton.mpr rfl, hs⟩) hleads.grows hleads.orderly
    (fun _ hh => List.mem_singleton.mp hh ▸ hleads.keeps) (List.pairwise_singleton _ _)
    fun _ hh => List.mem_singleton.mp hh ▸ hleads.owned

/-- A holding is added. -/
theorem join (h : L.InOrder rest w) (hleads : L.holding.Leads [] w holding w') :
    L.InOrder (holding :: rest) w' :=
  replace [] [holding] h (fun _ hs => absurd hs List.not_mem_nil) hleads.grows hleads.orderly
    (fun _ hh => List.mem_singleton.mp hh ▸ hleads.keeps) (List.pairwise_singleton _ _)
    fun _ hh => List.mem_singleton.mp hh ▸ hleads.owned

/-- A holding is gone. -/
theorem leave (h : L.InOrder (holding :: rest) w) (hgrows : w.Grows (L.holding.owned holding) w')
    (horderly : w'.Orderly) : L.InOrder rest w' :=
  replace [holding] [] h
    (fun _ hs => ⟨holding, List.mem_singleton.mpr rfl, hs⟩) hgrows horderly (fun _ hh => nomatch hh)
    .nil fun _ hh => nomatch hh

/-- The holding at a place, and the others. -/
theorem perm_at (hplace : holdings[place]? = some holding) :
    holdings.Perm (holding :: holdings.eraseIdx place) := by
  obtain ⟨hlt, rfl⟩ := List.getElem?_eq_some_iff.mp hplace
  exact (List.getElem_cons_eraseIdx_perm hlt).symm

/-- What stands at a place is another one, and the others stay. -/
theorem perm_set (next : Holding S) (hplace : holdings[place]? = some holding) :
    (next :: holdings.eraseIdx place).Perm (holdings.set place next) :=
  (List.set_perm_cons_eraseIdx (List.getElem?_eq_some_iff.mp hplace).1 next).symm

/-- A service that has just come into being, which nobody has asked. -/
theorem leads_new {value : Instance} (hgrows : w.Grows [] w') (horderly : w'.Orderly)
    (hfresh : w'.Fresh value) (hnew : w.made ≤ value) :
    L.holding.Leads [] w (.service value false) w' :=
  ⟨hgrows, horderly, ⟨nofun, fun _ hs => List.mem_singleton.mp hs ▸ hfresh, List.nodup_singleton _⟩,
    fun _ hs => .inr (List.mem_singleton.mp hs ▸ hnew)⟩

/-- A service that says that it is ready is marked, and can be called. -/
theorem leads_asked {value : Instance} {ready : Bool} (horderly : w.Orderly)
    (hkeeps : L.holding.Keeps (.service value ready) w) :
    L.holding.Leads [value] w (.service value (ready || (S.ask value w).1.succeeded))
      (S.ask value w).2 := by
  have hfresh := hkeeps.fresh value (List.mem_singleton.mpr rfl)
  have hkept := hkeeps.grows (L.ask_grows w value) fun _ _ => List.not_mem_nil
  refine ⟨(L.ask_grows w value).mono (List.nil_subset _), L.ask_orderly value horderly,
    ⟨fun hready => ?_, hkept.fresh, hkept.nodup⟩, fun _ => .inl⟩
  rcases Bool.or_eq_true _ _ ▸ hready with hready | hsaid
  · exact hkept.sound hready
  · exact L.ask_primed hfresh hsaid

/-- A marked service is called: the user has a call on its way, and a service without a mark. -/
theorem call (hrenews : L.Renews) {value : Instance} (request : ρ)
    (h : L.InOrder (.service value true :: rest) w) :
    L.InOrder (.pending (S.call request value w).1 :: .service (S.call request value w).2.1 false :: rest)
      (S.call request value w).2.2 := by
  have hkeeps := h.keeps _ List.mem_cons_self
  have hfresh := hkeeps.fresh value (List.mem_singleton.mpr rfl)
  have hcalls := L.call_leads request h.orderly hfresh (hkeeps.sound rfl)
  obtain ⟨hleft, hapart, hnew⟩ := hrenews request h.orderly hfresh
  refine replace [.service value true] [.pending _, .service _ false] h
    (fun _ hs => ⟨_, List.mem_singleton.mpr rfl, hs⟩) hcalls.grows hcalls.orderly ?_ ?_ ?_
  · intro holding hh
    rcases List.mem_pair.mp hh with rfl | rfl
    · exact hcalls.keeps.as rfl id
    · exact ⟨nofun, fun _ hs => List.mem_singleton.mp hs ▸ hleft, List.nodup_singleton _⟩
  -- The pending call holds what was driven; the service goes on with what the call left in its place.
  · refine List.pairwise_pair.mpr fun service hs hother => hapart ?_
    rw [← List.mem_singleton.mp hother]
    exact hs
  · intro holding hh service hs
    rcases List.mem_pair.mp hh with rfl | rfl
    · exact hcalls.owned service hs
    · rw [List.mem_singleton.mp hs]
      exact hnew.imp_left fun hvalue => List.mem_singleton.mpr hvalue

end InOrder

variable {L} {s : Scene S}

/-- What is done to a holding keeps everything in order, if it respects the contract. -/
theorem InOrder.handle (hrenews : L.Renews) (h : L.InOrder s.holdings s.world) {place : Nat}
    {holding : Holding S} (hplace : s.holdings[place]? = some holding) {deed : Deed ρ}
    (hallows : holding.allows deed = true) :
    L.InOrder (s.handle place holding deed).holdings (s.handle place holding deed).world := by
  -- The holding is taken to the front, and what becomes of it goes back to its place.
  have hat := h.perm (perm_at hplace)
  have hleft := hat.leave (.refl _ _) h.orderly
  have hkeeps := hat.keeps _ List.mem_cons_self
  cases holding with
  | service value ready =>
    cases deed with
    | clone =>
      exact h.join (leads_new (.clone _ _ _) (h.orderly.clone value) (h.orderly.fresh_clone value)
        (Nat.le_refl _))
    | ask => exact (hat.become (leads_asked h.orderly hkeeps)).perm (perm_set _ hplace)
    | call request =>
      cases hallows
      exact (hat.call hrenews request).perm ((perm_set _ hplace).cons _)
    | poll => exact h
    | drop => exact hleft
  | pending call =>
    cases deed with
    | clone | ask | call => exact h
    | poll =>
      have hcall : L.Keeps call s.world := hkeeps.as rfl id
      have hpolls := L.poll_leads h.orderly hcall
      unfold Scene.handle
      dsimp only
      generalize S.poll call s.world = polled at hpolls ⊢
      obtain ⟨said, later, w⟩ := polled
      cases said with
      | ready result => exact hat.leave hpolls.grows hpolls.orderly
      | pending => exact (hat.become (hpolls.as rfl id)).perm (perm_set _ hplace)
    | drop => exact hleft.of_alike (L.drop_alike _ _)

/-- An act that respects the contract keeps everything in order. -/
theorem InOrder.act (hrenews : L.Renews) (h : L.InOrder s.holdings s.world) {a : Act ρ}
    (hrespects : s.respects a = true) : L.InOrder (s.act a).holdings (s.act a).world := by
  cases a with
  | build =>
    exact h.join (leads_new (.build _ _) h.orderly.build h.orderly.fresh_build (Nat.le_refl _))
  | advance d => exact h.of_alike ⟨rfl, rfl⟩
  | meddle circuit => exact h.of_alike ⟨rfl, rfl⟩
  | handle place deed =>
    cases hplace : s.holdings[place]? with
    | none => simpa only [Scene.act, hplace] using h
    | some holding =>
      simp only [Scene.respects, hplace, Option.all_some] at hrespects
      simpa only [Scene.act, hplace] using h.handle hrenews hplace hrespects

/-- Acts that respect the contract keep everything in order. -/
theorem InOrder.run (hrenews : L.Renews) (h : L.InOrder s.holdings s.world) {acts : List (Act ρ)}
    (hrespects : s.respectsAll acts = true) : L.InOrder (s.run acts).holdings (s.run acts).world := by
  induction acts generalizing s with
  | nil => exact h
  | cons a rest ih =>
    obtain ⟨hfirst, hrest⟩ := Bool.and_eq_true_iff.mp hrespects
    exact ih (h.act hrenews hfirst) hrest

end Lawful

/-- The contract is kept all the way down. Whatever the users of services with one layer or several do, with
any number of services, clones and calls on their way, as long as they call no service that has not said
that it is ready: every call that reaches an innermost service finds it driven, that is, it has said that it
is ready after it has come into being and has not been called since; and no two calls reach the same. -/
theorem calls_reach_driven_services (hS : Layered S) {acts : List (Act ρ)}
    (hrespects : ({} : Scene S).respectsAll acts = true) :
    (∀ later service earlier,
      (({} : Scene S).run acts).world.contacts = later ++ .called service :: earlier →
        Driven service earlier) ∧
      (callees (({} : Scene S).run acts).world.contacts).Nodup := by
  obtain ⟨L, hrenews⟩ := hS.renews
  have hempty : L.InOrder ([] : List (Holding S)) {} :=
    ⟨.new _ rfl, fun _ hh => absurd hh List.not_mem_nil, .nil⟩
  have horderly := (Lawful.InOrder.run hrenews (s := {}) hempty hrespects).orderly
  exact ⟨horderly.driven, horderly.once⟩

/-- A transport that is always ready and has no connection for its first two calls. -/
def waking : Nature Request Response TransportError where
  readiness _ _ := .ready (.ok ())
  answer _ _ w :=
    .ready (if (callees w.contacts).length ≤ 2 then .error (.connect "refused") else .ok { status := .ok })

/-- Two calls of a client at once, one through a clone: the first attempt of each fails, and the second
follows when the calls have rested. -/
def twoCalls : List (Act Request) :=
  let request : Request := { method := "GET", url := "http://upstream.local" }
  [.build, .handle 0 .clone, .handle 0 .ask, .handle 0 (.call request), .handle 2 .ask,
    .handle 2 (.call request)]
    ++ (List.replicate 5 [.handle 1 .poll, .handle 0 .poll]).flatten
    ++ [.advance (.ofSeconds 1)]
    ++ (List.replicate 4 [.handle 1 .poll, .handle 0 .poll]).flatten

/-- Two calls of one client at once, each of two attempts: four services are called, each of them driven.
-/
theorem two_calls_reach_driven_services :
    Layered (clientStack .default waking) ∧
      ({} : Scene (clientStack .default waking)).respectsAll twoCalls = true ∧
      callees (({} : Scene (clientStack .default waking)).run twoCalls).world.contacts = [11, 10, 7, 6] ∧
      ∀ later service earlier,
        (({} : Scene (clientStack .default waking)).run twoCalls).world.contacts =
          later ++ .called service :: earlier → Driven service earlier := by
  have hrespects : ({} : Scene (clientStack .default waking)).respectsAll twoCalls = true := by
    decide +kernel
  exact ⟨layered_clientStack _ _, hrespects, by decide +kernel,
    (calls_reach_driven_services (layered_clientStack _ _) hrespects).1⟩

end GuardedHttp.Stack
