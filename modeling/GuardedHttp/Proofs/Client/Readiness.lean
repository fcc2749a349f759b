import GuardedHttp.Proofs.Client.Course

/-!
# Readiness and the time of a call

The deadline of a call cuts every attempt short, and no attempt follows that would begin after it. It
leaves out one thing: how long the transport takes to become ready. A call that waits for this until
after its deadline is still made then, and ends when it cannot go on any longer.

Main statement: `only_readiness_exceeds`, a call takes longer than its timeout exactly if the transport
was ready for the last attempt only after the deadline, and then ends at that moment. `late_readiness`
is such a call.
-/

namespace GuardedHttp

/-- A call to the transport ends by its deadline, or at once if that has passed. -/
theorem Attempt.callEnd_le {now deadline ended : Instant} {finish : Option Instant}
    {result : Except TransportError Response}
    (h : (callEnd now (some deadline) finish result).1 = some ended) : ended ≤ max deadline now := by
  unfold callEnd at h
  dsimp only at h
  split at h
  · split at h
    · cases h
      assumption
    · cases h
      exact Nat.le_refl _
  · cases h
    exact Nat.le_refl _

namespace Client

namespace Course

variable {c : Course} {k : Nat} {deadline : Instant}

/-- An attempt ends by the deadline, unless the transport becomes ready only later: then at once. -/
theorem part_ends (hdeadline : c.request.deadline = some deadline) :
    ∃ ended, (c.part k).ended = some ended ∧ c.ready k ≤ ended ∧ ended ≤ max deadline (c.ready k) := by
  obtain ⟨ended, hended⟩ := Option.isSome_iff_exists.mp (ended_of_deadline (k := k) hdeadline)
  refine ⟨ended, hended, ?_⟩
  cases c.part_case k with
  | refused _ _ hpart =>
    rw [hpart] at hended
    cases hended
    exact ⟨Nat.le_refl _, Instant.le_max_right ..⟩
  | made hplan hpart =>
    rw [hpart] at hended
    refine ⟨Attempt.le_planEnd hended, ?_⟩
    -- The answer comes at the latest when the deadline cuts it off, or at once if readiness came later.
    simp only [answered, hdeadline] at hended
    cases hp : (c.turn k).plan with
    | refuse e => exact absurd hp (hplan e)
    | answer after result =>
      rw [hp] at hended
      exact Attempt.callEnd_le hended
    | hang =>
      rw [hp] at hended
      exact Attempt.callEnd_le hended

end Course

variable {config : Config} {w : World} {s : Send} {permit : Breaker.Permit}

/-- A call that the breaker admits always ends. It takes longer than its timeout exactly if the
transport became ready for the last attempt, or refused it, only after the deadline, and then it ends
at that moment. -/
theorem only_readiness_exceeds (h : s.Fresh w)
    (hgranted : (config.breaker.acquire w.now w.circuit).1 = some permit)
    (hlimit : w.now.nanos + config.timeout.nanos < Instant.limit) :
    let deadline := w.now.after config.timeout
    let ended := send config w s
    ∃ result last, ended.2 = some (.ended result (ended.1.now.since w.now)) ∧
      ended.1.sightings.getLast? = some last ∧
      (deadline < ended.1.now ↔ deadline < last.time) ∧
      (deadline < last.time → ended.1.now = last.time) := by
  intro deadline ended
  let c := Course.of config w s permit
  have hdeadline : c.request.deadline = some deadline := if_pos hlimit
  obtain ⟨n, hn, -⟩ := c.timeline.exists_isLeast_stops
  have hends : ∀ k ≤ n, (c.part k).ended.isSome := fun k _ => Course.ended_of_deadline hdeadline
  have hsend : c.Concludes n ended := send_of_admitted h hgranted hn hends
  -- What the transport has seen last is the attempt with which the call ends.
  obtain ⟨last, hlast, htime⟩ := Course.sightings_part (c := c) (k := n)
  obtain ⟨moment, hmoment, hready, hbound⟩ := Course.part_ends (k := n) hdeadline
  have hnow : ended.1.now = moment := hsend.now.trans (Course.ends_eq hmoment)
  obtain ⟨result, hresult⟩ : ∃ result, ended.2 = some (.ended result (ended.1.now.since w.now)) :=
    ⟨_, by rw [hsend.now]; exact hsend.result⟩
  refine ⟨result, last, hresult, ?_, ?_, fun hlate => ?_⟩
  · rw [hsend.sightings, List.range_succ]
    simp [hlast]
  · rw [hnow, htime]
    simp only [Instant.lt_iff, Instant.le_iff, Instant.nanos_max] at hready hbound ⊢
    omega
  · rw [htime] at hlate ⊢
    rw [hnow]
    refine Instant.ext_nanos ?_
    simp only [Instant.lt_iff, Instant.le_iff, Instant.nanos_max] at hready hbound hlate
    omega

/-- A world whose transport takes a minute to become ready, and then answers at once. -/
def sluggish : World :=
  { transport :=
      { turn := fun _ => { readyAfter := .ofSeconds 60, plan := .answer .zero (.ok { status := .ok }) } } }

/-- The transport needs a minute to become ready, and the send ends with it. -/
theorem now_sluggish : (send .default sluggish visit).1.now = ⟨60000000000⟩ := by
  decide +kernel

/-- With a timeout of half a minute, the call ends when the transport has become ready. -/
theorem exceeds_by_readiness :
    visit.Fresh sluggish ∧
      (Config.default.breaker.acquire sluggish.now sluggish.circuit).1 = some ⟨0⟩ ∧
      sluggish.now.nanos + Config.default.timeout.nanos < Instant.limit ∧
      ∃ last, (send .default sluggish visit).1.sightings.getLast? = some last ∧
        last.time = ⟨60000000000⟩ := by
  have hfresh : visit.Fresh sluggish := ⟨rfl, rfl⟩
  have hlimit : sluggish.now.nanos + Config.default.timeout.nanos < Instant.limit := by decide
  obtain ⟨_, last, -, hlast, hiff, hnow⟩ :=
    @only_readiness_exceeds .default sluggish visit ⟨0⟩ hfresh rfl hlimit
  have hlate := hiff.mp (by rw [now_sluggish]; decide)
  exact ⟨hfresh, rfl, hlimit, last, hlast, (hnow hlate).symm.trans now_sluggish⟩

/-- So the timeout does not bound every call. -/
theorem late_readiness : ¬ ∀ (config : Config) (w : World) (s : Send) (permit : Breaker.Permit),
    s.Fresh w → (config.breaker.acquire w.now w.circuit).1 = some permit →
      w.now.nanos + config.timeout.nanos < Instant.limit →
        (send config w s).1.now ≤ w.now.after config.timeout := by
  intro hbounds
  have hbound := hbounds .default sluggish visit ⟨0⟩ ⟨rfl, rfl⟩ rfl (by decide)
  rw [now_sluggish] at hbound
  revert hbound
  decide

end Client

end GuardedHttp
