import GuardedHttp.Proofs.Client.Traffic
import GuardedHttp.Proofs.Retry.LinearBackoff
import GuardedHttp.Proofs.Retry.LinearDelays

/-!
# The rests of a call

Between two attempts a send rests. `Traffic.rests` lists the rests that a send begins while anything may happen
to its client, each with the moment at which the attempt before it has ended and the moment from which the
next one can begin. The stage of the send shows how many there have been, and when the last one ends
(`Stage.Shows`); so a turn of the send begins no rest, or the one before its next retry (`Pass.rested`), and the
rests of the list belong to the retries of the send in their order (`Traffic.Rested.play`).

A rest lasts as long as the delay of linear backoff, and a client makes too few retries for the factor of a
delay to be anything but the number of the retry (`nanos_of_delay?`).

Main statement: `retries_wait_in_proportion`. `rest_beyond_clock_is_cut` shows why rests are exact only as far
as the clock goes.
-/

namespace GuardedHttp

namespace Retry

/-- The delay that a decision is about: how long to wait before the next attempt, be it made or not. -/
def Verdict.delay? : Verdict → Option Duration
  | deadline delay | retry delay => some delay
  | success | ignored | exhausted => none

/-- The policy asks for a delay only while attempts are left, and then for the one that belongs to the
attempt. -/
theorem Policy.attempts_lt_of_delay? {α ε : Type} {p : Policy ε} {elapsed : Duration} {attempt : Nat}
    {result : Except ε α} {delay : Duration} (h : (p.judge elapsed attempt result).delay? = some delay) :
    attempt + 1 < p.attemptLimit ∧ delay = p.backoff.delay attempt := by
  cases result with
  | ok a => cases h
  | error e =>
    simp only [judge] at h
    split at h
    · cases h
    · split at h
      · cases h
      · rename_i hleft
        refine ⟨Nat.lt_of_not_le hleft, ?_⟩
        split at h <;> exact (Option.some.inj h).symm

end Retry

namespace Client

open Retry (greatestFactor)

/-! ## The delays that a client asks for -/

/-- A client asks for the delay of a retry only if the retry is one of those that it is configured to make; so
the delay is exact up to the longest duration. -/
theorem nanos_of_delay? {α : Type} {config : Config} {elapsed : Duration} {attempt : Nat}
    {result : Except AttemptError α} {delay : Duration}
    (h : (config.retryPolicy.judge elapsed attempt result).delay? = some delay) :
    attempt + 1 ≤ config.maxRetries.toNat ∧ attempt + 1 ≤ greatestFactor ∧
      delay.nanos = min ((attempt + 1) * config.retryDelay.nanos) Duration.max.nanos := by
  obtain ⟨hleft, rfl⟩ := Retry.Policy.attempts_lt_of_delay? h
  have hretries := config.maxRetries.toNat_lt
  rw [attemptLimit_eq, Config.maxAttempts] at hleft
  have hfew : attempt + 1 < 2 ^ 32 := by omega
  exact ⟨by omega, Nat.le_sub_one_of_lt hfew, Retry.nanos_delay_linear hfew⟩

/-! ## Rests -/

/-- A rest between two attempts. -/
structure Rest where
  /-- The moment at which the attempt before it has ended. -/
  since : Instant
  /-- The moment from which the next attempt can begin. -/
  due : Instant
deriving DecidableEq

/-- The rest before the retry of a number: it is one of the retries that the client is configured to make, and
the rest lasts as many times the base as the number says, unless it would end at no instant. -/
structure Rest.Precedes (rest : Rest) (config : Config) (number : Nat) : Prop where
  /-- The client is configured to make so many retries. -/
  configured : number ≤ config.maxRetries.toNat
  /-- The rest lasts as long as the delay. -/
  exact : rest.since.nanos + min (number * config.retryDelay.nanos) Duration.max.nanos < Instant.limit →
    rest.due.nanos = rest.since.nanos + min (number * config.retryDelay.nanos) Duration.max.nanos
  /-- A rest that would end at no instant is the longest sleep. -/
  cut : Instant.limit ≤ rest.since.nanos + min (number * config.retryDelay.nanos) Duration.max.nanos →
    rest.due = rest.since.after Instant.longestSleep

/-- The rest that a send begins when it gets from one stage to the next at a moment, if it begins one. -/
def Stage.rest? (now : Instant) : Stage → Stage → Option Rest
  | .active _ (.resting _), _ => none
  | _, .active _ (.resting due) => some ⟨now, due⟩
  | _, _ => none

/-- What the stage of a send shows of the rests that it has begun: that there is one for each retry so far,
and while it rests, that there is one more, and when that one ends. -/
inductive Stage.Shows : List Rest → Stage → Prop
  | waiting {due : Instant} : Shows [] (.waiting due)
  | readying {begun : List Rest} {call : Admitted} {due : Instant} {plan : Plan}
      (retries : begun.length = call.attempt) : Shows begun (.active call (.readying due plan))
  | calling {begun : List Rest} {call : Admitted} {ends : Option Instant}
      {result : Except TransportError Response} (retries : begun.length = call.attempt) :
      Shows begun (.active call (.calling ends result))
  | resting {begun : List Rest} {rest : Rest} {call : Admitted} (retries : begun.length = call.attempt) :
      Shows (begun ++ [rest]) (.active call (.resting rest.due))
  | «over» {begun : List Rest} {result : SendResult} : Shows begun (.over result)

/-- A send has begun these rests: they precede its retries one by one, and its stage shows them. -/
structure Stage.Rested (config : Config) (begun : List Rest) (stage : Stage) : Prop where
  /-- The first rest is the one before the first retry, and so on. -/
  precede : ∀ (n : Nat) (rest : Rest), begun[n]? = some rest → rest.Precedes config (n + 1)
  /-- The stage shows the rests. -/
  shown : stage.Shows begun

/-- A send that stays at its stage begins no rest. -/
theorem Stage.rest?_self (now : Instant) (stage : Stage) : stage.rest? now stage = none := by
  rcases stage with due | ⟨call, ⟨due, plan⟩ | ⟨ends, result⟩ | due⟩ | result <;> rfl

/-- A send that is over rests no more. -/
theorem Stage.rest?_over (now : Instant) (stage : Stage) (result : SendResult) :
    stage.rest? now (.over result) = none := by
  rcases stage with due | ⟨call, ⟨due, plan⟩ | ⟨ends, result⟩ | due⟩ | result <;> rfl

variable {config : Config} {w : World} {s : Send} {r : World × Stage} {begun : List Rest} {stage : Stage}

/-- The next stage shows no other rest. -/
theorem Stage.Rested.idle (h : stage.Rested config begun) {now : Instant} {later : Stage}
    (hidle : stage.rest? now later = none) (hshown : later.Shows begun) :
    later.Rested config (begun ++ (stage.rest? now later).toList) := by
  rw [hidle, Option.toList_none, List.append_nil]
  exact ⟨h.precede, hshown⟩

/-- The next stage shows one more rest. -/
theorem Stage.Rested.rest (h : stage.Rested config begun) {now : Instant} {later : Stage} {last : Rest}
    (hrest : stage.rest? now later = some last) (hlast : last.Precedes config (begun.length + 1))
    (hshown : later.Shows (begun ++ [last])) :
    later.Rested config (begun ++ (stage.rest? now later).toList) := by
  rw [hrest, Option.toList_some]
  refine ⟨fun n rest hn => ?_, hshown⟩
  -- The index is that of an earlier rest, that of the last one, or that of none.
  rcases Nat.lt_trichotomy n begun.length with hlt | rfl | hgt
  · exact h.precede n rest (List.getElem?_append_left hlt ▸ hn)
  · obtain rfl : last = rest := Option.some.inj (List.getElem?_concat_length.symm.trans hn)
    exact hlast
  · rw [List.getElem?_eq_none (by rw [List.length_append]; exact hgt)] at hn
    cases hn

/-- An attempt that ends shows the rests before it, and the send is not resting. -/
theorem AttemptEnds.shows {call : Admitted} {later : World} {result : Except TransportError Response}
    (h : AttemptEnds w stage call later result) (hshown : stage.Shows begun) (now : Instant) :
    begun.length = call.attempt ∧
      ∀ other due, stage.rest? now (.active other (.resting due)) = some ⟨now, due⟩ := by
  cases h <;> cases hshown <;> exact ⟨‹_›, fun _ _ => rfl⟩

/-- A sleep of as many bases as the number of a retry says is the rest before it. -/
theorem Rest.precedes_wake {now : Instant} {attempt : Nat} {delay : Duration}
    (hconfigured : attempt + 1 ≤ config.maxRetries.toNat)
    (hdelay : delay.nanos = min ((attempt + 1) * config.retryDelay.nanos) Duration.max.nanos) :
    Rest.Precedes ⟨now, now.wake delay⟩ config (attempt + 1) where
  configured := hconfigured
  exact h := by
    rw [← hdelay] at h ⊢
    exact congrArg Instant.nanos (Instant.wake_of_lt h)
  cut h := by
    rw [← hdelay] at h
    exact Instant.wake_of_not_lt (Nat.not_lt_of_le h)

/-- In its turn a send begins no rest, or the one before its next retry. -/
theorem Pass.rested (h : Pass config w s r) (hs : s.stage.Rested config begun) :
    r.2.Rested config (begun ++ (s.stage.rest? w.now r.2).toList) := by
  have hshown := hs.shown
  cases h with
  | rejected waits refuses =>
    obtain ⟨later, elapsed, -, hc⟩ := rejected_case config w
      { s.request.withRequestIdIfAbsent w.slot with deadline := w.now.after? config.timeout }
    rw [hc]
    exact hs.idle (Stage.rest?_over ..) .over
  | admitted waits grants =>
    rw [waits] at hs hshown ⊢
    cases hshown
    exact hs.idle rfl (.readying rfl)
  | calls readies ready =>
    rw [readies] at hs hshown ⊢
    cases hshown with
    | readying retries => exact hs.idle rfl (.calling retries)
  | @rests call later result delay ends verdict =>
    -- This is the only turn that begins a rest, and the attempt that has ended numbers it.
    obtain ⟨hretries, hrest⟩ := ends.shows hshown w.now
    obtain ⟨-, hnow, -⟩ := ends.leaves
    obtain ⟨hconfigured, -, hdelay⟩ := nanos_of_delay? (congrArg Retry.Verdict.delay? verdict)
    rw [hnow]
    refine hs.rest (hrest ..) ?_ (.resting hretries)
    rw [hretries]
    exact Rest.precedes_wake hconfigured hdelay
  | @finishes call later result ends verdict =>
    obtain ⟨last, elapsed, -, hc⟩ := finished_case config later call result
    rw [hc]
    exact hs.idle (Stage.rest?_over ..) .over
  | retries rested =>
    rw [rested] at hs hshown ⊢
    cases hshown with
    | resting retries => exact hs.idle rfl (.readying (List.length_append.trans (congrArg Nat.succ retries)))
  | drops active => exact hs.idle (Stage.rest?_over ..) .over

/-! ## The rests of a send in traffic -/

namespace Traffic

/-- The rest that the send of an index has begun in between, if it has begun one. -/
def restTo (t later : Traffic) (i : Nat) : Option Rest :=
  t.parties[i]?.bind fun p => later.parties[i]?.bind fun q => p.send.stage.rest? t.world.now q.send.stage

/-- The rests that the send of an index begins in the course of some acts, in order. -/
def rests (config : Config) (i : Nat) : Traffic → List Act → List Rest
  | _, [] => []
  | t, a :: acts => (t.restTo (t.enact config a) i).toList ++ rests config i (t.enact config a) acts

/-- The send of an index has begun these rests. -/
def Rested (config : Config) (t : Traffic) (i : Nat) (begun : List Rest) : Prop :=
  ∀ p, t.parties[i]? = some p → p.send.stage.Rested config begun

variable {t : Traffic} {i : Nat}

/-- At the start nobody has rested. -/
theorem rested_start (now : Instant) (transport : Transport) (callers : List Caller) (i : Nat) :
    (start now transport callers).Rested config i [] := by
  intro p hp
  obtain ⟨c, -, rfl⟩ := List.mem_map.mp (List.mem_of_getElem? hp)
  refine ⟨fun n rest hrest => ?_, .waiting⟩
  cases hrest

/-- A send that has not had its turn has begun no rest. -/
theorem Rested.idle (h : t.Rested config i begun) {later : Traffic}
    (hp : later.parties[i]? = t.parties[i]?) :
    later.Rested config i (begun ++ (t.restTo later i).toList) := by
  intro q hq
  have hq' : t.parties[i]? = some q := hp ▸ hq
  have hrest : t.restTo later i = q.send.stage.rest? t.world.now q.send.stage := by
    rw [restTo, hq', hq]
    rfl
  rw [hrest]
  exact (h q hq').idle (Stage.rest?_self ..) (h q hq').shown

/-- When a send gets from stage to stage, it begins no rest, or the one before its next retry. -/
theorem Rested.reach (h : t.Rested config i begun) {p : Party} (hp : t.parties[i]? = some p)
    (hr : Pass config (t.world.inside p.send) p.send r) :
    (t.reach config i p r).Rested config i (begun ++ (t.restTo (t.reach config i p r) i).toList) := by
  have hq : (t.reach config i p r).parties[i]? = some (p.after t.world (t.stale i) r) :=
    List.getElem?_set_self (List.getElem?_eq_some_iff.mp hp).1
  have hrest : t.restTo (t.reach config i p r) i = p.send.stage.rest? t.world.now r.2 := by
    rw [restTo, hp, hq]
    rfl
  intro q hlater
  obtain rfl := Option.some.inj (hq.symm.trans hlater)
  rw [hrest]
  exact hr.rested (h p hp)

/-- With an act a send begins no rest, or the one before its next retry. -/
theorem Rested.enact (h : t.Rested config i begun) (a : Act) :
    (t.enact config a).Rested config i (begun ++ (t.restTo (t.enact config a) i).toList) := by
  refine enact_induction (P := fun later => later.Rested config i (begun ++ (t.restTo later i).toList))
    (h.idle rfl) (fun {j p r} hp hr => ?_) (fun how hact => h.idle (hact ▸ rfl)) (fun d => h.idle rfl)
  by_cases hij : j = i
  · exact hij ▸ (hij ▸ h).reach hp hr
  · exact h.idle (List.getElem?_set_ne hij)

/-- The rests that a send begins from some traffic on come after those that it has begun before. -/
theorem Rested.play (h : t.Rested config i begun) (acts : List Act) :
    (t.play config acts).Rested config i (begun ++ t.rests config i acts) := by
  -- By induction on the acts; the rests so far are general, as each act may begin one more.
  induction acts generalizing t begun with
  | nil =>
    rw [Traffic.rests, List.append_nil]
    exact h
  | cons a acts ih =>
    rw [Traffic.rests, ← List.append_assoc]
    exact ih (h.enact a)

/-- A turn before its rest is due does nothing for a send, and in any later one its next attempt begins. -/
theorem go_of_resting {p : Party} {call : Admitted} {due : Instant} (hp : t.parties[i]? = some p)
    (hrests : p.send.stage = .active call (.resting due)) :
    (t.world.now < due → t.enact config (.go i) = t) ∧
      (due ≤ t.world.now → ∃ q ready plan, (t.enact config (.go i)).parties[i]? = some q ∧
        q.send.stage = .active { call with attempt := call.attempt + 1 } (.readying ready plan)) := by
  have hdue : p.send.isDue t.world.now = true ↔ due ≤ t.world.now := by
    rw [isDue_iff, hrests]
    exact ⟨fun ⟨_, h, hle⟩ => Option.some.inj h ▸ hle, fun hle => ⟨_, rfl, hle⟩⟩
  have hgo : t.enact config (.go i) =
      if p.send.isDue t.world.now = true then
        t.reach config i p (p.send.step config (t.world.inside p.send))
      else t := by
    show t.turnOf config i _ _ = _
    rw [turnOf, hp]
  rw [hgo]
  refine ⟨fun hearly => if_neg (mt hdue.mp (Nat.not_le_of_lt hearly)), fun hlate => ?_⟩
  have hstep : (p.send.step config (t.world.inside p.send)).2 =
      (launch (t.world.inside p.send) { call with attempt := call.attempt + 1 }).2 := by
    rw [Send.step, hrests]
  rw [if_pos (hdue.mpr hlate)]
  exact ⟨_, _, _, List.getElem?_set_self (List.getElem?_eq_some_iff.mp hp).1, hstep⟩

end Traffic

/-! ## Linear backoff and the clients that use it -/

/-- Linear backoff is exact, and so are the rests of every client.

In words, the delay before a retry is computed without anything that does not fit its word, for every index
that there is. For an index below `2 ^ 32 - 1` it is as many times the base as the next index says, up to the
cap and the longest duration. It grows with the index and stays within the cap.

A client asks for delays of such indices only, however many retries it is configured to make. Whatever happens
to it, a send rests before its retries one by one, each time exactly as many times the base as the number of
the retry says, up to the longest duration; but a rest that would end at no instant is the longest sleep. The
last of the rests is the one that a resting send is in, and the next attempt begins with the first turn of the
send for which it is due. -/
theorem retries_wait_in_proportion :
    (∀ (base : Duration) (cap : Option Duration),
      (∀ retry : USize, Retry.linearInWords base.words (cap.map (·.words)) retry =
        .ok ((Retry.Backoff.linear base cap).delay retry.toNat).words) ∧
      (∀ retry, retry + 1 ≤ 2 ^ 32 - 1 → ((Retry.Backoff.linear base cap).delay retry).nanos =
        min (base.nanos * (retry + 1)) (min (cap.getD .max).nanos Duration.max.nanos)) ∧
      (∀ earlier later, earlier ≤ later → (Retry.Backoff.linear base cap).delay earlier ≤
        (Retry.Backoff.linear base cap).delay later) ∧
      ∀ most ∈ cap, ∀ retry, (Retry.Backoff.linear base cap).delay retry ≤ most) ∧
    ∀ config : Config,
      (∀ (elapsed delay : Duration) (attempt : Nat) (result : Except AttemptError Response),
        (config.retryPolicy.judge elapsed attempt result).delay? = some delay →
          attempt + 1 ≤ 2 ^ 32 - 1 ∧
            delay.nanos = min (config.retryDelay.nanos * (attempt + 1)) Duration.max.nanos) ∧
      (∀ (now : Instant) (transport : Transport) (callers : List Caller) (acts : List Act) (i : Nat)
        (p : Party), ((Traffic.start now transport callers).play config acts).parties[i]? = some p →
          (∀ (n : Nat) (rest : Rest),
            ((Traffic.start now transport callers).rests config i acts)[n]? = some rest →
              rest.Precedes config (n + 1)) ∧
          p.send.stage.Shows ((Traffic.start now transport callers).rests config i acts)) ∧
      ∀ (t : Traffic) (i : Nat) (p : Party) (call : Admitted) (due : Instant), t.parties[i]? = some p →
        p.send.stage = .active call (.resting due) →
          (t.world.now < due → t.enact config (.go i) = t) ∧
            (due ≤ t.world.now → ∃ q ready plan, (t.enact config (.go i)).parties[i]? = some q ∧
              q.send.stage = .active { call with attempt := call.attempt + 1 } (.readying ready plan)) := by
  refine ⟨fun base cap => ⟨Retry.linearInWords_words base cap, fun retry h => ?_,
    fun _ _ => Retry.delay_linear_mono base cap, fun most hmost => ?_⟩,
    fun config => ⟨fun elapsed delay attempt result h => ?_,
      fun now transport callers acts i p hp => ?_, fun t i p call due => Traffic.go_of_resting⟩⟩
  · rw [Retry.Backoff.nanos_linear base cap h, Nat.mul_comm]
    cases cap <;> rfl
  · cases hmost
    exact Retry.delay_linear_le base most
  · obtain ⟨-, hfactor, hdelay⟩ := nanos_of_delay? h
    exact ⟨hfactor, Nat.mul_comm .. ▸ hdelay⟩
  · have hrested := (Traffic.rested_start now transport callers i).play acts p hp
    exact ⟨hrested.precede, hrested.shown⟩

/-- A client with more time for a call than any clock shows. -/
def sedate : Config :=
  ⟨{ timeout := .ofSeconds (UInt64.size - 1), retryDelay := .ofSeconds (UInt64.size / 2), maxRetries := 1 },
    by decide, by decide, by decide, by decide⟩

/-- A transport that answers its first call with an error of the gateway, and then well. -/
def recovering : Transport :=
  .ofTurns #[{ plan := .answer .zero (.ok { status := ⟨502, by decide, by decide⟩ }) }]
    { plan := .answer .zero (.ok { status := .ok }) }

/-- The retry comes after thirty years, and not after the delay of `2 ^ 63` seconds. -/
theorem rest_beyond_clock_is_cut :
    (send sedate { transport := recovering } visit).1.sightings.map (·.time) =
        [.start, Instant.start.after Instant.longestSleep] ∧
      (Traffic.start .start recovering [{ request := visit.request }]).rests sedate 0 [.go 0, .go 0, .go 0] =
        [⟨.start, Instant.start.after Instant.longestSleep⟩] ∧
      (Instant.start.after Instant.longestSleep).nanos ≠
        Instant.start.nanos + min (sedate.retryDelay.nanos * 1) Duration.max.nanos := by
  decide +kernel

end Client

end GuardedHttp
