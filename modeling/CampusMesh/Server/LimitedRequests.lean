import CampusMesh.Library.Potential
import CampusMesh.Server.Authorization

/-!
# How often a client may ask

The limiters of the server live as long as its process. `tally_passes_le` bounds what gets past a
limiter in a window of time by the potential method: the potential is the room that is left in the
window, every request that passes takes one from it, and it is filled up when the process starts
again. A route whose requests go through a limiter (`Limits`) moves it as the bound asks, so
`requests_limited` holds for the two routes that make or check passcodes, among all other requests,
handshakes and frames.
-/

set_option autoImplicit false
set_option relaxedAutoImplicit false

namespace CampusMesh.Server

open Library Shared InMemoryRateLimiter

/-! ### Runs of a system with a limiter -/

/-- The events before a time come before all others. -/
theorem exists_split_at {ε : Type} {time : ε → ℤ} {events : List ε}
    (hclock : events.Pairwise fun earlier later ↦ time earlier ≤ time later) (start : ℤ) :
    ∃ before after, events = before ++ after ∧ (∀ event ∈ before, time event < start) ∧
      ∀ event ∈ after, start ≤ time event := by
  induction events with
  | nil => exact ⟨[], [], rfl, by simp, by simp⟩
  | cons event rest ih =>
    obtain ⟨hfirst, hrest⟩ := List.pairwise_cons.mp hclock
    by_cases hearly : time event < start
    · obtain ⟨before, after, rfl, hbefore, hafter⟩ := ih hrest
      exact ⟨event :: before, after, rfl, List.forall_mem_cons.mpr ⟨hearly, hbefore⟩, hafter⟩
    · exact ⟨[], event :: rest, rfl, by simp, List.forall_mem_cons.mpr
        ⟨not_lt.mp hearly, fun later hlater ↦ (not_lt.mp hearly).trans (hfirst later hlater)⟩⟩

/-- What a step does to a limiter: nothing, or one call under which a request passes or not, or the
limiter is a new one. The last two are what passes for a key, and whether the limiter is new. -/
inductive LimiterMove (maxRequests : ℕ) (windowMs : ℤ) (key : String)
    (limiter : InMemoryRateLimiter ℤ) (now : ℤ) : InMemoryRateLimiter ℤ → Bool → Bool → Prop
  | kept : LimiterMove maxRequests windowMs key limiter now limiter false false
  | called (client : String) (passes : Bool)
      (hpasses : passes = true →
        client = key ∧ limiter.hasRoom ⟨client, maxRequests, windowMs, now⟩ = true) :
      LimiterMove maxRequests windowMs key limiter now
        (limiter.checkLimit ⟨client, maxRequests, windowMs, now⟩).2 passes false
  | renewed : LimiterMove maxRequests windowMs key limiter now .new false true

/-- What is left of the limit for a key from a time on. -/
def roomLeft (maxRequests : ℕ) (key : String) (start : ℤ) (limiter : InMemoryRateLimiter ℤ) : ℕ :=
  maxRequests - (limiter.timestamps key).countP fun time ↦ start ≤ time

section Potential

variable {maxRequests : ℕ} {windowMs start now : ℤ} {key : String}
  {limiter next : InMemoryRateLimiter ℤ} {passes renewed : Bool}

/-- Within a window, the times since its start are all recent. -/
theorem countP_recent (hend : now < start + windowMs) (times : List ℤ) :
    (recent windowMs now times).countP (fun time ↦ start ≤ time) =
      times.countP fun time ↦ start ≤ time := by
  rw [recent, List.countP_filter]
  refine List.countP_congr fun time _ ↦ ?_
  rw [Bool.and_eq_true, decide_eq_true_eq, decide_eq_true_eq]
  constructor
  · exact And.left
  · intro hsince
    exact ⟨hsince, by omega⟩

/-- A request that passes takes one from what is left. -/
theorem LimiterMove.roomLeft_le
    (hmove : LimiterMove maxRequests windowMs key limiter now next passes renewed)
    (hstart : start ≤ now) (hend : now < start + windowMs) :
    passes.toNat + roomLeft maxRequests key start next ≤
      roomLeft maxRequests key start limiter + maxRequests * renewed.toNat := by
  cases hmove with
  | kept => simp
  | renewed => simp [roomLeft, InMemoryRateLimiter.timestamps, InMemoryRateLimiter.new]
  | called client passes hpasses =>
    by_cases hkey : key = client
    · subst hkey
      have htimes := countP_recent hend (limiter.timestamps key)
      rw [Bool.toNat_false, Nat.mul_zero, Nat.add_zero, roomLeft, roomLeft,
        limiter.timestamps_checkLimit_self ⟨key, maxRequests, windowMs, now⟩]
      by_cases hroom : limiter.hasRoom ⟨key, maxRequests, windowMs, now⟩ = true
      · have hfew : (recent windowMs now (limiter.timestamps key)).length < maxRequests :=
          of_decide_eq_true hroom
        have hcount : (recent windowMs now (limiter.timestamps key)).countP
          (fun time ↦ start ≤ time) ≤ _ := List.countP_le_length
        have hpass := passes.toNat_le
        rw [if_pos hroom, List.countP_append, htimes, List.countP_singleton,
          if_pos (decide_eq_true hstart)]
        omega
      · have hnone : passes = false := by
          by_contra hpass
          exact hroom (hpasses (Bool.eq_true_of_not_eq_false hpass)).2
        rw [if_neg hroom, List.append_nil, htimes, hnone, Bool.toNat_false, Nat.zero_add]
    · have hnone : passes = false := by
        by_contra hpass
        exact hkey (hpasses (Bool.eq_true_of_not_eq_false hpass)).1.symm
      rw [roomLeft, timestamps_checkLimit_of_ne limiter hkey, hnone]
      simp [roomLeft]

end Potential

section System

universe u v

variable {σ : Type u} {ε : Type} {step : σ → ε → σ} {limiter : σ → InMemoryRateLimiter ℤ}
  {time : ε → ℤ} {passes : σ → ε → Bool} {renews : ε → Bool} {maxRequests : ℕ} {windowMs : ℤ}
  {key : String}

/-- An event lies in a window of time. -/
def inWindow (start windowMs now : ℤ) : Bool := start ≤ now ∧ now < start + windowMs

/-- **The limit in a window.** What passes for a key in a window of time is at most the limit, and
as much again for each new limiter. -/
theorem tally_passes_le
    (hmove : ∀ state event, LimiterMove maxRequests windowMs key (limiter state) (time event)
      (limiter (step state event)) (passes state event) (renews event))
    {events : List ε} (hclock : events.Pairwise fun earlier later ↦ time earlier ≤ time later)
    (state : σ) (start : ℤ) :
    tally step (fun current event ↦
        (inWindow start windowMs (time event) && passes current event).toNat) state events ≤
      maxRequests * (1 + events.countP fun event ↦
        inWindow start windowMs (time event) && renews event) := by
  set counts : ε → Bool := fun event ↦ inWindow start windowMs (time event)
  set gain : σ → ε → ℕ := fun current event ↦ (counts event && passes current event).toNat
  set cost : σ → ε → ℕ := fun _ event ↦ maxRequests * (counts event && renews event).toNat
  set potential : σ → ℕ := fun current ↦ roomLeft maxRequests key start (limiter current)
  have houtside : ∀ part : List ε, (∀ event ∈ part, counts event = false) →
      ∀ current, tally step gain current part = 0 := by
    intro part hpart current
    refine tally_eq_zero ((along_of_forall hpart current).mono fun reached event hout ↦ ?_)
    change (counts event && passes reached event).toNat = 0
    rw [hout, Bool.false_and, Bool.toNat_false]
  obtain ⟨before, rest, rfl, hbefore, hrest⟩ := exists_split_at hclock start
  obtain ⟨during, after, rfl, hduring, hafter⟩ :=
    exists_split_at (List.pairwise_append.mp hclock).2.1 (start + windowMs)
  have hinside : ∀ event ∈ during, counts event = true := fun event hevent ↦
    decide_eq_true ⟨hrest event (List.mem_append_left _ hevent), hduring event hevent⟩
  have hstep : ∀ current event, True → counts event = true → True ∧
      gain current event + potential (step current event) ≤
        potential current + cost current event := by
    intro current event _ hcounts
    obtain ⟨hstart, hend⟩ := of_decide_eq_true hcounts
    refine ⟨trivial, ?_⟩
    change (counts event && _).toNat + _ ≤ _ + maxRequests * (counts event && _).toNat
    rw [hcounts, Bool.true_and, Bool.true_and]
    exact (hmove current event).roomLeft_le hstart hend
  have hpaid := tally_add_potential_le (fun _ ↦ True) hstep trivial
    (along_of_forall hinside (run step state before))
  have hcost : tally step cost (run step state before) during =
      maxRequests * during.countP fun event ↦ counts event && renews event := by
    rw [← tally_toNat, ← tally_mul]
  have hroom : potential (run step state before) ≤ maxRequests := Nat.sub_le _ _
  have hfewer : maxRequests * during.countP (fun event ↦ counts event && renews event) ≤
      maxRequests * (before ++ (during ++ after)).countP fun event ↦
        counts event && renews event := by
    refine Nat.mul_le_mul_left maxRequests ?_
    rw [List.countP_append, List.countP_append]
    omega
  rw [tally_append, tally_append, houtside before, houtside after, Nat.mul_add]
  · change _ ≤ _ + maxRequests * (before ++ (during ++ after)).countP fun event ↦
      counts event && renews event
    omega
  · exact fun event hevent ↦
      decide_eq_false fun hin ↦ absurd hin.2 (not_lt.mpr (hafter event hevent))
  · exact fun event hevent ↦
      decide_eq_false fun hin ↦ absurd hin.1 (not_le.mpr (hbefore event hevent))

end System

/-! ### The limited routes -/

section Requests

variable {ν : Type} (setting : GatewaySetting ν)

/-- The server starts again. -/
def restarts : GatewayInput ν → Bool
  | (_, .restart) => true
  | _ => false

/-- The services are asked to create a session for a client. -/
def asksToCreate (key : String) (state : GatewayState ν) (input : GatewayInput ν) : Bool :=
  match input.2 with
  | .createSession _ ip _ _ _ => clientKey ip = key ∧ (handled setting state input).event.isSome
  | _ => false

/-- The services are asked to let a client join a session. -/
def asksToJoin (key : String) (state : GatewayState ν) (input : GatewayInput ν) : Bool :=
  match input.2 with
  | .joinSession _ ip _ => clientKey ip = key ∧ (handled setting state input).event.isSome
  | _ => false

/-- How many steps of a run that are taken in a window of time are of a kind. -/
def countInWindow (kind : GatewayState ν → GatewayInput ν → Bool) (start windowMs : ℤ)
    (db : Database) (storage : Storage) (inputs : List (GatewayInput ν)) : ℕ :=
  tally (gatewayStep setting)
    (fun state input ↦ (inWindow start windowMs input.1 && kind state input).toNat)
    (GatewayState.new db storage) inputs

variable {setting} {state : GatewayState ν} {limiterOf : GatewayState ν → InMemoryRateLimiter ℤ}
  {client : GatewayEvent ν → Option String}
  {passes : String → GatewayState ν → GatewayInput ν → Bool} {maxRequests : ℕ} {windowMs : ℤ}

/-- The requests of a route go through a limiter, each under the name of its client. -/
structure Limits (setting : GatewaySetting ν) (limiterOf : GatewayState ν → InMemoryRateLimiter ℤ)
    (client : GatewayEvent ν → Option String)
    (passes : String → GatewayState ν → GatewayInput ν → Bool) (maxRequests : ℕ) (windowMs : ℤ) :
    Prop where
  step : ∀ state now event, limiterOf (gatewayStep setting state (now, event)) =
    if canHappen state event = true then
      match client event with
      | some key => ((limiterOf state).checkLimit ⟨key, maxRequests, windowMs, now⟩).2
      | none => if restarts (now, event) = true then .new else limiterOf state
    else limiterOf state
  client_restart : client .restart = none
  passes : ∀ key state now event, passes key state (now, event) = true →
    canHappen state event = true ∧ client event = some key ∧
      (limiterOf state).hasRoom ⟨key, maxRequests, windowMs, now⟩ = true

/-- What a step does to the limiter of a route. -/
theorem Limits.move (hlimits : Limits setting limiterOf client passes maxRequests windowMs)
    (key : String) (state : GatewayState ν) (input : GatewayInput ν) :
    LimiterMove maxRequests windowMs key (limiterOf state) input.1
      (limiterOf (gatewayStep setting state input)) (passes key state input) (restarts input) := by
  obtain ⟨now, event⟩ := input
  have hpasses := hlimits.passes key state now event
  have hrestarts : restarts (now, event) = true → event = .restart := by
    cases event <;> simp [restarts]
  rw [hlimits.step]
  by_cases hcan : canHappen state event = true
  · rw [if_pos hcan]
    cases hclient : client event with
    | some asking =>
      have hold : restarts (now, event) = false := by
        by_contra hnew
        rw [hrestarts (Bool.eq_true_of_not_eq_false hnew), hlimits.client_restart] at hclient
        cases hclient
      rw [hold]
      refine .called asking _ fun hpass ↦ ?_
      obtain ⟨-, hasking, hroom⟩ := hpasses hpass
      obtain rfl : asking = key := Option.some.inj (hclient.symm.trans hasking)
      exact ⟨rfl, hroom⟩
    | none =>
      have hnone : passes key state (now, event) = false := by
        by_contra hpass
        have hasking := (hpasses (Bool.eq_true_of_not_eq_false hpass)).2.1
        exact absurd (hclient.symm.trans hasking) (by simp)
      rw [hnone]
      cases hnew : restarts (now, event) with
      | true => exact .renewed
      | false => exact .kept
  · have hnone : passes key state (now, event) = false := by
      by_contra hpass
      exact hcan (hpasses (Bool.eq_true_of_not_eq_false hpass)).1
    have hold : restarts (now, event) = false := by
      by_contra hnew
      rw [hrestarts (Bool.eq_true_of_not_eq_false hnew)] at hcan
      exact hcan rfl
    rw [if_neg hcan, hnone, hold]
    exact .kept

/-- Only an event that can happen asks for anything. -/
theorem handled_of_asked {now : ℕ} {event : GatewayEvent ν}
    (hasked : (handled setting state (now, event)).event.isSome = true) :
    canHappen state event = true ∧
      (handle setting now state event).event.isSome = true := by
  by_cases hcan : canHappen state event = true
  · rw [handled, if_pos hcan] at hasked
    exact ⟨hcan, hasked⟩
  · rw [handled, if_neg hcan] at hasked
    cases hasked

/-- The services are asked to create a session only if there is room. -/
theorem handleCreate_limited {call : ℕ} {ip : String} {request : CreateSessionRequest ν}
    {randomUUID : String} {randomBytes : ℕ → Bytes} {now : ℕ}
    (hasked : (handleCreate setting call ip request randomUUID randomBytes now
      state).event.isSome = true) :
    state.sessionCreateLimiter.hasRoom (createSessionCheck ip now) = true := by
  by_contra hfull
  rw [Bool.not_eq_true, ← checkLimit_fst] at hfull
  rw [handleCreate, if_pos hfull] at hasked
  cases hasked

/-- The services are asked to let a client join only if there is room. -/
theorem handleJoin_limited {call : ℕ} {ip : String} {request : JoinSessionRequest} {now : ℕ}
    (hasked : (handleJoin setting call ip request now state).event.isSome = true) :
    state.sessionJoinLimiter.hasRoom (joinSessionCheck ip now) = true := by
  by_contra hfull
  rw [Bool.not_eq_true, ← checkLimit_fst] at hfull
  rw [handleJoin, if_pos hfull] at hasked
  cases hasked

/-- Who requests to create a session. -/
def creatingClient : GatewayEvent ν → Option String
  | .createSession _ ip _ _ _ => some (clientKey ip)
  | _ => none

/-- Who requests to join one. -/
def joiningClient : GatewayEvent ν → Option String
  | .joinSession _ ip _ => some (clientKey ip)
  | _ => none

/-- `POST /sessions` and its limiter. -/
theorem limits_create : Limits setting (·.sessionCreateLimiter) creatingClient
    (asksToCreate setting) RATE_LIMIT_CREATE_SESSION_MAX RATE_LIMIT_CREATE_SESSION_WINDOW_MS where
  step state now event := by
    by_cases hcan : canHappen state event = true
    · simp only [gatewayStep, if_pos hcan]
      cases event <;> rfl
    · simp only [gatewayStep, if_neg hcan]
  client_restart := rfl
  passes key state now event hpasses := by
    cases event with
    | createSession call ip request randomUUID randomBytes =>
      obtain ⟨rfl, hasked⟩ := of_decide_eq_true hpasses
      obtain ⟨hcan, hhandled⟩ := handled_of_asked hasked
      exact ⟨hcan, rfl, handleCreate_limited hhandled⟩
    | _ => cases hpasses

/-- `POST /sessions/join` and its limiter. -/
theorem limits_join : Limits setting (·.sessionJoinLimiter) joiningClient
    (asksToJoin setting) RATE_LIMIT_JOIN_SESSION_MAX RATE_LIMIT_JOIN_SESSION_WINDOW_MS where
  step state now event := by
    by_cases hcan : canHappen state event = true
    · simp only [gatewayStep, if_pos hcan]
      cases event <;> rfl
    · simp only [gatewayStep, if_neg hcan]
  client_restart := rfl
  passes key state now event hpasses := by
    cases event with
    | joinSession call ip request =>
      obtain ⟨rfl, hasked⟩ := of_decide_eq_true hpasses
      obtain ⟨hcan, hhandled⟩ := handled_of_asked hasked
      exact ⟨hcan, rfl, handleJoin_limited hhandled⟩
    | _ => cases hpasses

/-- **Guessing takes time.** In every run whose clock does not run backwards, whatever else happens
in it: within ten minutes, the services are asked to create at most ten sessions for a client, and
within five minutes to check at most thirty passcodes for one; and as often again for each restart
of the server in that time. -/
theorem requests_limited {inputs : List (GatewayInput ν)}
    (hclock : inputs.Pairwise fun earlier later ↦ earlier.1 ≤ later.1) (db : Database)
    (storage : Storage) (key : String) (start : ℤ) :
    countInWindow setting (asksToCreate setting key) start 600000 db storage inputs ≤
        10 * (1 + inputs.countP fun input ↦ inWindow start 600000 input.1 && restarts input) ∧
      countInWindow setting (asksToJoin setting key) start 300000 db storage inputs ≤
        30 * (1 + inputs.countP fun input ↦ inWindow start 300000 input.1 && restarts input) := by
  have htimes : inputs.Pairwise fun earlier later ↦ (earlier.1 : ℤ) ≤ later.1 :=
    hclock.imp fun hle ↦ Int.ofNat_le.mpr hle
  exact ⟨tally_passes_le (limits_create.move key) htimes _ start,
    tally_passes_le (limits_join.move key) htimes _ start⟩

end Requests

/-- The lecture is created and joined once each. -/
theorem requests_limited_lectureRun :
    countInWindow lectureGateway (asksToJoin lectureGateway "127.0.0.1") 0 300000 classroom
        OrderedMap.empty lectureRun = 1 ∧
      countInWindow lectureGateway (asksToJoin lectureGateway "127.0.0.1") 0 300000 classroom
        OrderedMap.empty lectureRun ≤ 30 * (1 + 0) :=
  have hclock : lectureRun.Pairwise fun earlier later ↦ earlier.1 ≤ later.1 := by decide
  ⟨by decide +kernel, (requests_limited hclock classroom OrderedMap.empty "127.0.0.1" 0).2⟩

end CampusMesh.Server
