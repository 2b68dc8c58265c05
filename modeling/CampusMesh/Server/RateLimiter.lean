import CampusMesh.Library.OrderedMap
import CampusMesh.Library.Runs
import CampusMesh.Library.SlidingWindow
import CampusMesh.Shared.Constants
import Mathlib.Algebra.Order.Group.Int

/-!
# The rate limiter

`InMemoryRateLimiter` keeps for each key the times of allowed calls, and `checkLimit` rewrites the
list of its key on every call: it drops what has left the window, and adds the current time if the
call is allowed. `checkLimit_fst`, `timestamps_checkLimit_self` and `timestamps_checkLimit_of_ne`
say all that a call does.

The list of a key is therefore not the history of its allowed calls, but it counts like it at every
time from now on (`Remembers`). `checkLimit_slidingWindow` draws the conclusions for a sequence of
calls whose clock does not run backwards; `sessionRoutes_limited` is what they mean for the two
routes that use a limiter.
-/

set_option autoImplicit false
set_option relaxedAutoImplicit false

namespace CampusMesh.Server

open Library Shared

universe u

/-- What the limiter stores for a key. -/
structure RateLimitRecord (τ : Type u) where
  timestamps : List τ

/-- The rate limiter. The unit of time is that of the clock. -/
structure InMemoryRateLimiter (τ : Type u) where
  records : OrderedMap String (RateLimitRecord τ)

/-- A call of `checkLimit` and the clock reading it finds. -/
structure LimitCall (τ : Type u) where
  key : String
  maxRequests : ℕ
  windowMs : τ
  now : τ

namespace InMemoryRateLimiter

variable {τ : Type u}

/-- `new InMemoryRateLimiter()`. -/
def new : InMemoryRateLimiter τ := ⟨.empty⟩

/-- The times that are stored for a key. -/
def timestamps (limiter : InMemoryRateLimiter τ) (key : String) : List τ :=
  ((limiter.records.get? key).getD ⟨[]⟩).timestamps

variable [AddCommGroup τ] [LinearOrder τ]

/-- `checkLimit(key, maxRequests, windowMs)`. -/
def checkLimit (limiter : InMemoryRateLimiter τ) (call : LimitCall τ) :
    Bool × InMemoryRateLimiter τ :=
  let record := (limiter.records.get? call.key).getD ⟨[]⟩
  let validTimestamps := record.timestamps.filter fun ts ↦ call.now - ts < call.windowMs
  if validTimestamps.length ≥ call.maxRequests then
    (false, ⟨limiter.records.set call.key ⟨validTimestamps⟩⟩)
  else
    (true, ⟨limiter.records.set call.key ⟨validTimestamps ++ [call.now]⟩⟩)

/-- Whether a call finds fewer than its maximum of recent times. -/
def hasRoom (limiter : InMemoryRateLimiter τ) (call : LimitCall τ) : Bool :=
  (recent call.windowMs call.now (limiter.timestamps call.key)).length < call.maxRequests

/-- A call is allowed if there is room. It prunes the list of its key, and adds its time if it is
allowed. -/
theorem checkLimit_eq (limiter : InMemoryRateLimiter τ) (call : LimitCall τ) :
    limiter.checkLimit call = (limiter.hasRoom call, ⟨limiter.records.set call.key
      ⟨recent call.windowMs call.now (limiter.timestamps call.key) ++
        if limiter.hasRoom call then [call.now] else []⟩⟩) := by
  by_cases hfull : (recent call.windowMs call.now (limiter.timestamps call.key)).length ≥
    call.maxRequests
  · have hroom : limiter.hasRoom call = false := decide_eq_false (not_lt.mpr hfull)
    rw [hroom, if_neg Bool.false_ne_true, List.append_nil]
    exact if_pos hfull
  · have hroom : limiter.hasRoom call = true := decide_eq_true (not_le.mp hfull)
    rw [hroom, if_pos rfl]
    exact if_neg hfull

theorem checkLimit_fst (limiter : InMemoryRateLimiter τ) (call : LimitCall τ) :
    (limiter.checkLimit call).1 = limiter.hasRoom call := by rw [checkLimit_eq]

theorem timestamps_checkLimit_self (limiter : InMemoryRateLimiter τ) (call : LimitCall τ) :
    (limiter.checkLimit call).2.timestamps call.key =
      recent call.windowMs call.now (limiter.timestamps call.key) ++
        if limiter.hasRoom call then [call.now] else [] := by
  rw [checkLimit_eq, timestamps, OrderedMap.get?_set_self, Option.getD_some]

theorem timestamps_checkLimit_of_ne (limiter : InMemoryRateLimiter τ) {call : LimitCall τ}
    {key : String} (hne : key ≠ call.key) :
    (limiter.checkLimit call).2.timestamps key = limiter.timestamps key := by
  rw [checkLimit_eq, timestamps, OrderedMap.get?_set_of_ne _ hne, timestamps]

/-- The limiter after a sequence of calls, oldest first. -/
def served (limiter : InMemoryRateLimiter τ) (calls : List (LimitCall τ)) :
    InMemoryRateLimiter τ :=
  run (fun reached call ↦ (reached.checkLimit call).2) limiter calls

theorem served_concat (limiter : InMemoryRateLimiter τ) (calls : List (LimitCall τ))
    (call : LimitCall τ) :
    limiter.served (calls ++ [call]) = ((limiter.served calls).checkLimit call).2 :=
  run_append _ _ _

/-- The calls of a sequence, each with its answer. -/
def decisions : InMemoryRateLimiter τ → List (LimitCall τ) → List (LimitCall τ × Bool)
  | _, [] => []
  | limiter, call :: rest =>
    (call, (limiter.checkLimit call).1) :: decisions (limiter.checkLimit call).2 rest

theorem decisions_append (limiter : InMemoryRateLimiter τ) (first second : List (LimitCall τ)) :
    limiter.decisions (first ++ second) =
      limiter.decisions first ++ (limiter.served first).decisions second := by
  induction first generalizing limiter with
  | nil => rfl
  | cons call rest ih =>
    rw [List.cons_append, decisions, decisions, ih, List.cons_append]
    rfl

theorem map_fst_decisions (limiter : InMemoryRateLimiter τ) (calls : List (LimitCall τ)) :
    (limiter.decisions calls).map Prod.fst = calls := by
  induction calls generalizing limiter with
  | nil => rfl
  | cons call rest ih => rw [decisions, List.map_cons, ih]

end InMemoryRateLimiter

/-- The times at which calls for a key were allowed. -/
def allowedTimes {τ : Type u} (key : String) (decided : List (LimitCall τ × Bool)) : List τ :=
  (decided.filter fun decision ↦ decision.2 ∧ decision.1.key = key).map (·.1.now)

namespace InMemoryRateLimiter

section Memory

variable {τ : Type u} [AddCommGroup τ] [LinearOrder τ]

/-- After the calls that have passed, the list of each key counts like the given times at every
time that the clock can still show. -/
def Remembers (window : String → τ) (passed : List (LimitCall τ)) (times : String → List τ)
    (limiter : InMemoryRateLimiter τ) : Prop :=
  ∀ key later, (∀ call ∈ passed, call.now ≤ later) →
    recent (window key) later (limiter.timestamps key) = recent (window key) later (times key)

variable {window : String → τ} {passed : List (LimitCall τ)} {times : String → List τ}
  {limiter : InMemoryRateLimiter τ} {call : LimitCall τ}

/-- Whether there is room may be read off the times that are remembered. -/
theorem Remembers.hasRoom_eq (hremembers : Remembers window passed times limiter)
    (hwindow : call.windowMs = window call.key)
    (hclock : ∀ earlier ∈ passed, earlier.now ≤ call.now) :
    limiter.hasRoom call =
      decide ((recent (window call.key) call.now (times call.key)).length < call.maxRequests) := by
  rw [hasRoom, hwindow, hremembers call.key call.now hclock]

/-- A call adds its time to the allowed ones of its key if it is allowed. -/
theorem allowedTimes_decisions_concat (limiter : InMemoryRateLimiter τ)
    (calls : List (LimitCall τ)) (call : LimitCall τ) :
    (fun key ↦ allowedTimes key (limiter.decisions (calls ++ [call]))) =
      Function.update (fun key ↦ allowedTimes key (limiter.decisions calls)) call.key
        (allowedTimes call.key (limiter.decisions calls) ++
          if (limiter.served calls).hasRoom call then [call.now] else []) := by
  funext key
  rw [decisions_append, allowedTimes, List.filter_append, List.map_append, decisions, decisions,
    checkLimit_fst]
  by_cases hkey : key = call.key
  · subst hkey
    rw [Function.update_self]
    cases (limiter.served calls).hasRoom call with
    | true => simp [allowedTimes]
    | false => simp [allowedTimes]
  · rw [Function.update_of_ne hkey]
    simp [allowedTimes, Ne.symm hkey]

variable [IsOrderedAddMonoid τ]

/-- A call is remembered if it is allowed, and nothing is forgotten that may still count. -/
theorem Remembers.checkLimit (hremembers : Remembers window passed times limiter)
    (hwindow : call.windowMs = window call.key) :
    Remembers window (passed ++ [call])
      (Function.update times call.key
        (times call.key ++ if limiter.hasRoom call then [call.now] else []))
      (limiter.checkLimit call).2 := by
  intro key later hlater
  have hpassed : ∀ earlier ∈ passed, earlier.now ≤ later :=
    fun earlier hearlier ↦ hlater earlier (List.mem_append_left _ hearlier)
  by_cases hkey : key = call.key
  · have hnow : call.now ≤ later := hlater call (by simp)
    rw [hkey, Function.update_self, timestamps_checkLimit_self, recent_append, recent_append,
      hwindow, recent_recent hnow, hremembers call.key later hpassed]
  · rw [Function.update_of_ne hkey, timestamps_checkLimit_of_ne limiter hkey,
      hremembers key later hpassed]

/-- A call that is refused leaves a limiter that counts like the one before. -/
theorem remembers_checkLimit_of_refused (hwindow : call.windowMs = window call.key)
    (hrefused : limiter.hasRoom call = false) :
    Remembers window (passed ++ [call]) limiter.timestamps (limiter.checkLimit call).2 := by
  have hself : Remembers window passed limiter.timestamps limiter := fun _ _ _ ↦ rfl
  have hnext := hself.checkLimit hwindow
  rwa [hrefused, if_neg Bool.false_ne_true, List.append_nil, Function.update_eq_self] at hnext

/-- Two limiters that count alike do so after a call of both. -/
theorem Remembers.checkLimit_both {other : InMemoryRateLimiter τ}
    (hremembers : Remembers window passed other.timestamps limiter)
    (hwindow : call.windowMs = window call.key)
    (hclock : ∀ earlier ∈ passed, earlier.now ≤ call.now) :
    limiter.hasRoom call = other.hasRoom call ∧
      Remembers window (passed ++ [call]) (other.checkLimit call).2.timestamps
        (limiter.checkLimit call).2 := by
  have hself : Remembers window passed other.timestamps other := fun _ _ _ ↦ rfl
  have hroom : limiter.hasRoom call = other.hasRoom call := by
    rw [hremembers.hasRoom_eq hwindow hclock, hself.hasRoom_eq hwindow hclock]
  refine ⟨hroom, fun key later hlater ↦ ?_⟩
  rw [hremembers.checkLimit hwindow key later hlater, hself.checkLimit hwindow key later hlater,
    hroom]

/-- Two limiters that count alike answer alike. -/
theorem Remembers.decisions_eq {other : InMemoryRateLimiter τ} {calls : List (LimitCall τ)}
    (hremembers : Remembers window passed other.timestamps limiter)
    (hwindow : ∀ call ∈ calls, call.windowMs = window call.key)
    (hclock : (passed ++ calls).Pairwise fun earlier later ↦ earlier.now ≤ later.now) :
    limiter.decisions calls = other.decisions calls := by
  induction calls generalizing limiter other passed with
  | nil => rfl
  | cons call rest ih =>
    have hpassed : ∀ earlier ∈ passed, earlier.now ≤ call.now := fun earlier hearlier ↦
      (List.pairwise_append.mp hclock).2.2 earlier hearlier call List.mem_cons_self
    obtain ⟨hroom, hnext⟩ :=
      hremembers.checkLimit_both (hwindow call List.mem_cons_self) hpassed
    rw [decisions, decisions, checkLimit_fst, checkLimit_fst, hroom]
    refine congrArg _ (ih hnext (fun later hlater ↦ hwindow later
      (List.mem_cons_of_mem _ hlater)) ?_)
    rwa [List.append_assoc, List.singleton_append]

/-- A limiter remembers all allowed calls that may still count. -/
theorem remembers_served {calls : List (LimitCall τ)}
    (hwindow : ∀ call ∈ calls, call.windowMs = window call.key) :
    Remembers window calls (fun key ↦ allowedTimes key (new.decisions calls))
      (new.served calls) := by
  induction calls using List.reverseRecOn with
  | nil => exact fun key later _ ↦ rfl
  | append_singleton calls call ih =>
    have hbefore := ih fun earlier hearlier ↦ hwindow earlier (List.mem_append_left _ hearlier)
    have hnext := hbefore.checkLimit (hwindow call (by simp))
    rw [allowedTimes_decisions_concat, served_concat]
    exact hnext

end Memory

section Keys

variable {τ : Type u} [AddCommGroup τ] [LinearOrder τ]

/-- What is answered to the calls for a key depends on these calls alone. -/
theorem decisions_filter_key {key : String} {limiter other : InMemoryRateLimiter τ}
    (hsame : limiter.timestamps key = other.timestamps key) (calls : List (LimitCall τ)) :
    (limiter.decisions calls).filter (fun decision ↦ decision.1.key = key) =
      other.decisions (calls.filter fun call ↦ call.key = key) := by
  induction calls generalizing limiter other with
  | nil => rfl
  | cons call rest ih =>
    by_cases hkey : call.key = key
    · have hroom : limiter.hasRoom call = other.hasRoom call := by
        rw [hasRoom, hasRoom, hkey, hsame]
      have hnext : (limiter.checkLimit call).2.timestamps key =
          (other.checkLimit call).2.timestamps key := by
        rw [← hkey, timestamps_checkLimit_self, timestamps_checkLimit_self, hroom, hkey, hsame]
      rw [decisions, List.filter_cons_of_pos (by simpa using hkey),
        List.filter_cons_of_pos (by simpa using hkey), decisions, checkLimit_fst, checkLimit_fst,
        hroom, ih hnext]
    · have hnext : (limiter.checkLimit call).2.timestamps key = other.timestamps key := by
        rw [timestamps_checkLimit_of_ne limiter (Ne.symm hkey), hsame]
      rw [decisions, List.filter_cons_of_neg (by simpa using hkey),
        List.filter_cons_of_neg (by simpa using hkey), ih hnext]

end Keys

/-! ### Sequences of calls -/

section Sequences

variable {τ : Type u} [LinearOrder τ]

/-- A sequence of calls in which the limit and the window depend on the key alone and the clock
does not run backwards. -/
structure Regular (limit : String → ℕ) (window : String → τ) (calls : List (LimitCall τ)) :
    Prop where
  limit_eq : ∀ call ∈ calls, call.maxRequests = limit call.key
  window_eq : ∀ call ∈ calls, call.windowMs = window call.key
  clock : calls.Pairwise fun earlier later ↦ earlier.now ≤ later.now

variable {limit : String → ℕ} {window : String → τ} {calls : List (LimitCall τ)}

theorem Regular.left {later : List (LimitCall τ)}
    (hregular : Regular limit window (calls ++ later)) :
    Regular limit window calls where
  limit_eq call hcall := hregular.limit_eq call (List.mem_append_left _ hcall)
  window_eq call hcall := hregular.window_eq call (List.mem_append_left _ hcall)
  clock := (List.pairwise_append.mp hregular.clock).1

theorem Regular.le_last {call : LimitCall τ} (hregular : Regular limit window (calls ++ [call])) :
    ∀ earlier ∈ calls, earlier.now ≤ call.now := fun earlier hearlier ↦
  (List.pairwise_append.mp hregular.clock).2.2 earlier hearlier call (by simp)

variable [AddCommGroup τ]

/-- An allowed time is the time of a call. -/
theorem exists_of_mem_allowedTimes {limiter : InMemoryRateLimiter τ} {key : String} {time : τ}
    (hmem : time ∈ allowedTimes key (limiter.decisions calls)) :
    ∃ call ∈ calls, call.now = time := by
  obtain ⟨decision, hdecision, rfl⟩ := List.mem_map.mp hmem
  refine ⟨decision.1, ?_, rfl⟩
  rw [← map_fst_decisions limiter calls]
  exact List.mem_map_of_mem (List.mem_of_mem_filter hdecision)

variable [IsOrderedAddMonoid τ]

/-- Whether there is room depends on the whole history of allowed calls. -/
theorem Regular.hasRoom_iff {call : LimitCall τ}
    (hregular : Regular limit window (calls ++ [call])) :
    (new.served calls).hasRoom call = true ↔
      (recent (window call.key) call.now
        (allowedTimes call.key (new.decisions calls))).length < limit call.key := by
  have hremembers := remembers_served hregular.left.window_eq
  rw [hremembers.hasRoom_eq (hregular.window_eq call (by simp)) hregular.le_last,
    decide_eq_true_eq, hregular.limit_eq call (by simp)]

/-- Every allowed call found room among the allowed calls before it. -/
theorem Regular.admitted (hregular : Regular limit window calls) (key : String) :
    Admitted (limit key) (window key) (allowedTimes key (new.decisions calls)) := by
  induction calls using List.reverseRecOn with
  | nil => exact admitted_nil _ _
  | append_singleton calls call ih =>
    rw [congrFun (allowedTimes_decisions_concat new calls call) key]
    by_cases hkey : key = call.key
    · subst hkey
      rw [Function.update_self]
      split_ifs with hroom
      · exact admitted_append_singleton.mpr ⟨ih hregular.left, hregular.hasRoom_iff.mp hroom⟩
      · rw [List.append_nil]
        exact ih hregular.left
    · rw [Function.update_of_ne hkey]
      exact ih hregular.left

/-- The recent ones of past times are those in the window that ends now. -/
theorem Regular.length_recent {call : LimitCall τ}
    (hregular : Regular limit window (calls ++ [call])) (key : String) :
    (recent (window key) call.now (allowedTimes key (new.decisions calls))).length =
      (allowedTimes key (new.decisions calls)).countP
        fun time ↦ call.now - window key < time ∧ time ≤ call.now := by
  rw [recent, ← List.countP_eq_length_filter]
  refine List.countP_congr fun time htime ↦ ?_
  obtain ⟨earlier, hearlier, rfl⟩ := exists_of_mem_allowedTimes htime
  rw [decide_eq_true_eq, decide_eq_true_eq, sub_lt_comm]
  exact ⟨fun hrecent ↦ ⟨hrecent, hregular.le_last earlier hearlier⟩, And.left⟩

end Sequences

/-- **Sliding-window rate limit.** In every sequence of calls in which the limit and the window
depend on the key alone and the clock does not run backwards: a call is allowed exactly if fewer
than the limit of the calls for its key were allowed in the window that ends with it; the two kinds
of half-open intervals of the length of the window hold at most the limit of allowed calls for a
key; without a call that is refused, all later ones are answered alike; and the calls for a key are
answered as if there were no others. -/
theorem checkLimit_slidingWindow {τ : Type u} [LinearOrder τ] [AddCommGroup τ]
    [IsOrderedAddMonoid τ] {limit : String → ℕ} {window : String → τ} {calls : List (LimitCall τ)}
    (hregular : Regular limit window calls) :
    (∀ before call after, calls = before ++ call :: after →
      (((new.served before).checkLimit call).1 = true ↔
        (allowedTimes call.key (new.decisions before)).countP
          (fun time ↦ call.now - window call.key < time ∧ time ≤ call.now) < limit call.key)) ∧
    (∀ key start,
      (allowedTimes key (new.decisions calls)).countP
          (fun time ↦ start < time ∧ time ≤ start + window key) ≤ limit key ∧
        (allowedTimes key (new.decisions calls)).countP
          (fun time ↦ start ≤ time ∧ time < start + window key) ≤ limit key) ∧
    (∀ before call after, calls = before ++ call :: after →
      ((new.served before).checkLimit call).1 = false →
        new.decisions calls =
          new.decisions before ++ (call, false) :: (new.served before).decisions after) ∧
    (∀ key, (new.decisions calls).filter (fun decision ↦ decision.1.key = key) =
      new.decisions (calls.filter fun call ↦ call.key = key)) := by
  refine ⟨fun before call after hsplit ↦ ?_, fun key start ↦ ?_,
    fun before call after hsplit hrefused ↦ ?_, fun key ↦ decisions_filter_key rfl calls⟩
  · have hbefore : Regular limit window (before ++ [call]) := by
      rw [hsplit, ← List.singleton_append, ← List.append_assoc] at hregular
      exact hregular.left
    rw [checkLimit_fst, hbefore.hasRoom_iff, hbefore.length_recent]
  · exact countP_halfOpen_le (hregular.admitted key) start
  · subst hsplit
    rw [checkLimit_fst] at hrefused
    have hwindow : call.windowMs = window call.key := hregular.window_eq call (by simp)
    have hsame : Remembers window (before ++ [call]) (new.served before).timestamps
        ((new.served before).checkLimit call).2 :=
      remembers_checkLimit_of_refused hwindow hrefused
    have hafter : ((new.served before).checkLimit call).2.decisions after =
        (new.served before).decisions after := by
      refine hsame.decisions_eq (fun later hlater ↦ hregular.window_eq later (by simp [hlater])) ?_
      rw [List.append_assoc, List.singleton_append]
      exact hregular.clock
    rw [decisions_append, decisions, checkLimit_fst, hrefused, hafter]

/-- Two keys that take turns, with one call in ten units of time allowed to each. -/
theorem checkLimit_slidingWindow_turns :
    (new.decisions [⟨"a", 1, 10, 0⟩, ⟨"b", 1, 10, 3⟩, ⟨"a", 1, 10, 5⟩,
        (⟨"a", 1, 10, 10⟩ : LimitCall ℤ)]).map Prod.snd = [true, true, false, true] ∧
      (allowedTimes "a" (new.decisions [⟨"a", 1, 10, 0⟩, ⟨"b", 1, 10, 3⟩, ⟨"a", 1, 10, 5⟩,
        (⟨"a", 1, 10, 10⟩ : LimitCall ℤ)])).countP (fun time ↦ 0 < time ∧ time ≤ 0 + 10) ≤ 1 :=
  have hregular : Regular (fun _ ↦ 1) (fun _ ↦ (10 : ℤ)) [⟨"a", 1, 10, 0⟩, ⟨"b", 1, 10, 3⟩,
      ⟨"a", 1, 10, 5⟩, ⟨"a", 1, 10, 10⟩] :=
    ⟨by simp, by simp, by simp⟩
  ⟨by decide, ((checkLimit_slidingWindow hregular).2.1 "a" 0).1⟩

end InMemoryRateLimiter

/-! ### The limited routes -/

open InMemoryRateLimiter

/-- `req.ip || '127.0.0.1'`. -/
def clientKey (ip : String) : String := if ip = "" then "127.0.0.1" else ip

/-- The check that `POST /api/sessions` makes of `sessionCreateLimiter`. -/
def createSessionCheck (ip : String) (now : ℤ) : LimitCall ℤ :=
  ⟨clientKey ip, RATE_LIMIT_CREATE_SESSION_MAX, RATE_LIMIT_CREATE_SESSION_WINDOW_MS, now⟩

/-- The check that `POST /api/sessions/join` makes of `sessionJoinLimiter`. -/
def joinSessionCheck (ip : String) (now : ℤ) : LimitCall ℤ :=
  ⟨clientKey ip, RATE_LIMIT_JOIN_SESSION_MAX, RATE_LIMIT_JOIN_SESSION_WINDOW_MS, now⟩

/-- Requests that are all checked against one limit and one window. -/
theorem regular_requests (maxRequests : ℕ) (windowMs : ℤ) {requests : List (String × ℤ)}
    (hclock : requests.Pairwise fun earlier later ↦ earlier.2 ≤ later.2) :
    Regular (fun _ ↦ maxRequests) (fun _ ↦ windowMs) (requests.map fun request ↦
      ⟨clientKey request.1, maxRequests, windowMs, request.2⟩) where
  limit_eq := List.forall_mem_map.mpr fun _ _ ↦ rfl
  window_eq := List.forall_mem_map.mpr fun _ _ ↦ rfl
  clock := List.pairwise_map.mpr hclock

/-- In a sequence of requests, each with its address and its time, at most ten of a client pass the
check of `POST /api/sessions` within ten minutes, and at most thirty that of
`POST /api/sessions/join` within five. -/
theorem sessionRoutes_limited {requests : List (String × ℤ)}
    (hclock : requests.Pairwise fun earlier later ↦ earlier.2 ≤ later.2) (key : String)
    (start : ℤ) :
    (allowedTimes key (new.decisions (requests.map fun request ↦
        createSessionCheck request.1 request.2))).countP
      (fun time ↦ start ≤ time ∧ time < start + 600000) ≤ 10 ∧
    (allowedTimes key (new.decisions (requests.map fun request ↦
        joinSessionCheck request.1 request.2))).countP
      (fun time ↦ start ≤ time ∧ time < start + 300000) ≤ 30 := by
  have hcreate := regular_requests RATE_LIMIT_CREATE_SESSION_MAX RATE_LIMIT_CREATE_SESSION_WINDOW_MS
    hclock
  have hjoin := regular_requests RATE_LIMIT_JOIN_SESSION_MAX
    RATE_LIMIT_JOIN_SESSION_WINDOW_MS hclock
  exact ⟨(countP_halfOpen_le (hcreate.admitted key) start).2,
    (countP_halfOpen_le (hjoin.admitted key) start).2⟩

end CampusMesh.Server
