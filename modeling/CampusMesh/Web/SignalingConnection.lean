import CampusMesh.Web.IntegrityVerifier
import CampusMesh.Web.UseSignaling
import CampusMesh.Library.Runs

/-!
# The connection of a client to the signaling server

The effect of `useSignaling`: it connects, connects again with a growing delay when the connection
is lost, and is cleaned up when the token changes or the component goes away. Every run of the
effect has variables of its own, which its sockets and timers go on to refer to; so a client keeps
all runs and all sockets it ever had, and an event may be about any of them.

At any time at most one socket is neither closed nor closing; it is the current one, of the run that
is mounted, and no timer is armed. At most one timer is armed, when the current socket was closed
for a reason that asks for another attempt (`connection_kept`). From the closing of a socket to the
next attempt of its run it takes as long as the delay says (`attempts_paced`).
-/

set_option autoImplicit false
set_option relaxedAutoImplicit false

namespace CampusMesh.Web

open Library Shared Server SignalingHub

variable {ν : Type}

/-! ### State -/

inductive ConnectionStatus
  | disconnected | connecting | connected | reconnecting | error
  deriving DecidableEq

/-- The field `readyState` of a `WebSocket`. -/
inductive WebSocketState
  | CONNECTING | OPEN | CLOSING | CLOSED
  deriving DecidableEq

/-- A socket of the hook, with the run of the effect that created it. For the history, when that
was, how many attempts had failed in a row, whether it opened, whether a message on it ended the
session, and the code and time with which it closed. -/
structure WebSocket where
  readyState : WebSocketState
  effect : ℕ
  createdAt : ℕ
  attempt : ℕ
  opened : Bool
  ended : Bool
  closeCode : Option ℕ
  closedAt : Option ℕ

/-- The variables of one run of the effect. -/
structure EffectRun where
  isMounted : Bool
  reconnectTimer : Option ℕ
  intentionalClose : Bool
  retryAttempt : ℕ

/-- An armed timer, with the run of the effect whose `connect` it calls. -/
structure ReconnectTimer where
  effect : ℕ
  due : ℕ

/-- The state of the hook. Sockets and runs of the effect are named by their places. `cleanup` is
the run whose cleanup React has still to call, and `sent` what was handed to which socket. For the
history, the time of the last event. -/
structure SignalingClient (ν : Type) where
  status : ConnectionStatus
  peers : List (Json ν)
  lastError : Option String
  sockets : List WebSocket
  socketRef : Option ℕ
  effects : List EffectRun
  cleanup : Option ℕ
  timers : OrderedMap ℕ ReconnectTimer
  nextTimer : ℕ
  sent : List (ℕ × Json.Fields ν)
  clock : ℕ

/-- The hook before its first effect. -/
def SignalingClient.initial : SignalingClient ν where
  status := .disconnected
  peers := []
  lastError := none
  sockets := []
  socketRef := none
  effects := []
  cleanup := none
  timers := OrderedMap.empty
  nextTimer := 0
  sent := []
  clock := 0

/-- `Math.min(1000 * Math.pow(1.5, retryAttempt), 8000)`. -/
def reconnectDelay (retryAttempt : ℕ) : ℚ := min (1000 * (3 / 2) ^ retryAttempt) 8000

/-- What `setTimeout` makes of this delay: whole milliseconds. -/
def reconnectWait (retryAttempt : ℕ) : ℕ := (reconnectDelay retryAttempt).floor.toNat

/-! ### The effect -/

/-- `close` on a socket. -/
def WebSocket.close (socket : WebSocket) : WebSocket :=
  if socket.readyState = .CLOSED then socket else { socket with readyState := .CLOSING }

/-- `if (socketRef.current) { socketRef.current.close(1000, …); socketRef.current = null; }`. -/
def dropSocket (client : SignalingClient ν) : SignalingClient ν :=
  match client.socketRef with
  | some index =>
    { client with
      sockets := client.sockets.modify index WebSocket.close
      socketRef := none }
  | none => client

/-- `new WebSocket(fullUrl)`. -/
def newSocket (effect now attempt : ℕ) : WebSocket where
  readyState := .CONNECTING
  effect := effect
  createdAt := now
  attempt := attempt
  opened := false
  ended := false
  closeCode := none
  closedAt := none

/-- `connect` of a run of the effect. -/
def connectEffect (effect now : ℕ) (client : SignalingClient ν) : SignalingClient ν :=
  match client.effects[effect]? with
  | some vars =>
    if vars.isMounted = false then client
    else
      { client with
        status :=
          if client.status = .connected then .connected
          else if 0 < vars.retryAttempt then .reconnecting
          else .connecting
        lastError := none
        sockets := client.sockets ++ [newSocket effect now vars.retryAttempt]
        socketRef := some client.sockets.length }
  | none => client

/-- The function that the effect returns. -/
def runCleanup (client : SignalingClient ν) : SignalingClient ν :=
  match client.cleanup with
  | some effect =>
    match client.effects[effect]? with
    | some vars =>
      dropSocket { client with
        effects := client.effects.set effect
          { vars with isMounted := false, intentionalClose := true }
        timers := (vars.reconnectTimer.elim client.timers client.timers.delete)
        cleanup := none }
    | none => client
  | none => client

/-- The variables with which a run begins. -/
def newRun : EffectRun where
  isMounted := true
  reconnectTimer := none
  intentionalClose := false
  retryAttempt := 0

/-- The body of the effect. Without a token it returns no cleanup. -/
def runEffect (token : Option String) (now : ℕ) (client : SignalingClient ν) : SignalingClient ν :=
  match truthyText token with
  | none => dropSocket { client with status := .disconnected, peers := [] }
  | some _ =>
    connectEffect client.effects.length now
      { client with
        effects := client.effects ++ [newRun]
        cleanup := some client.effects.length }

/-! ### Sockets -/

/-- The variables that the handlers of a socket refer to, unless they return at once: the run is not
mounted, or the socket is not the current one. -/
def handling (index : ℕ) (socket : WebSocket) (client : SignalingClient ν) : Option EffectRun :=
  (client.effects[socket.effect]?).filter fun vars ↦
    vars.isMounted && decide (client.socketRef = some index)

/-- Changes the variables of a run. -/
def setVars (effect : ℕ) (vars : EffectRun) (client : SignalingClient ν) : SignalingClient ν :=
  { client with effects := client.effects.set effect vars }

/-- Changes a socket. -/
def setSocket (index : ℕ) (socket : WebSocket) (client : SignalingClient ν) : SignalingClient ν :=
  { client with sockets := client.sockets.set index socket }

/-- `socket.onopen`. -/
def socketOpened (index : ℕ) (socket : WebSocket) (client : SignalingClient ν) :
    SignalingClient ν :=
  let client := setSocket index { socket with readyState := .OPEN, opened := true } client
  match handling index socket client with
  | some vars =>
    setVars socket.effect { vars with retryAttempt := 0 }
      { client with status := .connected, lastError := none }
  | none => client

/-- `socket.onmessage` for a text that parses, after a callback that returned. -/
def socketMessage (index : ℕ) (socket : WebSocket) (message : Json.Fields ν)
    (client : SignalingClient ν) : SignalingClient ν :=
  match handling index socket client with
  | some vars =>
    let client := { client with peers := onmessage client.peers message }
    if hasType .SESSION_ENDED message then
      setVars socket.effect { vars with intentionalClose := true }
        (setSocket index { socket with ended := true } { client with status := .disconnected })
    else client
  | none => client

/-- `socket.onerror`. -/
def socketError (index : ℕ) (socket : WebSocket) (client : SignalingClient ν) :
    SignalingClient ν :=
  if (handling index socket client).isSome then
    { client with status := .error, lastError := some "WebSocket connection error occurred." }
  else client

/-- Arms the timer that connects again. -/
def reconnectLater (effect now : ℕ) (vars : EffectRun) (client : SignalingClient ν) :
    SignalingClient ν :=
  setVars effect
    { vars with
      retryAttempt := vars.retryAttempt + 1
      reconnectTimer := some client.nextTimer }
    { client with
      status := .reconnecting
      timers := client.timers.set client.nextTimer
        ⟨effect, now + reconnectWait vars.retryAttempt⟩
      nextTimer := client.nextTimer + 1 }

/-- `socket.onclose`. -/
def socketClosed (index : ℕ) (socket : WebSocket) (code : ℕ) (reason : String) (now : ℕ)
    (client : SignalingClient ν) : SignalingClient ν :=
  let client := setSocket index
    { socket with readyState := .CLOSED, closeCode := some code, closedAt := some now } client
  match handling index socket client with
  | some vars =>
    if vars.intentionalClose = true ∨ code = 1000 then
      { client with
        status := .disconnected
        lastError := if code ≠ 1000 ∧ reason ≠ "" then some reason else client.lastError }
    else if 4000 ≤ code then
      { client with
        status := .error
        lastError := some
          (if reason = "" then "Connection rejected (" ++ toString code ++ ")." else reason) }
    else reconnectLater socket.effect now vars client
  | none => client

/-! ### Events and runs -/

/-- What can happen to the hook. -/
inductive ConnectionEvent (ν : Type)
  /-- React runs the effect: on mounting, or when the token or the address has changed. -/
  | effect (token : Option String)
  | unmount
  | opened (index : ℕ)
  /-- A frame; there is no message if its text does not parse or the callback throws. -/
  | message (index : ℕ) (message : Option (Json.Fields ν))
  | errored (index : ℕ)
  /-- The other side has begun to close the socket. -/
  | closing (index : ℕ)
  | closed (index : ℕ) (code : ℕ) (reason : String)
  | timer (timer : ℕ)
  /-- `sendSignalingMessage`. -/
  | send (message : Json.Fields ν)

/-- An event of a socket, which comes only in some of its states. -/
def atSocket (index : ℕ) (states : List WebSocketState)
    (handler : WebSocket → SignalingClient ν → SignalingClient ν) (client : SignalingClient ν) :
    SignalingClient ν :=
  match client.sockets[index]? with
  | some socket => if socket.readyState ∈ states then handler socket client else client
  | none => client

/-- What the hook does at a time. -/
def happen (now : ℕ) (client : SignalingClient ν) : ConnectionEvent ν → SignalingClient ν
  | .effect token => runEffect token now (runCleanup client)
  | .unmount => runCleanup client
  | .opened index => atSocket index [.CONNECTING] (socketOpened index) client
  | .message index (some message) =>
    atSocket index [.OPEN] (fun socket ↦ socketMessage index socket message) client
  | .message _ none => client
  | .errored index => atSocket index [.CONNECTING, .OPEN, .CLOSING] (socketError index) client
  | .closing index =>
    atSocket index [.CONNECTING, .OPEN]
      (fun socket ↦ setSocket index { socket with readyState := .CLOSING }) client
  | .closed index code reason =>
    atSocket index [.CONNECTING, .OPEN, .CLOSING]
      (fun socket ↦ socketClosed index socket code reason now) client
  | .timer timer =>
    match client.timers.get? timer with
    | some armed =>
      if armed.due ≤ now then
        connectEffect armed.effect now { client with timers := client.timers.delete timer }
      else client
    | none => client
  | .send message =>
    match client.socketRef with
    | some index =>
      if (client.sockets[index]?).any fun socket ↦ socket.readyState = .OPEN then
        { client with sent := client.sent ++ [(index, message)] }
      else client
    | none => client

/-- An event, after some milliseconds. -/
def connectionStep (client : SignalingClient ν) (event : ℕ × ConnectionEvent ν) :
    SignalingClient ν :=
  { happen (client.clock + event.1) client event.2 with clock := client.clock + event.1 }

/-- The hook after a list of events. -/
def connectionRun (events : List (ℕ × ConnectionEvent ν)) : SignalingClient ν :=
  run connectionStep SignalingClient.initial events

/-! ### What sockets tell -/

/-- The socket is closed, or about to be. -/
def Shut (socket : WebSocket) : Prop :=
  socket.readyState = .CLOSING ∨ socket.readyState = .CLOSED

/-- The socket was closed for a reason that asks for another attempt. -/
def Retried (socket : WebSocket) : Prop :=
  socket.ended = false ∧ ∃ code ∈ socket.closeCode, code ≠ 1000 ∧ code < 4000

instance (socket : WebSocket) : Decidable (Retried socket) :=
  inferInstanceAs (Decidable (_ ∧ ∃ code ∈ socket.closeCode, _))

/-- The attempts that have failed in a row, not counting what may still become of the socket. -/
def failedAttempts (socket : WebSocket) : ℕ := if socket.opened then 0 else socket.attempt

/-- What is shown once the socket is closed. -/
def closedStatus (socket : WebSocket) : ConnectionStatus :=
  if socket.ended = true ∨ socket.closeCode = some 1000 then .disconnected
  else if Retried socket then .reconnecting
  else .error

/-- The socket has been closed for as long as the delay says. -/
def Waited (socket : WebSocket) (now : ℕ) : Prop :=
  ∃ closedAt ∈ socket.closedAt,
    socket.createdAt ≤ closedAt ∧ closedAt + reconnectWait (failedAttempts socket) ≤ now

theorem Waited.mono {socket : WebSocket} {now later : ℕ} (hwaited : Waited socket now)
    (hle : now ≤ later) : Waited socket later := by
  obtain ⟨closedAt, hclosed, hcreated, hdelay⟩ := hwaited
  exact ⟨closedAt, hclosed, hcreated, hdelay.trans hle⟩

/-- The second socket is the next attempt of the same run after the first. -/
structure Follows (first next : WebSocket) : Prop where
  closed : first.readyState = .CLOSED
  retried : Retried first
  attempt : next.attempt = failedAttempts first + 1
  waited : Waited first next.createdAt

/-- Runs come one after the other, and so do the attempts of each. -/
def Paced (sockets : List WebSocket) : Prop :=
  sockets.IsChain fun first next ↦
    first.effect ≤ next.effect ∧ (first.effect = next.effect → Follows first next)

/-- What may become of a socket. -/
structure Evolves (old new : WebSocket) : Prop where
  effect : new.effect = old.effect
  createdAt : new.createdAt = old.createdAt
  attempt : new.attempt = old.attempt
  closed : old.readyState = .CLOSED → new = old

theorem Evolves.follows {first next first' next' : WebSocket} (hfirst : Evolves first first')
    (hnext : Evolves next next') (hfollows : Follows first next) : Follows first' next' := by
  obtain rfl := hfirst.closed hfollows.closed
  exact ⟨hfollows.closed, hfollows.retried, hnext.attempt.trans hfollows.attempt,
    hnext.createdAt ▸ hfollows.waited⟩

theorem Evolves.refl (socket : WebSocket) : Evolves socket socket := ⟨rfl, rfl, rfl, fun _ ↦ rfl⟩

theorem Evolves.close (socket : WebSocket) : Evolves socket socket.close := by
  unfold WebSocket.close
  split
  · exact Evolves.refl socket
  · rename_i hopen
    exact ⟨rfl, rfl, rfl, fun hclosed ↦ absurd hclosed hopen⟩

theorem shut_close (socket : WebSocket) : Shut socket.close := by
  unfold WebSocket.close
  split
  · exact Or.inr ‹_›
  · exact Or.inl rfl

/-- What becomes of one socket does not change the pace. -/
theorem Paced.set {sockets : List WebSocket} (hpaced : Paced sockets) {index : ℕ}
    {old new : WebSocket} (hold : sockets[index]? = some old) (hevolves : Evolves old new) :
    Paced (sockets.set index new) := by
  have hat : ∀ place (hplace : place < sockets.length)
      (hset : place < (sockets.set index new).length),
      Evolves sockets[place] (sockets.set index new)[place] := by
    intro place hplace hset
    rw [List.getElem_set]
    split
    · rename_i hsame
      subst hsame
      obtain rfl : sockets[index] = old := by simpa [hplace] using hold
      exact hevolves
    · exact Evolves.refl _
  rw [Paced, List.isChain_iff_getElem] at hpaced ⊢
  intro place hset
  have hplace : place + 1 < sockets.length := by simpa using hset
  have hfirst := hat place (Nat.lt_of_succ_lt hplace) (Nat.lt_of_succ_lt hset)
  have hnext := hat (place + 1) hplace hset
  obtain ⟨hle, hfollows⟩ := hpaced place hplace
  refine ⟨by rw [hfirst.effect, hnext.effect]; exact hle, fun hsame ↦ ?_⟩
  rw [hfirst.effect, hnext.effect] at hsame
  exact hfirst.follows hnext (hfollows hsame)

/-- A further socket keeps the pace if it belongs to a later run, or is the next attempt of the last
one. -/
theorem Paced.append {sockets : List WebSocket} (hpaced : Paced sockets) {next : WebSocket}
    (hnext : ∀ last ∈ sockets.getLast?,
      last.effect ≤ next.effect ∧ (last.effect = next.effect → Follows last next)) :
    Paced (sockets ++ [next]) := by
  rw [Paced, List.isChain_append]
  refine ⟨hpaced, List.isChain_singleton _, fun last hlast first hfirst ↦ ?_⟩
  obtain rfl : next = first := by simpa using hfirst
  exact hnext last hlast

/-! ### The invariant -/

/-- What the mounted run is doing, which has the given variables and socket. -/
inductive Doing (client : SignalingClient ν) (vars : EffectRun) (socket : WebSocket) : Prop
  | live (hready : socket.readyState ≠ .CLOSED) (htimers : client.timers.entries = [])
      (hattempt : vars.retryAttempt = failedAttempts socket)
      (hended : vars.intentionalClose = socket.ended)
      (hshown : client.status = .connected → failedAttempts socket = 0)
  | waiting (timer due : ℕ) (hready : socket.readyState = .CLOSED) (hretried : Retried socket)
      (hshown : client.status = closedStatus socket)
      (htimers : client.timers.entries = [(timer, ⟨socket.effect, due⟩)])
      (hvar : vars.reconnectTimer = some timer) (hended : vars.intentionalClose = false)
      (hattempt : vars.retryAttempt = failedAttempts socket + 1)
      (hdue : Waited socket due)
  | settled (hready : socket.readyState = .CLOSED) (hretried : ¬ Retried socket)
      (hshown : client.status = closedStatus socket) (htimers : client.timers.entries = [])

/-- The run that is mounted has the last socket, and all others are shut. -/
structure Mounted (client : SignalingClient ν) (vars : EffectRun) (before : List WebSocket)
    (socket : WebSocket) : Prop where
  cleanup : client.cleanup = some socket.effect
  current : client.effects[socket.effect]? = some vars
  isMounted : vars.isMounted = true
  sockets : client.sockets = before ++ [socket]
  socketRef : client.socketRef = some before.length
  shut : ∀ other ∈ before, Shut other
  doing : Doing client vars socket

/-- No run is mounted. -/
structure Idle (client : SignalingClient ν) : Prop where
  cleanup : client.cleanup = none
  socketRef : client.socketRef = none
  timers : client.timers.entries = []
  shut : ∀ socket ∈ client.sockets, Shut socket

/-- The invariant of the hook at a time. -/
structure Kept (now : ℕ) (client : SignalingClient ν) : Prop where
  paced : Paced client.sockets
  past : ∀ socket ∈ client.sockets,
    socket.effect < client.effects.length ∧ socket.createdAt ≤ now
  stage : Idle client ∨ ∃ vars before socket, Mounted client vars before socket

variable {client : SignalingClient ν} {vars : EffectRun} {before : List WebSocket}
  {socket : WebSocket} {now : ℕ}

theorem kept_initial (now : ℕ) : Kept now (SignalingClient.initial : SignalingClient ν) where
  paced := List.isChain_nil
  past := fun _ hmem ↦ nomatch hmem
  stage := Or.inl ⟨rfl, rfl, rfl, fun _ hmem ↦ nomatch hmem⟩

theorem Doing.congr {other : SignalingClient ν} (hdoing : Doing client vars socket)
    (hstatus : other.status = client.status) (htimers : other.timers = client.timers) :
    Doing other vars socket := by
  cases hdoing with
  | live hready hnone hattempt hended hshown =>
    exact .live hready (htimers ▸ hnone) hattempt hended (hstatus ▸ hshown)
  | waiting timer due hready hretried hshown hone hvar hended hattempt hdue =>
    exact .waiting timer due hready hretried (hstatus ▸ hshown) (htimers ▸ hone) hvar hended
      hattempt hdue
  | settled hready hretried hshown hnone =>
    exact .settled hready hretried (hstatus ▸ hshown) (htimers ▸ hnone)

theorem Kept.mono {later : ℕ} (hkept : Kept now client) (hle : now ≤ later) : Kept later client :=
  ⟨hkept.paced, fun socket hmem ↦
    ⟨(hkept.past socket hmem).1, (hkept.past socket hmem).2.trans hle⟩, hkept.stage⟩

/-- What is known of the sockets survives a change of one. -/
theorem past_set {sockets : List WebSocket} {runs : ℕ}
    (hpast : ∀ socket ∈ sockets, socket.effect < runs ∧ socket.createdAt ≤ now) {index : ℕ}
    {old new : WebSocket} (hold : sockets[index]? = some old) (hevolves : Evolves old new) :
    ∀ socket ∈ sockets.set index new, socket.effect < runs ∧ socket.createdAt ≤ now := by
  intro socket hmem
  rcases List.mem_or_eq_of_mem_set hmem with hmem | rfl
  · exact hpast socket hmem
  · rw [hevolves.effect, hevolves.createdAt]
    exact hpast old (List.mem_of_getElem? hold)

/-- A shut socket that is not the current one may change. -/
theorem Kept.setSocket_of_ne (hkept : Kept now client) {index : ℕ} {old new : WebSocket}
    (hold : client.sockets[index]? = some old) (hevolves : Evolves old new) (hshut : Shut new)
    (hother : client.socketRef ≠ some index) : Kept now (setSocket index new client) := by
  refine ⟨hkept.paced.set hold hevolves, past_set hkept.past hold hevolves, ?_⟩
  rcases hkept.stage with hidle | ⟨vars, before, socket, hmounted⟩
  · refine Or.inl ⟨hidle.cleanup, hidle.socketRef, hidle.timers, fun other hmem ↦ ?_⟩
    rcases List.mem_or_eq_of_mem_set hmem with hmem | rfl
    · exact hidle.shut other hmem
    · exact hshut
  · refine Or.inr ⟨vars, before.set index new, socket, hmounted.cleanup, hmounted.current,
      hmounted.isMounted, ?_, ?_, fun other hmem ↦ ?_, hmounted.doing.congr rfl rfl⟩
    · change client.sockets.set index new = _
      have hlt := (List.getElem?_eq_some_iff.mp hold).1
      have hne : index ≠ before.length := fun hsame ↦ hother (hsame ▸ hmounted.socketRef)
      rw [hmounted.sockets, List.length_append, List.length_singleton] at hlt
      rw [hmounted.sockets, List.set_append_left _ _ (by omega)]
    · rw [List.length_set]
      exact hmounted.socketRef
    · rcases List.mem_or_eq_of_mem_set hmem with hmem | rfl
      · exact hmounted.shut other hmem
      · exact hshut

theorem Mounted.getElem? (hmounted : Mounted client vars before socket) :
    client.sockets[before.length]? = some socket := by
  rw [hmounted.sockets, List.getElem?_concat_length]

/-- The sockets after a change of the last one. -/
theorem Mounted.set (hmounted : Mounted client vars before socket) (new : WebSocket) :
    client.sockets.set before.length new = before ++ [new] := by
  rw [hmounted.sockets, List.set_append_right _ _ le_rfl, Nat.sub_self]
  rfl

theorem Mounted.effects_set (hmounted : Mounted client vars before socket) :
    client.effects = client.effects.set socket.effect vars := by
  obtain ⟨hlt, hvars⟩ := List.getElem?_eq_some_iff.mp hmounted.current
  rw [← hvars, List.set_getElem_self]

/-- The mounted run changes its variables, its socket, and what is shown. -/
theorem Mounted.kept {next : SignalingClient ν} (hmounted : Mounted client vars before socket)
    (hkept : Kept now client) (new : WebSocket) {newVars : EffectRun}
    (hevolves : Evolves socket new) (hsockets : next.sockets = client.sockets.set before.length new)
    (heffects : next.effects = client.effects.set socket.effect newVars)
    (hmount : newVars.isMounted = true) (hcleanup : next.cleanup = client.cleanup)
    (hsocketRef : next.socketRef = client.socketRef) (hdoing : Doing next newVars new) :
    Kept now next := by
  refine ⟨hsockets ▸ hkept.paced.set hmounted.getElem? hevolves, ?_,
    Or.inr ⟨newVars, before, new, ?_, ?_, hmount, ?_, ?_, hmounted.shut, hdoing⟩⟩
  · rw [hsockets, heffects, List.length_set]
    exact past_set hkept.past hmounted.getElem? hevolves
  · rw [hcleanup, hevolves.effect, hmounted.cleanup]
  · rw [heffects, hevolves.effect]
    exact List.getElem?_set_self (List.getElem?_eq_some_iff.mp hmounted.current).1
  · rw [hsockets, hmounted.set]
  · rw [hsocketRef, hmounted.socketRef]

/-! ### Events of sockets -/

/-- The handlers of the current socket go on. -/
theorem Mounted.handling (hmounted : Mounted client vars before socket) :
    handling before.length socket client = some vars := by
  simp [Web.handling, hmounted.current, hmounted.isMounted, hmounted.socketRef]

theorem handling_setSocket (index place : ℕ) (new : WebSocket) :
    Web.handling index socket (setSocket place new client) = Web.handling index socket client := rfl

/-- Those of any other socket return at once. -/
theorem handling_of_ne {index : ℕ} (hother : client.socketRef ≠ some index) :
    handling index socket client = none := by
  simp [handling, hother]

/-- An event comes to the current socket, or to one that is shut. -/
theorem Kept.atSocket (hkept : Kept now client) {index : ℕ} {states : List WebSocketState}
    {handler : WebSocket → SignalingClient ν → SignalingClient ν}
    (hcurrent : ∀ vars before socket, Mounted client vars before socket → index = before.length →
      socket.readyState ∈ states → Kept now (handler socket client))
    (hother : ∀ socket, client.sockets[index]? = some socket → client.socketRef ≠ some index →
      Shut socket → socket.readyState ∈ states → Kept now (handler socket client)) :
    Kept now (atSocket index states handler client) := by
  cases hsocket : client.sockets[index]? with
  | none =>
    simp only [Web.atSocket, hsocket]
    exact hkept
  | some socket =>
    simp only [Web.atSocket, hsocket]
    split
    · rename_i hready
      rcases hkept.stage with hidle | ⟨vars, before, last, hmounted⟩
      · refine hother socket hsocket (by simp [hidle.socketRef]) ?_ hready
        exact hidle.shut socket (List.mem_of_getElem? hsocket)
      · by_cases hlast : index = before.length
        · obtain rfl : last = socket := by
            have hgot := hmounted.getElem?
            rw [← hlast, hsocket] at hgot
            exact (Option.some.inj hgot).symm
          exact hcurrent vars before last hmounted hlast hready
        · refine hother socket hsocket (by simp [hmounted.socketRef, Ne.symm hlast]) ?_ hready
          rw [hmounted.sockets] at hsocket
          have hlt := (List.getElem?_eq_some_iff.mp hsocket).1
          rw [List.length_append, List.length_singleton] at hlt
          rw [List.getElem?_append_left (by omega)] at hsocket
          exact hmounted.shut socket (List.mem_of_getElem? hsocket)
    · exact hkept

/-- A socket that is not closed is that of a live run. -/
theorem Doing.live_of_open (hdoing : Doing client vars socket)
    (hready : socket.readyState ≠ .CLOSED) :
    client.timers.entries = [] ∧ vars.retryAttempt = failedAttempts socket ∧
      vars.intentionalClose = socket.ended ∧
      (client.status = .connected → failedAttempts socket = 0) := by
  cases hdoing with
  | live _ htimers hattempt hended hshown => exact ⟨htimers, hattempt, hended, hshown⟩
  | waiting _ _ hclosed => exact absurd hclosed hready
  | settled hclosed => exact absurd hclosed hready

theorem Kept.opened (hkept : Kept now client) (index : ℕ) :
    Kept now (Web.atSocket index [.CONNECTING] (socketOpened index) client) := by
  refine hkept.atSocket (fun vars before socket hmounted hindex hready ↦ ?_)
    (fun socket _ _ hshut hready ↦ ?_)
  · subst hindex
    have hconnecting : socket.readyState = .CONNECTING := by simpa using hready
    have hopen : socket.readyState ≠ .CLOSED := by simp [hconnecting]
    obtain ⟨htimers, -, hended, -⟩ := hmounted.doing.live_of_open hopen
    simp only [socketOpened, handling_setSocket, hmounted.handling]
    refine hmounted.kept hkept { socket with readyState := .OPEN, opened := true }
      ⟨rfl, rfl, rfl, fun hclosed ↦ absurd hclosed hopen⟩ rfl rfl hmounted.isMounted rfl rfl ?_
    exact .live (by simp) htimers rfl hended fun _ ↦ rfl
  · rcases hshut with hshut | hshut <;> simp [hshut] at hready

theorem Kept.message (hkept : Kept now client) (index : ℕ) (message : Json.Fields ν) :
    Kept now (Web.atSocket index [.OPEN] (fun socket ↦ socketMessage index socket message)
      client) := by
  refine hkept.atSocket (fun vars before socket hmounted hindex hready ↦ ?_)
    (fun socket _ _ hshut hready ↦ ?_)
  · subst hindex
    have hopened : socket.readyState = .OPEN := by simpa using hready
    have hopen : socket.readyState ≠ .CLOSED := by simp [hopened]
    obtain ⟨htimers, hattempt, hended, hshown⟩ := hmounted.doing.live_of_open hopen
    simp only [socketMessage, hmounted.handling]
    split
    · refine hmounted.kept hkept { socket with ended := true }
        ⟨rfl, rfl, rfl, fun hclosed ↦ absurd hclosed hopen⟩ rfl rfl hmounted.isMounted rfl rfl ?_
      exact .live hopen htimers hattempt rfl fun hconnected ↦ by cases hconnected
    · exact ⟨hkept.paced, hkept.past, Or.inr ⟨vars, before, socket, hmounted.cleanup,
        hmounted.current, hmounted.isMounted, hmounted.sockets, hmounted.socketRef, hmounted.shut,
        hmounted.doing.congr rfl rfl⟩⟩
  · rcases hshut with hshut | hshut <;> simp [hshut] at hready

theorem Kept.errored (hkept : Kept now client) (index : ℕ) :
    Kept now (Web.atSocket index [.CONNECTING, .OPEN, .CLOSING] (socketError index) client) := by
  refine hkept.atSocket (fun vars before socket hmounted hindex hready ↦ ?_)
    (fun socket _ hother _ _ ↦ ?_)
  · subst hindex
    have hopen : socket.readyState ≠ .CLOSED := fun hclosed ↦ by simp [hclosed] at hready
    obtain ⟨htimers, hattempt, hended, -⟩ := hmounted.doing.live_of_open hopen
    simp only [socketError, hmounted.handling, Option.isSome_some, if_true]
    exact ⟨hkept.paced, hkept.past, Or.inr ⟨vars, before, socket, hmounted.cleanup,
      hmounted.current, hmounted.isMounted, hmounted.sockets, hmounted.socketRef, hmounted.shut,
      .live hopen htimers hattempt hended fun hconnected ↦ by cases hconnected⟩⟩
  · simp only [socketError, handling_of_ne hother, Option.isSome_none, Bool.false_eq_true, if_false]
    exact hkept

theorem Kept.closing (hkept : Kept now client) (index : ℕ) :
    Kept now (Web.atSocket index [.CONNECTING, .OPEN]
      (fun socket ↦ setSocket index { socket with readyState := .CLOSING }) client) := by
  refine hkept.atSocket (fun vars before socket hmounted hindex hready ↦ ?_)
    (fun socket _ _ hshut hready ↦ ?_)
  · subst hindex
    have hopen : socket.readyState ≠ .CLOSED := fun hclosed ↦ by simp [hclosed] at hready
    obtain ⟨htimers, hattempt, hended, hshown⟩ := hmounted.doing.live_of_open hopen
    refine hmounted.kept hkept { socket with readyState := .CLOSING }
      ⟨rfl, rfl, rfl, fun hclosed ↦ absurd hclosed hopen⟩ rfl
      hmounted.effects_set hmounted.isMounted rfl rfl ?_
    exact .live (by simp) htimers hattempt hended hshown
  · rcases hshut with hshut | hshut <;> simp [hshut] at hready

/-- The timer that connects again is armed when the run has none. -/
theorem timers_reconnectLater {effect : ℕ} (htimers : client.timers.entries = []) :
    (reconnectLater effect now vars client).timers.entries =
      [(client.nextTimer, ⟨effect, now + reconnectWait vars.retryAttempt⟩)] := by
  have hfresh : client.timers.has client.nextTimer = false := by
    rw [OrderedMap.has_eq_false_iff, OrderedMap.get?_eq_none_iff]
    simp [OrderedMap.keys, htimers]
  change (client.timers.set _ _).entries = _
  rw [OrderedMap.entries_set_of_fresh hfresh, htimers]
  rfl

theorem Kept.closed (hkept : Kept now client) (index code : ℕ) (reason : String) :
    Kept now (Web.atSocket index [.CONNECTING, .OPEN, .CLOSING]
      (fun socket ↦ socketClosed index socket code reason now) client) := by
  refine hkept.atSocket (fun vars before socket hmounted hindex hready ↦ ?_)
    (fun socket hsocket hother _ hready ↦ ?_)
  · subst hindex
    have hopen : socket.readyState ≠ .CLOSED := fun hclosed ↦ by simp [hclosed] at hready
    obtain ⟨htimers, hattempt, hended, -⟩ := hmounted.doing.live_of_open hopen
    have hpast := hkept.past socket (List.mem_of_getElem? hmounted.getElem?)
    set new : WebSocket :=
      { socket with readyState := .CLOSED, closeCode := some code, closedAt := some now } with hnew
    have hevolves : Evolves socket new := ⟨rfl, rfl, rfl, fun hclosed ↦ absurd hclosed hopen⟩
    have hdone_iff : new.ended = true ∨ new.closeCode = some 1000 ↔
        vars.intentionalClose = true ∨ code = 1000 := by simp [hnew, hended]
    have hretried : Retried new ↔
        ¬ (vars.intentionalClose = true ∨ code = 1000) ∧ ¬ 4000 ≤ code := by
      simp [Retried, hnew, hended]
      tauto
    simp only [socketClosed, handling_setSocket, hmounted.handling]
    split
    · rename_i hdone
      refine hmounted.kept hkept _ hevolves rfl hmounted.effects_set hmounted.isMounted rfl rfl ?_
      refine .settled rfl (fun hagain ↦ (hretried.mp hagain).1 hdone) ?_ htimers
      rw [closedStatus, if_pos (hdone_iff.mpr hdone)]
    · rename_i hgoing
      split
      · rename_i hfatal
        refine hmounted.kept hkept _ hevolves rfl hmounted.effects_set hmounted.isMounted rfl rfl ?_
        refine .settled rfl (fun hagain ↦ (hretried.mp hagain).2 hfatal) ?_ htimers
        rw [closedStatus, if_neg (mt hdone_iff.mp hgoing),
          if_neg fun hagain ↦ (hretried.mp hagain).2 hfatal]
      · rename_i hfatal
        have hagain := hretried.mpr ⟨hgoing, hfatal⟩
        refine hmounted.kept hkept _ hevolves rfl rfl hmounted.isMounted rfl rfl ?_
        refine .waiting client.nextTimer (now + reconnectWait vars.retryAttempt) rfl hagain ?_
          (timers_reconnectLater htimers) rfl ?_ (congrArg (· + 1) hattempt) ?_
        · rw [closedStatus, if_neg (mt hdone_iff.mp hgoing), if_pos hagain]
          rfl
        · simpa using fun hintended ↦ hgoing (Or.inl hintended)
        · rw [hattempt]
          exact ⟨now, rfl, hpast.2, le_rfl⟩
  · simp only [socketClosed, handling_setSocket, handling_of_ne hother]
    refine hkept.setSocket_of_ne hsocket ⟨rfl, rfl, rfl, fun hclosed ↦ ?_⟩ (Or.inr rfl) hother
    simp [hclosed] at hready

/-! ### The effect and its timer -/

/-- The cleanup disarms whatever timer there is. -/
theorem Doing.cleared (hdoing : Doing client vars socket) :
    (vars.reconnectTimer.elim client.timers client.timers.delete).entries = [] := by
  cases hdoing with
  | live _ htimers => cases vars.reconnectTimer <;> simp [OrderedMap.delete, htimers]
  | waiting timer _ _ _ _ htimers hvar => simp [hvar, OrderedMap.delete, htimers]
  | settled _ _ _ htimers => cases vars.reconnectTimer <;> simp [OrderedMap.delete, htimers]

/-- After a cleanup no run is mounted. -/
theorem Kept.cleanup (hkept : Kept now client) :
    Kept now (runCleanup client) ∧ Idle (runCleanup client) := by
  rcases hkept.stage with hidle | ⟨vars, before, socket, hmounted⟩
  · have hnone : runCleanup client = client := by simp only [runCleanup, hidle.cleanup]
    rw [hnone]
    exact ⟨hkept, hidle⟩
  · have hevolves := Evolves.close socket
    have hmodify : client.sockets.modify before.length WebSocket.close =
        client.sockets.set before.length socket.close := by
      rw [List.modify_eq_set_getElem?, hmounted.getElem?]
      rfl
    simp only [runCleanup, hmounted.cleanup, hmounted.current, dropSocket, hmounted.socketRef]
    have hidle : ∀ other ∈ client.sockets.set before.length socket.close, Shut other := by
      rw [hmounted.set]
      intro other hmem
      rcases List.mem_append.mp hmem with hmem | hmem
      · exact hmounted.shut other hmem
      · rw [List.mem_singleton.mp hmem]
        exact shut_close socket
    rw [← hmodify] at hidle
    refine ⟨⟨?_, ?_, Or.inl ?_⟩, ?_⟩
    · exact hmodify ▸ hkept.paced.set hmounted.getElem? hevolves
    · simp only [List.length_set]
      exact hmodify ▸ past_set hkept.past hmounted.getElem? hevolves
    all_goals exact ⟨rfl, rfl, hmounted.doing.cleared, hidle⟩

/-- The effect connects when there is a token. -/
theorem Kept.effect (hkept : Kept now client) (hidle : Idle client) (token : Option String) :
    Kept now (runEffect token now client) := by
  cases htoken : truthyText token with
  | none =>
    simp only [runEffect, htoken, dropSocket, hidle.socketRef]
    exact ⟨hkept.paced, hkept.past, Or.inl ⟨hidle.cleanup, rfl, hidle.timers, hidle.shut⟩⟩
  | some token =>
    have hvars : (client.effects ++ [newRun])[client.effects.length]? = some newRun :=
      List.getElem?_concat_length
    simp only [runEffect, htoken, connectEffect, hvars]
    refine ⟨hkept.paced.append fun last hlast ↦ ?_, fun socket hmem ↦ ?_,
      Or.inr ⟨newRun, client.sockets, newSocket client.effects.length now 0, rfl, hvars, rfl, rfl,
        rfl, hidle.shut, .live (by simp [newSocket]) hidle.timers rfl rfl fun _ ↦ rfl⟩⟩
    · have hlt := (hkept.past last (List.mem_of_getLast? hlast)).1
      exact ⟨hlt.le, fun hsame ↦ absurd hsame hlt.ne⟩
    · change socket.effect < (client.effects ++ [newRun]).length ∧ socket.createdAt ≤ now
      rw [List.length_append]
      rcases List.mem_append.mp hmem with hmem | hmem
      · exact ⟨(hkept.past socket hmem).1.trans (Nat.lt_succ_self _), (hkept.past socket hmem).2⟩
      · rw [List.mem_singleton.mp hmem]
        exact ⟨Nat.lt_succ_self _, le_rfl⟩

/-- An armed timer is that of a run that waits. -/
theorem Doing.waiting_of_armed (hdoing : Doing client vars socket) {timer : ℕ}
    {armed : ReconnectTimer} (harmed : client.timers.get? timer = some armed) :
    client.timers.entries = [(timer, armed)] ∧ armed.effect = socket.effect ∧
      socket.readyState = .CLOSED ∧ Retried socket ∧ client.status = closedStatus socket ∧
      vars.intentionalClose = false ∧ vars.retryAttempt = failedAttempts socket + 1 ∧
      Waited socket armed.due := by
  have hmem := OrderedMap.mem_entries_iff.mpr harmed
  cases hdoing with
  | live _ htimers => simp [htimers] at hmem
  | settled _ _ _ htimers => simp [htimers] at hmem
  | waiting other due hready hretried hshown htimers hvar hended hattempt hdue =>
    rw [htimers, List.mem_singleton, Prod.mk.injEq] at hmem
    obtain ⟨rfl, rfl⟩ := hmem
    exact ⟨htimers, rfl, hready, hretried, hshown, hended, hattempt, hdue⟩

theorem Idle.not_armed (hidle : Idle client) (timer : ℕ) : client.timers.get? timer = none := by
  rw [OrderedMap.get?_eq_none_iff]
  simp [OrderedMap.keys, hidle.timers]

/-- A timer that is due makes the next attempt. -/
theorem Kept.timer (hkept : Kept now client) {timer : ℕ} {armed : ReconnectTimer}
    (harmed : client.timers.get? timer = some armed) (hdue : armed.due ≤ now) :
    Kept now (connectEffect armed.effect now
      { client with timers := client.timers.delete timer }) := by
  rcases hkept.stage with hidle | ⟨vars, before, socket, hmounted⟩
  · simp [hidle.not_armed] at harmed
  · obtain ⟨htimers, heffect, hready, hretried, hshown, hended, hattempt, hwaited⟩ :=
      hmounted.doing.waiting_of_armed harmed
    have hstatus : client.status = .reconnecting := by
      rw [hshown, closedStatus, if_neg, if_pos hretried]
      rintro (hdone | hdone)
      · exact absurd (hretried.1.symm.trans hdone) Bool.false_ne_true
      · obtain ⟨code, hcode, hne, -⟩ := hretried.2
        exact hne (Option.some.inj ((Option.mem_def.mp hcode).symm.trans hdone))
    have hnone : (client.timers.delete timer).entries = [] := by
      simp [OrderedMap.delete, htimers]
    have hpast := hkept.past socket (List.mem_of_getElem? hmounted.getElem?)
    simp only [connectEffect, heffect, hmounted.current, hmounted.isMounted, Bool.true_eq_false,
      if_false]
    refine ⟨hkept.paced.append fun last hlast ↦ ?_, fun other hmem ↦ ?_,
      Or.inr ⟨vars, client.sockets, newSocket socket.effect now vars.retryAttempt,
        hmounted.cleanup, hmounted.current, hmounted.isMounted, rfl, rfl, fun other hmem ↦ ?_,
        .live (by simp [newSocket]) hnone rfl hended fun hconnected ↦ ?_⟩⟩
    · obtain rfl : socket = last := by
        rw [hmounted.sockets, List.getLast?_concat] at hlast
        exact Option.some.inj hlast
      exact ⟨le_rfl, fun _ ↦ ⟨hready, hretried, hattempt, hwaited.mono hdue⟩⟩
    · rcases List.mem_append.mp hmem with hmem | hmem
      · exact hkept.past other hmem
      · rw [List.mem_singleton.mp hmem]
        exact ⟨hpast.1, le_rfl⟩
    · rw [hmounted.sockets] at hmem
      rcases List.mem_append.mp hmem with hmem | hmem
      · exact hmounted.shut other hmem
      · rw [List.mem_singleton.mp hmem]
        exact Or.inr hready
    · simp only [hstatus, reduceCtorEq, if_false, hattempt, Nat.succ_pos, if_true] at hconnected

/-! ### Runs -/

/-- The invariant does not depend on what was sent. -/
theorem Kept.congr {other : SignalingClient ν} (hkept : Kept now client)
    (hsockets : other.sockets = client.sockets) (heffects : other.effects = client.effects)
    (hcleanup : other.cleanup = client.cleanup) (hsocketRef : other.socketRef = client.socketRef)
    (hstatus : other.status = client.status) (htimers : other.timers = client.timers) :
    Kept now other := by
  refine ⟨hsockets ▸ hkept.paced, by rw [hsockets, heffects]; exact hkept.past, ?_⟩
  rcases hkept.stage with hidle | ⟨vars, before, socket, hmounted⟩
  · exact Or.inl ⟨hcleanup ▸ hidle.cleanup, hsocketRef ▸ hidle.socketRef, htimers ▸ hidle.timers,
      hsockets ▸ hidle.shut⟩
  · exact Or.inr ⟨vars, before, socket, hcleanup ▸ hmounted.cleanup, heffects ▸ hmounted.current,
      hmounted.isMounted, hsockets ▸ hmounted.sockets, hsocketRef ▸ hmounted.socketRef,
      hmounted.shut, hmounted.doing.congr hstatus htimers⟩

/-- Whatever happens, the invariant is kept. -/
theorem Kept.happen (hkept : Kept now client) (event : ConnectionEvent ν) :
    Kept now (happen now client event) := by
  cases event with
  | effect token => exact hkept.cleanup.1.effect hkept.cleanup.2 token
  | unmount => exact hkept.cleanup.1
  | opened index => exact hkept.opened index
  | message index message =>
    cases message with
    | none => exact hkept
    | some message => exact hkept.message index message
  | errored index => exact hkept.errored index
  | closing index => exact hkept.closing index
  | closed index code reason => exact hkept.closed index code reason
  | timer timer =>
    cases harmed : client.timers.get? timer with
    | none =>
      simp only [Web.happen, harmed]
      exact hkept
    | some armed =>
      simp only [Web.happen, harmed]
      split
      · exact hkept.timer harmed ‹_›
      · exact hkept
  | send message =>
    simp only [Web.happen]
    split
    · split
      · exact hkept.congr rfl rfl rfl rfl rfl rfl
      · exact hkept
    · exact hkept

/-- The invariant holds after every run. -/
theorem kept_connectionRun (events : List (ℕ × ConnectionEvent ν)) :
    Kept (connectionRun events).clock (connectionRun events) := by
  refine run_invariant_of_step (fun client ↦ Kept client.clock client)
    (fun client event hkept ↦ ?_) (kept_initial _) events
  exact ((hkept.mono (Nat.le_add_right _ _)).happen event.2).congr rfl rfl rfl rfl rfl rfl

/-- What is always true of the connection. -/
structure OneConnection (client : SignalingClient ν) : Prop where
  /-- Only the current socket is connecting or open, and then no timer is armed. -/
  alone : ∀ index socket, client.sockets[index]? = some socket → ¬ Shut socket →
    client.socketRef = some index ∧ client.cleanup = some socket.effect ∧
      client.timers.entries = []
  /-- A mounted run has a socket. Once it is closed, a timer is armed exactly when that asks for
  another attempt, and what is shown agrees; before, the client is not shown as connected when
  attempts have failed since. -/
  mounted : ∀ effect, client.cleanup = some effect → ∃ index socket,
    client.socketRef = some index ∧ client.sockets[index]? = some socket ∧
      socket.effect = effect ∧ client.timers.size ≤ 1 ∧
      (∀ armed ∈ client.timers.values, armed.effect = effect) ∧
      (client.timers.size = 1 ↔ socket.readyState = .CLOSED ∧ Retried socket) ∧
      (socket.readyState = .CLOSED → client.status = closedStatus socket) ∧
      (client.status = .connected → socket.readyState ≠ .CLOSED ∧ failedAttempts socket = 0)
  /-- Nothing is left of a hook that is gone, or has no token. -/
  gone : client.cleanup = none → client.socketRef = none ∧ client.timers.entries = []

theorem closedStatus_ne_connected (socket : WebSocket) : closedStatus socket ≠ .connected := by
  unfold closedStatus
  split_ifs <;> simp

theorem Doing.size_eq_one_iff (hdoing : Doing client vars socket) :
    client.timers.size = 1 ↔ socket.readyState = .CLOSED ∧ Retried socket := by
  rw [OrderedMap.size]
  cases hdoing with
  | live hready htimers => simp [htimers, hready]
  | waiting timer due hready hretried _ htimers => simp [htimers, hready, hretried]
  | settled hready hretried _ htimers => simp [htimers, hretried]

theorem Doing.size_le_one (hdoing : Doing client vars socket) : client.timers.size ≤ 1 := by
  rw [OrderedMap.size]
  cases hdoing with
  | live _ htimers => simp [htimers]
  | waiting _ _ _ _ _ htimers => simp [htimers]
  | settled _ _ _ htimers => simp [htimers]

theorem Doing.effect_of_armed (hdoing : Doing client vars socket) {armed : ReconnectTimer}
    (harmed : armed ∈ client.timers.values) : armed.effect = socket.effect := by
  obtain ⟨timer, hget⟩ := OrderedMap.mem_values_iff.mp harmed
  exact (hdoing.waiting_of_armed hget).2.1

theorem Doing.status (hdoing : Doing client vars socket) :
    (socket.readyState = .CLOSED → client.status = closedStatus socket) ∧
      (client.status = .connected → socket.readyState ≠ .CLOSED ∧ failedAttempts socket = 0) := by
  cases hdoing with
  | live hready _ _ _ hshown =>
    exact ⟨fun hclosed ↦ absurd hclosed hready, fun hconnected ↦ ⟨hready, hshown hconnected⟩⟩
  | waiting _ _ _ _ hshown =>
    exact ⟨fun _ ↦ hshown, fun hconnected ↦
      absurd (hshown.symm.trans hconnected) (closedStatus_ne_connected socket)⟩
  | settled _ _ hshown =>
    exact ⟨fun _ ↦ hshown, fun hconnected ↦
      absurd (hshown.symm.trans hconnected) (closedStatus_ne_connected socket)⟩

theorem Kept.oneConnection (hkept : Kept now client) : OneConnection client := by
  rcases hkept.stage with hidle | ⟨vars, before, socket, hmounted⟩
  · refine ⟨fun index socket hsocket hopen ↦ ?_, fun effect heffect ↦ ?_, fun _ ↦ ?_⟩
    · exact absurd (hidle.shut socket (List.mem_of_getElem? hsocket)) hopen
    · simp [hidle.cleanup] at heffect
    · exact ⟨hidle.socketRef, hidle.timers⟩
  · refine ⟨fun index other hother hopen ↦ ?_, fun effect heffect ↦ ?_, fun hnone ↦ ?_⟩
    · rw [hmounted.sockets] at hother
      by_cases hlt : index < before.length
      · rw [List.getElem?_append_left hlt] at hother
        exact absurd (hmounted.shut other (List.mem_of_getElem? hother)) hopen
      · obtain rfl : index = before.length := by
          have hindex := (List.getElem?_eq_some_iff.mp hother).1
          rw [List.length_append, List.length_singleton] at hindex
          omega
        rw [List.getElem?_concat_length] at hother
        obtain rfl := Option.some.inj hother
        exact ⟨hmounted.socketRef, hmounted.cleanup,
          (hmounted.doing.live_of_open fun hclosed ↦ hopen (Or.inr hclosed)).1⟩
    · obtain rfl : socket.effect = effect :=
        Option.some.inj (hmounted.cleanup.symm.trans heffect)
      exact ⟨before.length, socket, hmounted.socketRef, hmounted.getElem?, rfl,
        hmounted.doing.size_le_one, fun _ ↦ hmounted.doing.effect_of_armed,
        hmounted.doing.size_eq_one_iff, hmounted.doing.status.1, hmounted.doing.status.2⟩
    · simp [hmounted.cleanup] at hnone

/-- In every run of the hook, whatever its sockets, timers and tokens do. -/
theorem connection_kept (events : List (ℕ × ConnectionEvent ν)) :
    OneConnection (connectionRun events) :=
  (kept_connectionRun events).oneConnection

/-! ### The pace of the attempts -/

/-- The delay before an attempt is between one and eight seconds. -/
theorem reconnectWait_mem (retryAttempt : ℕ) :
    1000 ≤ reconnectWait retryAttempt ∧ reconnectWait retryAttempt ≤ 8000 := by
  have hone : (1 : ℚ) ≤ (3 / 2) ^ retryAttempt := one_le_pow₀ (by norm_num)
  have hlow : (1000 : ℚ) ≤ reconnectDelay retryAttempt := le_min (by linarith) (by norm_num)
  have hhigh : reconnectDelay retryAttempt ≤ 8000 := min_le_right _ _
  have hfloorLow : (1000 : ℤ) ≤ ⌊reconnectDelay retryAttempt⌋ :=
    Int.le_floor.mpr (by exact_mod_cast hlow)
  have hfloorHigh : ⌊reconnectDelay retryAttempt⌋ ≤ (8000 : ℤ) :=
    Int.floor_le_iff.mpr (by push_cast; linarith)
  have hsame : reconnectWait retryAttempt = ⌊reconnectDelay retryAttempt⌋.toNat := rfl
  omega

example : (List.range 7).map reconnectWait = [1000, 1500, 2250, 3375, 5062, 7593, 8000] := by
  decide +kernel

/-- The attempts of one run are at least a second apart. -/
theorem Paced.apart {sockets : List WebSocket} (hpaced : Paced sockets) {index : ℕ}
    {first : WebSocket} (hfirst : sockets[index]? = some first) (count : ℕ) :
    ∀ {last : WebSocket}, sockets[index + count]? = some last → first.effect ≤ last.effect ∧
      (first.effect = last.effect → first.createdAt + 1000 * count ≤ last.createdAt) := by
  rw [Paced, List.isChain_iff_getElem] at hpaced
  induction count with
  | zero =>
    intro last hlast
    obtain rfl := Option.some.inj (hfirst.symm.trans hlast)
    exact ⟨le_rfl, fun _ ↦ le_rfl⟩
  | succ count ih =>
    intro last hlast
    obtain ⟨hlt, hget⟩ := List.getElem?_eq_some_iff.mp hlast
    obtain ⟨hle, hrest⟩ := ih (List.getElem?_eq_getElem (by omega))
    obtain ⟨hnext, hfollows⟩ := hpaced (index + count) hlt
    change sockets[index + count + 1] = last at hget
    rw [hget] at hnext hfollows
    refine ⟨hle.trans hnext, fun hsame ↦ ?_⟩
    have hmiddle : first.effect = sockets[index + count].effect :=
      le_antisymm hle (hnext.trans hsame.ge)
    have hpassed := hrest hmiddle
    obtain ⟨closedAt, -, hcreated, hwait⟩ := (hfollows (hmiddle.symm.trans hsame)).waited
    calc first.createdAt + 1000 * (count + 1) = first.createdAt + 1000 * count + 1000 := by ring
      _ ≤ closedAt + reconnectWait (failedAttempts sockets[index + count]) :=
        Nat.add_le_add (hpassed.trans hcreated) (reconnectWait_mem _).1
      _ ≤ last.createdAt := hwait

/-- In every run of the hook, an attempt after the first of its run comes when its predecessor was
closed for a reason that asks for it, and has been closed for as long as the delay says; so the
attempts of one run are at least a second apart. -/
theorem attempts_paced (events : List (ℕ × ConnectionEvent ν)) :
    Paced (connectionRun events).sockets ∧
      ∀ index count first last, (connectionRun events).sockets[index]? = some first →
        (connectionRun events).sockets[index + count]? = some last →
          first.effect = last.effect → first.createdAt + 1000 * count ≤ last.createdAt :=
  have hpaced := (kept_connectionRun events).paced
  ⟨hpaced, fun _ count _ _ hfirst hlast hsame ↦ (hpaced.apart hfirst count hlast).2 hsame⟩

end CampusMesh.Web
