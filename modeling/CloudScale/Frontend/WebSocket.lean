/-
  The shared `ResilientWebSocket` (`lib/websocket.ts`) and the sockets it has created.

  The handlers of every socket act on the shared object, whichever socket that object holds by
  then, and `disconnect` leaves the reconnect timers running. A state has the fields of the
  object, all sockets in the order of their creation, the number of timers that are still to
  fire, and whether the application has asked for the connection to stay down. An event of a
  run is a call of the application, something that happens to one socket, or a timer.

  `one_socket_live`: at most one socket is live, and none was created after `disconnect`, in every
  run in which no error or close event comes in while the object holds a live socket and no timer
  opens a socket after `disconnect` (`Calm`); a step that is not so breaks one of the two, at once
  or at the next `connect`. `late_close` has a run for each.

  Listeners are told of every change of status and change nothing, so they are left out, and with
  them `onmessage`.
-/
import CloudScale.Lib.Run
import Mathlib.Data.List.Basic

namespace CloudScale.Frontend

open CloudScale.Lib

/-! ## Sockets -/

inductive ReadyState where
  | connecting
  | opened
  | closing
  | closed
deriving DecidableEq

/-- Connecting or open. -/
def ReadyState.live : ReadyState → Bool
  | .connecting | .opened => true
  | .closing | .closed => false

structure Socket where
  readyState : ReadyState := .connecting
  /-- `onerror` was delivered. -/
  errored : Bool := false
  /-- `onclose` was delivered. -/
  ended : Bool := false
  /-- The pings sent. -/
  pings : ℕ := 0
  /-- It was created after `disconnect`, before the application called `connect` again. -/
  uninvited : Bool := false
deriving DecidableEq

/-- `WebSocket.close`. -/
def Socket.close (k : Socket) : Socket :=
  if k.readyState.live then { k with readyState := .closing } else k

theorem Socket.close_live (k : Socket) : k.close.readyState.live = false := by
  unfold close
  split
  · rfl
  · next hlive => exact Bool.eq_false_iff.mpr hlive

@[simp] theorem Socket.close_uninvited (k : Socket) : k.close.uninvited = k.uninvited := by
  unfold close
  split <;> rfl

inductive WSConnectionStatus where
  | connecting
  | opened
  | closed
deriving DecidableEq

def maxReconnectAttempts : ℕ := 5

structure ResilientWebSocket where
  /-- The socket in use, by its place in `sockets`. -/
  ws : Option ℕ := none
  status : WSConnectionStatus := .closed
  reconnectAttempts : ℕ := 0
  heartbeatTimer : Bool := false
  /-- Every socket created so far. -/
  sockets : List Socket := []
  /-- Timers that will call `connect`. -/
  timers : ℕ := 0
  /-- The application's last call was `disconnect`. -/
  disconnected : Bool := false
deriving DecidableEq

namespace ResilientWebSocket

def readyState (s : ResilientWebSocket) (i : ℕ) : Option ReadyState :=
  s.sockets[i]?.map Socket.readyState

/-- Socket `i` is connecting or open. -/
def live (s : ResilientWebSocket) (i : ℕ) : Bool := (s.readyState i).any ReadyState.live

/-- The guard of `connect`: `this.ws` is connecting or open. -/
def connected (s : ResilientWebSocket) : Bool := s.ws.any s.live

/-- Something happens to socket `i`. -/
def update (s : ResilientWebSocket) (i : ℕ) (f : Socket → Socket) : ResilientWebSocket :=
  { s with sockets := s.sockets.modify i f }

/-! ## The methods -/

def setStatus (s : ResilientWebSocket) (newStatus : WSConnectionStatus) : ResilientWebSocket :=
  { s with status := newStatus }

def stopHeartbeat (s : ResilientWebSocket) : ResilientWebSocket :=
  { s with heartbeatTimer := false }

def startHeartbeat (s : ResilientWebSocket) : ResilientWebSocket :=
  { s.stopHeartbeat with heartbeatTimer := true }

def handleCloseOrFailure (s : ResilientWebSocket) : ResilientWebSocket :=
  let s := { (s.setStatus .closed).stopHeartbeat with ws := none }
  if s.reconnectAttempts < maxReconnectAttempts then
    { s with reconnectAttempts := s.reconnectAttempts + 1, timers := s.timers + 1 }
  else s

/-- `connect`; `throws` says whether `new WebSocket` does. -/
def connect (s : ResilientWebSocket) (throws : Bool) : ResilientWebSocket :=
  if s.connected then s
  else
    let s := s.setStatus .connecting
    if throws then s.handleCloseOrFailure
    else { s with ws := some s.sockets.length
                  sockets := s.sockets ++ [{ uninvited := s.disconnected }] }

def onopen (s : ResilientWebSocket) : ResilientWebSocket :=
  { s.setStatus .opened with reconnectAttempts := 0 }.startHeartbeat

/-- The callback of the heartbeat. -/
def heartbeat (s : ResilientWebSocket) : ResilientWebSocket :=
  match s.ws with
  | some i =>
    if s.readyState i = some .opened then s.update i fun k => { k with pings := k.pings + 1 } else s
  | none => s

def disconnect (s : ResilientWebSocket) : ResilientWebSocket :=
  let s := s.stopHeartbeat
  let s := match s.ws with
    | some i => { s.update i Socket.close with ws := none }
    | none => s
  s.setStatus .closed

end ResilientWebSocket

/-! ## Runs -/

inductive SocketEvent where
  /-- The application calls `connect`. -/
  | connect (throws : Bool)
  /-- The application calls `disconnect`. -/
  | disconnect
  /-- The connection of socket `i` is established. -/
  | opens (i : ℕ)
  /-- The connection of socket `i` has failed or is closed; its events are still to come. -/
  | ends (i : ℕ)
  | onerror (i : ℕ)
  | onclose (i : ℕ)
  /-- A reconnect timer fires. -/
  | timer (throws : Bool)
  | heartbeat
deriving DecidableEq

namespace ResilientWebSocket

/-- Socket `i` has ended and its close event is still to come. -/
def awaitsClose (s : ResilientWebSocket) (i : ℕ) : Bool :=
  s.sockets[i]?.any fun k => k.readyState = .closed && !k.ended

/-- Its error event may still come as well, before the close event. -/
def mayError (s : ResilientWebSocket) (i : ℕ) : Bool :=
  s.awaitsClose i && s.sockets[i]?.any fun k => !k.errored

def step (s : ResilientWebSocket) : SocketEvent → Option ResilientWebSocket
  | .connect throws => some ({ s with disconnected := false }.connect throws)
  | .disconnect => some { s.disconnect with disconnected := true }
  | .opens i =>
    if s.readyState i = some .connecting then
      some (s.update i fun k => { k with readyState := .opened }).onopen
    else none
  | .ends i =>
    if (s.readyState i).any (· ≠ .closed) then
      some (s.update i fun k => { k with readyState := .closed })
    else none
  | .onerror i =>
    if s.mayError i then some (s.update i fun k => { k with errored := true }).handleCloseOrFailure
    else none
  | .onclose i =>
    if s.awaitsClose i then some (s.update i fun k => { k with ended := true }).handleCloseOrFailure
    else none
  | .timer throws =>
    if 0 < s.timers then some ({ s with timers := s.timers - 1 }.connect throws) else none
  | .heartbeat => if s.heartbeatTimer then some s.heartbeat else none

/-- At most one socket is connecting or open. -/
def OneLive (s : ResilientWebSocket) : Prop := ∀ i j, s.live i → s.live j → i = j

/-- No socket was created between `disconnect` and the next `connect` of the application. -/
def NoneUninvited (s : ResilientWebSocket) : Prop := ∀ k ∈ s.sockets, k.uninvited = false

instance (s : ResilientWebSocket) : Decidable s.NoneUninvited :=
  inferInstanceAs (Decidable (∀ k ∈ s.sockets, k.uninvited = false))

/-- An error or close event finds no live socket in use, and a timer creates none after
    `disconnect`. -/
def Calm (s : ResilientWebSocket) : SocketEvent → Prop
  | .onerror _ | .onclose _ => s.connected = false
  | .timer throws => throws ∨ s.disconnected = false
  | _ => True

instance (s : ResilientWebSocket) : DecidablePred s.Calm
  | .onerror _ | .onclose _ => inferInstanceAs (Decidable (_ = _))
  | .timer _ => inferInstanceAs (Decidable (_ ∨ _))
  | .connect _ | .disconnect | .opens _ | .ends _ | .heartbeat => isTrue trivial

/-! ## What a step changes -/

section Update

variable {s : ResilientWebSocket} {i : ℕ} {f : Socket → Socket}

theorem live_iff {j : ℕ} : s.live j ↔ ∃ k ∈ s.sockets[j]?, k.readyState.live := by
  unfold live readyState
  rw [Option.any_map, Option.any_eq_true]
  rfl

/-- Where the sockets come from after a change of socket `i`. -/
theorem exists_of_update {j : ℕ} {k : Socket} (h : (s.update i f).sockets[j]? = some k) :
    ∃ k', s.sockets[j]? = some k' ∧ (if i = j then f k' else k') = k := by
  unfold update at h
  rw [List.getElem?_modify] at h
  exact Option.map_eq_some_iff.mp h

/-- A change that makes no socket live leaves none live that was not. -/
theorem live_of_update (hf : ∀ k ∈ s.sockets[i]?, (f k).readyState.live → k.readyState.live)
    {j : ℕ} (h : (s.update i f).live j) : s.live j := by
  obtain ⟨k, hk, hlive⟩ := live_iff.mp h
  obtain ⟨k', hk', rfl⟩ := exists_of_update hk
  refine live_iff.mpr ⟨k', hk', ?_⟩
  split at hlive
  · next hij =>
    subst hij
    exact hf k' hk' hlive
  · exact hlive

theorem not_live_update (hf : ∀ k, (f k).readyState.live = false) : ¬ (s.update i f).live i := by
  intro h
  obtain ⟨k, hk, hlive⟩ := live_iff.mp h
  obtain ⟨k', -, rfl⟩ := exists_of_update hk
  rw [if_pos rfl, hf k'] at hlive
  cases hlive

theorem live_update (hf : ∀ k, (f k).readyState = k.readyState) (j : ℕ) :
    (s.update i f).live j = s.live j := by
  refine Bool.eq_iff_iff.mpr ⟨live_of_update fun k _ h => hf k ▸ h, fun h => ?_⟩
  obtain ⟨k, hk, hlive⟩ := live_iff.mp h
  refine live_iff.mpr ⟨if i = j then f k else k, ?_, ?_⟩
  · unfold update
    rw [Option.mem_def, List.getElem?_modify, hk]
    rfl
  · split
    · rwa [hf k]
    · exact hlive

theorem connected_update (hf : ∀ k, (f k).readyState = k.readyState) :
    (s.update i f).connected = s.connected := by
  unfold connected
  rw [funext (live_update (s := s) (i := i) hf)]
  rfl

theorem noneUninvited_update (hf : ∀ k, (f k).uninvited = k.uninvited) (h : s.NoneUninvited) :
    (s.update i f).NoneUninvited := by
  intro k hk
  obtain ⟨j, hj⟩ := List.getElem?_of_mem hk
  obtain ⟨k', hk', rfl⟩ := exists_of_update hj
  have hinvited := h k' (List.mem_of_getElem? hk')
  split
  · rwa [hf k']
  · exact hinvited

/-- With one more socket, what is live is that one or was live before. -/
theorem live_of_append {t : ResilientWebSocket} {k : Socket} (ht : t.sockets = s.sockets ++ [k])
    {j : ℕ} (h : t.live j) : j = s.sockets.length ∨ s.live j := by
  obtain ⟨k', hk', hlive⟩ := live_iff.mp h
  rw [ht, Option.mem_def, List.getElem?_append] at hk'
  split at hk'
  · exact .inr (live_iff.mpr ⟨k', hk', hlive⟩)
  · have hlt := (List.getElem?_eq_some_iff.mp hk').1
    rw [List.length_singleton] at hlt
    exact .inl (by omega)

end Update

section Methods

variable {s : ResilientWebSocket}

@[simp] theorem handleCloseOrFailure_ws (s : ResilientWebSocket) :
    s.handleCloseOrFailure.ws = none := by
  unfold handleCloseOrFailure
  dsimp only
  split <;> rfl

@[simp] theorem handleCloseOrFailure_sockets (s : ResilientWebSocket) :
    s.handleCloseOrFailure.sockets = s.sockets := by
  unfold handleCloseOrFailure
  dsimp only
  split <;> rfl

theorem handleCloseOrFailure_live (i : ℕ) : s.handleCloseOrFailure.live i = s.live i := by
  unfold live readyState
  rw [handleCloseOrFailure_sockets]

theorem connect_of_connected (h : s.connected = true) (throws : Bool) :
    s.connect throws = s := if_pos h

theorem connect_throws (h : s.connected = false) :
    s.connect true = (s.setStatus .connecting).handleCloseOrFailure := by
  unfold connect
  rw [h]
  rfl

/-- `connect` with no live socket in use creates one. -/
theorem connect_creates (h : s.connected = false) :
    s.connect false = { s with status := .connecting
                               ws := some s.sockets.length
                               sockets := s.sockets ++ [{ uninvited := s.disconnected }] } := by
  unfold connect
  rw [h]
  rfl

theorem disconnect_of_none (h : s.ws = none) :
    s.disconnect = { s with heartbeatTimer := false, status := .closed } := by
  unfold disconnect stopHeartbeat
  rw [h]
  rfl

theorem disconnect_of_some {i : ℕ} (h : s.ws = some i) :
    s.disconnect =
      { s.update i Socket.close with ws := none, heartbeatTimer := false, status := .closed } := by
  unfold disconnect stopHeartbeat
  rw [h]
  rfl

end Methods

/-! ## Calm runs -/

/-- Only the socket in use is live, there is none after `disconnect`, and none was created then. -/
structure Held (s : ResilientWebSocket) : Prop where
  live : ∀ i, s.live i → s.ws = some i
  down : s.disconnected → s.ws = none
  invited : s.NoneUninvited

namespace Held

variable {s : ResilientWebSocket}

theorem init : Held {} where
  live _ h := by cases h
  down _ := rfl
  invited _ h := by cases h

theorem oneLive (h : Held s) : s.OneLive := fun i j hi hj =>
  Option.some.inj ((h.live i hi).symm.trans (h.live j hj))

/-- The guard of `connect` sees every live socket. -/
theorem not_live (h : Held s) (hconnected : s.connected = false) (i : ℕ) : ¬ s.live i := by
  intro hlive
  have hws := h.live i hlive
  unfold connected at hconnected
  rw [hws, Option.any_some, hlive] at hconnected
  cases hconnected

/-- `Held` of a state in which nothing is live. -/
theorem of_not_live {t : ResilientWebSocket} (hlive : ∀ i, ¬ t.live i) (hws : t.ws = none)
    (hinvited : t.NoneUninvited) : Held t where
  live i hi := absurd hi (hlive i)
  down _ := hws
  invited := hinvited

theorem update {i : ℕ} {f : Socket → Socket} (h : Held s)
    (hf : ∀ k ∈ s.sockets[i]?, (f k).readyState.live → k.readyState.live)
    (hinvited : ∀ k, (f k).uninvited = k.uninvited) : Held (s.update i f) where
  live j hj := h.live j (live_of_update hf hj)
  down := h.down
  invited := noneUninvited_update hinvited h.invited

theorem handleCloseOrFailure (h : Held s) (hconnected : s.connected = false) :
    Held s.handleCloseOrFailure := by
  refine of_not_live (fun i => ?_) s.handleCloseOrFailure_ws ?_
  · rw [handleCloseOrFailure_live]
    exact h.not_live hconnected i
  · intro k hk
    rw [handleCloseOrFailure_sockets] at hk
    exact h.invited k hk

theorem connect (h : Held s) {throws : Bool} (hthrows : throws ∨ s.disconnected = false) :
    Held (s.connect throws) := by
  cases hconnected : s.connected with
  | true =>
    rw [connect_of_connected hconnected]
    exact h
  | false =>
    cases throws with
    | true =>
      rw [connect_throws hconnected]
      have hset : Held (s.setStatus .connecting) := ⟨h.live, h.down, h.invited⟩
      exact hset.handleCloseOrFailure hconnected
    | false =>
      have hup : s.disconnected = false := hthrows.resolve_left Bool.false_ne_true
      rw [connect_creates hconnected]
      refine ⟨fun i hi => ?_, fun hdown => ?_, fun k hk => ?_⟩
      · rcases live_of_append rfl hi with rfl | hold
        · rfl
        · exact absurd hold (h.not_live hconnected i)
      · exact absurd (hup.symm.trans hdown) Bool.false_ne_true
      · rcases List.mem_append.mp hk with hk | hk
        · exact h.invited k hk
        · rw [List.mem_singleton.mp hk]
          exact hup

theorem disconnect (h : Held s) : Held { s.disconnect with disconnected := true } := by
  cases hws : s.ws with
  | none =>
    rw [disconnect_of_none hws]
    refine of_not_live (fun i hi => ?_) hws h.invited
    have hlive := h.live i hi
    rw [hws] at hlive
    cases hlive
  | some i =>
    rw [disconnect_of_some hws]
    have hinvited := noneUninvited_update (i := i) Socket.close_uninvited h.invited
    refine of_not_live (fun j hj => ?_) rfl hinvited
    have hlive : s.live j := live_of_update (fun k _ hk => absurd hk (by simp [k.close_live])) hj
    have hij : i = j := Option.some.inj (hws.symm.trans (h.live j hlive))
    subst hij
    exact not_live_update Socket.close_live hj

theorem onopen (h : Held s) : Held s.onopen := ⟨h.live, h.down, h.invited⟩

theorem heartbeat (h : Held s) : Held s.heartbeat := by
  unfold ResilientWebSocket.heartbeat
  split
  · split
    · exact h.update (fun _ _ hlive => hlive) fun _ => rfl
    · exact h
  · exact h

/-- An event of socket `i` that changes its flags and runs the shared handler. -/
theorem reported (h : Held s) (hconnected : s.connected = false) (i : ℕ) {f : Socket → Socket}
    (hready : ∀ k, (f k).readyState = k.readyState)
    (hinvited : ∀ k, (f k).uninvited = k.uninvited) :
    Held (s.update i f).handleCloseOrFailure := by
  have hupdate : Held (s.update i f) := h.update (fun k _ hlive => hready k ▸ hlive) hinvited
  refine hupdate.handleCloseOrFailure ?_
  rw [connected_update hready, hconnected]

theorem step {a : SocketEvent} {s' : ResilientWebSocket} (h : Held s) (hcalm : s.Calm a)
    (hs : s.step a = some s') : Held s' := by
  cases a with
  | connect throws =>
    obtain rfl := Option.some.inj hs
    have hcalled : Held { s with disconnected := false } :=
      ⟨h.live, fun hdown => absurd hdown Bool.false_ne_true, h.invited⟩
    exact hcalled.connect (.inr rfl)
  | disconnect =>
    obtain rfl := Option.some.inj hs
    exact h.disconnect
  | opens i =>
    obtain ⟨hconnecting, rfl⟩ := Option.ite_some_none_eq_some.mp hs
    refine onopen (h.update (fun k hk _ => ?_) fun _ => rfl)
    -- it was connecting, and so live
    unfold readyState at hconnecting
    rw [hk] at hconnecting
    have hready : k.readyState = .connecting := Option.some.inj hconnecting
    rw [hready]
    rfl
  | ends i =>
    obtain ⟨-, rfl⟩ := Option.ite_some_none_eq_some.mp hs
    exact h.update (fun _ _ hlive => by cases hlive) fun _ => rfl
  | onerror i =>
    obtain ⟨-, rfl⟩ := Option.ite_some_none_eq_some.mp hs
    exact h.reported hcalm i (fun _ => rfl) fun _ => rfl
  | onclose i =>
    obtain ⟨-, rfl⟩ := Option.ite_some_none_eq_some.mp hs
    exact h.reported hcalm i (fun _ => rfl) fun _ => rfl
  | timer throws =>
    obtain ⟨-, rfl⟩ := Option.ite_some_none_eq_some.mp hs
    have hfired : Held { s with timers := s.timers - 1 } := ⟨h.live, h.down, h.invited⟩
    exact hfired.connect hcalm
  | heartbeat =>
    obtain ⟨-, rfl⟩ := Option.ite_some_none_eq_some.mp hs
    exact h.heartbeat

end Held

theorem held_of_reaches {as : List SocketEvent} {s : ResilientWebSocket}
    (h : Reaches step Calm {} as s) : Held s :=
  h.invariant Held Held.init fun _ _ _ hs hcalm hstep => hs.step hcalm hstep

/-! ## The steps that are not calm -/

section Uncalm

variable {s s' : ResilientWebSocket} {i : ℕ}

/-- Once the object has let go of a live socket, the next `connect` makes a second one. -/
theorem connect_second (hlive : s.live i) (hws : s.ws = none) :
    ∃ t, step s (.connect false) = some t ∧ ¬ t.OneLive := by
  refine ⟨_, rfl, fun hone => ?_⟩
  have hconnected : ({ s with disconnected := false } : ResilientWebSocket).connected = false := by
    unfold connected
    rw [hws]
    rfl
  rw [connect_creates hconnected] at hone
  obtain ⟨k, hk, hready⟩ := live_iff.mp hlive
  have hlt : i < s.sockets.length := (List.getElem?_eq_some_iff.mp hk).1
  have hnew := hone i s.sockets.length (live_iff.mpr ⟨k, ?_, hready⟩)
    (live_iff.mpr ⟨_, List.getElem?_concat_length, rfl⟩)
  · omega
  · show (s.sockets ++ _)[i]? = some k
    rwa [List.getElem?_append_left hlt]

/-- The shared handler lets go of the socket in use, whichever socket the event is about. -/
theorem reported_second (hconnected : s.connected = true) {f : Socket → Socket}
    (hready : ∀ k, (f k).readyState = k.readyState) :
    ∃ t, step (s.update i f).handleCloseOrFailure (.connect false) = some t ∧ ¬ t.OneLive := by
  obtain ⟨j, -, hlive⟩ := (Option.any_eq_true ..).mp hconnected
  refine connect_second (i := j) ?_ (handleCloseOrFailure_ws _)
  rw [handleCloseOrFailure_live, live_update hready]
  exact hlive

theorem timer_uninvited (h : Held s) (hdown : s.disconnected = true) {throws : Bool}
    (hthrows : throws = false) (hs : s.step (.timer throws) = some s') : ¬ s'.NoneUninvited := by
  obtain ⟨-, rfl⟩ := Option.ite_some_none_eq_some.mp hs
  have hconnected :
      ({ s with timers := s.timers - 1 } : ResilientWebSocket).connected = false := by
    unfold connected
    rw [h.down hdown]
    rfl
  rw [hthrows, connect_creates hconnected]
  intro hnone
  have hnew := hnone _ (List.mem_append_right _ List.mem_cons_self)
  exact absurd (hdown.symm.trans hnew) (by decide)

end Uncalm

/-- In every calm run at most one socket is live and none was created after `disconnect`; the first
    step that is not calm ends this, at once or at the next `connect`. -/
theorem one_socket_live {as : List SocketEvent} {s : ResilientWebSocket}
    (h : Reaches step Calm {} as s) :
    (s.OneLive ∧ s.NoneUninvited) ∧
      ∀ a s', ¬ s.Calm a → step s a = some s' →
        ¬ s'.NoneUninvited ∨ ∃ t, step s' (.connect false) = some t ∧ ¬ t.OneLive := by
  have hheld := held_of_reaches h
  refine ⟨⟨hheld.oneLive, hheld.invited⟩, fun a s' hcalm hs => ?_⟩
  cases a with
  | onerror i =>
    obtain ⟨-, rfl⟩ := Option.ite_some_none_eq_some.mp hs
    exact .inr (reported_second (Bool.not_eq_false _ ▸ hcalm) fun _ => rfl)
  | onclose i =>
    obtain ⟨-, rfl⟩ := Option.ite_some_none_eq_some.mp hs
    exact .inr (reported_second (Bool.not_eq_false _ ▸ hcalm) fun _ => rfl)
  | timer throws =>
    obtain ⟨hthrows, hdown⟩ := not_or.mp hcalm
    exact .inl (timer_uninvited hheld (by simpa using hdown) (by simpa using hthrows) hs)
  | connect _ | disconnect | opens _ | ends _ | heartbeat => exact absurd trivial hcalm

/-- Back up after `disconnect` once the old socket has told of its end, whose timer finds the new
    one. -/
def calmRun : List SocketEvent :=
  [.connect false, .opens 0, .disconnect, .ends 0, .onclose 0, .connect false, .opens 1,
    .timer false, .heartbeat]

theorem one_socket_live_calmRun :
    ∃ s, runFrom step {} calmRun = some s ∧ (s.OneLive ∧ s.NoneUninvited) ∧
      ∀ a s', ¬ s.Calm a → step s a = some s' →
        ¬ s'.NoneUninvited ∨ ∃ t, step s' (.connect false) = some t ∧ ¬ t.OneLive := by
  obtain ⟨s, hs⟩ : ∃ s, runFrom step {} calmRun = some s := ⟨_, rfl⟩
  exact ⟨s, hs, one_socket_live (reaches_of_allSteps _ _ _ hs (by decide))⟩

/-- The old socket's close event comes after the new `connect`. -/
def lateClose : List SocketEvent :=
  [.connect false, .opens 0, .disconnect, .connect false, .opens 1, .ends 0, .onclose 0,
    .timer false]

/-- The close event that `disconnect` brings about sets a timer. -/
def closeTimer : List SocketEvent :=
  [.connect false, .opens 0, .disconnect, .ends 0, .onclose 0, .timer false]

theorem late_close :
    (∃ s, Reaches step anyStep {} lateClose s ∧ ¬ s.OneLive) ∧
      ∃ s, Reaches step anyStep {} closeTimer s ∧ ¬ s.NoneUninvited := by
  refine ⟨⟨_, reaches_run rfl, fun hone => ?_⟩, ⟨_, reaches_run rfl, by decide⟩⟩
  exact absurd (hone 1 2 rfl rfl) (by decide)

end ResilientWebSocket

end CloudScale.Frontend
