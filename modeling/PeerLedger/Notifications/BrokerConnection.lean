import Mathlib.Data.List.Basic
import Mathlib.Data.Rat.Defs
import Mathlib.Algebra.Order.Field.Rat
import Mathlib.Logic.Relation

/-!
# The broker connection of the notifications service

`RabbitMqConsumerService` connects to the broker, declares its queue, and connects again whenever
the connection is lost, after a delay that grows with every attempt.  Its methods are suspended at
every `await`: in between the broker may close the connection, a timer may fire, and the service may
be shut down.

Whatever happens, the consumer keeps at its connection until it is stopped: it is connected, or
connects, or waits for its timer, and it never has two connections (`consumer_keeps_connection`).
-/

namespace PeerLedger

namespace Notifications

/-! ### The service -/

/-- `RABBITMQ_RECONNECT_BASE_MS` and `RABBITMQ_RECONNECT_MAX_MS`. -/
structure ReconnectConfig where
  base : ℚ := 500
  maximum : ℚ := 30000

/-- The fields of the service.  A connection is named by its number, a channel by its connection. -/
structure ConsumerService where
  connection : Option Nat := none
  channel : Option Nat := none
  /-- The delay of the timer that is set. -/
  reconnectTimer : Option ℚ := none
  reconnectAttempt : Nat := 0
  connecting : Bool := false
  stopped : Bool := false

/-- The operations of `configure`, in order. -/
inductive ChannelOperation where
  | assertExchange
  | assertDeadLetterExchange
  | assertDeadLetterQueue
  | bindDeadLetterQueue
  | assertQueue
  | bindLedger
  | bindPayments
  | prefetch
  | consume

/-- What a call of `connectOrSchedule` awaits. -/
inductive Call where
  /-- `connector.connect`. -/
  | connect
  /-- `close` of a connection that came after the service was stopped. -/
  | closeUnwanted (c : Nat)
  /-- `connection.createChannel`. -/
  | createChannel (c : Nat)
  /-- An operation of `configure`, before the rest of them. -/
  | configure (c : Nat) (operation : ChannelOperation) (rest : List ChannelOperation)
  /-- `failedConnection?.close`. -/
  | closeFailed (c : Option Nat)

/-- Where `onApplicationShutdown` is. -/
inductive Shutdown where
  | notCalled
  /-- It awaits `channel?.close`, and has the connection. -/
  | closesChannel (c : Option Nat)
  /-- It awaits `connection?.close`. -/
  | closesConnection (c : Option Nat)
  | returned
deriving DecidableEq

/-- The service with its suspended calls and the connections of the broker. -/
structure ConsumerWorld where
  service : ConsumerService := {}
  bootstrapped : Bool := false
  calls : List Call := []
  shutdown : Shutdown := .notCalled
  openConnections : List Nat := []
  /-- The connections with a handler of the event `close`. -/
  watched : List Nat := []
  /-- How many connections there have been. -/
  connections : Nat := 0

/-! ### Its methods -/

/-- The delay before an attempt. -/
def ReconnectConfig.delay (config : ReconnectConfig) (attempt : Nat) : ℚ :=
  min (config.base * 2 ^ (attempt - 1)) config.maximum

def ConsumerService.scheduleReconnect (config : ReconnectConfig) (s : ConsumerService) :
    ConsumerService :=
  if s.stopped ∨ s.reconnectTimer.isSome then s
  else
    { s with
      reconnectAttempt := s.reconnectAttempt + 1
      reconnectTimer := some (config.delay (s.reconnectAttempt + 1)) }

def ConsumerService.handleDisconnect (config : ReconnectConfig) (s : ConsumerService) :
    ConsumerService :=
  let s := { s with connection := none, channel := none }
  if s.stopped then s else s.scheduleReconnect config

/-- `connectOrSchedule`, up to its first `await`. -/
def ConsumerWorld.connectOrSchedule (w : ConsumerWorld) : ConsumerWorld :=
  if w.service.stopped ∨ w.service.connecting ∨ w.service.connection.isSome then w
  else { w with service := { w.service with connecting := true }, calls := w.calls ++ [.connect] }

/-- The `catch` of `connectOrSchedule`, up to its `await`. -/
def ConsumerWorld.failed (w : ConsumerWorld) : ConsumerWorld × Option Call :=
  ({ w with service := { w.service with connection := none, channel := none } },
    some (.closeFailed w.service.connection))

/-- The `finally` of `connectOrSchedule`. -/
def ConsumerWorld.finally (w : ConsumerWorld) : ConsumerWorld × Option Call :=
  ({ w with service := { w.service with connecting := false } }, none)

/-- A call of `connectOrSchedule` goes on after what it has awaited was resolved or rejected, up to
the next `await`. -/
def ConsumerWorld.proceed (config : ReconnectConfig) (w : ConsumerWorld) :
    Call → Bool → ConsumerWorld × Option Call
  | .connect, true =>
    let c := w.connections
    let w := { w with connections := c + 1, openConnections := c :: w.openConnections }
    if w.service.stopped then (w, some (.closeUnwanted c))
    else
      ({ w with service := { w.service with connection := some c }, watched := c :: w.watched },
        some (.createChannel c))
  | .closeUnwanted _, true => w.finally
  | .createChannel c, true =>
    ({ w with service := { w.service with channel := some c } },
      some (.configure c .assertExchange [.assertDeadLetterExchange, .assertDeadLetterQueue,
        .bindDeadLetterQueue, .assertQueue, .bindLedger, .bindPayments, .prefetch, .consume]))
  | .configure c _ (operation :: rest), true => (w, some (.configure c operation rest))
  | .configure _ _ [], true =>
    { w with service := { w.service with reconnectAttempt := 0 } : ConsumerWorld }.finally
  | .closeFailed _, _ =>
    { w with service := w.service.scheduleReconnect config : ConsumerWorld }.finally
  | _, false => w.failed

/-- An operation is resolved only while its connection is open, and `close` ends only when it is
closed. -/
def ConsumerWorld.canEnd (w : ConsumerWorld) : Call → Bool → Bool
  | .connect, _ => true
  | .closeUnwanted c, _ => !w.openConnections.contains c
  | .createChannel c, resolved => !resolved || w.openConnections.contains c
  | .configure c _ _, resolved => !resolved || w.openConnections.contains c
  | .closeFailed c, _ => c.all fun c => !w.openConnections.contains c

/-- A connection is closed, and its handler is called. -/
def ConsumerWorld.closed (config : ReconnectConfig) (w : ConsumerWorld) (c : Nat) : ConsumerWorld :=
  { w with
    openConnections := w.openConnections.filter (· ≠ c)
    service := if w.watched.contains c then w.service.handleDisconnect config else w.service }

/-- The client may resolve an operation and close its connection before the call goes on: the handler
comes first, but a new connection has none yet. -/
def ConsumerWorld.lose (config : ReconnectConfig) (w : ConsumerWorld) :
    Call → Option (ConsumerWorld × Option Call)
  | .connect =>
    let (w', next) := w.proceed config .connect true
    some ({ w' with openConnections := w.openConnections }, next)
  | .createChannel c =>
    if w.openConnections.contains c then
      some ((w.closed config c).proceed config (.createChannel c) true)
    else none
  | .configure c operation rest =>
    if w.openConnections.contains c then
      some ((w.closed config c).proceed config (.configure c operation rest) true)
    else none
  | .closeUnwanted _ | .closeFailed _ => none

/-! ### The system -/

/-- How what a call awaits ends. -/
inductive Outcome where
  | resolved
  | rejected
  /-- It is resolved, and the connection is lost at once. -/
  | lost

/-- What a call does after that. -/
def ConsumerWorld.goOn (config : ReconnectConfig) (w : ConsumerWorld) (call : Call) :
    Outcome → Option (ConsumerWorld × Option Call)
  | .resolved => if w.canEnd call true then some (w.proceed config call true) else none
  | .rejected => if w.canEnd call false then some (w.proceed config call false) else none
  | .lost => w.lose config call

inductive ConsumerEvent where
  /-- `onApplicationBootstrap`. -/
  | bootstrap
  /-- `onApplicationShutdown`, up to its first `await`. -/
  | shutdown
  /-- `onApplicationShutdown` goes on. -/
  | shutdownContinues
  /-- The timer fires. -/
  | timer
  /-- A connection is closed, by the broker, the network or the service. -/
  | close (c : Nat)
  /-- What the `i`-th suspended call awaits has ended. -/
  | resume (i : Nat) (outcome : Outcome)

/-- The state after an event, if it can happen. -/
def ConsumerWorld.perform (config : ReconnectConfig) (w : ConsumerWorld) :
    ConsumerEvent → Option ConsumerWorld
  | .bootstrap =>
    if w.bootstrapped = false ∧ w.shutdown = .notCalled then
      some { w with bootstrapped := true,
                    service := { w.service with stopped := false } : ConsumerWorld }.connectOrSchedule
    else none
  | .shutdown =>
    if w.shutdown = .notCalled then
      some { w with
        shutdown := .closesChannel w.service.connection
        service := { w.service with stopped := true, reconnectTimer := none, channel := none,
                                    connection := none } }
    else none
  | .shutdownContinues =>
    match w.shutdown with
    | .closesChannel c => some { w with shutdown := .closesConnection c }
    | .closesConnection c =>
      if c.all fun c => !w.openConnections.contains c then some { w with shutdown := .returned }
      else none
    | _ => none
  | .timer =>
    if w.service.reconnectTimer.isSome then
      some { w with service := { w.service with reconnectTimer := none } :
        ConsumerWorld }.connectOrSchedule
    else none
  | .close c => if w.openConnections.contains c then some (w.closed config c) else none
  | .resume i outcome =>
    match w.calls[i]? with
    | some call =>
      match w.goOn config call outcome with
      | some (w', some next) => some { w' with calls := w.calls.set i next }
      | some (w', none) => some { w' with calls := w.calls.eraseIdx i }
      | none => none
    | none => none

/-- Events lead from a state to another. -/
def ConsumerWorld.Continues (config : ReconnectConfig) : ConsumerWorld → ConsumerWorld → Prop :=
  Relation.ReflTransGen fun w w' => ∃ event, w.perform config event = some w'

/-- The states that the consumer can reach. -/
def ConsumerWorld.Reached (config : ReconnectConfig) : ConsumerWorld → Prop :=
  ConsumerWorld.Continues config {}

/-- The consumer has an open connection with a channel, and has set it up. -/
def ConsumerWorld.Connected (w : ConsumerWorld) : Prop :=
  w.calls = [] ∧ ∃ c ∈ w.openConnections, w.service.connection = some c ∧ w.service.channel = some c

/-! ### What holds in every state -/

/-- Somebody closes the connection. -/
def ConsumerWorld.Closing (w : ConsumerWorld) (c : Nat) : Prop :=
  .closeUnwanted c ∈ w.calls ∨ .closeFailed (some c) ∈ w.calls ∨
    w.shutdown = .closesChannel (some c) ∨ w.shutdown = .closesConnection (some c)

/-- Nothing is awaited: there is no connection, or it is open and has the channel. -/
def ConsumerWorld.Settled (w : ConsumerWorld) : Prop :=
  (w.service.connection = none ∧ (w.service.stopped = true ∨ w.service.channel = none)) ∨
    ∃ c ∈ w.openConnections, w.service.connection = some c ∧ w.service.channel = some c

/-- What holds while a call awaits something. -/
def Call.Fits (w : ConsumerWorld) : Call → Prop
  | .connect => w.service.connection = none ∧ w.service.reconnectTimer = none
  | .closeUnwanted _ => w.service.stopped = true
  | .createChannel c => w.service.connection = none ∨ w.service.connection = some c
  | .configure c _ _ => w.service.connection = none ∨
    c ∈ w.openConnections ∧ w.service.connection = some c ∧ w.service.channel = some c
  | .closeFailed _ => w.service.connection = none ∧ w.service.channel = none

/-- The invariant of the consumer. -/
structure ConsumerInv (config : ReconnectConfig) (w : ConsumerWorld) : Prop where
  single : (w.calls = [] ∧ w.service.connecting = false ∧ w.Settled) ∨
    ∃ call, w.calls = [call] ∧ w.service.connecting = true ∧ call.Fits w
  stopped : w.service.stopped = true ↔ w.shutdown ≠ .notCalled
  idle : w.service.stopped = true → w.service.reconnectTimer = none ∧ w.service.connection = none
  current : ∀ c, w.service.connection = some c → c ∈ w.watched ∧ w.service.reconnectTimer = none
  held : ∀ c ∈ w.openConnections, w.service.connection = some c ∨ w.Closing c
  waiting : ∀ delay, w.service.reconnectTimer = some delay →
    ∃ attempt ≥ 1, delay = config.delay attempt
  early : w.bootstrapped = false →
    w.calls = [] ∧ w.openConnections = [] ∧ w.service.reconnectTimer = none

/-- The consumer is connected, or something will connect it. -/
def ConsumerService.Alive (s : ConsumerService) : Prop :=
  s.stopped = false → s.connecting = true ∨ s.reconnectTimer.isSome ∨ s.connection.isSome

variable {config : ReconnectConfig} {w w' : ConsumerWorld}

/-- A connection is opened only when the one before has been closed: one that is open while nobody
connects and nobody stops the service is the current one. -/
lemma ConsumerInv.closing_cases (h : ConsumerInv config w) {c : Nat} (hclosing : w.Closing c) :
    w.service.stopped = true ∨ w.calls = [.closeFailed (some c)] := by
  rcases hclosing with hcall | hcall | hshutdown | hshutdown
  · rcases h.single with ⟨hnil, -⟩ | ⟨call, hcalls, -, hfits⟩
    · rw [hnil] at hcall
      cases hcall
    · rw [hcalls] at hcall
      obtain rfl := List.mem_singleton.mp hcall
      exact .inl hfits
  · rcases h.single with ⟨hnil, -⟩ | ⟨call, hcalls, -, -⟩
    · rw [hnil] at hcall
      cases hcall
    · rw [hcalls] at hcall
      obtain rfl := List.mem_singleton.mp hcall
      exact .inr hcalls
  · exact .inl (h.stopped.mpr (by rw [hshutdown]; simp))
  · exact .inl (h.stopped.mpr (by rw [hshutdown]; simp))

/-- A new timer has the delay of its attempt. -/
lemma scheduleReconnect_cases (config : ReconnectConfig) (s : ConsumerService) :
    (s.scheduleReconnect config = s ∧ (s.stopped = true ∨ s.reconnectTimer.isSome)) ∨
      s.stopped = false ∧ s.scheduleReconnect config =
        { s with reconnectAttempt := s.reconnectAttempt + 1,
                 reconnectTimer := some (config.delay (s.reconnectAttempt + 1)) } := by
  unfold ConsumerService.scheduleReconnect
  split
  · next h => exact .inl ⟨rfl, h⟩
  · next h => exact .inr ⟨by simpa using fun hs => h (.inl hs), rfl⟩

/-- Unless the service is stopped, a timer is set afterwards. -/
lemma scheduleReconnect_timer (config : ReconnectConfig) {s : ConsumerService}
    (hstopped : s.stopped = false) : (s.scheduleReconnect config).reconnectTimer.isSome := by
  rcases scheduleReconnect_cases config s with ⟨heq, hs | htimer⟩ | ⟨-, heq⟩
  · rw [hstopped] at hs
    cases hs
  · rwa [heq]
  · rw [heq]
    rfl

/-- `scheduleReconnect` changes the timer and the attempts only. -/
lemma scheduleReconnect_same (config : ReconnectConfig) (s : ConsumerService) :
    (s.scheduleReconnect config).connection = s.connection ∧
      (s.scheduleReconnect config).channel = s.channel ∧
      (s.scheduleReconnect config).connecting = s.connecting ∧
      (s.scheduleReconnect config).stopped = s.stopped := by
  unfold ConsumerService.scheduleReconnect
  split <;> exact ⟨rfl, rfl, rfl, rfl⟩

/-- A stopped service schedules nothing, so that its handler only forgets the connection. -/
lemma handleDisconnect_eq (config : ReconnectConfig) (s : ConsumerService) :
    s.handleDisconnect config =
      { s with connection := none, channel := none : ConsumerService }.scheduleReconnect config := by
  unfold ConsumerService.handleDisconnect
  dsimp only
  split
  · next h => rw [ConsumerService.scheduleReconnect, if_pos (.inl h)]
  · rfl

/-- A call of `connectOrSchedule` by the timer or at the start. -/
lemma ConsumerInv.connectOrSchedule (h : ConsumerInv config w) (hstarted : w.bootstrapped = true)
    (hnone : w.service.reconnectTimer = none) :
    ConsumerInv config w.connectOrSchedule ∧ w.connectOrSchedule.service.Alive := by
  unfold ConsumerWorld.connectOrSchedule
  split
  · next hguard =>
    refine ⟨h, fun hstopped => ?_⟩
    rw [hstopped] at hguard
    rcases hguard with hguard | hconnecting | hconnection
    · cases hguard
    · exact .inl hconnecting
    · exact .inr (.inr hconnection)
  · next hguard =>
    simp only [not_or, Bool.not_eq_true, Option.isSome_eq_false_iff, Option.isNone_iff_eq_none]
      at hguard
    obtain ⟨hstopped, hconnecting, hconnection⟩ := hguard
    have hcalls : w.calls = [] := by
      rcases h.single with ⟨hcalls, -⟩ | ⟨_, -, hconnecting', -⟩
      · exact hcalls
      · rw [hconnecting] at hconnecting'
        cases hconnecting'
    refine ⟨⟨?_, h.stopped, h.idle, h.current, fun c hc => ?_, h.waiting, ?_⟩, fun _ => .inl rfl⟩
    · exact .inr ⟨.connect, by rw [hcalls]; rfl, rfl, hconnection, hnone⟩
    · refine (h.held c hc).imp_right fun hclosing => ?_
      refine hclosing.imp (List.mem_append_left _) fun hclosing => ?_
      exact hclosing.imp_left (List.mem_append_left _)
    · intro hearly
      rw [show w.bootstrapped = false from hearly] at hstarted
      cases hstarted

/-- While there is a current connection, no other one is open. -/
lemma ConsumerInv.only_current (h : ConsumerInv config w) {c c' : Nat}
    (hcurrent : w.service.connection = some c') (hc : c ∈ w.openConnections) : c = c' := by
  rcases h.held c hc with heq | hclosing
  · exact Option.some.inj (heq.symm.trans hcurrent)
  · exfalso
    rcases h.closing_cases hclosing with hstopped | hcalls
    · rw [(h.idle hstopped).2] at hcurrent
      cases hcurrent
    · rcases h.single with ⟨hnil, -⟩ | ⟨call, hcall, -, hfits⟩
      · rw [hnil] at hcalls
        cases hcalls
      · obtain rfl := List.singleton_inj.mp (hcall.symm.trans hcalls)
        rw [hfits.1] at hcurrent
        cases hcurrent

/-- A timer is set while there is no connection and nobody asks for one. -/
lemma ConsumerInv.scheduleReconnect (h : ConsumerInv config w) (hstarted : w.bootstrapped = true)
    (hnone : w.service.connection = none)
    (hfree : w.service.stopped = false → w.calls ≠ [.connect]) :
    ConsumerInv config { w with service := w.service.scheduleReconnect config } := by
  rcases scheduleReconnect_cases config w.service with ⟨heq, -⟩ | ⟨hstopped, heq⟩
  · rw [heq]
    exact h
  · rw [heq]
    have hrunning : ¬ w.service.stopped = true := by rw [hstopped]; decide
    refine ⟨?_, h.stopped, fun hs => absurd hs hrunning, fun c hc => ?_, h.held, ?_,
      fun hearly => ?_⟩
    · rcases h.single with hnil | ⟨call, hcall, hbusy, hfits⟩
      · exact .inl hnil
      · refine .inr ⟨call, hcall, hbusy, ?_⟩
        cases call with
        | connect => exact absurd hcall (hfree hstopped)
        | _ => exact hfits
    · rw [show w.service.connection = some c from hc] at hnone
      cases hnone
    · rintro delay hdelay
      obtain rfl := Option.some.inj hdelay
      exact ⟨_, Nat.le_add_left 1 _, rfl⟩
    · rw [show w.bootstrapped = false from hearly] at hstarted
      cases hstarted

/-- Nothing is open before the start. -/
lemma ConsumerInv.started (h : ConsumerInv config w) {c : Nat} (hc : c ∈ w.openConnections) :
    w.bootstrapped = true := by
  by_contra hearly
  rw [(h.early (Bool.not_eq_true _ ▸ hearly)).2.1] at hc
  cases hc

/-- A connection was closed, and the service has forgotten it. -/
lemma ConsumerInv.forgets (h : ConsumerInv config w) {c : Nat} (hc : c ∈ w.openConnections) :
    ConsumerInv config { w with
      openConnections := w.openConnections.filter (· ≠ c)
      service := { w.service with connection := none, channel := none } } := by
  have hstarted := h.started hc
  refine ⟨?_, h.stopped, fun hstopped => ⟨(h.idle hstopped).1, rfl⟩, (fun _ he => nomatch he),
    fun c' hc' => ?_, h.waiting, fun hearly => ?_⟩
  · rcases h.single with ⟨hnil, hfree, -⟩ | ⟨call, hcall, hbusy, hfits⟩
    · exact .inl ⟨hnil, hfree, .inl ⟨rfl, .inr rfl⟩⟩
    · refine .inr ⟨call, hcall, hbusy, ?_⟩
      cases call with
      | connect => exact ⟨rfl, hfits.2⟩
      | closeUnwanted => exact hfits
      | createChannel => exact .inl rfl
      | configure => exact .inl rfl
      | closeFailed => exact ⟨rfl, rfl⟩
  · obtain ⟨hmem, hne⟩ := List.mem_filter.mp hc'
    refine .inr ((h.held c' hmem).resolve_left fun heq => ?_)
    exact of_decide_eq_true hne (h.only_current heq hc).symm
  · rw [show w.bootstrapped = false from hearly] at hstarted
    cases hstarted

/-- A connection was closed that is not the current one. -/
lemma ConsumerInv.ignores (h : ConsumerInv config w) {c : Nat} (hc : c ∈ w.openConnections)
    (hne : w.service.connection ≠ some c) :
    ConsumerInv config { w with openConnections := w.openConnections.filter (· ≠ c) } := by
  have hnone : w.service.connection = none := by
    rw [Option.eq_none_iff_forall_ne_some]
    exact fun c' heq => hne (h.only_current heq hc ▸ heq)
  refine ⟨?_, h.stopped, h.idle, h.current, fun c' hc' => ?_, h.waiting, fun hearly => ?_⟩
  · rcases h.single with ⟨hnil, hfree, hsettled⟩ | ⟨call, hcall, hbusy, hfits⟩
    · refine .inl ⟨hnil, hfree, .inl (hsettled.resolve_right ?_)⟩
      rintro ⟨c', -, heq, -⟩
      rw [hnone] at heq
      cases heq
    · refine .inr ⟨call, hcall, hbusy, ?_⟩
      cases call with
      | configure => exact .inl hnone
      | _ => exact hfits
  · exact h.held c' (List.mem_of_mem_filter hc')
  · obtain ⟨hcalls, hopen, htimer⟩ := h.early hearly
    rw [hopen] at hc
    cases hc

/-- The event `close` of a connection. -/
lemma ConsumerInv.closed (h : ConsumerInv config w) {c : Nat} (hc : c ∈ w.openConnections) :
    ConsumerInv config (w.closed config c) := by
  unfold ConsumerWorld.closed
  split
  · rw [handleDisconnect_eq]
    refine (h.forgets hc).scheduleReconnect (h.started hc) rfl fun hstopped hcall => ?_
    -- nobody asks for a connection while one is open
    rcases h.single with ⟨hnil, -⟩ | ⟨call, hcalls, -, hfits⟩
    · rw [show w.calls = [.connect] from hcall] at hnil
      cases hnil
    · obtain rfl := List.singleton_inj.mp (hcalls.symm.trans hcall)
      rcases h.held c hc with heq | hclosing
      · rw [hfits.1] at heq
        cases heq
      · rcases h.closing_cases hclosing with hstopped' | hcalls'
        · rw [show w.service.stopped = false from hstopped] at hstopped'
          cases hstopped'
        · rw [hcalls] at hcalls'
          cases hcalls'
  · next hunwatched =>
    refine h.ignores hc fun heq => hunwatched ?_
    exact List.contains_iff_mem.mpr (h.current c heq).1

/-- After a disconnect the timer is set, unless the service was stopped. -/
lemma handleDisconnect_alive (config : ReconnectConfig) (s : ConsumerService) :
    (s.handleDisconnect config).Alive := by
  rw [handleDisconnect_eq]
  exact fun hs => .inr (.inl (scheduleReconnect_timer config
    ((scheduleReconnect_same config _).2.2.2.symm.trans hs)))

lemma ConsumerWorld.closed_alive (halive : w.service.Alive) (c : Nat) :
    (w.closed config c).service.Alive := by
  unfold ConsumerWorld.closed
  dsimp only
  split
  · exact handleDisconnect_alive config _
  · exact halive

/-! ### What a call does when it goes on -/

section Calls

variable {call : Call}

/-- The world after a call went on, with what it awaits next. -/
def ConsumerWorld.resumed (r : ConsumerWorld × Option Call) : ConsumerWorld :=
  { r.1 with calls := r.2.toList }

/-- The call is the only one that is suspended. -/
lemma ConsumerInv.only_call (h : ConsumerInv config w) {i : Nat} (hi : w.calls[i]? = some call) :
    i = 0 ∧ w.calls = [call] ∧ w.service.connecting = true ∧ call.Fits w := by
  rcases h.single with ⟨hnil, -⟩ | ⟨other, hcalls, hbusy, hfits⟩
  · rw [hnil] at hi
    cases hi
  · rw [hcalls] at hi
    obtain ⟨hlt, heq⟩ := List.getElem?_eq_some_iff.mp hi
    obtain rfl : i = 0 := by simpa using hlt
    obtain rfl : other = call := heq
    exact ⟨rfl, hcalls, hbusy, hfits⟩

/-- A call is suspended only after the start. -/
lemma ConsumerInv.started_of_call (h : ConsumerInv config w) (hcall : w.calls = [call]) :
    w.bootstrapped = true := by
  by_contra hearly
  rw [(h.early (Bool.not_eq_true _ ▸ hearly)).1] at hcall
  cases hcall

/-- An open connection is the current one, or the shutdown closes it, or the call does. -/
lemma ConsumerInv.held_cases (h : ConsumerInv config w) (hcall : w.calls = [call]) {c : Nat}
    (hc : c ∈ w.openConnections) : w.service.connection = some c ∨
      w.shutdown = .closesChannel (some c) ∨ w.shutdown = .closesConnection (some c) ∨
      call = .closeUnwanted c ∨ call = .closeFailed (some c) := by
  rcases h.held c hc with heq | hclosing
  · exact .inl heq
  · unfold ConsumerWorld.Closing at hclosing
    rw [hcall, List.mem_singleton, List.mem_singleton] at hclosing
    rcases hclosing with hunwanted | hfailed | hshutdown | hshutdown
    · exact .inr (.inr (.inr (.inl hunwanted.symm)))
    · exact .inr (.inr (.inr (.inr hfailed.symm)))
    · exact .inr (.inl hshutdown)
    · exact .inr (.inr (.inl hshutdown))

/-- An open connection is the current one, unless the service was stopped or the call closes it. -/
lemma ConsumerInv.open_current (h : ConsumerInv config w) (hcall : w.calls = [call])
    (hnot : ∀ c, call ≠ .closeFailed c) {c : Nat} (hopen : c ∈ w.openConnections) :
    w.service.stopped = true ∨ w.service.connection = some c := by
  rcases h.held c hopen with heq | hclosing
  · exact .inr heq
  · rcases h.closing_cases hclosing with hstopped | hcalls
    · exact .inl hstopped
    · exact absurd (List.singleton_inj.mp (hcall.symm.trans hcalls)) (hnot _)

/-- When its connection is lost during a call, the service has none, and sets the timer. -/
lemma ConsumerInv.lost (h : ConsumerInv config w) (hcall : w.calls = [call])
    (hnot : ∀ c, call ≠ .closeFailed c) {c : Nat} (hc : c ∈ w.openConnections) :
    (w.closed config c).service.connection = none ∧ ((w.closed config c).service.stopped = true ∨
      (w.closed config c).service.channel = none ∧
        (w.closed config c).service.reconnectTimer.isSome) := by
  have hsame := scheduleReconnect_same config { w.service with connection := none, channel := none }
  unfold ConsumerWorld.closed
  dsimp only
  split
  · rw [handleDisconnect_eq, hsame.1, hsame.2.1, hsame.2.2.2]
    refine ⟨rfl, ?_⟩
    rcases Bool.eq_false_or_eq_true w.service.stopped with hs | hs
    · exact .inl hs
    · exact .inr ⟨rfl, scheduleReconnect_timer config hs⟩
  · next hunwatched =>
    rcases h.open_current hcall hnot hc with hs | heq
    · exact ⟨(h.idle hs).2, .inl hs⟩
    · exact absurd (List.contains_iff_mem.mpr (h.current c heq).1) hunwatched

/-- The `catch` closes the connection, if there is one. -/
lemma ConsumerInv.failed (h : ConsumerInv config w) (hcall : w.calls = [call])
    (hbusy : w.service.connecting = true) (hnot : ∀ c, call ≠ .closeFailed c)
    (hclosed : ∀ c, call = .closeUnwanted c → c ∉ w.openConnections) :
    ConsumerInv config (.resumed w.failed) ∧ (ConsumerWorld.resumed w.failed).service.Alive := by
  refine ⟨⟨?_, h.stopped, fun hstopped => ⟨(h.idle hstopped).1, rfl⟩, (fun _ he => nomatch he),
    fun c hc => .inr ?_, h.waiting, fun hearly => ?_⟩, fun _ => .inl hbusy⟩
  · exact .inr ⟨_, rfl, hbusy, rfl, rfl⟩
  · rcases h.held_cases hcall hc with heq | hshutdown | hshutdown | hunwanted | hfailed
    · exact .inr (.inl (heq ▸ List.mem_singleton_self _))
    · exact .inr (.inr (.inl hshutdown))
    · exact .inr (.inr (.inr hshutdown))
    · exact absurd hc (hclosed c hunwanted)
    · exact absurd hfailed (hnot _)
  · have hnil := (h.early hearly).1
    rw [hcall] at hnil
    cases hnil

/-- A call returns when the connections that it closes are closed. -/
lemma ConsumerInv.returned (h : ConsumerInv config w) (hcall : w.calls = [call])
    (hsettled : w.Settled)
    (hclosed : ∀ c, call = .closeUnwanted c ∨ call = .closeFailed (some c) →
      c ∉ w.openConnections) : ConsumerInv config (.resumed w.finally) := by
  refine ⟨.inl ⟨rfl, rfl, hsettled⟩, h.stopped, h.idle, h.current, fun c hc => ?_, h.waiting,
    fun hearly => ⟨rfl, (h.early hearly).2⟩⟩
  rcases h.held_cases hcall hc with heq | hshutdown | hshutdown | hunwanted | hfailed
  · exact .inl heq
  · exact .inr (.inr (.inr (.inl hshutdown)))
  · exact .inr (.inr (.inr (.inr hshutdown)))
  · exact absurd hc (hclosed c (.inl hunwanted))
  · exact absurd hc (hclosed c (.inr hfailed))

/-- The call goes on with the connection. -/
lemma ConsumerInv.goesOn (h : ConsumerInv config w) (hcall : w.calls = [call])
    (hbusy : w.service.connecting = true) (hnot : ∀ c, call ≠ .closeUnwanted c)
    (hnot' : ∀ c, call ≠ .closeFailed c) {next : Call} (hnext : next.Fits w) :
    ConsumerInv config (.resumed (w, some next)) := by
  refine ⟨.inr ⟨next, rfl, hbusy, ?_⟩, h.stopped, h.idle, h.current, fun c hc => ?_,
    h.waiting, fun hearly => ?_⟩
  · cases next <;> exact hnext
  · rcases h.held_cases hcall hc with heq | hshutdown | hshutdown | hunwanted | hfailed
    · exact .inl heq
    · exact .inr (.inr (.inr (.inl hshutdown)))
    · exact .inr (.inr (.inr (.inr hshutdown)))
    · exact absurd hunwanted (hnot c)
    · exact absurd hfailed (hnot' _)
  · have hnil := (h.early hearly).1
    rw [hcall] at hnil
    cases hnil

lemma ConsumerWorld.proceed_connecting (config : ReconnectConfig) (w : ConsumerWorld) :
    (w.proceed config .connect true).1.service.connecting = w.service.connecting := by
  unfold ConsumerWorld.proceed
  dsimp only
  split <;> rfl

/-- `connector.connect` has made a connection, which may have been lost already. -/
lemma ConsumerInv.connected (h : ConsumerInv config w) (hcall : w.calls = [.connect])
    (hbusy : w.service.connecting = true) (hfits : Call.connect.Fits w) {opened : List Nat}
    (hopened : ∀ c ∈ opened, c = w.connections ∨ c ∈ w.openConnections) :
    ConsumerInv config (.resumed
      ({ (w.proceed config .connect true).1 with openConnections := opened },
        (w.proceed config .connect true).2)) := by
  have hstarted : w.bootstrapped ≠ false := by
    rw [h.started_of_call hcall]
    decide
  have hheld : ∀ c ∈ w.openConnections,
      w.shutdown = .closesChannel (some c) ∨ w.shutdown = .closesConnection (some c) := by
    intro c hc
    rcases h.held_cases hcall hc with heq | hshutdown | hshutdown | hunwanted | hfailed
    · rw [hfits.1] at heq
      cases heq
    · exact .inl hshutdown
    · exact .inr hshutdown
    · cases hunwanted
    · cases hfailed
  unfold ConsumerWorld.proceed
  dsimp only
  split
  · next hstopped =>
    refine ⟨.inr ⟨_, rfl, hbusy, hstopped⟩, h.stopped, h.idle, fun c hc => ?_, fun c hc => .inr ?_,
      h.waiting, fun he => absurd he hstarted⟩
    · have hsome : w.service.connection = some c := hc
      rw [hfits.1] at hsome
      cases hsome
    · rcases hopened c hc with rfl | hc
      · exact .inl (List.mem_singleton_self _)
      · exact .inr (.inr (hheld c hc))
  · next hstopped =>
    refine ⟨.inr ⟨_, rfl, hbusy, .inr rfl⟩, h.stopped, fun hs => absurd hs hstopped,
      fun c hc => ?_, fun c hc => ?_, h.waiting, fun he => absurd he hstarted⟩
    · obtain rfl := Option.some.inj hc
      exact ⟨List.mem_cons_self, hfits.2⟩
    · rcases hopened c hc with rfl | hc
      · exact .inl rfl
      · exact .inr (.inr (.inr (hheld c hc)))

/-- The channel has been made, on the current connection or on one that is gone. -/
lemma ConsumerInv.channelCreated (h : ConsumerInv config w) {c : Nat}
    (hcall : w.calls = [.createChannel c]) (hbusy : w.service.connecting = true)
    (hc : w.service.connection = none ∨ c ∈ w.openConnections ∧ w.service.connection = some c) :
    ConsumerInv config (.resumed (w.proceed config (.createChannel c) true)) := by
  have hfits : Call.Fits w (.createChannel c) := hc.imp_right And.right
  have hset : ConsumerInv config { w with service := { w.service with channel := some c } } :=
    ⟨.inr ⟨_, hcall, hbusy, hfits⟩, h.stopped, h.idle, h.current, h.held, h.waiting, h.early⟩
  refine hset.goesOn hcall hbusy (fun _ he => nomatch he) (fun _ he => nomatch he) ?_
  exact hc.imp_right fun hcurrent => ⟨hcurrent.1, hcurrent.2, rfl⟩

/-- An operation of `configure` has ended, and it was the last one or the next one is made. -/
lemma ConsumerInv.configured (h : ConsumerInv config w) {c : Nat} {operation : ChannelOperation}
    {rest : List ChannelOperation} (hcall : w.calls = [.configure c operation rest])
    (hbusy : w.service.connecting = true) (hfits : Call.Fits w (.configure c operation rest))
    (hstill : w.service.stopped = true ∨ w.service.connection = some c ∨
      w.service.channel = none ∧ w.service.reconnectTimer.isSome) :
    ConsumerInv config (.resumed (w.proceed config (.configure c operation rest) true)) ∧
      (ConsumerWorld.resumed (w.proceed config (.configure c operation rest) true)).service.Alive := by
  cases rest with
  | cons operation' rest =>
    exact ⟨h.goesOn hcall hbusy (fun _ he => nomatch he) (fun _ he => nomatch he) hfits,
      fun _ => .inl hbusy⟩
  | nil =>
    have hreset : ConsumerInv config { w with service := { w.service with reconnectAttempt := 0 } } :=
      ⟨.inr ⟨_, hcall, hbusy, hfits⟩, h.stopped, h.idle, h.current, h.held, h.waiting, h.early⟩
    have hnot : ∀ c', Call.configure c operation [] = .closeUnwanted c' ∨
        Call.configure c operation [] = .closeFailed (some c') → c' ∉ w.openConnections := by
      rintro c' (he | he) <;> cases he
    refine ⟨hreset.returned hcall ?_ hnot, fun hs => ?_⟩
    · rcases hfits with hnone | hcurrent
      · refine .inl ⟨hnone, hstill.imp_right fun hstill => ?_⟩
        rcases hstill with heq | hfree
        · rw [hnone] at heq
          cases heq
        · exact hfree.1
      · exact .inr ⟨c, hcurrent⟩
    · rcases hstill with hs' | heq | hfree
      · rw [show w.service.stopped = false from hs] at hs'
        cases hs'
      · exact .inr (.inr (Option.isSome_iff_exists.mpr ⟨c, heq⟩))
      · exact .inr (.inl hfree.2)

/-- Whatever a call awaits, and whether that is resolved or rejected. -/
lemma ConsumerInv.proceed (h : ConsumerInv config w) (hcall : w.calls = [call])
    (hbusy : w.service.connecting = true) (hfits : call.Fits w) {resolved : Bool}
    (hend : w.canEnd call resolved = true) :
    ConsumerInv config (.resumed (w.proceed config call resolved)) ∧
      (ConsumerWorld.resumed (w.proceed config call resolved)).service.Alive := by
  cases call with
  | connect =>
    cases resolved with
    | false => exact h.failed hcall hbusy (fun _ he => nomatch he) fun _ he => nomatch he
    | true =>
      have hconnected := h.connected hcall hbusy hfits (fun c => List.mem_cons (a := c).mp)
      refine ⟨?_, fun _ => .inl ((w.proceed_connecting config).trans hbusy)⟩
      convert hconnected using 2
      unfold ConsumerWorld.proceed
      dsimp only
      split <;> rfl
  | closeUnwanted c =>
    have hclosed : c ∉ w.openConnections := by simpa [ConsumerWorld.canEnd] using hend
    cases resolved with
    | false =>
      refine h.failed hcall hbusy (fun _ he => nomatch he) fun c' he => ?_
      exact Call.closeUnwanted.inj he ▸ hclosed
    | true =>
      refine ⟨h.returned hcall (.inl ⟨(h.idle hfits).2, .inl hfits⟩) fun c' he => ?_, fun hs => ?_⟩
      · rcases he with he | he
        · exact Call.closeUnwanted.inj he ▸ hclosed
        · cases he
      · have hstopped : w.service.stopped = true := hfits
        rw [show w.service.stopped = false from hs] at hstopped
        cases hstopped
  | createChannel c =>
    cases resolved with
    | false => exact h.failed hcall hbusy (fun _ he => nomatch he) fun _ he => nomatch he
    | true =>
      have hopen : c ∈ w.openConnections := by simpa [ConsumerWorld.canEnd] using hend
      refine ⟨h.channelCreated hcall hbusy ?_, fun _ => .inl hbusy⟩
      exact hfits.imp_right fun heq => ⟨hopen, heq⟩
  | configure c operation rest =>
    cases resolved with
    | false =>
      have hfailed := h.failed hcall hbusy (fun _ he => nomatch he) fun _ he => nomatch he
      cases rest <;> exact hfailed
    | true =>
      have hopen : c ∈ w.openConnections := by simpa [ConsumerWorld.canEnd] using hend
      refine h.configured hcall hbusy hfits ?_
      exact (h.open_current hcall (fun _ he => nomatch he) hopen).imp_right .inl
  | closeFailed c =>
    have hclosed : ∀ c', c = some c' → c' ∉ w.openConnections := by
      rintro c' rfl
      simpa [ConsumerWorld.canEnd] using hend
    have hsame := scheduleReconnect_same config w.service
    have hscheduled := h.scheduleReconnect (h.started_of_call hcall) hfits.1 fun _ he => by
      rw [hcall] at he
      cases he
    refine ⟨hscheduled.returned hcall (.inl ⟨hsame.1.trans hfits.1, .inr (hsame.2.1.trans hfits.2)⟩)
      fun c' he => ?_, fun hs => .inr (.inl (scheduleReconnect_timer config
        (hsame.2.2.2.symm.trans hs)))⟩
    rcases he with he | he
    · cases he
    · exact hclosed c' (Call.closeFailed.inj he)

/-- Whatever a call awaits, and the connection is lost at once. -/
lemma ConsumerInv.lose (h : ConsumerInv config w) (hcall : w.calls = [call])
    (hbusy : w.service.connecting = true) (hfits : call.Fits w) {r : ConsumerWorld × Option Call}
    (hr : w.lose config call = some r) :
    ConsumerInv config (.resumed r) ∧ (ConsumerWorld.resumed r).service.Alive := by
  have hclosed : ∀ c ∈ w.openConnections, (w.closed config c).service.connecting = true := by
    intro c hc
    rcases (h.closed hc).single with ⟨hnil, -⟩ | ⟨_, -, hbusy', -⟩
    · rw [show w.calls = [] from hnil] at hcall
      cases hcall
    · exact hbusy'
  cases call with
  | connect =>
    have hconnected := h.connected hcall hbusy hfits (fun c hc => .inr hc)
    obtain rfl := Option.some.inj hr
    exact ⟨hconnected, fun _ => .inl ((w.proceed_connecting config).trans hbusy)⟩
  | createChannel c =>
    obtain ⟨hcontains, hsome⟩ := Option.ite_none_right_eq_some.mp hr
    obtain rfl := Option.some.inj hsome
    have hopen := List.contains_iff_mem.mp hcontains
    have hlost := h.lost hcall (fun _ he => nomatch he) hopen
    exact ⟨(h.closed hopen).channelCreated hcall (hclosed c hopen) (.inl hlost.1),
      fun _ => .inl (hclosed c hopen)⟩
  | configure c operation rest =>
    obtain ⟨hcontains, hsome⟩ := Option.ite_none_right_eq_some.mp hr
    obtain rfl := Option.some.inj hsome
    have hopen := List.contains_iff_mem.mp hcontains
    have hlost := h.lost hcall (fun _ he => nomatch he) hopen
    exact (h.closed hopen).configured hcall (hclosed c hopen) (.inl hlost.1)
      (hlost.2.imp_right .inr)
  | closeUnwanted => cases hr
  | closeFailed => cases hr

end Calls

/-! ### What an event does -/

/-- The invariant, and after the start the consumer is connected or will be. -/
def ConsumerWorld.Sound (config : ReconnectConfig) (w : ConsumerWorld) : Prop :=
  ConsumerInv config w ∧ (w.bootstrapped = true → w.service.Alive)

lemma ConsumerWorld.Sound.bootstrap (h : w.Sound config)
    (hw : w.perform config .bootstrap = some w') : w'.Sound config := by
  obtain ⟨hinv, -⟩ := h
  simp only [ConsumerWorld.perform] at hw
  split at hw
  · next hguard =>
    obtain ⟨hearly, hshutdown⟩ := hguard
    obtain rfl := Option.some.inj hw
    have hstopped : w.service.stopped = false := by
      rw [← Bool.not_eq_true]
      exact fun hs => hinv.stopped.mp hs hshutdown
    obtain ⟨hnil, hnone, htimer⟩ := hinv.early hearly
    have hsame : { w.service with stopped := false } = w.service := by rw [← hstopped]
    have hbase : ConsumerInv config { w with bootstrapped := true } := by
      refine ⟨?_, hinv.stopped, hinv.idle, hinv.current, hinv.held, hinv.waiting,
        fun he => nomatch he⟩
      rcases hinv.single with hfree | ⟨call, hcall, -, -⟩
      · exact .inl hfree
      · rw [hnil] at hcall
        cases hcall
    rw [hsame]
    obtain ⟨hinv', halive⟩ := hbase.connectOrSchedule rfl htimer
    exact ⟨hinv', fun _ => halive⟩
  · cases hw

lemma ConsumerWorld.Sound.shutdown (h : w.Sound config)
    (hw : w.perform config .shutdown = some w') : w'.Sound config := by
  obtain ⟨hinv, -⟩ := h
  simp only [ConsumerWorld.perform] at hw
  split at hw
  · next hshutdown =>
    obtain rfl := Option.some.inj hw
    refine ⟨⟨?_, ⟨(fun _ he => nomatch he), fun _ => rfl⟩, fun _ => ⟨rfl, rfl⟩,
      (fun _ he => nomatch he), fun c hc => .inr ?_, (fun _ he => nomatch he),
      fun he => ⟨(hinv.early he).1, (hinv.early he).2.1, rfl⟩⟩, fun _ hs => nomatch hs⟩
    · rcases hinv.single with ⟨hnil, hfree, -⟩ | ⟨call, hcall, hbusy, hfits⟩
      · exact .inl ⟨hnil, hfree, .inl ⟨rfl, .inl rfl⟩⟩
      · refine .inr ⟨call, hcall, hbusy, ?_⟩
        cases call with
        | connect => exact ⟨rfl, rfl⟩
        | closeUnwanted => exact rfl
        | createChannel => exact .inl rfl
        | configure => exact .inl rfl
        | closeFailed => exact ⟨rfl, rfl⟩
    · rcases hinv.held c hc with heq | hcall | hcall | he | he
      · exact .inr (.inr (.inl (congrArg Shutdown.closesChannel heq)))
      · exact .inl hcall
      · exact .inr (.inl hcall)
      · rw [hshutdown] at he
        cases he
      · rw [hshutdown] at he
        cases he
  · cases hw

/-- `onApplicationShutdown` goes on: nothing but its own place changes. -/
lemma ConsumerInv.shutsDown (h : ConsumerInv config w) {shutdown : Shutdown}
    (hstopped : w.shutdown ≠ .notCalled) (hplace : shutdown ≠ .notCalled)
    (hheld : ∀ c ∈ w.openConnections,
      w.shutdown = .closesChannel (some c) ∨ w.shutdown = .closesConnection (some c) →
        shutdown = .closesConnection (some c)) :
    ConsumerInv config { w with shutdown := shutdown } := by
  refine ⟨?_, h.stopped.trans ⟨fun _ => hplace, fun _ => hstopped⟩, h.idle, h.current,
    fun c hc => ?_, h.waiting, h.early⟩
  · rcases h.single with hnil | ⟨call, hcall, hbusy, hfits⟩
    · exact .inl hnil
    · exact .inr ⟨call, hcall, hbusy, by cases call <;> exact hfits⟩
  · rcases h.held c hc with heq | hcall | hcall | he | he
    · exact .inl heq
    · exact .inr (.inl hcall)
    · exact .inr (.inr (.inl hcall))
    · exact .inr (.inr (.inr (.inr (hheld c hc (.inl he)))))
    · exact .inr (.inr (.inr (.inr (hheld c hc (.inr he)))))

lemma ConsumerWorld.Sound.shutdownContinues (h : w.Sound config)
    (hw : w.perform config .shutdownContinues = some w') : w'.Sound config := by
  obtain ⟨hinv, halive⟩ := h
  simp only [ConsumerWorld.perform] at hw
  split at hw
  · next c hshutdown =>
    obtain rfl := Option.some.inj hw
    have hcalled : w.shutdown ≠ .notCalled := hshutdown ▸ fun he => nomatch he
    refine ⟨hinv.shutsDown hcalled (fun he => nomatch he) fun c' _ he => ?_, halive⟩
    rw [hshutdown] at he
    rcases he with he | he
    · exact congrArg _ (Shutdown.closesChannel.inj he)
    · cases he
  · next c hshutdown =>
    split at hw
    · next hclosed =>
      obtain rfl := Option.some.inj hw
      have hcalled : w.shutdown ≠ .notCalled := hshutdown ▸ fun he => nomatch he
      refine ⟨hinv.shutsDown hcalled (fun he => nomatch he) fun c' hc' he => ?_, halive⟩
      rw [hshutdown] at he
      rcases he with he | he
      · cases he
      · obtain rfl := Shutdown.closesConnection.inj he
        exact absurd hc' (by simpa using hclosed)
    · cases hw
  · cases hw

lemma ConsumerWorld.Sound.timer (h : w.Sound config) (hw : w.perform config .timer = some w') :
    w'.Sound config := by
  obtain ⟨hinv, -⟩ := h
  simp only [ConsumerWorld.perform] at hw
  split at hw
  · next htimer =>
    obtain rfl := Option.some.inj hw
    have hstarted : w.bootstrapped = true := by
      by_contra hearly
      rw [(hinv.early (Bool.not_eq_true _ ▸ hearly)).2.2] at htimer
      cases htimer
    have hbase : ConsumerInv config
        { w with service := { w.service with reconnectTimer := none } } := by
      refine ⟨?_, hinv.stopped, fun hs => ⟨rfl, (hinv.idle hs).2⟩,
        fun c hc => ⟨(hinv.current c hc).1, rfl⟩, hinv.held, (fun _ he => nomatch he),
        fun he => ⟨(hinv.early he).1, (hinv.early he).2.1, rfl⟩⟩
      rcases hinv.single with hnil | ⟨call, hcall, hbusy, hfits⟩
      · exact .inl hnil
      · refine .inr ⟨call, hcall, hbusy, ?_⟩
        cases call with
        | connect => exact ⟨hfits.1, rfl⟩
        | _ => exact hfits
    obtain ⟨hinv', halive⟩ := hbase.connectOrSchedule hstarted rfl
    exact ⟨hinv', fun _ => halive⟩
  · cases hw

lemma ConsumerWorld.Sound.close (h : w.Sound config) {c : Nat}
    (hw : w.perform config (.close c) = some w') : w'.Sound config := by
  obtain ⟨hinv, halive⟩ := h
  obtain ⟨hopen, hsome⟩ := Option.ite_none_right_eq_some.mp hw
  obtain rfl := Option.some.inj hsome
  have hc := List.contains_iff_mem.mp hopen
  exact ⟨hinv.closed hc, fun hstarted => ConsumerWorld.closed_alive (halive hstarted) c⟩

/-- The only suspended call goes on. -/
lemma ConsumerInv.goOn {call : Call} (h : ConsumerInv config w) (hcall : w.calls = [call])
    (hbusy : w.service.connecting = true) (hfits : call.Fits w) {outcome : Outcome}
    {r : ConsumerWorld × Option Call} (hr : w.goOn config call outcome = some r) :
    ConsumerInv config (.resumed r) ∧ (ConsumerWorld.resumed r).service.Alive := by
  cases outcome with
  | resolved =>
    obtain ⟨hend, hsome⟩ := Option.ite_none_right_eq_some.mp hr
    obtain rfl := Option.some.inj hsome
    exact h.proceed hcall hbusy hfits hend
  | rejected =>
    obtain ⟨hend, hsome⟩ := Option.ite_none_right_eq_some.mp hr
    obtain rfl := Option.some.inj hsome
    exact h.proceed hcall hbusy hfits hend
  | lost => exact h.lose hcall hbusy hfits hr

lemma ConsumerWorld.Sound.resume (h : w.Sound config) {i : Nat} {outcome : Outcome}
    (hw : w.perform config (.resume i outcome) = some w') : w'.Sound config := by
  obtain ⟨hinv, -⟩ := h
  simp only [ConsumerWorld.perform] at hw
  split at hw
  · next call hi =>
    obtain ⟨rfl, hcall, hbusy, hfits⟩ := hinv.only_call hi
    split at hw
    · next r next hr =>
      obtain ⟨hinv', halive⟩ := hinv.goOn hcall hbusy hfits hr
      obtain rfl := Option.some.inj hw
      rw [hcall]
      exact ⟨hinv', fun _ => halive⟩
    · next r hr =>
      obtain ⟨hinv', halive⟩ := hinv.goOn hcall hbusy hfits hr
      obtain rfl := Option.some.inj hw
      rw [hcall]
      exact ⟨hinv', fun _ => halive⟩
    · cases hw
  · cases hw

/-- Every event keeps it. -/
lemma ConsumerWorld.Sound.perform (h : w.Sound config) {event : ConsumerEvent}
    (hw : w.perform config event = some w') : w'.Sound config := by
  cases event with
  | bootstrap => exact h.bootstrap hw
  | shutdown => exact h.shutdown hw
  | shutdownContinues => exact h.shutdownContinues hw
  | timer => exact h.timer hw
  | close c => exact h.close hw
  | resume i outcome => exact h.resume hw

lemma ConsumerWorld.Reached.sound (h : w.Reached config) : w.Sound config := by
  induction h with
  | refl =>
    refine ⟨⟨.inl ⟨rfl, rfl, .inl ⟨rfl, .inr rfl⟩⟩, by simp, (fun h => nomatch h),
      (fun _ h => nomatch h), (fun _ h => nomatch h), (fun _ h => nomatch h),
      fun _ => ⟨rfl, rfl, rfl⟩⟩, fun h => nomatch h⟩
  | tail _ hstep ih =>
    obtain ⟨event, hw⟩ := hstep
    exact ih.perform hw

/-! ### How it connects again -/

lemma ConsumerWorld.Sound.continues (h : w.Sound config) (hcontinues : w.Continues config w') :
    w'.Sound config := by
  induction hcontinues with
  | refl => exact h
  | tail _ hstep ih =>
    obtain ⟨event, hw⟩ := hstep
    exact ih.perform hw

lemma ConsumerWorld.Continues.event (event : ConsumerEvent)
    (hw : w.perform config event = some w') : w.Continues config w' :=
  .single ⟨event, hw⟩

/-- The only suspended call goes on. -/
lemma ConsumerWorld.Continues.goOn {call : Call} {outcome : Outcome}
    {r : ConsumerWorld × Option Call} (hcall : w.calls = [call])
    (hr : w.goOn config call outcome = some r) : w.Continues config (.resumed r) := by
  refine .event (.resume 0 outcome) ?_
  simp only [ConsumerWorld.perform]
  rw [hcall, List.getElem?_cons_zero]
  dsimp only
  rw [hr]
  obtain ⟨w', _ | next⟩ := r <;> rfl

/-- The rest of `configure` succeeds while the connection stays open. -/
lemma ConsumerWorld.Continues.configures {c : Nat} (rest : List ChannelOperation)
    (operation : ChannelOperation) {w : ConsumerWorld}
    (hcall : w.calls = [.configure c operation rest]) (hopen : c ∈ w.openConnections)
    (hconnection : w.service.connection = some c) (hchannel : w.service.channel = some c) :
    ∃ w', w.Continues config w' ∧ w'.Connected := by
  induction rest generalizing operation w with
  | nil =>
    have hgo : w.goOn config (.configure c operation []) .resolved =
        some (w.proceed config (.configure c operation []) true) :=
      if_pos (List.contains_iff_mem.mpr hopen)
    exact ⟨_, .goOn hcall hgo, rfl, c, hopen, hconnection, hchannel⟩
  | cons operation' rest ih =>
    have hgo : w.goOn config (.configure c operation (operation' :: rest)) .resolved =
        some (w, some (.configure c operation' rest)) :=
      if_pos (List.contains_iff_mem.mpr hopen)
    obtain ⟨w', hcontinues, hconnected⟩ := ih operation'
      (w := .resumed (w, some (.configure c operation' rest))) rfl hopen hconnection hchannel
    exact ⟨w', (ConsumerWorld.Continues.goOn hcall hgo).trans hcontinues, hconnected⟩

/-- When the broker accepts the connection, it is set up. -/
lemma ConsumerWorld.Continues.connects (hcall : w.calls = [.connect])
    (hrunning : w.service.stopped = false) : ∃ w', w.Continues config w' ∧ w'.Connected := by
  have hgo : w.goOn config .connect .resolved =
      some ({ w with
        service := { w.service with connection := some w.connections }
        openConnections := w.connections :: w.openConnections
        watched := w.connections :: w.watched
        connections := w.connections + 1 }, some (.createChannel w.connections)) := by
    simp [ConsumerWorld.goOn, ConsumerWorld.canEnd, ConsumerWorld.proceed, hrunning]
  have hconnects := ConsumerWorld.Continues.goOn hcall hgo
  set w₁ := ConsumerWorld.resumed _ with hw₁
  have hopen : w.connections ∈ w₁.openConnections := List.mem_cons_self
  have hgo₁ : w₁.goOn config (.createChannel w.connections) .resolved =
      some (w₁.proceed config (.createChannel w.connections) true) :=
    if_pos (List.contains_iff_mem.mpr hopen)
  have hchannel := ConsumerWorld.Continues.goOn (w := w₁) rfl hgo₁
  obtain ⟨w', hcontinues, hconnected⟩ := ConsumerWorld.Continues.configures (w := .resumed
    (w₁.proceed config (.createChannel w.connections) true)) _ _ rfl hopen rfl rfl
  exact ⟨w', hconnects.trans (hchannel.trans hcontinues), hconnected⟩

/-- When the timer fires, the consumer connects. -/
lemma ConsumerWorld.Sound.connectsByTimer (h : w.Sound config) (hnil : w.calls = [])
    (hrunning : w.service.stopped = false) (htimer : w.service.reconnectTimer.isSome) :
    ∃ w', w.Continues config w' ∧ w'.Connected := by
  have hconnecting : w.service.connecting = false := by
    rcases h.1.single with ⟨-, hfree, -⟩ | ⟨call, hcall, -⟩
    · exact hfree
    · rw [hnil] at hcall
      cases hcall
  have hconnection : w.service.connection = none := by
    rw [Option.eq_none_iff_forall_ne_some]
    intro c hc
    rw [(h.1.current c hc).2] at htimer
    cases htimer
  have hfires : w.perform config .timer = some { w with
      service := { w.service with reconnectTimer := none, connecting := true }
      calls := [.connect] } := by
    simp [ConsumerWorld.perform, ConsumerWorld.connectOrSchedule, htimer, hrunning, hconnecting,
      hconnection, hnil]
  obtain ⟨w', hcontinues, hconnected⟩ :=
    @ConsumerWorld.Continues.connects config { w with
      service := { w.service with reconnectTimer := none, connecting := true }
      calls := [.connect] } rfl hrunning
  exact ⟨w', (ConsumerWorld.Continues.event .timer hfires).trans hcontinues, hconnected⟩

/-- After a failure the connection is closed, if it is not yet, and the timer is set. -/
lemma ConsumerWorld.Sound.connectsAfterFailure (h : w.Sound config) {c : Option Nat}
    (hcall : w.calls = [.closeFailed c]) (hrunning : w.service.stopped = false) :
    ∃ w', w.Continues config w' ∧ w'.Connected := by
  have hclosed : ∃ w₁, w.Continues config w₁ ∧ w₁.calls = [.closeFailed c] ∧
      w₁.service.stopped = false ∧ w₁.canEnd (.closeFailed c) true = true := by
    by_cases hend : w.canEnd (.closeFailed c) true = true
    · exact ⟨w, .refl, hcall, hrunning, hend⟩
    · obtain _ | c := c
      · exact absurd rfl hend
      · have hcontains : w.openConnections.contains c = true := by
          simpa [ConsumerWorld.canEnd] using hend
        refine ⟨w.closed config c, .event (.close c) (if_pos hcontains), hcall, ?_, ?_⟩
        · unfold ConsumerWorld.closed
          dsimp only
          split
          · rw [handleDisconnect_eq, (scheduleReconnect_same config _).2.2.2]
            exact hrunning
          · exact hrunning
        · simp [ConsumerWorld.canEnd, ConsumerWorld.closed]
  obtain ⟨w₁, hcontinues, hcall₁, hrunning₁, hend₁⟩ := hclosed
  have hgo : w₁.goOn config (.closeFailed c) .resolved =
      some (w₁.proceed config (.closeFailed c) true) := if_pos hend₁
  have hreturns := hcontinues.trans (ConsumerWorld.Continues.goOn hcall₁ hgo)
  obtain ⟨w', hconnects, hconnected⟩ := (h.continues hreturns).connectsByTimer rfl
    ((scheduleReconnect_same config w₁.service).2.2.2.trans hrunning₁)
    (scheduleReconnect_timer config hrunning₁)
  exact ⟨w', hreturns.trans hconnects, hconnected⟩

/-- Wherever it is, the consumer can get a connection until it is stopped. -/
lemma ConsumerWorld.Sound.connects (h : w.Sound config) (hstarted : w.bootstrapped = true)
    (hrunning : w.service.stopped = false) : ∃ w', w.Continues config w' ∧ w'.Connected := by
  rcases h.1.single with ⟨hnil, hfree, hnone | hcurrent⟩ | ⟨call, hcall, -, hfits⟩
  · refine h.connectsByTimer hnil hrunning ?_
    rcases h.2 hstarted hrunning with hbusy | htimer | hsome
    · rw [hfree] at hbusy
      cases hbusy
    · exact htimer
    · rw [hnone.1] at hsome
      cases hsome
  · exact ⟨w, .refl, hnil, hcurrent⟩
  · -- what the call awaits is rejected, unless it is the end of a failure already
    have hfails : w.goOn config call .rejected = some w.failed →
        ∃ w', w.Continues config w' ∧ w'.Connected := by
      intro hgo
      have hfailed := ConsumerWorld.Continues.goOn hcall hgo
      obtain ⟨w', hconnects, hconnected⟩ :=
        (h.continues hfailed).connectsAfterFailure rfl hrunning
      exact ⟨w', hfailed.trans hconnects, hconnected⟩
    cases call with
    | connect => exact hfails rfl
    | createChannel => exact hfails rfl
    | configure _ _ rest => cases rest <;> exact hfails rfl
    | closeFailed => exact h.connectsAfterFailure hcall hrunning
    | closeUnwanted =>
      rw [show w.service.stopped = true from hfits] at hrunning
      cases hrunning

/-- What a list of events leads to can be reached. -/
lemma ConsumerWorld.Continues.run {events : List ConsumerEvent} {w : ConsumerWorld}
    (hrun : events.foldlM (ConsumerWorld.perform config) w = some w') : w.Continues config w' := by
  induction events generalizing w with
  | nil =>
    obtain rfl := Option.some.inj hrun
    exact .refl
  | cons event events ih =>
    rw [List.foldlM_cons] at hrun
    obtain ⟨w₁, hw₁, hrest⟩ := Option.bind_eq_some_iff.mp hrun
    exact (ConsumerWorld.Continues.event event hw₁).trans (ih hrest)

/-! ### The connection is kept -/

/-- While nobody stops the service there is one open connection at most. -/
lemma ConsumerInv.open_unique (h : ConsumerInv config w) (hrunning : w.service.stopped = false)
    {c c' : Nat} (hc : c ∈ w.openConnections) (hc' : c' ∈ w.openConnections) : c = c' := by
  rcases h.held c hc with heq | hclosing
  · exact (h.only_current heq hc').symm
  · rcases h.held c' hc' with heq' | hclosing'
    · exact h.only_current heq' hc
    · rcases h.closing_cases hclosing with hs | hcall
      · rw [hrunning] at hs
        cases hs
      · rcases h.closing_cases hclosing' with hs | hcall'
        · rw [hrunning] at hs
          cases hs
        · rw [hcall] at hcall'
          exact Option.some.inj (Call.closeFailed.inj (List.singleton_inj.mp hcall'))

/-- The consumer connects once at a time.  From its start until it is stopped it is connected, or
connects, or has set its timer; it can always get a connection again, and never has two of them.  A
timer is set only without a connection, with the delay of some attempt.  An open connection is the
current one or is being closed, so that none is left after the shutdown. -/
theorem consumer_keeps_connection (config : ReconnectConfig) {w : ConsumerWorld}
    (h : w.Reached config) :
    w.calls.length ≤ 1 ∧
      (w.bootstrapped = true → w.service.stopped = false →
        (w.Connected ∨ w.calls ≠ [] ∨ w.service.reconnectTimer.isSome) ∧
          (∃ w', w.Continues config w' ∧ w'.Connected) ∧
          ∀ c ∈ w.openConnections, ∀ c' ∈ w.openConnections, c = c') ∧
      (∀ delay, w.service.reconnectTimer = some delay →
        w.service.connection = none ∧ ∃ attempt ≥ 1, delay = config.delay attempt) ∧
      (∀ c ∈ w.openConnections, w.service.connection = some c ∨ w.Closing c) ∧
      (w.service.stopped = true → w.service.reconnectTimer = none ∧ w.service.connection = none ∧
        (w.calls = [] → w.shutdown = .returned → w.openConnections = [])) := by
  obtain ⟨hinv, halive⟩ := h.sound
  refine ⟨?_, fun hstarted hrunning => ⟨?_, h.sound.connects hstarted hrunning,
    fun c hc c' hc' => hinv.open_unique hrunning hc hc'⟩,
    fun delay hdelay => ⟨?_, hinv.waiting _ hdelay⟩, hinv.held,
    fun hs => ⟨(hinv.idle hs).1, (hinv.idle hs).2, fun hnil hreturned => ?_⟩⟩
  · rcases hinv.single with ⟨hnil, -⟩ | ⟨call, hcall, -⟩
    · rw [hnil]
      exact Nat.zero_le 1
    · rw [hcall]
      exact Nat.le_refl 1
  · rcases hinv.single with ⟨hnil, hfree, hnone | hcurrent⟩ | ⟨call, hcall, -⟩
    · rcases halive hstarted hrunning with hbusy | htimer | hsome
      · rw [hfree] at hbusy
        cases hbusy
      · exact .inr (.inr htimer)
      · rw [hnone.1] at hsome
        cases hsome
    · exact .inl ⟨hnil, hcurrent⟩
    · exact .inr (.inl (by rw [hcall]; exact List.cons_ne_nil _ _))
  · rw [Option.eq_none_iff_forall_ne_some]
    intro c hc
    rw [(hinv.current c hc).2] at hdelay
    cases hdelay
  · rw [List.eq_nil_iff_forall_not_mem]
    intro c hc
    rcases hinv.held c hc with heq | hcall | hcall | he | he
    · rw [(hinv.idle hs).2] at heq
      cases heq
    · rw [hnil] at hcall
      cases hcall
    · rw [hnil] at hcall
      cases hcall
    · rw [hreturned] at he
      cases he
    · rw [hreturned] at he
      cases he

/-- The first connection is lost while its channel is made: the consumer waits for its timer. -/
theorem consumer_keeps_connection_lost :
    ∃ w : ConsumerWorld, w.calls = [] ∧ w.service.connection = none ∧
      (w.Connected ∨ w.calls ≠ [] ∨ w.service.reconnectTimer.isSome) ∧
      ∃ w', w.Continues {} w' ∧ w'.Connected := by
  let w : ConsumerWorld := {
    service := { reconnectTimer := some (ReconnectConfig.delay {} 1), reconnectAttempt := 1 }
    bootstrapped := true
    watched := [0]
    connections := 1 }
  have hrun : [.bootstrap, .resume 0 .resolved, .resume 0 .lost, .resume 0 .rejected,
      .resume 0 .resolved].foldlM (ConsumerWorld.perform {}) {} = some w := rfl
  have h := consumer_keeps_connection {} (w := w) (ConsumerWorld.Continues.run hrun)
  have hrunning := h.2.1 rfl rfl
  exact ⟨w, rfl, rfl, hrunning.1, hrunning.2.1⟩

end Notifications

end PeerLedger
