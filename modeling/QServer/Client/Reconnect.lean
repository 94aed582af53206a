import QServer.Client.ClientBase

/-
This file proves when a `Reconnect` tick opens a connection exactly when there is none.
-/

namespace QServer
open Transition

variable {Self Answer Event : Type}

/-- The state of the client tells whether there is a connection or an attempt. -/
def Client.Synced (client : Client Self Answer Event) (run : LinkRun Self) : Prop :=
  (client.state run.client).notNeedReconnect = run.link.isUp

/-- A tick opens a connection when the state asks for it, and an event sets the state. -/
structure Client.Lawful (client : Client Self Answer Event) (valid : Self → Prop) : Prop where
  asks : ∀ self answer, valid self →
    (client.reconnect self answer).2 = !(client.state self).notNeedReconnect
  quiet : ∀ self answer, (client.reconnect self answer).2 = false →
    (client.reconnect self answer).1 = self
  handled : ∀ self event link link', client.report event link = some link' →
    (client.state (client.handle self event)).notNeedReconnect = link'.isUp

namespace Client

variable {client : Client Self Answer Event} {valid : Self → Prop} {run next : LinkRun Self}
  {answer : Answer} {event : Event}

theorem Lawful.right_iff (lawful : client.Lawful valid) (ready : valid run.client) :
    client.Right run answer ↔ (client.state run.client).notNeedReconnect = run.link.isUp := by
  rw [Right, Client.opens, lawful.asks _ _ ready]
  cases (client.state run.client).notNeedReconnect <;> cases run.link.isUp <;> simp

/-- After an event the state fits the connection. -/
theorem Lawful.deliver (lawful : client.Lawful valid)
    (delivered : client.deliver run event = some next) :
    client.Synced next ∧ next.reported = true := by
  obtain ⟨link, reported, rfl⟩ := Option.map_eq_some_iff.mp delivered
  exact ⟨lawful.handled _ _ _ _ reported, rfl⟩

theorem Lawful.tick_quiet (lawful : client.Lawful valid)
    (closed : client.opens run answer = false) :
    client.tick run answer = run := by
  have same : (client.reconnect run.client answer).1 = run.client := lawful.quiet _ _ closed
  rw [tick, closed, Bool.false_and, if_neg Bool.false_ne_true, same]

/-- The client sets the state with each attempt, and nothing is reported before the first one. -/
structure SetsConnecting (client : Client Self Answer Event) : Prop extends
    client.Lawful fun _ => True where
  sets : ∀ self answer, (client.reconnect self answer).2 = true → client.begins answer = true →
    (client.state (client.reconnect self answer).1).notNeedReconnect = true
  failed : ∀ self answer, client.begins answer = false →
    (client.reconnect self answer).1 = self
  silent : ∀ event, client.report event .none = none

theorem SetsConnecting.synced_tick (sets : client.SetsConnecting) (synced : client.Synced run) :
    client.Synced (client.tick run answer) := by
  cases opened : client.opens run answer with
  | false => rwa [sets.tick_quiet opened]
  | true =>
      rw [tick, opened, Bool.true_and]
      cases began : client.begins answer with
      | true => exact sets.sets _ _ opened began
      | false =>
          rw [if_neg Bool.false_ne_true, sets.failed _ _ began]
          exact synced

/-- A fitting state goes on to fit. -/
theorem SetsConnecting.synced_run (sets : client.SetsConnecting) {start : LinkRun Self}
    {acts : List (LinkAct Answer Event)} (synced : client.Synced start)
    (reached : (client.machine start).run start acts = some run) : client.Synced run := by
  refine (client.machine start).run_invariant (fun before act after held stepped => ?_) synced
    reached
  cases act with
  | tick answer =>
      cases stepped
      exact sets.synced_tick held
  | event event => exact (sets.deliver stepped).1

/-- A state that asks for no connection stays, and no connection is ever tried. -/
theorem SetsConnecting.stuck_run (sets : client.SetsConnecting) {start : LinkRun Self}
    {acts : List (LinkAct Answer Event)} (unborn : start.link = .none)
    (stuck : (client.state start.client).notNeedReconnect = true)
    (reached : (client.machine start).run start acts = some run) : run = start := by
  have kept : ∀ before act after, before = start → (client.machine start).step before act =
      some after → after = start := by
    rintro before act after rfl stepped
    cases act with
    | tick answer =>
        cases stepped
        apply sets.tick_quiet
        rw [Client.opens, sets.asks _ _ trivial, stuck]
        rfl
    | event event =>
        obtain ⟨link, reported, rfl⟩ := Option.map_eq_some_iff.mp stepped
        rw [unborn, sets.silent] at reported
        cases reported
  exact (client.machine start).run_invariant kept rfl reached

/-- All ticks are right or none is, as the constructor has left the state. -/
theorem SetsConnecting.rightIff (sets : client.SetsConnecting) (self : Self) :
    client.RightIff ⟨self, .none, false⟩ fun _ =>
      (client.state self).notNeedReconnect = false := by
  intro acts run answer reached
  rw [sets.right_iff trivial]
  cases value : (client.state self).notNeedReconnect with
  | false =>
      have synced : client.Synced ⟨self, .none, false⟩ := value
      exact ⟨fun _ => rfl, fun _ => sets.synced_run synced reached⟩
  | true =>
      rw [sets.stuck_run rfl value reached, value]
      exact ⟨fun same => same, fun same => same⟩

/-- The guard holds a tick back, or the tick connects and sets the state. -/
inductive Guarded (client : Client Self Answer Event) (self : Self) (answer : Answer) : Prop
  | rests (guard : (client.state self).notNeedReconnect = true)
      (same : client.reconnect self answer = (self, false))
  | connects (guard : (client.state self).notNeedReconnect = false) (after : Self)
      (called : client.reconnect self answer = (after, true))
      (sets : client.begins answer = true → (client.state after).notNeedReconnect = true)
      (failed : client.begins answer = false → after = self)

theorem SetsConnecting.of_guarded (guarded : ∀ self answer, client.Guarded self answer)
    (handled : ∀ self event link link', client.report event link = some link' →
      (client.state (client.handle self event)).notNeedReconnect = link'.isUp)
    (silent : ∀ event, client.report event .none = none) : client.SetsConnecting := by
  refine ⟨⟨?_, ?_, handled⟩, ?_, ?_, silent⟩
  · intro self answer _
    cases guarded self answer with
    | rests guard same => rw [same, guard, Bool.not_true]
    | connects guard after called _ _ => rw [called, guard, Bool.not_false]
  · intro self answer closed
    cases guarded self answer with
    | rests guard same => rw [same]
    | connects guard after called _ _ =>
        rw [called] at closed
        cases closed
  · intro self answer opened began
    cases guarded self answer with
    | rests guard same =>
        rw [same] at opened
        cases opened
    | connects guard after called sets _ =>
        rw [called]
        exact sets began
  · intro self answer failed
    cases guarded self answer with
    | rests guard same => rw [same]
    | connects guard after called _ kept =>
        rw [called]
        exact kept failed

end Client

theorem rabbitMQNet_setsConnecting : rabbitMQNet.SetsConnecting := by
  apply Client.SetsConnecting.of_guarded
  · intro state answer
    cases guard : state.notNeedReconnect with
    | true => exact .rests guard (if_pos guard)
    | false =>
        refine .connects guard .kConnecting (if_neg (ne_true_of_eq_false guard)) ?_ ?_
        · intro _
          rfl
        · intro failed
          cases failed
  · intro state event link link' reported
    cases event <;> cases link <;> cases reported <;> rfl
  · intro event
    cases event <;> rfl

theorem redisClient_setsConnecting : redisClient.SetsConnecting := by
  apply Client.SetsConnecting.of_guarded
  · intro state answer
    cases guard : state.notNeedReconnect with
    | true => exact .rests guard (if_pos guard)
    | false =>
        have asks : ¬state.notNeedReconnect = true := ne_true_of_eq_false guard
        cases answer with
        | connecting =>
            refine .connects guard .kConnecting (if_neg asks) ?_ ?_
            · intro _
              rfl
            · intro failed
              cases failed
        | null =>
            refine .connects guard state (if_neg asks) ?_ fun _ => rfl
            intro began
            cases began
        | err =>
            refine .connects guard state (if_neg asks) ?_ fun _ => rfl
            intro began
            cases began
  · intro state event link link' reported
    cases event with
    | connectCallback ok =>
        cases ok <;> cases link <;> cases reported <;> rfl
    | disconnectCallback ok =>
        cases link <;> cases reported
        rfl
  · intro event
    cases event <;> rfl

namespace ZooKeeperClient

/-- The client is initialised. -/
def Opened (client : ZooKeeperClient) : Prop := client.zkhandle ≠ none

/-- `Reconnect` does nothing, or it opens a new session of an initialised client. -/
theorem reconnect_cases (client : ZooKeeperClient) (answer : Unit) :
    (client.Opened → client.state.notNeedReconnect = true) ∧
        client.reconnect answer = (client, false) ∨
      client.state.notNeedReconnect = false ∧
        client.reconnect answer = (client.zookeeperInit, true) := by
  unfold reconnect
  split_ifs with absent rests
  · refine Or.inl ⟨fun opened => ?_, rfl⟩
    exact absurd (Option.isNone_iff_eq_none.mp absent) opened
  · exact Or.inl ⟨fun _ => rests, rfl⟩
  · exact Or.inr ⟨(Bool.not_eq_true _).mp rests, rfl⟩

theorem lawful : zooKeeperClient.Lawful Opened := by
  refine ⟨?_, ?_, ?_⟩
  · intro client answer opened
    change (client.reconnect answer).2 = !client.state.notNeedReconnect
    rcases client.reconnect_cases answer with ⟨rests, same⟩ | ⟨asks, same⟩
    · rw [same, rests opened, Bool.not_true]
    · rw [same, asks, Bool.not_false]
  · intro client answer closed
    change (client.reconnect answer).1 = client
    change (client.reconnect answer).2 = false at closed
    rcases client.reconnect_cases answer with ⟨_, same⟩ | ⟨_, same⟩
    · rw [same]
    · rw [same] at closed
      cases closed
  · intro client event link link' reported
    cases event <;> cases link <;> cases reported <;> rfl

variable {run next : LinkRun ZooKeeperClient} {event : SessionEvent}

/-- Until the library reports something, there is an attempt, and then the state fits. -/
structure Waiting (run : LinkRun ZooKeeperClient) : Prop where
  opened : run.client.Opened
  reported : run.reported = true → zooKeeperClient.Synced run
  silent : run.reported = false → run.link = .attempt

theorem Waiting.deliver (waiting : Waiting run)
    (delivered : zooKeeperClient.deliver run event = some next) : Waiting next := by
  obtain ⟨synced, reported⟩ := lawful.deliver delivered
  refine ⟨?_, fun _ => synced, fun quiet => ?_⟩
  · obtain ⟨link, _, rfl⟩ := Option.map_eq_some_iff.mp delivered
    cases event <;> exact waiting.opened
  · rw [reported] at quiet
    cases quiet

theorem Waiting.tick (waiting : Waiting run) (answer : Unit) :
    Waiting (zooKeeperClient.tick run answer) := by
  cases opened : zooKeeperClient.opens run answer with
  | false => rwa [lawful.tick_quiet opened]
  | true =>
      have began : zooKeeperClient.tick run answer =
          ⟨(run.client.reconnect answer).1, .attempt, false⟩ := by
        rw [Client.tick, opened]
        rfl
      rw [began]
      refine ⟨?_, fun clash => absurd clash Bool.false_ne_true, fun _ => rfl⟩
      change (run.client.reconnect answer).1.Opened
      rcases run.client.reconnect_cases answer with ⟨_, same⟩ | ⟨_, same⟩
      · rw [same]
        exact waiting.opened
      · rw [same]
        exact Option.some_ne_none _

theorem Waiting.deliverAll {events : List SessionEvent} (waiting : Waiting run)
    (handled : events.foldlM zooKeeperClient.deliver run = some next) : Waiting next := by
  induction events generalizing run with
  | nil =>
      cases handled
      exact waiting
  | cons event rest ih =>
      obtain ⟨after, delivered, handled⟩ := Option.bind_eq_some_iff.mp handled
      exact ih (waiting.deliver delivered) handled

/-- The loop of `Init` handles events only. -/
theorem Waiting.initLoop {count : Nat} {batches : List (List SessionEvent)} {ok : Bool}
    (waiting : Waiting run)
    (looped : ZooKeeperClient.initLoop count batches run = some (next, ok)) :
    Waiting next := by
  induction count generalizing run batches with
  | zero =>
      cases looped
      exact waiting
  | succ count ih =>
      obtain ⟨middle, handled, looped⟩ := Option.bind_eq_some_iff.mp looped
      have kept := waiting.deliverAll handled
      split_ifs at looped
      · cases looped
        exact kept
      · cases looped
        exact kept
      · exact ih kept looped

theorem Waiting.init {value : ClientBase.State} {batches : List (List SessionEvent)} {ok : Bool}
    (done : ZooKeeperClient.init value batches = some (next, ok)) : Waiting next := by
  have opened : (zookeeperInit ⟨value, none⟩).Opened := Option.some_ne_none _
  have begun : Waiting ⟨zookeeperInit ⟨value, none⟩, .attempt, false⟩ :=
    ⟨opened, fun clash => absurd clash Bool.false_ne_true, fun _ => rfl⟩
  exact begun.initLoop done

theorem Waiting.of_run {start : LinkRun ZooKeeperClient} {acts : List (LinkAct Unit SessionEvent)}
    (waiting : Waiting start)
    (reached : (zooKeeperClient.machine start).run start acts = some run) :
    Waiting run := by
  refine (zooKeeperClient.machine start).run_invariant (fun before act after held stepped => ?_)
    waiting reached
  cases act with
  | tick answer =>
      cases stepped
      exact held.tick answer
  | event event => exact held.deliver stepped

/-- A tick is right exactly after a report or when the state holds it back. -/
theorem Waiting.right_iff (waiting : Waiting run) (answer : Unit) :
    zooKeeperClient.Right run answer ↔
      run.reported = true ∨ run.client.state.notNeedReconnect = true := by
  rw [lawful.right_iff waiting.opened]
  cases reported : run.reported with
  | true => exact ⟨fun _ => Or.inl rfl, fun _ => waiting.reported reported⟩
  | false =>
      rw [waiting.silent reported]
      exact ⟨Or.inr, fun either => either.resolve_left Bool.false_ne_true⟩

end ZooKeeperClient

/-- Each client opens a connection exactly when there is none under its own condition. -/
theorem reconnect_right_iff (value : ClientBase.State) :
    rabbitMQNet.AlwaysRight ⟨RabbitMQNet.initial, .none, false⟩ ∧
      redisClient.RightIff ⟨value, .none, false⟩ (fun _ => value.notNeedReconnect = false) ∧
        ∀ batches first ok, ZooKeeperClient.init value batches = some (first, ok) →
          zooKeeperClient.RightIff first fun run =>
            run.reported = true ∨ run.client.state.notNeedReconnect = true := by
  refine ⟨?_, redisClient_setsConnecting.rightIff value, ?_⟩
  · intro acts run answer reached
    have asks : RabbitMQNet.initial.notNeedReconnect = false := rfl
    exact (rabbitMQNet_setsConnecting.rightIff _ acts run answer reached).mpr asks
  · intro batches first ok done acts run answer reached
    exact ((ZooKeeperClient.Waiting.init done).of_run reached).right_iff answer

/-- `RedisClient` may never try, and `ZooKeeperClient` closes the attempt of its last tick. -/
theorem reconnect_wrong :
    (¬∀ value, redisClient.AlwaysRight ⟨value, .none, false⟩) ∧
      ¬∀ value batches first ok, ZooKeeperClient.init value batches = some (first, ok) →
        zooKeeperClient.AlwaysRight first := by
  refine ⟨fun right => ?_, fun right => ?_⟩
  · have opened := (right .kConnecting [] _ .connecting rfl).mpr rfl
    cases opened
  · have reached := right (.unset 0) [[.connected]] _ true rfl [.event .expired, .tick ()] _ () rfl
    have down := reached.mp rfl
    cases down

end QServer
