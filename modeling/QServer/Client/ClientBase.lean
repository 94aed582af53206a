import QServer.Lib.Machine

/-
This file models the connection states of `commlib/client_base.h` and the three clients that use
them: `app/common/mq_net.cpp`, `app/redissvr/redis_client.cpp` and
`app/common/zookeeper_client.cpp`.
-/

namespace QServer
open Transition

/-- The values of `state_`. Without an initialiser it holds what memory held. -/
inductive ClientBase.State
  | kConnecting
  | kConnected
  | kDisConnecting
  | kDisConnected
  | kExpired
  | unset (value : Nat)
  deriving DecidableEq

def ClientBase.State.notNeedReconnect (state : ClientBase.State) : Bool :=
  state = .kConnected || state = .kConnecting || state = .kDisConnecting

/-- What a library knows of the connection and of the attempts at one. -/
inductive Link
  | none
  | attempt
  | live
  | lost
  deriving DecidableEq

/-- There is a live connection or an attempt without a reported outcome. -/
def Link.isUp : Link → Bool
  | .attempt => true
  | .live => true
  | _ => false

/-- A client, with the calls and the events of its library. -/
structure Client (Self Answer Event : Type) where
  state : Self → ClientBase.State
  /-- The client after `Reconnect`, and whether it has called the library to connect. -/
  reconnect : Self → Answer → Self × Bool
  /-- The call of the library began an attempt. -/
  begins : Answer → Bool
  handle : Self → Event → Self
  /-- The events that the library can report, and what they report. -/
  report : Event → Link → Option Link

namespace RabbitMQNet

/-- The virtual functions of `MyHandler`. -/
inductive Event
  | onConnected
  | onClosed
  | onError

/-- The constructor names `ClientBase()`, which zeroes `state_`. -/
def initial : ClientBase.State := .unset 0

/-- The construction of the `TcpConnection` begins the attempt. -/
def reconnect (state : ClientBase.State) (_ : Unit) : ClientBase.State × Bool :=
  if state.notNeedReconnect then (state, false) else (.kConnecting, true)

def handle (_ : ClientBase.State) : Event → ClientBase.State
  | .onConnected => .kConnected
  | .onClosed => .kDisConnected
  | .onError => .kDisConnected

/-- A connection that is lost can be closed or fail once more. -/
def report : Event → Link → Option Link
  | .onConnected, .attempt => some .live
  | .onConnected, _ => none
  | _, .none => none
  | _, _ => some .lost

end RabbitMQNet

def rabbitMQNet : Client ClientBase.State Unit RabbitMQNet.Event :=
  ⟨id, RabbitMQNet.reconnect, fun _ => true, RabbitMQNet.handle, RabbitMQNet.report⟩

namespace RedisClient

/-- The result of `redisAsyncConnect`: no context, one with an error, or one that connects. -/
inductive Answer
  | null
  | err
  | connecting
  deriving DecidableEq

/-- The callbacks get `REDIS_OK` or an error. -/
inductive Event
  | connectCallback (ok : Bool)
  | disconnectCallback (ok : Bool)

def reconnect (state : ClientBase.State) (answer : Answer) : ClientBase.State × Bool :=
  if state.notNeedReconnect then (state, false)
  else
    match answer with
    | .null => (state, true)
    | .err => (state, true)
    | .connecting => (.kConnecting, true)

def handle (_ : ClientBase.State) : Event → ClientBase.State
  | .connectCallback ok => if ok then .kConnected else .kDisConnected
  | .disconnectCallback _ => .kDisConnected

def report : Event → Link → Option Link
  | .connectCallback ok, .attempt => some (if ok then .live else .lost)
  | .disconnectCallback _, .live => some .lost
  | _, _ => none

end RedisClient

def redisClient : Client ClientBase.State RedisClient.Answer RedisClient.Event :=
  ⟨id, RedisClient.reconnect, fun answer => answer = .connecting, RedisClient.handle,
    RedisClient.report⟩

/-- The handle is named by the number of its `zookeeper_init`. -/
structure ZooKeeperClient where
  state : ClientBase.State
  zkhandle : Option Nat

namespace ZooKeeperClient

/-- The states of a `ZOO_SESSION_EVENT` that `DefaultWatcher` handles. -/
inductive SessionEvent
  | connected
  | connecting
  | expired

variable (client : ZooKeeperClient)

/-- The handle of the next `zookeeper_init`. -/
def zookeeperInit : ZooKeeperClient := { client with zkhandle := some (client.zkhandle.getD 0 + 1) }

/-- The old handle is closed, and `state_` stays as it is. -/
def reconnect (_ : Unit) : ZooKeeperClient × Bool :=
  if client.zkhandle.isNone then (client, false)
  else if client.state.notNeedReconnect then (client, false)
  else (client.zookeeperInit, true)

def defaultWatcher : SessionEvent → ZooKeeperClient
  | .connected => { client with state := .kConnected }
  | .connecting => { client with state := .kConnecting }
  | .expired => { client with state := .kDisConnected }

/-- The library connects again by itself while it reports that it is connecting. -/
def report : SessionEvent → Link → Option Link
  | .connected, .attempt => some .live
  | .connecting, .attempt => some .attempt
  | .connecting, .live => some .attempt
  | .expired, .attempt => some .lost
  | .expired, .live => some .lost
  | _, _ => none

end ZooKeeperClient

def zooKeeperClient : Client ZooKeeperClient Unit ZooKeeperClient.SessionEvent :=
  ⟨ZooKeeperClient.state, ZooKeeperClient.reconnect, fun _ => true, ZooKeeperClient.defaultWatcher,
    ZooKeeperClient.report⟩

/-- A client beside its library, with a record of an event since the last attempt. -/
structure LinkRun (Self : Type) where
  client : Self
  link : Link
  reported : Bool

/-- A `Reconnect` tick with the answer of the library, or a connection event. -/
inductive LinkAct (Answer Event : Type)
  | tick (answer : Answer)
  | event (event : Event)

namespace Client

variable {Self Answer Event : Type} (client : Client Self Answer Event)

/-- The tick calls the library to connect. -/
def opens (run : LinkRun Self) (answer : Answer) : Bool := (client.reconnect run.client answer).2

def tick (run : LinkRun Self) (answer : Answer) : LinkRun Self :=
  let next := (client.reconnect run.client answer).1
  if client.opens run answer && client.begins answer then ⟨next, .attempt, false⟩
  else { run with client := next }

def deliver (run : LinkRun Self) (event : Event) : Option (LinkRun Self) :=
  (client.report event run.link).map fun link => ⟨client.handle run.client event, link, true⟩

/-- The client with every order of ticks and connection events. -/
def machine (start : LinkRun Self) : Machine (LinkRun Self) (LinkAct Answer Event) :=
  ⟨start, fun run act =>
    match act with
    | .tick answer => some (client.tick run answer)
    | .event event => client.deliver run event⟩

/-- The tick opens a connection if and only if there is none and no attempt at one. -/
def Right (run : LinkRun Self) (answer : Answer) : Prop :=
  client.opens run answer = true ↔ run.link.isUp = false

/-- Every tick of every run is right. -/
def AlwaysRight (start : LinkRun Self) : Prop :=
  ∀ acts run answer, (client.machine start).run start acts = some run → client.Right run answer

/-- The ticks that are right are those in states that meet the condition. -/
def RightIff (start : LinkRun Self) (condition : LinkRun Self → Prop) : Prop :=
  ∀ acts run answer, (client.machine start).run start acts = some run →
    (client.Right run answer ↔ condition run)

end Client

namespace ZooKeeperClient

/-- The loop of `Init`. Each `EventLoopOnce` handles the events that have come. -/
def initLoop : Nat → List (List SessionEvent) → LinkRun ZooKeeperClient →
    Option (LinkRun ZooKeeperClient × Bool)
  | 0, _, run => some (run, false)
  | count + 1, batches, run =>
      ((batches.headD []).foldlM zooKeeperClient.deliver run).bind fun run =>
        if run.client.state = .kConnected then some (run, true)
        else if run.client.state = .kDisConnected then some (run, false)
        else initLoop count batches.tail run

/-- `Init` of a client whose constructor left the value in `state_`. -/
def init (value : ClientBase.State) (batches : List (List SessionEvent)) :
    Option (LinkRun ZooKeeperClient × Bool) :=
  initLoop 10 batches ⟨zookeeperInit ⟨value, none⟩, .attempt, false⟩

end ZooKeeperClient

end QServer
