import QServer.Lib.ProtoCodec
import QServer.Trans.Scheduler
import QServer.Trans.Switches

/-
This file models the remote calls of `app/common/svr_comm_trans.h` and `svr_comm_trans.cpp`, one
process that makes them, and the messages on their way to it.
-/

namespace QServer
open Transition Wire

/-- The message `proto::Msg::MsgHead`. -/
structure MsgHead (Payload : Type) where
  cmd : Cmd
  srcCoId : CoId
  dstCoId : CoId
  srcBusId : Bytes
  dstBusId : Bytes
  msg : Payload

namespace SvrCommTrans

variable {Payload : Type}

/-- `SendMsg` without a reply leaves the source fields at their defaults. -/
def sendMsg (dstSvrId : Bytes) (cmd : Cmd) (msg : Payload) (dstCoId : CoId) : MsgHead Payload :=
  ⟨cmd, 0, dstCoId, [], dstSvrId, msg⟩

/-- `SendMsg(src_msg, msg)` answers a message. The sum of the `cmd` wraps. -/
def reply {Src : Type} (srcMsg : MsgHead Src) (msg : Payload) : MsgHead Payload :=
  sendMsg srcMsg.srcBusId ((srcMsg.cmd + 1) % 2 ^ 32) msg srcMsg.srcCoId

/-- The arguments of `SendMsgRpc`. -/
structure Rpc (Payload : Type) where
  dstSvrId : Bytes
  cmd : Cmd
  msg : Payload
  dstCoId : CoId

/-- The message that `SendMsgThenYield` sends. -/
def sendMsgThenYield (selfId : Bytes) (coId : CoId) (rpc : Rpc Payload) : MsgHead Payload :=
  ⟨rpc.cmd, coId, rpc.dstCoId, selfId, rpc.dstSvrId, rpc.msg⟩

/-- The rest of `SendMsgRpc` after its `Yield`. The errors are the texts that it throws. -/
def sendMsgRpc {Rsp : Type} (parse : Payload → Option Rsp) (ret : Int)
    (retMsg : Option (MsgHead Payload)) : Except String Rsp :=
  if ret ≠ 0 then .error "time out"
  else
    match retMsg with
    | none => .error "nullptr msg"
    | some retMsg =>
        match parse retMsg.msg with
        | none => .error "parse pb failed"
        | some rsp => .ok rsp

theorem sendMsgRpc_ok {Rsp : Type} {parse : Payload → Option Rsp} {ret : Int}
    {retMsg : Option (MsgHead Payload)} {rsp : Rsp} :
    sendMsgRpc parse ret retMsg = .ok rsp ↔
      ret = 0 ∧ ∃ head, retMsg = some head ∧ parse head.msg = some rsp := by
  unfold sendMsgRpc
  split_ifs with late
  · simp [late]
  · rw [not_not] at late
    cases retMsg with
    | none => simp
    | some head => cases parsed : parse head.msg <;> simp [late, parsed]

end SvrCommTrans

open SvrCommTrans

/-- A message on its way. The number of the request that it answers is not part of the source. -/
structure Packet (Payload : Type) where
  head : MsgHead Payload
  origin : Option Nat

/-- The recv handler passes the message to `OnMsg`. -/
def Packet.transMsg {Payload : Type} (packet : Packet Payload) : TransMsg (Packet Payload) :=
  ⟨packet.head.cmd, packet.head.dstCoId, packet⟩

/-- What a task does after a switch to it, with the time and the address that its `Yield` gets. -/
inductive Deed (Payload : Type)
  | sendMsgRpc (rpc : Rpc Payload) (now : Time) (ptr : Addr)
  | finish

/-- `Yield` has the default time of 5000. -/
def Deed.segment {Payload : Type} : Deed Payload → Segment
  | .sendMsgRpc _ now ptr => .yield now 5000 ptr
  | .finish => .finish

/-- The request that a task sends right before it yields. -/
def Deed.request {Payload : Type} (selfId : Bytes) (deed : Deed Payload) :
    CoEvent SharedTrans (Packet Payload) → Option (MsgHead Payload)
  | .yielded coId _ =>
      match deed with
      | .sendMsgRpc rpc _ _ => some (sendMsgThenYield selfId coId rpc)
      | .finish => none
  | _ => none

/-- The process, all requests that it has sent, and the replies that are on their way to it. -/
structure RpcRun (Payload : Type) where
  mgr : TransMgr (Packet Payload)
  sent : List (MsgHead Payload)
  answered : Finset Nat
  network : List (Packet Payload)
  trace : List (CoEvent SharedTrans (Packet Payload))

inductive RpcAct (Payload : Type)
  | registerCmd (cmd : Cmd) (count : Int)
  | receive (head : MsgHead Payload) (deed : Deed Payload)
  | answer (number : Nat) (msg : Payload)
  | deliver (place : Nat) (deed : Deed Payload)
  | drop (place : Nat)
  | tickTimeOutCo (now : Time)
  | proceed (deed : Deed Payload)

namespace RpcRun

variable {Payload : Type} (run : RpcRun Payload)

def start : RpcRun Payload := ⟨TransMgr.empty, [], ∅, [], []⟩

/-- The switches of a step and the request that the task sends in it. -/
def record (selfId : Bytes) (deed : Deed Payload) (outcome : MgrOutcome (Packet Payload)) :
    RpcRun Payload :=
  { run with
    mgr := outcome.mgr
    sent := run.sent ++ outcome.events.filterMap (deed.request selfId)
    trace := run.trace ++ outcome.events }

/-- The manager takes a step, and the task that it switches to does its deed. -/
def serve (selfId : Bytes) (deed : Deed Payload) (act : TransAct (Packet Payload)) :
    Option (RpcRun Payload) :=
  (run.mgr.step act).map (run.record selfId deed)

/-- A peer answers a request that it has not answered. -/
def answer (number : Nat) (msg : Payload) : Option (RpcRun Payload) :=
  if number ∈ run.answered then none
  else
    run.sent[number]?.map fun request =>
      { run with
        answered := insert number run.answered
        network := run.network ++ [⟨reply request msg, some number⟩] }

/-- The message leaves the network. -/
def take (place : Nat) : RpcRun Payload := { run with network := run.network.eraseIdx place }

def step (selfId : Bytes) : RpcAct Payload → Option (RpcRun Payload)
  | .registerCmd cmd count => run.serve selfId .finish (.registerCmd cmd count)
  | .receive head deed =>
      let packet : Packet Payload := ⟨head, none⟩
      run.serve selfId deed (.onMsg packet.transMsg deed.segment)
  | .answer number msg => run.answer number msg
  | .deliver place deed =>
      run.network[place]?.bind fun packet =>
        (run.take place).serve selfId deed (.onMsg packet.transMsg deed.segment)
  | .drop place => some (run.take place)
  | .tickTimeOutCo now => run.serve selfId .finish (.tickTimeOutCo now)
  | .proceed deed => run.serve selfId deed (.proceed deed.segment)

end RpcRun

/-- The process with every order of messages, replies, losses and time-outs. -/
def rpcMachine (Payload : Type) (selfId : Bytes) : Machine (RpcRun Payload) (RpcAct Payload) :=
  ⟨RpcRun.start, fun run act => run.step selfId act⟩

namespace RpcRun

variable {Payload : Type} {run next : RpcRun Payload} {selfId : Bytes}

/-- The call of the manager that a step makes. -/
def plan (run : RpcRun Payload) : RpcAct Payload → List (TransAct (Packet Payload))
  | .registerCmd cmd count => [.registerCmd cmd count]
  | .receive head deed => [.onMsg (Packet.transMsg ⟨head, none⟩) deed.segment]
  | .answer _ _ => []
  | .deliver place deed =>
      (run.network[place]?.map fun packet => .onMsg packet.transMsg deed.segment).toList
  | .drop _ => []
  | .tickTimeOutCo now => [.tickTimeOutCo now]
  | .proceed deed => [.proceed deed.segment]

theorem serve_simulates {deed : Deed Payload} {act : TransAct (Packet Payload)}
    (served : run.serve selfId deed act = some next) :
    (transMachine (Packet Payload)).run run.mgr [act] = some next.mgr := by
  obtain ⟨outcome, stepped, rfl⟩ := Option.map_eq_some_iff.mp served
  refine (Machine.run_cons _).mpr ⟨outcome.mgr, ?_, rfl⟩
  change (run.mgr.step act).map MgrOutcome.mgr = _
  rw [stepped, Option.map_some]

end RpcRun

/-- The manager of the process takes the steps of the transaction manager. -/
def rpcSimulation (Payload : Type) (selfId : Bytes) :
    Simulation (rpcMachine Payload selfId) (transMachine (Packet Payload)) where
  view run := run.mgr
  plan run act := run.plan act
  simulates run act next stepped := by
    cases act with
    | registerCmd cmd count => exact RpcRun.serve_simulates stepped
    | receive head deed => exact RpcRun.serve_simulates stepped
    | answer number msg =>
        obtain ⟨_, answered⟩ := Option.ite_none_left_eq_some.mp stepped
        obtain ⟨request, _, rfl⟩ := Option.map_eq_some_iff.mp answered
        rfl
    | deliver place deed =>
        obtain ⟨packet, found, served⟩ := Option.bind_eq_some_iff.mp stepped
        have same : run.plan (.deliver place deed) = [.onMsg packet.transMsg deed.segment] := by
          rw [RpcRun.plan, found]
          rfl
        have simulated := RpcRun.serve_simulates served
        rwa [same]
    | drop place =>
        cases stepped
        rfl
    | tickTimeOutCo now => exact RpcRun.serve_simulates stepped
    | proceed deed => exact RpcRun.serve_simulates stepped

/-- The scheduler of a process keeps its invariant over every run of the process. -/
theorem RpcRun.scheduler_of_run {Payload : Type} {selfId : Bytes} {acts : List (RpcAct Payload)}
    {run : RpcRun Payload}
    (reached : (rpcMachine Payload selfId).run RpcRun.start acts = some run)
    (bound : run.mgr.coTask.coPool.created < 2 ^ 32) : SchedulerInvariant run.mgr.coTask := by
  obtain ⟨calls, mapped⟩ := (rpcSimulation Payload selfId).run reached
  have orderly : run.mgr.coTask.Orderly := TransMgr.orderly_of_run mapped bound
  exact orderly.invariant

end QServer
