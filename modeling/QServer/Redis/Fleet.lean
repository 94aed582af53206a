import QServer.Redis.OwnReply
import QServer.Rpc.Correlation

/-
This file joins the processes that send commands, `redissvr`, and the exchange between them.
-/

namespace QServer
open Transition Wire SvrCommTrans

/-- A message with another form of its content. -/
def MsgHead.map {Src Dst : Type} (read : Src → Dst) (head : MsgHead Src) : MsgHead Dst :=
  ⟨head.cmd, head.srcCoId, head.dstCoId, head.srcBusId, head.dstBusId, read head.msg⟩

/-- A request is known by the process that sent it and by its number there. -/
structure Asker where
  process : Bytes
  number : Nat
  deriving DecidableEq

/-- The id of `redissvr`, its use of protobuf, and a `MsgHead` read as a reply. -/
structure FleetWire (Payload : Type) where
  svrId : Bytes
  req : ProtoCodec RedisCmdReq Payload
  rsp : ProtoCodec RedisCmdRsp Payload
  garbage : MsgHead RedisCmdReq → RedisReply

/-- All processes by their ids, `redissvr`, and a record of the exchange between them. -/
structure Fleet (Payload : Type) where
  client : Bytes → RpcRun Payload
  server : RedisRun
  -- The requests that came to the server, and those behind its commands and its responses.
  taken : List Asker
  asked : List (Option Asker)
  answers : List (Option Asker)
  -- The places of the responses that came back.
  carried : Finset Nat

/-- What happens in a process, or in `redissvr`, or on the way between them. -/
inductive FleetAct (Payload : Type)
  | client (process : Bytes) (act : RpcAct Payload)
  | arrive (asker : Asker) (accepted : Bool) (now : Time) (ptr : Addr)
  | server (act : RedisAct)
  | carry (place : Nat)

namespace Fleet

variable {Payload : Type} (wire : FleetWire Payload) (fleet : Fleet Payload)

def start : Fleet Payload := ⟨fun _ => RpcRun.start, RedisRun.start, [], [], [], ∅⟩

def request (asker : Asker) : Option (MsgHead Payload) :=
  (fleet.client asker.process).sent[asker.number]?

/-- A reply to a request for `redissvr` comes from there only. -/
def isForeign (process : Bytes) : RpcAct Payload → Bool
  | .answer number _ =>
      (fleet.request ⟨process, number⟩).all fun request => request.dstBusId ≠ wire.svrId
  | _ => true

/-- A response without a number answers the message of the step. -/
def answered (asked : List (Option Asker)) (asker : Option Asker) (response : Response) :
    Option Asker :=
  response.number.elim asker fun number => asked[number]?.join

/-- The commands and the responses that a step of the server adds. -/
def record (asker : Option Asker) (next : RedisRun) : Fleet Payload :=
  let asked := fleet.asked ++
    (next.submissions.drop fleet.server.submissions.length).map fun _ => asker
  { fleet with
    server := next
    asked
    answers := fleet.answers ++
      (next.responses.drop fleet.server.responses.length).map (answered asked asker) }

def serve (asker : Option Asker) (act : RedisAct) : Option (Fleet Payload) :=
  (fleet.server.step wire.garbage act).map (fleet.record asker)

/-- The result of `ParseFromString` is not tested. -/
def received (request : MsgHead Payload) : MsgHead RedisCmdReq :=
  request.map fun msg => (wire.req.parse msg).1

/-- The call of the server for a request that arrives. -/
def arrival (request : MsgHead Payload) (accepted : Bool) (now : Time) (ptr : Addr) : RedisAct :=
  .onMsg (received wire request) accepted now ptr

/-- The exchange brings a request for `redissvr` there, but not twice. -/
def arrive (asker : Asker) (accepted : Bool) (now : Time) (ptr : Addr) : Option (Fleet Payload) :=
  (fleet.request asker).bind fun request =>
    if request.dstBusId = wire.svrId ∧ asker ∉ fleet.taken then
      ({ fleet with taken := fleet.taken ++ [asker] } : Fleet Payload).serve wire (some asker)
        (arrival wire request accepted now ptr)
    else none

/-- The message that a process gets for a response. -/
def packet (response : Response) (number : Nat) : Packet Payload :=
  ⟨response.head.map wire.rsp.serialize, some number⟩

/-- The exchange brings a response to the process that it is addressed to, but not twice. -/
def carry (place : Nat) : Option (Fleet Payload) :=
  if place ∈ fleet.carried then none
  else
    fleet.server.responses[place]?.bind fun response =>
      fleet.answers[place]?.join.map fun asker =>
        let client := fleet.client response.head.dstBusId
        let network := client.network ++ [packet wire response asker.number]
        { fleet with
          carried := insert place fleet.carried
          client := Function.update fleet.client response.head.dstBusId
            { client with network } }

def step : FleetAct Payload → Option (Fleet Payload)
  | .client process act =>
      if fleet.isForeign wire process act then
        ((fleet.client process).step process act).map fun next =>
          { fleet with client := Function.update fleet.client process next }
      else none
  | .arrive asker accepted now ptr => fleet.arrive wire asker accepted now ptr
  | .server act => fleet.serve wire none act
  | .carry place => fleet.carry wire place

end Fleet

/-- The processes and `redissvr` with every order of their steps, and with every loss. -/
def fleetMachine {Payload : Type} (wire : FleetWire Payload) :
    Machine (Fleet Payload) (FleetAct Payload) :=
  ⟨Fleet.start, fun fleet act => fleet.step wire act⟩

/-- The message of a step of the server. -/
def RedisAct.head : RedisAct → Option (MsgHead RedisCmdReq)
  | .onMsg head _ _ _ => some head
  | _ => none

namespace RedisRun

variable {garbage : MsgHead RedisCmdReq → RedisReply} {run next : RedisRun}

/-- A step adds nothing, a command, or a response to its message or to an earlier one. -/
inductive Adds (run : RedisRun) (head : Option (MsgHead RedisCmdReq)) :
    List Submission → List Response → Prop
  | nothing : Adds run head [] []
  | submission {msgHead : MsgHead RedisCmdReq} (coId : CoId) (own : head = some msgHead) :
      Adds run head [⟨msgHead, coId⟩] []
  | refusal {msgHead : MsgHead RedisCmdReq} (rsp : RedisCmdRsp) (own : head = some msgHead) :
      Adds run head [] [⟨none, reply msgHead rsp⟩]
  | response {number : Nat} {submission : Submission} (rsp : RedisCmdRsp)
      (known : run.submissions[number]? = some submission) :
      Adds run head [] [⟨some number, reply submission.head rsp⟩]

/-- The run grows by what a step adds. -/
def Grows (run : RedisRun) (head : Option (MsgHead RedisCmdReq)) (next : RedisRun) : Prop :=
  ∃ submissions responses, run.Adds head submissions responses ∧
    next.submissions = run.submissions ++ submissions ∧
    next.responses = run.responses ++ responses

section Record

variable {outcome : MgrOutcome RedisMsg} {coTask later : CoTask SharedTrans RedisMsg} {coId : CoId}
  {call : YieldCall} {ret : Int} {wake : Wake RedisMsg} {msg : Option RedisMsg}
  {last : CoEvent SharedTrans RedisMsg} {head : Option (MsgHead RedisCmdReq)}

theorem record_quiet (job : Option Job) (events : outcome.events = []) :
    run.Grows head (run.record garbage job outcome) := by
  refine ⟨[], [], .nothing, ?_, ?_⟩
  · rw [record, events]
    exact (List.append_nil _).symm
  · rw [record, events]
    exact (List.append_nil _).symm

/-- A task that goes on after its call responds and ends. -/
theorem record_returned (events : outcome.events = [.returned coId call ret wake msg, last])
    (left : CoTask.Left coTask coId .finish later last) (job : Option Job) :
    run.Grows head (run.record garbage job outcome) := by
  cases left with
  | finished waits yields =>
      cases known : run.submissions[call.number]? with
      | none =>
          refine ⟨[], [], .nothing, ?_, ?_⟩
          · simp [record, events, observe, known]
          · simp [record, events, observe, known]
      | some submission =>
          refine ⟨[], _, .response (TransRedisCmd.respond
            (RedisCmd.cmd ret (msg.map (RedisMsg.cast garbage)))) known, ?_, ?_⟩
          · simp [record, events, observe, known, respond]
          · simp [record, events, observe, known, respond]

/-- A task that starts submits its command or responds at once. -/
theorem record_started {msgHead : MsgHead RedisCmdReq} {submits : Bool} {now : Time} {ptr : Addr}
    {task : Option SharedTrans} (events : outcome.events = [.started coId task, last])
    (left : CoTask.Left coTask coId (Job.segment now ptr (some ⟨msgHead, submits⟩)) later last) :
    run.Grows (some msgHead) (run.record garbage (some ⟨msgHead, submits⟩) outcome) := by
  cases submits with
  | false =>
      cases left with
      | finished waits yields =>
          refine ⟨[], _, .refusal (TransRedisCmd.respond (.ok none)) rfl, ?_, ?_⟩
          · simp [record, events, observe, respond]
          · simp [record, events, observe, respond]
  | true =>
      cases left with
      | yielded waits yields =>
          refine ⟨_, [], .submission coId rfl, ?_, ?_⟩
          · simp [record, events, observe, submit]
          · simp [record, events, observe, submit]

end Record

theorem grows_onMsg (resting : run.mgr.coTask.Resting) {head : MsgHead RedisCmdReq}
    {accepted : Bool} {now : Time} {ptr : Addr}
    (stepped : run.onMsg garbage head accepted now ptr = some next) :
    run.Grows (some head) next := by
  obtain ⟨outcome, served, rfl⟩ := Option.map_eq_some_iff.mp stepped
  obtain ⟨_, switched⟩ := TransMgr.step_switched resting served
  cases switched with
  | quiet events waits yields => exact record_quiet _ events
  | answered named waiting events left =>
      have idle : run.job head accepted = none := if_neg named
      rw [idle] at left
      exact record_returned events left _
  | started fresh events left =>
      have started : run.job head accepted =
          some ⟨head, run.state = .connected && accepted⟩ := if_pos fresh
      rw [started] at left ⊢
      exact record_started events left

theorem grows_resume (resting : run.mgr.coTask.Resting) {coId : CoId} {msg : RedisMsg}
    (stepped : run.resume garbage coId msg = some next) : run.Grows none next := by
  obtain ⟨_, operated⟩ := Option.ite_none_right_eq_some.mp stepped
  obtain ⟨outcome, settled, rfl⟩ := Option.map_eq_some_iff.mp operated
  obtain ⟨woken, resumed, rfl⟩ := Option.map_eq_some_iff.mp settled
  obtain ⟨_, ⟨_, events, _, _⟩ | ⟨call, last, _, events, left⟩⟩ :=
    resting.resumeOneWithMsg resumed
  · exact record_quiet none events
  · exact record_returned events left none

theorem grows (resting : run.mgr.coTask.Resting) {act : RedisAct}
    (stepped : run.step garbage act = some next) : run.Grows act.head next := by
  cases act with
  | setState state =>
      cases stepped
      exact ⟨[], [], .nothing, (List.append_nil _).symm, (List.append_nil _).symm⟩
  | onMsg head accepted now ptr => exact grows_onMsg resting stepped
  | getCallback reply =>
      change run.getCallback garbage reply = some next at stepped
      unfold RedisRun.getCallback at stepped
      split at stepped
      · rename_i callback callbacks number unanswered registered missing
        let answered : RedisRun := { run with
          callbacks, unanswered, produced := run.produced ++ [(number, reply)] }
        have settled : answered.mgr.coTask.Resting := resting
        have resumed : answered.resume garbage callback.coId
          (.redisReply reply callback.number) = some next := stepped
        obtain ⟨submissions, responses, adds, submitted, responded⟩ :=
          grows_resume settled resumed
        refine ⟨submissions, responses, ?_, submitted, responded⟩
        cases adds with
        | nothing => exact .nothing
        | submission coId own => cases own
        | refusal rsp own => cases own
        | response rsp known => exact .response rsp known
      · cases stepped
  | tickTimeOutCo now =>
      obtain ⟨outcome, served, rfl⟩ := Option.map_eq_some_iff.mp stepped
      obtain ⟨_, switched⟩ := TransMgr.step_switched resting served
      cases switched with
      | quiet events waits yields => exact record_quiet none events
  | proceed =>
      obtain ⟨outcome, served, rfl⟩ := Option.map_eq_some_iff.mp stepped
      obtain ⟨_, switched⟩ := TransMgr.step_switched resting served
      cases switched with
      | quiet events waits yields => exact record_quiet none events
      | timedOut waiting events left => exact record_returned events left none

end RedisRun

end QServer
