import QServer.Lib.Linear
import QServer.Redis.ConvertReply
import QServer.Redis.EndToEnd
import QServer.Redis.FormattedPath

/-
This file joins the processes and `redissvr` with the redis server behind it, which executes the
commands that `redissvr` writes to its connection.
-/

namespace QServer
open Transition Wire Linear SvrCommTrans

/-- The words of a request of `RedisActuator`: those of a call, or a list. -/
inductive RedisActuator.Words (print : Bytes → VaArg → Bytes) :
    RedisCmdReq → List Bytes → Prop
  | formatted {call : Call} {cmd : Bytes} (proper : call.Proper print)
      (made : call.send.run print call.args = .ok cmd) :
      Words print (redisCommandFormatted cmd) (call.send.words print call.args)
  | argv (argv : List Bytes) : Words print (redisCommandArgv argv) argv

/-- The message is such a request, and its command comes out of the message as it is. -/
def FleetWire.Means {Payload : Type} (wire : FleetWire Payload)
    (print : Bytes → VaArg → Bytes) (msg : Payload) (words : List Bytes) : Prop :=
  ∃ req, msg = wire.req.serialize req ∧ RedisActuator.Words print req words ∧
    (wire.req.parse msg).1.command = req.command

theorem FleetWire.Means.reads {Payload : Type} {wire : FleetWire Payload}
    {print : Bytes → VaArg → Bytes} {msg : Payload} {words : List Bytes}
    (meant : wire.Means print msg words) (rest : Bytes) :
    Resp.readCommand ((wire.req.parse msg).1.command.written ++ rest) = some (words, rest) := by
  obtain ⟨req, _, spoken, whole⟩ := meant
  rw [whole]
  cases spoken with
  | formatted proper made =>
      rw [proper.run_eq] at made
      cases made
      exact Resp.readCommand_command _ rest
  | argv => exact Resp.readCommand_command _ rest

/-- A response that is parsed is the one that was serialised. -/
def FleetWire.Faithful {Payload : Type} (wire : FleetWire Payload) : Prop :=
  ∀ rsp parsed, wire.rsp.read (wire.rsp.serialize rsp) = some parsed → parsed = rsp

/-- The bytes of a command on the connection. -/
def Submission.written (submission : Submission) : Bytes := submission.head.msg.command.written

/-- A process learns the content of a reply. -/
abbrev RedisMoment (Payload : Type) := Moment Asker Payload (List Bytes) Reply PbReply

/-- A reply of redis as a process sees it. -/
def Reply.shown (reply : Reply) : PbReply := TransRedisCmd.replyToPb reply.object

/-- The fleet and redis, with the bytes and the replies on the way between them. -/
structure Deployment (Payload Store : Type) where
  fleet : Fleet Payload
  store : Store
  -- The bytes that redis has not read, and the replies that `redissvr` has not read.
  stream : Bytes
  replies : List Reply
  -- A record: the replies to all commands that redis has read, and the history.
  done : List Reply
  history : List (RedisMoment Payload)

/-- What happens in the fleet, in redis, or on the way back to `redissvr`. -/
inductive DeployAct (Payload : Type)
  | fleet (act : FleetAct Payload)
  | execute
  | foreign (words : List Bytes)
  | answer

/-- The replies of redis come from redis. -/
def FleetAct.isReply {Payload : Type} : FleetAct Payload → Bool
  | .server (.getCallback _) => true
  | _ => false

namespace Deployment

variable {Payload Store : Type} (wire : FleetWire Payload)
  (server : Object Store (List Bytes) Reply)

def start : Deployment Payload Store := ⟨Fleet.start, server.start, [], [], [], []⟩

/-- The calls among the requests of a process from the number on. -/
def calls (process : Bytes) (number : Nat) :
    List (MsgHead Payload) → List (RedisMoment Payload)
  | [] => []
  | request :: rest =>
      if request.dstBusId = wire.svrId then
        .call ⟨process, number⟩ request.msg :: calls process (number + 1) rest
      else calls process (number + 1) rest

/-- What a process learns when a call to `redissvr` returns with a reply. -/
def learned (fleet : Fleet Payload) (process : Bytes) :
    CoEvent SharedTrans (Packet Payload) → Option (RedisMoment Payload)
  | .returned _ call ret _ msg =>
      (fleet.request ⟨process, call.number⟩).bind fun request =>
        if request.dstBusId = wire.svrId then
          match sendMsgRpc wire.rsp.read ret (msg.map Packet.head) with
          | .ok rsp => rsp.reply.map (.ret ⟨process, call.number⟩)
          | .error _ => none
        else none
  | _ => none

/-- A task returns from a call before it makes the next one. -/
def moments (fleet next : Fleet Payload) : FleetAct Payload → List (RedisMoment Payload)
  | .client process _ =>
      let before := fleet.client process
      let after := next.client process
      (after.trace.drop before.trace.length).filterMap (learned wire next process) ++
        calls wire process before.sent.length (after.sent.drop before.sent.length)
  | _ => []

variable (deployment : Deployment Payload Store)

/-- The bytes and the moments that a step of the fleet adds. -/
def advance (act : FleetAct Payload) (next : Fleet Payload) : Deployment Payload Store :=
  let submitted := deployment.fleet.server.submissions.length
  { deployment with
    fleet := next
    stream := deployment.stream ++
      (next.server.submissions.drop submitted).flatMap Submission.written
    history := deployment.history ++ moments wire deployment.fleet next act }

/-- Redis reads the next command of the connection and executes it. -/
def execute : Option (Deployment Payload Store) :=
  (Resp.readCommand deployment.stream).map fun read =>
    let result := server.step deployment.store read.1
    let asker := deployment.fleet.asked[deployment.done.length]?.join
    { deployment with
      store := result.1
      stream := read.2
      replies := deployment.replies ++ [result.2]
      done := deployment.done ++ [result.2]
      history := deployment.history ++ [.effect asker read.1 result.2] }

/-- Redis executes a command of somebody else. -/
def foreign (words : List Bytes) : Deployment Payload Store :=
  let result := server.step deployment.store words
  { deployment with
    store := result.1
    history := deployment.history ++ [.effect none words result.2] }

/-- The next reply comes to `redissvr`. -/
def answer : Option (Deployment Payload Store) :=
  match deployment.replies with
  | [] => none
  | reply :: replies =>
      let act : FleetAct Payload := .server (.getCallback reply.object)
      (deployment.fleet.step wire act).map ({ deployment with replies }.advance wire act)

def step : DeployAct Payload → Option (Deployment Payload Store)
  | .fleet act =>
      if act.isReply then none
      else (deployment.fleet.step wire act).map (deployment.advance wire act)
  | .execute => deployment.execute server
  | .foreign words => some (deployment.foreign server words)
  | .answer => deployment.answer wire

end Deployment

/-- All processes, `redissvr` and redis, with every order of their steps. -/
def deployMachine {Payload Store : Type} (wire : FleetWire Payload)
    (server : Object Store (List Bytes) Reply) :
    Machine (Deployment Payload Store) (DeployAct Payload) :=
  ⟨Deployment.start server, fun deployment act => deployment.step wire server act⟩

/-- The reply that comes with a step of the server. -/
def RedisAct.brought : RedisAct → List RedisReply
  | .getCallback reply => [reply]
  | _ => []

namespace RedisRun

variable {garbage : MsgHead RedisCmdReq → RedisReply} {run next : RedisRun}

/-- The commands that redis has answered and those that it has not are all commands in order. -/
def Numbered (run : RedisRun) : Prop :=
  run.produced.map Prod.fst ++ run.unanswered = List.range run.submissions.length

/-- A command that is submitted is not empty. -/
def Job.Speaks (job : Option Job) : Prop :=
  ∀ head, job = some ⟨head, true⟩ → head.msg.command ≠ .argv []

theorem observe_produced (job : Option Job) (event : CoEvent SharedTrans RedisMsg) :
    (run.observe garbage job event).produced = run.produced := by
  cases event with
  | started coId task =>
      cases job with
      | none => rfl
      | some job => obtain ⟨head, _ | _⟩ := job <;> rfl
  | yielded coId call =>
      cases job with
      | none => rfl
      | some job => obtain ⟨head, _ | _⟩ := job <;> rfl
  | returned coId call ret wake msg =>
      cases known : run.submissions[call.number]? <;> simp [observe, known, respond]
  | finished coId task => rfl

theorem Numbered.observe (numbered : run.Numbered) {job : Option Job} (speaks : Job.Speaks job)
    (event : CoEvent SharedTrans RedisMsg) : (run.observe garbage job event).Numbered := by
  cases event with
  | started coId task =>
      cases job with
      | none => exact numbered
      | some job => obtain ⟨head, _ | _⟩ := job <;> exact numbered
  | yielded coId call =>
      cases job with
      | none => exact numbered
      | some job =>
          obtain ⟨head, _ | _⟩ := job
          · exact numbered
          · have unanswered : run.unanswered ++ (if head.msg.command = .argv [] then []
                else [run.submissions.length]) = run.unanswered ++ [run.submissions.length] := by
              rw [if_neg (speaks head rfl)]
            change run.produced.map Prod.fst ++ (run.unanswered ++ _) =
              List.range (run.submissions ++ [_]).length
            rw [unanswered, ← List.append_assoc, numbered, List.length_append,
              List.length_singleton, List.range_succ]
  | returned coId call ret wake msg =>
      cases known : run.submissions[call.number]? with
      | none => simpa [RedisRun.observe, known] using numbered
      | some submission => simpa [RedisRun.observe, known, respond, Numbered] using numbered
  | finished coId task => exact numbered

section Record

variable {outcome : MgrOutcome RedisMsg} {job : Option Job}

theorem record_produced : (run.record garbage job outcome).produced = run.produced := by
  have folded : ∀ (events : List (CoEvent SharedTrans RedisMsg)) (run : RedisRun),
      (events.foldl (observe garbage job) run).produced = run.produced := by
    intro events
    induction events with
    | nil => exact fun _ => rfl
    | cons event events ih => exact fun run => (ih _).trans (observe_produced job event)
  exact folded outcome.events _

theorem Numbered.record (numbered : run.Numbered) (speaks : Job.Speaks job) :
    (run.record garbage job outcome).Numbered := by
  have folded : ∀ (events : List (CoEvent SharedTrans RedisMsg)) (run : RedisRun),
      run.Numbered → (events.foldl (RedisRun.observe garbage job) run).Numbered := by
    intro events
    induction events with
    | nil => exact fun _ numbered => numbered
    | cons event events ih => exact fun run numbered => ih _ (numbered.observe speaks event)
  exact folded outcome.events _ numbered

end Record

/-- What redis answered is in the order of the commands, and a reply is added by its callback. -/
theorem Numbered.step (numbered : run.Numbered) {act : RedisAct} (undisturbed : Undisturbed run act)
    (stepped : run.step garbage act = some next) :
    next.Numbered ∧ ∃ more, next.produced = run.produced ++ more ∧
      more.map Prod.snd = act.brought := by
  have silent : Job.Speaks none := fun head same => by cases same
  cases act with
  | setState state =>
      cases stepped
      exact ⟨numbered, [], (List.append_nil _).symm, rfl⟩
  | onMsg head accepted now ptr =>
      obtain ⟨outcome, _, rfl⟩ := Option.map_eq_some_iff.mp stepped
      have speaks : Job.Speaks (run.job head accepted) := by
        intro other same
        obtain ⟨fresh, same⟩ := Option.ite_none_right_eq_some.mp same
        obtain ⟨rfl, submits⟩ := Job.mk.inj (Option.some.inj same)
        obtain ⟨connected, taken⟩ := Bool.and_eq_true_iff.mp submits
        exact undisturbed.1 fresh (of_decide_eq_true connected) taken
      exact ⟨numbered.record speaks, [], by rw [record_produced, List.append_nil], rfl⟩
  | getCallback reply =>
      change run.getCallback garbage reply = some next at stepped
      unfold RedisRun.getCallback at stepped
      split at stepped
      · rename_i callback callbacks number unanswered registered missing
        obtain ⟨_, operated⟩ := Option.ite_none_right_eq_some.mp stepped
        obtain ⟨outcome, _, rfl⟩ := Option.map_eq_some_iff.mp operated
        refine ⟨Numbered.record ?_ silent, [(number, reply)], record_produced, rfl⟩
        change (run.produced ++ [(number, reply)]).map Prod.fst ++ unanswered = _
        rw [List.map_append, List.append_assoc]
        change run.produced.map Prod.fst ++ number :: unanswered = _
        rw [← missing]
        exact numbered
      · cases stepped
  | tickTimeOutCo now =>
      obtain ⟨outcome, _, rfl⟩ := Option.map_eq_some_iff.mp stepped
      exact ⟨numbered.record silent, [], by rw [record_produced, List.append_nil], rfl⟩
  | proceed =>
      obtain ⟨outcome, _, rfl⟩ := Option.map_eq_some_iff.mp stepped
      exact ⟨numbered.record silent, [], by rw [record_produced, List.append_nil], rfl⟩

end RedisRun

end QServer
