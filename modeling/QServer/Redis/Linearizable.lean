import QServer.Redis.Deployment

/-
This file proves that redis behind `redissvr` is linearizable for the processes that call it.
-/

namespace QServer
open Transition Wire Linear SvrCommTrans

variable {Payload Store : Type}

namespace Fleet

variable {wire : FleetWire Payload} {print : Bytes → VaArg → Bytes} {fleet next : Fleet Payload}

/-- The requests that come to `redissvr` mean words. -/
def Spoken (wire : FleetWire Payload) (print : Bytes → VaArg → Bytes) (fleet : Fleet Payload) :
    FleetAct Payload → Prop
  | .arrive asker _ _ _ => ∀ request, fleet.request asker = some request →
      ∃ words, wire.Means print request.msg words
  | .server (.onMsg head _ _ _) =>
      ∃ msg words, wire.Means print msg words ∧ head.msg = (wire.req.parse msg).1
  | _ => True

/-- The command with the number means words, and so does the request of its asker. -/
def Spoke (wire : FleetWire Payload) (print : Bytes → VaArg → Bytes) (fleet : Fleet Payload)
    (number : Nat) (submission : Submission) : Prop :=
  ∃ msg words, wire.Means print msg words ∧ submission.head.msg = (wire.req.parse msg).1 ∧
    ∀ asker, fleet.asked[number]? = some (some asker) → ∃ request,
      fleet.request asker = some request ∧ request.msg = msg ∧ request.dstBusId = wire.svrId

theorem Spoke.later {number : Nat} {submission : Submission}
    (spoke : fleet.Spoke wire print number submission) (grown : fleet.Extends next)
    (within : number < fleet.asked.length) : next.Spoke wire print number submission := by
  obtain ⟨msg, words, means, same, asked⟩ := spoke
  refine ⟨msg, words, means, same, fun asker asks => ?_⟩
  have earlier := getElem?_of_prefix grown.asked (List.getElem?_eq_getElem within)
  have before : fleet.asked[number]? = some (some asker) := by
    rw [List.getElem?_eq_getElem within, ← earlier, asks]
  obtain ⟨request, known, rest⟩ := asked asker before
  exact ⟨request, grown.requests asker request known, rest⟩

/-- An asker is behind one command at most. -/
theorem Joined.eq_of_asked (joined : fleet.Joined wire) {first second : Nat} {asker : Asker}
    (before : first < second) (one : fleet.asked[first]? = some (some asker))
    (other : fleet.asked[second]? = some (some asker)) : False := by
  have distinct : fleet.asked.reduceOption.Nodup := joined.single.sublist joined.once
  rw [← List.take_append_drop second fleet.asked, List.reduceOption_append] at distinct
  have early : some asker ∈ fleet.asked.take second :=
    List.mem_of_getElem? (by rw [List.getElem?_take_of_lt before, one])
  have late : some asker ∈ fleet.asked.drop second :=
    List.mem_of_getElem? (i := 0) (by rw [List.getElem?_drop, Nat.add_zero, other])
  exact (List.nodup_append.mp distinct).2.2 asker (List.reduceOption_mem_iff.mpr early) asker
    (List.reduceOption_mem_iff.mpr late) rfl

/-- A response on its way changes no request. -/
theorem carry_frame {place : Nat} (stepped : fleet.carry wire place = some next) :
    fleet.Extends next ∧ next.server = fleet.server ∧
      ∀ asker, next.request asker = fleet.request asker := by
  obtain ⟨_, brought⟩ := Option.ite_none_left_eq_some.mp stepped
  obtain ⟨response, _, brought⟩ := Option.bind_eq_some_iff.mp brought
  obtain ⟨sender, _, rfl⟩ := Option.map_eq_some_iff.mp brought
  have same : (fleet.client response.head.dstBusId).sent =
      (fleet.client response.head.dstBusId).sent ++ [] := (List.append_nil _).symm
  refine ⟨extends_client same, rfl, fun asker => ?_⟩
  by_cases here : asker.process = response.head.dstBusId
  · simp [request, here]
  · simp [request, here]

/-- A process adds to its requests and to its switches. -/
theorem client_frame (joined : fleet.Joined wire) {process : Bytes} {act : RpcAct Payload}
    (stepped : fleet.step wire (.client process act) = some next) :
    fleet.Extends next ∧ next.server = fleet.server ∧ next.asked = fleet.asked ∧
      (∀ other ≠ process, next.client other = fleet.client other) ∧
      ∃ more events, (next.client process).sent = (fleet.client process).sent ++ more ∧
        (next.client process).trace = (fleet.client process).trace ++ events := by
  obtain ⟨_, moved⟩ := Option.ite_none_right_eq_some.mp stepped
  obtain ⟨run, advanced, rfl⟩ := Option.map_eq_some_iff.mp moved
  have advances : (fleet.client process).Advances process (fun _ => True) act run :=
    RpcRun.advances (joined.matched process).resting (fun _ _ => trivial) (fun _ => trivial) advanced
  obtain ⟨more, sent, _⟩ := advances.sent
  obtain ⟨events, trace, _⟩ := advances.trace
  have here : Function.update fleet.client process run process = run := Function.update_self ..
  refine ⟨extends_client sent, rfl, rfl, fun other differs => Function.update_of_ne differs .., more,
    events, ?_, ?_⟩
  · change (Function.update fleet.client process run process).sent = _
    rw [here, sent]
  · change (Function.update fleet.client process run process).trace = _
    rw [here, trace]

end Fleet

namespace Deployment

variable {wire : FleetWire Payload} {print : Bytes → VaArg → Bytes}
  {server : Object Store (List Bytes) Reply} {deployment later : Deployment Payload Store}
  {next : Fleet Payload}

/-- The steps of the fleet are calm, and only `RedisActuator` sends to `redissvr`. -/
def Orderly (wire : FleetWire Payload) (print : Bytes → VaArg → Bytes)
    (deployment : Deployment Payload Store) : DeployAct Payload → Prop
  | .fleet act => Fleet.Calm wire deployment.fleet act ∧ deployment.fleet.Spoken wire print act
  | .answer => ∀ reply, deployment.replies.head? = some reply →
      Undisturbed deployment.fleet.server (.getCallback reply.object)
  | _ => True

/-- The connection holds the commands that redis has not read, and the replies come in order. -/
structure Piped (wire : FleetWire Payload) (print : Bytes → VaArg → Bytes)
    (deployment : Deployment Payload Store) : Prop where
  joined : deployment.fleet.Joined wire
  numbered : deployment.fleet.server.Numbered
  spoken : ∀ number submission,
    deployment.fleet.server.submissions[number]? = some submission →
      deployment.fleet.Spoke wire print number submission
  within : deployment.done.length ≤ deployment.fleet.server.submissions.length
  stream : deployment.stream =
    (deployment.fleet.server.submissions.drop deployment.done.length).flatMap Submission.written
  delivered : deployment.fleet.server.produced.map Prod.snd ++ deployment.replies.map Reply.object =
    deployment.done.map Reply.object

/-- The history is atomic and has all calls to `redissvr` and all commands that redis has read. -/
structure Told (wire : FleetWire Payload) (print : Bytes → VaArg → Bytes)
    (server : Object Store (List Bytes) Reply) (deployment : Deployment Payload Store) : Prop where
  atomic : Atomic server (wire.Means print) Reply.shown deployment.history deployment.store
  acted : ∀ (number : Nat) reply, deployment.done[number]? = some reply →
    ∃ words, .effect deployment.fleet.asked[number]?.join words reply ∈ deployment.history
  actors : ∀ asker words reply, .effect (some asker) words reply ∈ deployment.history →
    ∃ number < deployment.done.length, deployment.fleet.asked[number]? = some (some asker)
  made : ∀ asker request, deployment.fleet.request asker = some request →
    request.dstBusId = wire.svrId → .call asker request.msg ∈ deployment.history
  known : ∀ asker msg, .call asker msg ∈ deployment.history →
    ∃ request, deployment.fleet.request asker = some request

theorem Piped.start : (start server : Deployment Payload Store).Piped wire print := by
  refine ⟨Fleet.Joined.start, rfl, ?_, le_rfl, rfl, rfl⟩
  rintro number submission ⟨⟩

theorem Told.start : (start server : Deployment Payload Store).Told wire print server := by
  refine ⟨.start, ?_, ?_, ?_, ?_⟩
  · rintro number reply ⟨⟩
  · rintro asker words reply ⟨⟩
  · rintro asker request ⟨⟩
  · rintro asker msg ⟨⟩

theorem Piped.done_le_asked (piped : deployment.Piped wire print) :
    deployment.done.length ≤ deployment.fleet.asked.length := by
  rw [piped.joined.counted]
  exact piped.within

/-- A reply that redis produced is the reply to the command with its number. -/
theorem Piped.done_of_produced (piped : deployment.Piped wire print) {number : Nat}
    {reply : RedisReply} (made : (number, reply) ∈ deployment.fleet.server.produced) :
    ∃ found, deployment.done[number]? = some found ∧ found.object = reply := by
  obtain ⟨place, there⟩ := List.mem_iff_getElem?.mp made
  have named : (deployment.fleet.server.produced.map Prod.fst)[place]? = some number := by
    rw [List.getElem?_map, there, Option.map_some]
  have counted := getElem?_append_some named deployment.fleet.server.unanswered
  rw [piped.numbered] at counted
  obtain ⟨_, rfl⟩ := List.getElem?_eq_some_iff.mp counted
  have object : (deployment.fleet.server.produced.map Prod.snd)[place]? = some reply := by
    rw [List.getElem?_map, there, Option.map_some]
  have delivered := getElem?_append_some object (deployment.replies.map Reply.object)
  rw [piped.delivered, List.getElem?_map] at delivered
  rw [List.getElem_range]
  exact Option.map_eq_some_iff.mp delivered

section FleetSteps

/-- The connection takes the commands that a step of the fleet submits. -/
theorem Piped.advance (piped : deployment.Piped wire print) (joined : next.Joined wire)
    (grown : deployment.fleet.Extends next) (numbered : next.server.Numbered)
    (spoken : ∀ number submission, deployment.fleet.server.submissions.length ≤ number →
      next.server.submissions[number]? = some submission → next.Spoke wire print number submission)
    {replies : List Reply}
    (delivered : next.server.produced.map Prod.snd ++ replies.map Reply.object =
      deployment.done.map Reply.object) (act : FleetAct Payload) :
    ({ deployment with replies }.advance wire act next : Deployment Payload Store).Piped wire
      print := by
  obtain ⟨more, submitted⟩ := grown.submissions
  refine ⟨joined, numbered, fun number submission found => ?_, ?_, ?_, delivered⟩
  · by_cases old : number < deployment.fleet.server.submissions.length
    · have within : number < deployment.fleet.asked.length := by rwa [piped.joined.counted]
      have before : deployment.fleet.server.submissions[number]? = some submission := by
        change next.server.submissions[number]? = some submission at found
        rwa [← submitted, List.getElem?_append_left old] at found
      exact (piped.spoken number submission before).later grown within
    · exact spoken number submission (not_lt.mp old) found
  · exact piped.within.trans grown.submissions.length_le
  · change deployment.stream ++ (next.server.submissions.drop
      deployment.fleet.server.submissions.length).flatMap Submission.written =
      (next.server.submissions.drop deployment.done.length).flatMap Submission.written
    rw [piped.stream, ← submitted, List.drop_left, List.drop_append_of_le_length piped.within,
      List.flatMap_append]

/-- The connection of a step without `redissvr`. -/
theorem Piped.still (piped : deployment.Piped wire print) (joined : next.Joined wire)
    (grown : deployment.fleet.Extends next) (server : next.server = deployment.fleet.server)
    (act : FleetAct Payload) : (deployment.advance wire act next).Piped wire print := by
  refine piped.advance joined grown (server ▸ piped.numbered) (fun number submission late found => ?_)
    (server ▸ piped.delivered) act
  rw [server] at found
  exact absurd (List.getElem?_eq_some_iff.mp found).1 (not_lt.mpr late)

/-- A step that sends no request and returns from no call. -/
theorem Told.advance (told : deployment.Told wire print server)
    (grown : deployment.fleet.Extends next) {act : FleetAct Payload}
    (counted : deployment.done.length ≤ deployment.fleet.asked.length)
    (silent : moments wire deployment.fleet next act = [])
    (requests : ∀ asker, next.request asker = deployment.fleet.request asker)
    (replies : List Reply) :
    ({ deployment with replies }.advance wire act next : Deployment Payload Store).Told wire print
      server := by
  have history : ({ deployment with replies }.advance wire act next :
      Deployment Payload Store).history = deployment.history := by
    change deployment.history ++ moments wire deployment.fleet next act = _
    rw [silent, List.append_nil]
  refine ⟨?_, fun number reply found => ?_, fun asker words reply acted => ?_,
    fun asker request known addressed => ?_, fun asker msg called => ?_⟩
  · rw [history]
    exact told.atomic
  · obtain ⟨words, member⟩ := told.acted number reply found
    have within : number < deployment.fleet.asked.length :=
      (List.getElem?_eq_some_iff.mp found).1.trans_le counted
    have same := Fleet.getElem?_of_prefix grown.asked (List.getElem?_eq_getElem within)
    refine ⟨words, ?_⟩
    rw [history]
    change Moment.effect next.asked[number]?.join words reply ∈ deployment.history
    rw [same, ← List.getElem?_eq_getElem within]
    exact member
  · rw [history] at acted
    obtain ⟨number, before, asks⟩ := told.actors asker words reply acted
    exact ⟨number, before, Fleet.getElem?_of_prefix grown.asked asks⟩
  · rw [history]
    exact told.made asker request ((requests asker).symm.trans known) addressed
  · rw [history] at called
    obtain ⟨request, known⟩ := told.known asker msg called
    exact ⟨request, (requests asker).trans known⟩

/-- The connection of a step of `redissvr`. -/
theorem Piped.serve (piped : deployment.Piped wire print) {asker : Option Asker} {act : RedisAct}
    {taken : List Asker} (joined : next.Joined wire)
    (undisturbed : Undisturbed deployment.fleet.server act)
    (meant : ∀ head, act.head = some head → ∃ msg words, wire.Means print msg words ∧
      head.msg = (wire.req.parse msg).1 ∧ ∀ sender, asker = some sender → ∃ request,
        deployment.fleet.request sender = some request ∧ request.msg = msg ∧
          request.dstBusId = wire.svrId)
    (served : ({ deployment.fleet with taken } : Fleet Payload).serve wire asker act = some next)
    {replies : List Reply}
    (arrive : act.brought ++ replies.map Reply.object = deployment.replies.map Reply.object)
    (label : FleetAct Payload) :
    ({ deployment with replies }.advance wire label next : Deployment Payload Store).Piped wire
        print ∧
      deployment.fleet.Extends next ∧
      ∀ sender, next.request sender = deployment.fleet.request sender := by
  obtain ⟨run, moved, rfl⟩ := Option.map_eq_some_iff.mp served
  obtain ⟨submissions, responses, adds, submitted, responded⟩ :=
    RedisRun.grows piped.joined.owned.resting moved
  obtain ⟨numbered, more, produced, arrived⟩ := piped.numbered.step undisturbed moved
  let brought : Fleet Payload := { deployment.fleet with taken }
  have added : run.submissions = brought.server.submissions ++ submissions := submitted
  have recorded : brought.Extends (brought.record asker run) :=
    Fleet.extends_record added responded
  have grown : deployment.fleet.Extends (brought.record asker run) :=
    ⟨recorded.requests, recorded.submissions, recorded.responses, recorded.asked,
      recorded.answers⟩
  refine ⟨piped.advance joined grown numbered (fun number submission late found => ?_) ?_ label,
    grown, fun _ => rfl⟩
  · change run.submissions[number]? = some submission at found
    rw [submitted] at found
    rcases Fleet.getElem?_append_cases found with old | ⟨index, rfl, fresh⟩
    · exact absurd (List.getElem?_eq_some_iff.mp old).1 (not_lt.mpr late)
    · cases adds with
      | nothing => cases fresh
      | submission coId own =>
          obtain ⟨msg, words, means, same, asked⟩ := meant _ own
          have only := List.mem_singleton.mp (List.mem_of_getElem? fresh)
          refine ⟨msg, words, means, only ▸ same, fun sender asks => ?_⟩
          change (brought.record asker run).asked[_]? = _ at asks
          rw [Fleet.record_asked added] at asks
          change (deployment.fleet.asked ++ _)[deployment.fleet.server.submissions.length +
            index]? = _ at asks
          rw [← piped.joined.counted, Fleet.getElem?_append_add, List.getElem?_map, fresh,
            Option.map_some, Option.some.injEq] at asks
          exact asked sender asks
      | refusal rsp own => cases fresh
      | response rsp known => cases fresh
  · change run.produced.map Prod.snd ++ _ = _
    rw [produced, List.map_append, arrived, List.append_assoc, arrive]
    exact piped.delivered

end FleetSteps

section Client

variable {process : Bytes}

/-- A call returns with the result of its effect. -/
theorem Told.learned (told : deployment.Told wire print server)
    (piped : deployment.Piped wire print) (faithful : wire.Faithful) (joined : next.Joined wire)
    (same : next.server = deployment.fleet.server) (asked : next.asked = deployment.fleet.asked)
    {event : CoEvent SharedTrans (Packet Payload)} (member : event ∈ (next.client process).trace)
    {moment : RedisMoment Payload} (learned : learned wire next process event = some moment) :
    ∃ id words reply, .effect (some id) words reply ∈ deployment.history ∧
      moment = .ret id reply.shown := by
  cases event with
  | returned coId call ret wake msg =>
      obtain ⟨request, known, learned⟩ := Option.bind_eq_some_iff.mp learned
      obtain ⟨addressed, learned⟩ := Option.ite_none_right_eq_some.mp learned
      cases returned : sendMsgRpc wire.rsp.read ret (msg.map Packet.head) with
      | error text =>
          rw [returned] at learned
          cases learned
      | ok rsp =>
          rw [returned] at learned
          obtain ⟨pb, replied, rfl⟩ := Option.map_eq_some_iff.mp learned
          obtain ⟨other, there, _, own⟩ := joined.served member rsp returned
          cases there.symm.trans known
          obtain ⟨response, _, _, parsed, produces⟩ := own addressed
          have whole := faithful _ _ parsed
          rw [whole] at replied
          obtain ⟨number, submission, produced, asks, _, _, made, rfl⟩ := produces pb replied
          rw [same] at made
          rw [asked] at asks
          obtain ⟨reply, done, object⟩ := piped.done_of_produced made
          obtain ⟨words, acted⟩ := told.acted number reply done
          rw [asks] at acted
          exact ⟨_, words, reply, acted, by rw [Reply.shown, object]⟩
  | _ => cases learned

theorem mem_calls {number : Nat} {requests : List (MsgHead Payload)}
    {moment : RedisMoment Payload} :
    moment ∈ calls wire process number requests ↔ ∃ index request,
      requests[index]? = some request ∧ request.dstBusId = wire.svrId ∧
        moment = .call ⟨process, number + index⟩ request.msg := by
  induction requests generalizing number with
  | nil => simp [calls]
  | cons request rest ih =>
      have later : moment ∈ calls wire process (number + 1) rest ↔ ∃ index other,
          (request :: rest)[index + 1]? = some other ∧ other.dstBusId = wire.svrId ∧
            moment = .call ⟨process, number + (index + 1)⟩ other.msg := by
        simp only [ih, List.getElem?_cons_succ, Nat.add_comm, Nat.add_left_comm]
      rw [calls]
      constructor
      · intro member
        split_ifs at member with addressed
        · rcases List.mem_cons.mp member with rfl | more
          · exact ⟨0, request, rfl, addressed, rfl⟩
          · obtain ⟨index, other, found⟩ := later.mp more
            exact ⟨index + 1, other, found⟩
        · obtain ⟨index, other, found⟩ := later.mp member
          exact ⟨index + 1, other, found⟩
      · rintro ⟨index, other, found, addressed, same⟩
        cases index with
        | zero =>
            cases found
            rw [if_pos addressed, same]
            exact List.mem_cons_self
        | succ index =>
            have more := later.mpr ⟨index, other, found, addressed, same⟩
            split_ifs
            · exact List.mem_cons_of_mem _ more
            · exact more

/-- Calls with new numbers keep a history atomic. -/
theorem atomic_calls {history : List (RedisMoment Payload)} {store : Store} {number : Nat}
    (requests : List (MsgHead Payload))
    (atomic : Atomic server (wire.Means print) Reply.shown history store)
    (bound : ∀ earlier msg, .call ⟨process, earlier⟩ msg ∈ history → earlier < number) :
    Atomic server (wire.Means print) Reply.shown (history ++ calls wire process number requests)
      store := by
  induction requests generalizing history number with
  | nil =>
      rw [calls, List.append_nil]
      exact atomic
  | cons request rest ih =>
      rw [calls]
      split_ifs with addressed
      · have fresh : ∀ other, .call ⟨process, number⟩ other ∉ history :=
          fun other member => lt_irrefl number (bound number other member)
        have called := ih (.call request.msg atomic fresh) fun earlier msg member => by
          rcases List.mem_append.mp member with old | new
          · exact Nat.lt_succ_of_lt (bound earlier msg old)
          · cases List.mem_singleton.mp new
            exact Nat.lt_succ_self number
        rwa [List.append_assoc] at called
      · exact ih atomic fun earlier msg member => Nat.lt_succ_of_lt (bound earlier msg member)

/-- A process returns from calls and makes calls. -/
theorem Told.client (told : deployment.Told wire print server) (piped : deployment.Piped wire print)
    (faithful : wire.Faithful) {act : RpcAct Payload} (joined : next.Joined wire)
    (stepped : deployment.fleet.step wire (.client process act) = some next) :
    (deployment.advance wire (.client process act) next).Told wire print server := by
  obtain ⟨grown, server, asked, others, more, events, sent, trace⟩ :=
    Fleet.client_frame piped.joined stepped
  let returns := events.filterMap (Deployment.learned wire next process)
  let made := calls wire process (deployment.fleet.client process).sent.length more
  have shape : (deployment.advance wire (.client process act) next).history =
      deployment.history ++ returns ++ made := by
    change deployment.history ++ (((next.client process).trace.drop
      (deployment.fleet.client process).trace.length).filterMap
        (Deployment.learned wire next process) ++ calls wire process
          (deployment.fleet.client process).sent.length ((next.client process).sent.drop
            (deployment.fleet.client process).sent.length)) = _
    rw [trace, sent, List.drop_left, List.drop_left, List.append_assoc]
  have returned : ∀ moment ∈ returns, ∃ id words reply,
      .effect (some id) words reply ∈ deployment.history ∧ moment = .ret id reply.shown := by
    intro moment member
    obtain ⟨event, among, learned⟩ := List.mem_filterMap.mp member
    have there : event ∈ (next.client process).trace := by
      rw [trace]
      exact List.mem_append_right _ among
    exact told.learned piped faithful joined server asked there learned
  have called : ∀ asker msg, .call asker msg ∈ deployment.history ++ returns →
      ∃ request, deployment.fleet.request asker = some request := by
    intro asker msg member
    rcases List.mem_append.mp member with old | new
    · exact told.known asker msg old
    · obtain ⟨_, _, _, _, same⟩ := returned _ new
      cases same
  have kept : ∀ moment ∈ deployment.history, moment ∈ deployment.history ++ returns ++ made :=
    fun moment member => List.mem_append_left _ (List.mem_append_left _ member)
  refine ⟨?_, fun number reply found => ?_, fun asker words reply acted => ?_,
    fun asker request known addressed => ?_, fun asker msg member => ?_⟩
  · rw [shape]
    refine atomic_calls more (told.atomic.rets returned) fun earlier msg member => ?_
    obtain ⟨request, known⟩ := called _ msg member
    exact (List.getElem?_eq_some_iff.mp known).1
  · obtain ⟨words, acted⟩ := told.acted number reply found
    rw [shape]
    change ∃ words, Moment.effect next.asked[number]?.join words reply ∈ _
    rw [asked]
    exact ⟨words, kept _ acted⟩
  · change ∃ number < _, next.asked[number]? = _
    rw [asked]
    rw [shape] at acted
    rcases List.mem_append.mp acted with old | new
    · rcases List.mem_append.mp old with old | new
      · exact told.actors asker words reply old
      · obtain ⟨_, _, _, _, same⟩ := returned _ new
        cases same
    · obtain ⟨_, _, _, _, same⟩ := mem_calls.mp new
      cases same
  · rw [shape]
    obtain ⟨other, number⟩ := asker
    by_cases same : other = process
    · subst same
      change (next.client other).sent[number]? = some request at known
      rw [sent] at known
      rcases Fleet.getElem?_append_cases known with old | ⟨index, rfl, new⟩
      · exact kept _ (told.made ⟨other, number⟩ request old addressed)
      · exact List.mem_append_right _ (mem_calls.mpr ⟨index, request, new, addressed, rfl⟩)
    · have old : deployment.fleet.request ⟨other, number⟩ = some request := by
        change (next.client other).sent[number]? = _ at known
        rwa [others other same] at known
      exact kept _ (told.made ⟨other, number⟩ request old addressed)
  · rw [shape] at member
    rcases List.mem_append.mp member with old | new
    · obtain ⟨request, known⟩ := called asker msg old
      exact ⟨request, grown.requests asker request known⟩
    · obtain ⟨index, request, found, _, same⟩ := mem_calls.mp new
      cases same
      refine ⟨request, ?_⟩
      change (next.client process).sent[_]? = some request
      rw [sent, Fleet.getElem?_append_add]
      exact found

end Client

section Redis

/-- What redis reads is the next command, with the words of its request. -/
theorem Piped.read (piped : deployment.Piped wire print) {words : List Bytes} {rest : Bytes}
    (found : Resp.readCommand deployment.stream = some (words, rest)) :
    ∃ submission msg asker,
      deployment.fleet.server.submissions[deployment.done.length]? = some submission ∧
      rest = (deployment.fleet.server.submissions.drop (deployment.done.length + 1)).flatMap
        Submission.written ∧
      wire.Means print msg words ∧
      deployment.fleet.asked[deployment.done.length]? = some asker ∧
      ∀ sender, asker = some sender → ∃ request, deployment.fleet.request sender = some request ∧
        request.msg = msg ∧ request.dstBusId = wire.svrId := by
  rw [piped.stream] at found
  cases unread : deployment.fleet.server.submissions.drop deployment.done.length with
  | nil =>
      rw [unread] at found
      cases found
  | cons submission others =>
      have there : deployment.fleet.server.submissions[deployment.done.length]? =
          some submission := by
        rw [← Nat.add_zero deployment.done.length, ← List.getElem?_drop, unread]
        rfl
      have left : deployment.fleet.server.submissions.drop (deployment.done.length + 1) =
          others := by
        rw [← List.drop_drop, unread]
        rfl
      have counted : deployment.done.length < deployment.fleet.asked.length := by
        rw [piped.joined.counted]
        exact (List.getElem?_eq_some_iff.mp there).1
      obtain ⟨msg, meant, means, same, asked⟩ := piped.spoken _ submission there
      rw [unread, List.flatMap_cons, Submission.written, same, means.reads] at found
      cases found
      refine ⟨submission, msg, _, there, by rw [left], means, List.getElem?_eq_getElem counted,
        fun sender named => asked sender ?_⟩
      rw [List.getElem?_eq_getElem counted, named]

/-- The connection after redis has read a command. -/
theorem Piped.execute (piped : deployment.Piped wire print)
    (stepped : deployment.execute server = some later) : later.Piped wire print := by
  obtain ⟨⟨words, rest⟩, found, rfl⟩ := Option.map_eq_some_iff.mp stepped
  obtain ⟨submission, msg, asker, there, left, _⟩ := piped.read found
  refine ⟨piped.joined, piped.numbered, piped.spoken, ?_, ?_, ?_⟩
  · rw [List.length_append, List.length_singleton]
    exact (List.getElem?_eq_some_iff.mp there).1
  · rw [List.length_append, List.length_singleton]
    exact left
  · change _ ++ (deployment.replies ++ [_]).map Reply.object =
      (deployment.done ++ [_]).map Reply.object
    rw [List.map_append, List.map_append, ← List.append_assoc, piped.delivered]

/-- The command of a call acts for the first time, after the call. -/
theorem Told.execute (told : deployment.Told wire print server)
    (piped : deployment.Piped wire print) (stepped : deployment.execute server = some later) :
    later.Told wire print server := by
  obtain ⟨⟨words, rest⟩, found, rfl⟩ := Option.map_eq_some_iff.mp stepped
  obtain ⟨submission, msg, asker, _, _, means, asks, asked⟩ := piped.read found
  have same : deployment.fleet.asked[deployment.done.length]?.join = asker := by
    rw [asks]
    rfl
  refine ⟨?_, fun number reply done => ?_, fun sender meant reply acted => ?_,
    fun sender request known addressed => List.mem_append_left _
      (told.made sender request known addressed), fun sender msg called => ?_⟩
  · cases asker with
    | none =>
        change Atomic _ _ _ (deployment.history ++ [_]) _
        rw [same]
        exact told.atomic.other words
    | some sender =>
        obtain ⟨request, known, rfl, addressed⟩ := asked sender rfl
        change Atomic _ _ _ (deployment.history ++ [_]) _
        rw [same]
        refine told.atomic.act (told.made sender request known addressed) means ?_
        intro other res member
        obtain ⟨number, before, earlier⟩ := told.actors sender other res member
        exact piped.joined.eq_of_asked before earlier asks
  · rcases Fleet.getElem?_append_cases done with old | ⟨index, rfl, new⟩
    · obtain ⟨meant, acted⟩ := told.acted number reply old
      exact ⟨meant, List.mem_append_left _ acted⟩
    · have last : index = 0 := by
        have short := (List.getElem?_eq_some_iff.mp new).1
        rw [List.length_singleton] at short
        exact Nat.lt_one_iff.mp short
      subst last
      cases new
      exact ⟨words, List.mem_append_right _ List.mem_cons_self⟩
  · rcases List.mem_append.mp acted with old | new
    · obtain ⟨number, before, earlier⟩ := told.actors sender meant reply old
      refine ⟨number, ?_, earlier⟩
      change number < (deployment.done ++ [_]).length
      rw [List.length_append]
      exact Nat.lt_add_right _ before
    · have actor := (Moment.effect.inj (List.mem_singleton.mp new)).1
      refine ⟨deployment.done.length, ?_, ?_⟩
      · change deployment.done.length < (deployment.done ++ [_]).length
        rw [List.length_append]
        exact Nat.lt_succ_self _
      · rw [actor, same]
        exact asks
  · rcases List.mem_append.mp called with old | new
    · exact told.known sender msg old
    · cases List.mem_singleton.mp new

/-- Somebody else acts on redis. -/
theorem Told.foreign (told : deployment.Told wire print server) (words : List Bytes) :
    (deployment.foreign server words).Told wire print server := by
  refine ⟨told.atomic.other words, fun number reply done => ?_,
    fun sender meant reply acted => ?_, fun sender request known addressed =>
      List.mem_append_left _ (told.made sender request known addressed),
    fun sender msg called => ?_⟩
  · obtain ⟨meant, acted⟩ := told.acted number reply done
    exact ⟨meant, List.mem_append_left _ acted⟩
  · rcases List.mem_append.mp acted with old | new
    · exact told.actors sender meant reply old
    · cases List.mem_singleton.mp new
  · rcases List.mem_append.mp called with old | new
    · exact told.known sender msg old
    · cases List.mem_singleton.mp new

end Redis

/-- The connection and the history together. -/
structure Sound (wire : FleetWire Payload) (print : Bytes → VaArg → Bytes)
    (server : Object Store (List Bytes) Reply) (deployment : Deployment Payload Store) : Prop where
  piped : deployment.Piped wire print
  told : deployment.Told wire print server

/-- A step of `redissvr`. -/
theorem Sound.serve (sound : deployment.Sound wire print server) {asker : Option Asker}
    {act : RedisAct} {taken : List Asker} (joined : next.Joined wire)
    (undisturbed : Undisturbed deployment.fleet.server act)
    (meant : ∀ head, act.head = some head → ∃ msg words, wire.Means print msg words ∧
      head.msg = (wire.req.parse msg).1 ∧ ∀ sender, asker = some sender → ∃ request,
        deployment.fleet.request sender = some request ∧ request.msg = msg ∧
          request.dstBusId = wire.svrId)
    (served : ({ deployment.fleet with taken } : Fleet Payload).serve wire asker act = some next)
    {replies : List Reply}
    (arrive : act.brought ++ replies.map Reply.object = deployment.replies.map Reply.object)
    {label : FleetAct Payload} (silent : moments wire deployment.fleet next label = []) :
    ({ deployment with replies }.advance wire label next : Deployment Payload Store).Sound wire
      print server := by
  obtain ⟨piped, grown, requests⟩ :=
    sound.piped.serve joined undisturbed meant served arrive label
  exact ⟨piped, sound.told.advance grown sound.piped.done_le_asked silent requests replies⟩

/-- A step of the fleet without a reply of redis. -/
theorem Sound.fleet (sound : deployment.Sound wire print server) (faithful : wire.Faithful)
    {act : FleetAct Payload} (ordinary : act.isReply = false)
    (calm : Fleet.Calm wire deployment.fleet act)
    (spoken : deployment.fleet.Spoken wire print act)
    (stepped : deployment.fleet.step wire act = some next) :
    (deployment.advance wire act next).Sound wire print server := by
  have joined : next.Joined wire := sound.piped.joined.step calm stepped
  cases act with
  | client process act =>
      obtain ⟨grown, server, _⟩ := Fleet.client_frame sound.piped.joined stepped
      exact ⟨sound.piped.still joined grown server _,
        sound.told.client sound.piped faithful joined stepped⟩
  | arrive asker accepted now ptr =>
      obtain ⟨request, known, arrived⟩ := Option.bind_eq_some_iff.mp stepped
      obtain ⟨⟨addressed, _⟩, served⟩ := Option.ite_none_right_eq_some.mp arrived
      refine sound.serve joined (calm request known) ?_ served rfl rfl
      rintro head ⟨⟩
      obtain ⟨words, means⟩ := spoken request known
      refine ⟨request.msg, words, means, rfl, ?_⟩
      rintro sender ⟨⟩
      exact ⟨request, known, rfl, addressed⟩
  | server act =>
      have quiet : act.brought = [] := by
        cases act with
        | getCallback reply => cases ordinary
        | _ => rfl
      have served : ({ deployment.fleet with taken := deployment.fleet.taken } :
          Fleet Payload).serve wire none act = some next := stepped
      refine sound.serve joined calm ?_ served ?_ rfl
      · intro head same
        cases act with
        | onMsg msgHead accepted now ptr =>
            cases same
            obtain ⟨msg, words, means, parsed⟩ := spoken
            exact ⟨msg, words, means, parsed, fun sender named => by cases named⟩
        | _ => cases same
      · rw [quiet, List.nil_append]
  | carry place =>
      obtain ⟨grown, server, requests⟩ := Fleet.carry_frame stepped
      exact ⟨sound.piped.still joined grown server _,
        sound.told.advance grown sound.piped.done_le_asked rfl requests deployment.replies⟩

theorem Sound.answer (sound : deployment.Sound wire print server)
    (undisturbed : ∀ reply, deployment.replies.head? = some reply →
      Undisturbed deployment.fleet.server (.getCallback reply.object))
    (stepped : deployment.answer wire = some later) : later.Sound wire print server := by
  unfold Deployment.answer at stepped
  split at stepped
  · cases stepped
  · rename_i reply replies arrived
    obtain ⟨next, served, rfl⟩ := Option.map_eq_some_iff.mp stepped
    have calm := undisturbed reply (by rw [arrived]; rfl)
    have moved : deployment.fleet.step wire (.server (.getCallback reply.object)) = some next :=
      served
    have quiet : Fleet.Calm wire deployment.fleet (.server (.getCallback reply.object)) := calm
    have joined : next.Joined wire := sound.piped.joined.step quiet moved
    have served : ({ deployment.fleet with taken := deployment.fleet.taken } :
        Fleet Payload).serve wire none (.getCallback reply.object) = some next := moved
    refine sound.serve joined calm ?_ served ?_ rfl
    · rintro head ⟨⟩
    · rw [arrived]
      rfl

/-- An orderly step keeps the connection and the history. -/
theorem Sound.step (sound : deployment.Sound wire print server) (faithful : wire.Faithful)
    {act : DeployAct Payload} (orderly : deployment.Orderly wire print act)
    (stepped : deployment.step wire server act = some later) :
    later.Sound wire print server := by
  cases act with
  | fleet act =>
      obtain ⟨ordinary, moved⟩ := Option.ite_none_left_eq_some.mp stepped
      obtain ⟨next, taken, rfl⟩ := Option.map_eq_some_iff.mp moved
      exact sound.fleet faithful (Bool.eq_false_of_not_eq_true ordinary) orderly.1 orderly.2 taken
  | execute => exact ⟨sound.piped.execute stepped, sound.told.execute sound.piped stepped⟩
  | foreign words =>
      cases stepped
      have piped := sound.piped
      exact ⟨⟨piped.joined, piped.numbered, piped.spoken, piped.within, piped.stream,
        piped.delivered⟩, sound.told.foreign words⟩
  | answer => exact sound.answer orderly stepped

end Deployment

/-- Redis is linearizable for the processes in every orderly run of the deployment. -/
theorem redis_linearizable {Payload Store : Type} {wire : FleetWire Payload}
    (faithful : wire.Faithful) (print : Bytes → VaArg → Bytes)
    (server : Object Store (List Bytes) Reply) :
    (deployMachine wire server).Always (Deployment.Orderly wire print) fun deployment =>
      Linearizable server (wire.Means print) Reply.shown deployment.history deployment.store := by
  have kept : ∀ deployment act later, deployment.Sound wire print server →
      deployment.Orderly wire print act →
      (deployMachine wire server).step deployment act = some later →
      later.Sound wire print server :=
    fun deployment act later sound orderly stepped => sound.step faithful orderly stepped
  exact Machine.always_of_invariant _ ⟨Deployment.Piped.start, Deployment.Told.start⟩ kept
    fun deployment sound => sound.told.atomic.linearizable

/-- A store that counts its commands. -/
def countingRedis : Object Nat (List Bytes) Reply where
  start := 0
  step count _ := (count + 1, .string (Resp.decimal count))

/-- A process sends `PING`, somebody else is faster, and the reply comes back. -/
def overtakenRun : List (DeployAct (RedisCmdReq ⊕ RedisCmdRsp)) :=
  [.fleet (.client [1] (.registerCmd 1 1)),
    .fleet (.client [1] (.receive ⟨1, 0, 0, [2], [1], .inl ⟨[], []⟩⟩
      (.sendMsgRpc ⟨[9], redisCmdReq, .inl (RedisActuator.redisCommandArgv [[80]]), 0⟩ 0 1))),
    .fleet (.server (.setState .connected)), .fleet (.arrive ⟨[1], 0⟩ true 0 1), .foreign [[81]],
    .execute, .answer, .fleet (.carry 0), .fleet (.client [1] (.deliver 0 .finish))]

/-- The request is one of `redisCommandArgv`. -/
def isArgv (msg : RedisCmdReq ⊕ RedisCmdRsp) : Bool :=
  msg.elim (fun req => req.formattedCmd.isEmpty) fun _ => false

theorem means_of_isArgv {msg : RedisCmdReq ⊕ RedisCmdRsp} (argv : isArgv msg = true)
    (print : Bytes → VaArg → Bytes) : ∃ words, openWire.Means print msg words := by
  cases msg with
  | inl req =>
      have same : req = RedisActuator.redisCommandArgv req.cmdArgv :=
        congrArg (RedisCmdReq.mk req.cmdArgv) (List.isEmpty_iff.mp argv)
      exact ⟨req.cmdArgv, req, rfl, same ▸ .argv req.cmdArgv, rfl⟩
  | inr rsp => cases argv

/-- The orderly steps in which all requests are those of `redisCommandArgv`. -/
def Deployment.ArgvOnly (deployment : Deployment (RedisCmdReq ⊕ RedisCmdRsp) Nat) :
    DeployAct (RedisCmdReq ⊕ RedisCmdRsp) → Prop
  | .fleet (.client process act) => Fleet.Calm openWire deployment.fleet (.client process act)
  | .fleet (.arrive asker accepted now ptr) =>
      Fleet.Calm openWire deployment.fleet (.arrive asker accepted now ptr) ∧
        ∀ request ∈ deployment.fleet.request asker, isArgv request.msg = true
  | .fleet (.server act) =>
      Fleet.Calm openWire deployment.fleet (.server act) ∧ act.head.isNone = true
  | .answer => ∀ reply ∈ deployment.replies.head?,
      Undisturbed deployment.fleet.server (.getCallback reply.object)
  | _ => True

instance (deployment : Deployment (RedisCmdReq ⊕ RedisCmdRsp) Nat) :
    DecidablePred deployment.ArgvOnly
  | .fleet (.client process act) => inferInstanceAs
      (Decidable (Fleet.Calm openWire deployment.fleet (.client process act)))
  | .fleet (.arrive asker accepted now ptr) => inferInstanceAs (Decidable
      (Fleet.Calm openWire deployment.fleet (.arrive asker accepted now ptr) ∧
        ∀ request ∈ deployment.fleet.request asker, isArgv request.msg = true))
  | .fleet (.server act) => inferInstanceAs (Decidable
      (Fleet.Calm openWire deployment.fleet (.server act) ∧ act.head.isNone = true))
  | .fleet (.carry _) => isTrue trivial
  | .execute => isTrue trivial
  | .foreign _ => isTrue trivial
  | .answer => inferInstanceAs (Decidable (∀ reply ∈ deployment.replies.head?,
      Undisturbed deployment.fleet.server (.getCallback reply.object)))

theorem Deployment.ArgvOnly.orderly {deployment : Deployment (RedisCmdReq ⊕ RedisCmdRsp) Nat}
    {act : DeployAct (RedisCmdReq ⊕ RedisCmdRsp)} (argvOnly : deployment.ArgvOnly act)
    (print : Bytes → VaArg → Bytes) : deployment.Orderly openWire print act := by
  cases act with
  | fleet act =>
      cases act with
      | client process act => exact ⟨argvOnly, trivial⟩
      | arrive asker accepted now ptr =>
          exact ⟨argvOnly.1, fun request known => means_of_isArgv (argvOnly.2 request known) print⟩
      | server act =>
          refine ⟨argvOnly.1, ?_⟩
          cases act with
          | onMsg head accepted now ptr => cases argvOnly.2
          | _ => trivial
      | carry place => exact ⟨trivial, trivial⟩
  | answer => exact argvOnly
  | _ => trivial

theorem redis_linearizable_counting : ∃ last,
    (deployMachine openWire countingRedis).run (deployMachine openWire countingRedis).start
      overtakenRun = some last ∧
      last.history.filterMap Moment.operation = [[[81]], [[80]]] ∧ last.history.length = 4 ∧
        Linearizable countingRedis (openWire.Means fun _ _ => []) Reply.shown last.history
          last.store := by
  have reached : ((deployMachine openWire countingRedis).run
      (deployMachine openWire countingRedis).start overtakenRun).any (fun last =>
        decide (last.history.filterMap Moment.operation = [[[81]], [[80]]] ∧
          last.history.length = 4)) = true := by
    rw [deployMachine, Deployment.start, Fleet.start, RedisRun.start_eq]
    decide +kernel
  have argvOnly : (deployMachine openWire countingRedis).Meets Deployment.ArgvOnly
      (deployMachine openWire countingRedis).start overtakenRun := by
    rw [deployMachine, Deployment.start, Fleet.start, RedisRun.start_eq]
    decide +kernel
  have met := argvOnly.mono fun _ _ argvOnly => argvOnly.orderly fun _ _ => []
  have faithful : openWire.Faithful := by
    rintro rsp parsed ⟨⟩
    rfl
  obtain ⟨last, reached, checked⟩ := Machine.exists_of_check _ reached
  obtain ⟨operations, moments⟩ := of_decide_eq_true checked
  exact ⟨last, reached, operations, moments,
    redis_linearizable faithful (fun _ _ => []) countingRedis overtakenRun last reached met⟩

end QServer
