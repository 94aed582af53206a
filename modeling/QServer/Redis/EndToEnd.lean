import Mathlib.Data.List.ReduceOption
import QServer.Redis.Fleet

/-
This file proves that every call of every process gets the reply of redis to its own command.
-/

namespace QServer
open Transition Wire CoTask SvrCommTrans

variable {Payload : Type}

/-- A call that returns normally brings a good message. -/
def CoEvent.Brings (good : Packet Payload → Prop) : CoEvent SharedTrans (Packet Payload) → Prop
  | .returned _ _ ret _ msg => ret = 0 → ∀ packet ∈ msg, good packet
  | _ => True

theorem CoEvent.Brings.mono {good better : Packet Payload → Prop}
    {event : CoEvent SharedTrans (Packet Payload)} (brings : event.Brings good)
    (implies : ∀ packet, good packet → better packet) : event.Brings better := by
  cases event with
  | returned coId call ret wake msg =>
      exact fun normal packet member => implies packet (brings normal packet member)
  | _ => trivial

namespace RpcRun

variable {run next : RpcRun Payload} {selfId : Bytes} {good : Packet Payload → Prop}

/-- What a step adds to a process whose messages are good. -/
structure Advances (run : RpcRun Payload) (selfId : Bytes) (good : Packet Payload → Prop)
    (act : RpcAct Payload) (next : RpcRun Payload) : Prop where
  sent : ∃ more, next.sent = run.sent ++ more ∧ ∀ request ∈ more, request.srcBusId = selfId
  trace : ∃ events, next.trace = run.trace ++ events ∧ ∀ event ∈ events, event.Brings good
  network : ∀ packet ∈ next.network, packet ∈ run.network ∨
    ∃ number msg, act = .answer number msg ∧ packet.origin = some number ∧
      ∃ request, run.sent[number]? = some request

/-- A request names its process as the source. -/
theorem srcBusId_of_request {deed : Deed Payload} {event : CoEvent SharedTrans (Packet Payload)}
    {request : MsgHead Payload} (made : deed.request selfId event = some request) :
    request.srcBusId = selfId := by
  cases event with
  | yielded coId call =>
      cases deed with
      | sendMsgRpc rpc now ptr =>
          cases made
          rfl
      | finish => cases made
  | _ => cases made

theorem advances_serve (resting : run.mgr.coTask.Resting) {deed : Deed Payload}
    {act : TransAct (Packet Payload)} {rpcAct : RpcAct Payload}
    (own : ∀ msg segment, act = .onMsg msg segment → good msg.data)
    (served : run.serve selfId deed act = some next) :
    run.Advances selfId good rpcAct next := by
  obtain ⟨outcome, stepped, rfl⟩ := Option.map_eq_some_iff.mp served
  refine ⟨⟨_, rfl, fun request member => ?_⟩, ⟨outcome.events, rfl, ?_⟩,
    fun packet member => Or.inl member⟩
  · obtain ⟨event, _, made⟩ := List.mem_filterMap.mp member
    exact srcBusId_of_request made
  · have quiet : ∀ {coId segment later last},
        Left run.mgr.coTask coId segment later last → last.Brings good := by
      intro coId segment later last left
      cases left <;> trivial
    obtain ⟨_, switched⟩ := TransMgr.step_switched resting stepped
    cases switched with
    | quiet events waits yields => simp [events]
    | started fresh events left =>
        rw [events]
        exact List.forall_mem_cons.mpr ⟨trivial, List.forall_mem_singleton.mpr (quiet left)⟩
    | answered named waiting events left =>
        rw [events]
        refine List.forall_mem_cons.mpr ⟨fun _ packet same => ?_,
          List.forall_mem_singleton.mpr (quiet left)⟩
        cases same
        exact own _ _ rfl
    | timedOut waiting events left =>
        rw [events]
        refine List.forall_mem_cons.mpr ⟨fun normal => ?_,
          List.forall_mem_singleton.mpr (quiet left)⟩
        cases normal

theorem advances (resting : run.mgr.coTask.Resting) (inFlight : ∀ packet ∈ run.network, good packet)
    (direct : ∀ head, good ⟨head, none⟩) {act : RpcAct Payload}
    (stepped : run.step selfId act = some next) : run.Advances selfId good act next := by
  have still : ∀ {act : TransAct (Packet Payload)}, (∀ msg segment, act ≠ .onMsg msg segment) →
      ∀ msg segment, act = .onMsg msg segment → good msg.data :=
    fun other msg segment same => absurd same (other msg segment)
  cases act with
  | registerCmd cmd count => exact advances_serve resting (still (by rintro _ _ ⟨⟩)) stepped
  | receive head deed =>
      refine advances_serve resting ?_ stepped
      rintro msg segment ⟨⟩
      exact direct head
  | answer number msg =>
      obtain ⟨_, answered⟩ := Option.ite_none_left_eq_some.mp stepped
      obtain ⟨request, known, rfl⟩ := Option.map_eq_some_iff.mp answered
      refine ⟨⟨[], by simp, by simp⟩, ⟨[], by simp, by simp⟩, fun packet member => ?_⟩
      rcases List.mem_append.mp member with old | new
      · exact Or.inl old
      · rw [List.mem_singleton.mp new]
        exact Or.inr ⟨number, msg, rfl, rfl, request, known⟩
  | deliver place deed =>
      obtain ⟨packet, found, served⟩ := Option.bind_eq_some_iff.mp stepped
      have moved : (run.take place).Advances selfId good (.deliver place deed) next := by
        have taken : (run.take place).mgr.coTask.Resting := resting
        refine RpcRun.advances_serve taken ?_ served
        rintro msg segment ⟨⟩
        exact inFlight packet (List.mem_of_getElem? found)
      refine ⟨moved.sent, moved.trace, fun packet member => ?_⟩
      rcases moved.network packet member with old | ⟨number, msg, same, _⟩
      · exact Or.inl (List.mem_of_mem_eraseIdx old)
      · cases same
  | drop place =>
      cases stepped
      exact ⟨⟨[], by simp [take], by simp⟩, ⟨[], by simp [take], by simp⟩,
        fun packet member => Or.inl (List.mem_of_mem_eraseIdx member)⟩
  | tickTimeOutCo now => exact advances_serve resting (still (by rintro _ _ ⟨⟩)) stepped
  | proceed deed => exact advances_serve resting (still (by rintro _ _ ⟨⟩)) stepped

end RpcRun

namespace Fleet

variable {wire : FleetWire Payload} {fleet next : Fleet Payload}

/-- A reply to a request for `redissvr` is the response to this request. -/
def Sourced (wire : FleetWire Payload) (fleet : Fleet Payload) (process : Bytes)
    (packet : Packet Payload) : Prop :=
  ∀ number, packet.origin = some number →
    ∃ request, fleet.request ⟨process, number⟩ = some request ∧
      (request.dstBusId = wire.svrId → ∃ (place : Nat) (response : Response),
        fleet.server.responses[place]? = some response ∧
          fleet.answers[place]? = some (some ⟨process, number⟩) ∧
          packet.head = response.head.map wire.rsp.serialize)

/-- The later fleet remembers all requests, responses and their askers. -/
structure Extends (fleet next : Fleet Payload) : Prop where
  requests : ∀ asker request, fleet.request asker = some request →
    next.request asker = some request
  submissions : fleet.server.submissions <+: next.server.submissions
  responses : fleet.server.responses <+: next.server.responses
  asked : fleet.asked <+: next.asked
  answers : fleet.answers <+: next.answers

theorem getElem?_of_prefix {Item : Type} {first later : List Item} {place : Nat} {item : Item}
    (grown : first <+: later) (found : first[place]? = some item) : later[place]? = some item := by
  obtain ⟨more, rfl⟩ := grown
  exact getElem?_append_some found more

theorem Sourced.later {process : Bytes} {packet : Packet Payload}
    (sourced : fleet.Sourced wire process packet) (grown : fleet.Extends next) :
    next.Sourced wire process packet := by
  intro number origin
  obtain ⟨request, known, responded⟩ := sourced number origin
  refine ⟨request, grown.requests _ request known, fun addressed => ?_⟩
  obtain ⟨place, response, found, answers, same⟩ := responded addressed
  exact ⟨place, response, getElem?_of_prefix grown.responses found,
    getElem?_of_prefix grown.answers answers, same⟩

/-- The command with the number is the command of the request. -/
def Asks (wire : FleetWire Payload) (fleet : Fleet Payload) (number : Nat) (asker : Asker) :
    Prop :=
  ∃ request submission, fleet.request asker = some request ∧
    fleet.server.submissions[number]? = some submission ∧
    submission.head = received wire request

/-- The response at the place is a reply to the request. -/
def Answers (fleet : Fleet Payload) (place : Nat) (asker : Asker) : Prop :=
  ∃ request response, fleet.request asker = some request ∧
    fleet.server.responses[place]? = some response ∧
    response.head = reply request response.head.msg

theorem Asks.later {number : Nat} {asker : Asker} (asks : fleet.Asks wire number asker)
    (grown : fleet.Extends next) : next.Asks wire number asker := by
  obtain ⟨request, submission, known, found, same⟩ := asks
  exact ⟨request, submission, grown.requests asker request known,
    getElem?_of_prefix grown.submissions found, same⟩

theorem Answers.later {place : Nat} {asker : Asker} (answers : fleet.Answers place asker)
    (grown : fleet.Extends next) : next.Answers place asker := by
  obtain ⟨request, response, known, found, same⟩ := answers
  exact ⟨request, response, grown.requests asker request known,
    getElem?_of_prefix grown.responses found, same⟩

/-- Each side keeps its own invariant, and the messages between them are those of the requests that
they name. -/
structure Joined (wire : FleetWire Payload) (fleet : Fleet Payload) : Prop where
  matched : ∀ process, (fleet.client process).Matched
  named : ∀ process, ∀ request ∈ (fleet.client process).sent, request.srcBusId = process
  owned : fleet.server.Owned
  counted : fleet.asked.length = fleet.server.submissions.length
  submitted : ∀ number asker, fleet.asked[number]? = some (some asker) →
    fleet.Asks wire number asker
  tallied : fleet.answers.length = fleet.server.responses.length
  responded : ∀ place asker, fleet.answers[place]? = some (some asker) →
    fleet.Answers place asker
  linked : ∀ (place : Nat) response, fleet.server.responses[place]? = some response →
    ∀ number, response.number = some number →
      ∃ asker, fleet.asked[number]? = some asker ∧ fleet.answers[place]? = some asker
  inFlight : ∀ process, ∀ packet ∈ (fleet.client process).network,
    fleet.Sourced wire process packet
  delivered : ∀ process, ∀ event ∈ (fleet.client process).trace,
    event.Brings (fleet.Sourced wire process)
  single : fleet.taken.Nodup
  once : fleet.asked.reduceOption.Sublist fleet.taken

theorem Joined.start : (start : Fleet Payload).Joined wire := by
  refine ⟨fun _ => RpcRun.Matched.start, ?_, RedisRun.Owned.start, rfl, ?_, rfl, ?_, ?_, ?_, ?_,
    List.nodup_nil, List.Sublist.refl _⟩
  · rintro process request ⟨⟩
  · rintro number asker ⟨⟩
  · rintro place asker ⟨⟩
  · rintro place response ⟨⟩
  · rintro process packet ⟨⟩
  · rintro process event ⟨⟩

section Client

variable {process : Bytes} {run : RpcRun Payload}

/-- The requests of the processes grow with those of one of them. -/
theorem extends_client {more : List (MsgHead Payload)} {carried : Finset Nat}
    (sent : run.sent = (fleet.client process).sent ++ more) :
    fleet.Extends
      { fleet with client := Function.update fleet.client process run, carried } := by
  refine ⟨fun asker request known => ?_, List.prefix_rfl, List.prefix_rfl, List.prefix_rfl,
    List.prefix_rfl⟩
  obtain ⟨other, number⟩ := asker
  change (Function.update fleet.client process run other).sent[number]? = some request
  by_cases here : other = process
  · subst here
    rw [Function.update_self, sent]
    exact getElem?_append_some known more
  · rw [Function.update_of_ne here]
    exact known

/-- A process moves on, and what it has and what it has got is sourced. -/
theorem Joined.client (joined : fleet.Joined wire) {carried : Finset Nat}
    {more : List (MsgHead Payload)} (matched : run.Matched)
    (sent : run.sent = (fleet.client process).sent ++ more)
    (named : ∀ request ∈ more, request.srcBusId = process)
    (inFlight : ∀ packet ∈ run.network, Sourced wire
      { fleet with client := Function.update fleet.client process run, carried } process packet)
    (delivered : ∀ event ∈ run.trace, event.Brings (Sourced wire
      { fleet with client := Function.update fleet.client process run, carried } process)) :
    Joined wire
      { fleet with client := Function.update fleet.client process run, carried } := by
  have grown : fleet.Extends
      { fleet with client := Function.update fleet.client process run, carried } :=
    extends_client sent
  have both : ∀ property : Bytes → RpcRun Payload → Prop, property process run →
      (∀ other, property other (fleet.client other)) →
      ∀ other, property other (Function.update fleet.client process run other) := by
    intro property here elsewhere other
    by_cases same : other = process
    · subst same
      rwa [Function.update_self]
    · rw [Function.update_of_ne same]
      exact elsewhere other
  refine ⟨both (fun _ client => client.Matched) matched joined.matched, ?_, joined.owned, joined.counted, ?_, joined.tallied, ?_,
    joined.linked, ?_, ?_, joined.single, joined.once⟩
  · refine both (fun other client => ∀ request ∈ client.sent, request.srcBusId = other) ?_
      joined.named
    intro request member
    rw [sent] at member
    rcases List.mem_append.mp member with old | new
    · exact joined.named process request old
    · exact named request new
  · exact fun number asker known => (joined.submitted number asker known).later grown
  · exact fun place asker known => (joined.responded place asker known).later grown
  · exact both (fun other client => ∀ packet ∈ client.network, Sourced wire _ other packet)
      inFlight fun other packet member => (joined.inFlight other packet member).later grown
  · exact both (fun other client => ∀ event ∈ client.trace, event.Brings (Sourced wire _ other))
      delivered fun other event member =>
        (joined.delivered other event member).mono fun _ sourced => sourced.later grown

end Client

section Server

variable {server : RedisRun} {asker : Option Asker} {head : Option (MsgHead RedisCmdReq)}
  {submissions : List Submission} {responses : List Response}

/-- An entry of a longer list is an old one or one of the new ones. -/
theorem getElem?_append_cases {Item : Type} {first more : List Item} {place : Nat} {item : Item}
    (found : (first ++ more)[place]? = some item) :
    first[place]? = some item ∨ ∃ index, place = first.length + index ∧ more[index]? = some item := by
  by_cases inside : place < first.length
  · rw [List.getElem?_append_left inside] at found
    exact Or.inl found
  · rw [List.getElem?_append_right (not_lt.mp inside)] at found
    exact Or.inr ⟨place - first.length, by omega, found⟩

theorem getElem?_append_add {Item : Type} (first more : List Item) (index : Nat) :
    (first ++ more)[first.length + index]? = more[index]? := by
  rw [List.getElem?_append_right (Nat.le_add_right _ _), Nat.add_sub_cancel_left]

theorem record_asked (submitted : server.submissions = fleet.server.submissions ++ submissions) :
    (fleet.record asker server).asked = fleet.asked ++ submissions.map fun _ => asker := by
  simp only [record, submitted, List.drop_left]

theorem record_answers (responded : server.responses = fleet.server.responses ++ responses) :
    (fleet.record asker server).answers = fleet.answers ++
      responses.map (answered (fleet.record asker server).asked asker) := by
  simp only [record, responded, List.drop_left]

theorem extends_record (submitted : server.submissions = fleet.server.submissions ++ submissions)
    (responded : server.responses = fleet.server.responses ++ responses) :
    fleet.Extends (fleet.record asker server) :=
  ⟨fun _ _ known => known, ⟨_, submitted.symm⟩, ⟨_, responded.symm⟩, List.prefix_append _ _,
    List.prefix_append _ _⟩

/-- A new command is the command of the message of the step. -/
theorem Joined.asks_record (joined : fleet.Joined wire)
    (adds : fleet.server.Adds head submissions responses)
    (submitted : server.submissions = fleet.server.submissions ++ submissions)
    (responded : server.responses = fleet.server.responses ++ responses)
    (own : ∀ msgHead, head = some msgHead → ∀ sender, asker = some sender →
      ∃ request, fleet.request sender = some request ∧ msgHead = received wire request)
    {number : Nat} {sender : Asker}
    (known : (fleet.record asker server).asked[number]? = some (some sender)) :
    (fleet.record asker server).Asks wire number sender := by
  rw [record_asked submitted] at known
  rcases getElem?_append_cases known with old | ⟨index, rfl, new⟩
  · exact (joined.submitted number sender old).later (extends_record submitted responded)
  · rw [List.getElem?_map, Option.map_eq_some_iff] at new
    obtain ⟨submission, found, asks⟩ := new
    have there : server.submissions[fleet.asked.length + index]? = some submission := by
      rw [submitted, joined.counted, getElem?_append_add]
      exact found
    cases adds with
    | nothing => cases found
    | submission coId same =>
        obtain ⟨request, made, rfl⟩ := own _ same sender asks
        cases List.mem_singleton.mp (List.mem_of_getElem? found)
        exact ⟨request, _, made, there, rfl⟩
    | refusal rsp same => cases found
    | response rsp submits => cases found

/-- A new response is a reply to the message of the step, or to that of an earlier command. -/
theorem Joined.answers_record (joined : fleet.Joined wire)
    (adds : fleet.server.Adds head submissions responses)
    (submitted : server.submissions = fleet.server.submissions ++ submissions)
    (responded : server.responses = fleet.server.responses ++ responses)
    (own : ∀ msgHead, head = some msgHead → ∀ sender, asker = some sender →
      ∃ request, fleet.request sender = some request ∧ msgHead = received wire request)
    {place : Nat} {sender : Asker}
    (known : (fleet.record asker server).answers[place]? = some (some sender)) :
    (fleet.record asker server).Answers place sender := by
  rw [record_answers responded] at known
  rcases getElem?_append_cases known with old | ⟨index, rfl, new⟩
  · exact (joined.responded place sender old).later (extends_record submitted responded)
  · rw [List.getElem?_map, Option.map_eq_some_iff] at new
    obtain ⟨response, found, answers⟩ := new
    have there : server.responses[fleet.answers.length + index]? = some response := by
      rw [responded, joined.tallied, getElem?_append_add]
      exact found
    cases adds with
    | nothing => cases found
    | submission coId same => cases found
    | refusal rsp same =>
        cases List.mem_singleton.mp (List.mem_of_getElem? found)
        obtain ⟨request, made, rfl⟩ := own _ same sender answers
        exact ⟨request, _, made, there, rfl⟩
    | response rsp submits =>
        cases List.mem_singleton.mp (List.mem_of_getElem? found)
        have asks := Option.join_eq_some_iff.mp answers
        rw [record_asked submitted, List.map_nil, List.append_nil] at asks
        obtain ⟨request, other, made, same, received⟩ := joined.submitted _ sender asks
        cases same.symm.trans submits
        exact ⟨request, _, made, there, by rw [received]; rfl⟩

/-- A response with a number goes where its command came from. -/
theorem Joined.linked_record (joined : fleet.Joined wire)
    (adds : fleet.server.Adds head submissions responses)
    (submitted : server.submissions = fleet.server.submissions ++ submissions)
    (responded : server.responses = fleet.server.responses ++ responses) {place : Nat}
    {response : Response} (found : server.responses[place]? = some response) {number : Nat}
    (numbered : response.number = some number) :
    ∃ sender, (fleet.record asker server).asked[number]? = some sender ∧
      (fleet.record asker server).answers[place]? = some sender := by
  have grown : fleet.Extends (fleet.record asker server) := extends_record submitted responded
  rw [responded] at found
  rcases getElem?_append_cases found with old | ⟨index, rfl, new⟩
  · obtain ⟨sender, asks, answers⟩ := joined.linked place response old number numbered
    exact ⟨sender, getElem?_of_prefix grown.asked asks, getElem?_of_prefix grown.answers answers⟩
  · have submits : ∃ submission, fleet.server.submissions[number]? = some submission := by
      cases adds with
      | nothing => cases new
      | submission coId same => cases new
      | refusal rsp same =>
          cases List.mem_singleton.mp (List.mem_of_getElem? new)
          cases numbered
      | response rsp submits =>
          cases List.mem_singleton.mp (List.mem_of_getElem? new)
          cases numbered
          exact ⟨_, submits⟩
    obtain ⟨submission, submits⟩ := submits
    have within : number < fleet.asked.length := by
      rw [joined.counted]
      exact (List.getElem?_eq_some_iff.mp submits).1
    have asks := getElem?_of_prefix grown.asked (List.getElem?_eq_getElem within)
    refine ⟨fleet.asked[number], asks, ?_⟩
    rw [record_answers responded, ← joined.tallied, getElem?_append_add, List.getElem?_map, new,
      Option.map_some, answered, numbered, Option.elim_some, asks, Option.join_some]

/-- A step of the server keeps the two sides joined when its message is the request of its asker. -/
theorem Joined.record (joined : fleet.Joined wire) (owned : server.Owned)
    (adds : fleet.server.Adds head submissions responses)
    (submitted : server.submissions = fleet.server.submissions ++ submissions)
    (responded : server.responses = fleet.server.responses ++ responses)
    (own : ∀ msgHead, head = some msgHead → ∀ sender, asker = some sender →
      ∃ request, fleet.request sender = some request ∧ msgHead = received wire request)
    (once : (fleet.asked ++ submissions.map fun _ => asker).reduceOption.Sublist fleet.taken) :
    (fleet.record asker server).Joined wire := by
  have grown : fleet.Extends (fleet.record asker server) := extends_record submitted responded
  refine ⟨joined.matched, joined.named, owned, ?_,
    fun _ _ known => joined.asks_record adds submitted responded own known, ?_,
    fun _ _ known => joined.answers_record adds submitted responded own known,
    fun _ _ found _ numbered => joined.linked_record adds submitted responded found numbered,
    fun process packet member => (joined.inFlight process packet member).later grown,
    fun process event member => ?_, joined.single, ?_⟩
  · rw [record_asked submitted]
    change _ = server.submissions.length
    simp [submitted, joined.counted]
  · rw [record_answers responded]
    change _ = server.responses.length
    simp [responded, joined.tallied]
  · exact (joined.delivered process event member).mono fun _ sourced => sourced.later grown
  · rw [record_asked submitted]
    exact once

end Server

/-- The replies of the processes are punctual, and no step disturbs the server. -/
def Calm (wire : FleetWire Payload) (fleet : Fleet Payload) : FleetAct Payload → Prop
  | .client process act => Punctual (fleet.client process) act
  | .arrive asker accepted now ptr => ∀ request, fleet.request asker = some request →
      Undisturbed fleet.server (arrival wire request accepted now ptr)
  | .server act => Undisturbed fleet.server act
  | .carry _ => True

instance (wire : FleetWire Payload) (fleet : Fleet Payload) : DecidablePred (fleet.Calm wire)
  | .client process act => inferInstanceAs (Decidable (Punctual (fleet.client process) act))
  | .arrive asker accepted now ptr => inferInstanceAs (Decidable (∀ request ∈ fleet.request asker,
      Undisturbed fleet.server (arrival wire request accepted now ptr)))
  | .server act => inferInstanceAs (Decidable (Undisturbed fleet.server act))
  | .carry _ => isTrue trivial

theorem Joined.step_client (joined : fleet.Joined wire) {process : Bytes} {act : RpcAct Payload}
    (punctual : Punctual (fleet.client process) act)
    (stepped : fleet.step wire (.client process act) = some next) : next.Joined wire := by
  obtain ⟨foreign, moved⟩ := Option.ite_none_right_eq_some.mp stepped
  obtain ⟨run, advanced, rfl⟩ := Option.map_eq_some_iff.mp moved
  have matched := (joined.matched process).step punctual advanced
  have direct : ∀ head, fleet.Sourced wire process ⟨head, none⟩ := by
    rintro head number ⟨⟩
  have advances := RpcRun.advances (joined.matched process).resting (joined.inFlight process)
    direct advanced
  obtain ⟨more, sent, named⟩ := advances.sent
  obtain ⟨events, trace, brings⟩ := advances.trace
  have grown : fleet.Extends { fleet with client := Function.update fleet.client process run } :=
    extends_client sent
  refine joined.client matched sent named (fun packet member => ?_) fun event member => ?_
  · rcases advances.network packet member with old | ⟨number, msg, rfl, origin, request, known⟩
    · exact (joined.inFlight process packet old).later grown
    · have elsewhere : request.dstBusId ≠ wire.svrId := by
        have checked : (fleet.request ⟨process, number⟩).all
          (fun request => request.dstBusId ≠ wire.svrId) = true := foreign
        have same : fleet.request ⟨process, number⟩ = some request := known
        rw [same, Option.all_some] at checked
        exact of_decide_eq_true checked
      intro other named
      cases origin.symm.trans named
      exact ⟨request, grown.requests ⟨process, number⟩ request known, fun addressed =>
        absurd addressed elsewhere⟩
  · rw [trace] at member
    rcases List.mem_append.mp member with old | new
    · exact (joined.delivered process event old).mono fun _ sourced => sourced.later grown
    · exact (brings event new).mono fun _ sourced => sourced.later grown

theorem Joined.step_server (joined : fleet.Joined wire) {act : RedisAct}
    (undisturbed : Undisturbed fleet.server act)
    (stepped : fleet.serve wire none act = some next) : next.Joined wire := by
  obtain ⟨server, moved, rfl⟩ := Option.map_eq_some_iff.mp stepped
  obtain ⟨submissions, responses, adds, submitted, responded⟩ :=
    RedisRun.grows joined.owned.resting moved
  refine joined.record (joined.owned.step undisturbed moved) adds submitted responded ?_ ?_
  · rintro msgHead _ sender ⟨⟩
  · rw [List.reduceOption_append, List.map_const', List.reduceOption_replicate_none,
      List.append_nil]
    exact joined.once

theorem Joined.step_arrive (joined : fleet.Joined wire) {asker : Asker} {accepted : Bool}
    {now : Time} {ptr : Addr}
    (undisturbed : ∀ request, fleet.request asker = some request →
      Undisturbed fleet.server (arrival wire request accepted now ptr))
    (stepped : fleet.arrive wire asker accepted now ptr = some next) : next.Joined wire := by
  obtain ⟨request, known, arrived⟩ := Option.bind_eq_some_iff.mp stepped
  obtain ⟨⟨_, fresh⟩, served⟩ := Option.ite_none_right_eq_some.mp arrived
  obtain ⟨server, moved, rfl⟩ := Option.map_eq_some_iff.mp served
  obtain ⟨submissions, responses, adds, submitted, responded⟩ :=
    RedisRun.grows joined.owned.resting moved
  let brought : Fleet Payload := { fleet with taken := fleet.taken ++ [asker] }
  have kept : brought.Joined wire :=
    ⟨joined.matched, joined.named, joined.owned, joined.counted, joined.submitted, joined.tallied,
      joined.responded, joined.linked, joined.inFlight, joined.delivered,
      List.nodup_append.mpr ⟨joined.single, List.nodup_singleton _, fun one member other only =>
        fun same => fresh (List.mem_singleton.mp only ▸ same ▸ member)⟩,
      joined.once.trans (List.sublist_append_left _ _)⟩
  refine kept.record (joined.owned.step (undisturbed request known) moved) adds submitted
    responded ?_ ?_
  · rintro msgHead same sender ⟨⟩
    exact ⟨request, known, (Option.some.inj same).symm⟩
  · rw [List.reduceOption_append]
    refine joined.once.append ?_
    cases adds <;> simp

theorem Joined.step_carry (joined : fleet.Joined wire) {place : Nat}
    (stepped : fleet.carry wire place = some next) : next.Joined wire := by
  obtain ⟨_, brought⟩ := Option.ite_none_left_eq_some.mp stepped
  obtain ⟨response, found, brought⟩ := Option.bind_eq_some_iff.mp brought
  obtain ⟨⟨process, number⟩, answers, rfl⟩ := Option.map_eq_some_iff.mp brought
  have answers := Option.join_eq_some_iff.mp answers
  obtain ⟨request, other, known, there, same⟩ := joined.responded place _ answers
  cases there.symm.trans found
  have addressed : response.head.dstBusId = process := by
    rw [same]
    exact joined.named process request (List.mem_of_getElem? known)
  rw [addressed]
  let client : RpcRun Payload := { fleet.client process with
    network := (fleet.client process).network ++ [packet wire response number] }
  have sent : client.sent = (fleet.client process).sent ++ [] := (List.append_nil _).symm
  have grown : fleet.Extends { fleet with
      client := Function.update fleet.client process client
      carried := insert place fleet.carried } := extends_client sent
  have before := joined.matched process
  refine joined.client ⟨before.resting, before.counted, before.sender, ?_, before.correlated⟩ sent
    (by simp) ?_ ?_
  · intro packet member
    rcases List.mem_append.mp member with old | new
    · exact before.replies packet old
    · rw [List.mem_singleton.mp new]
      refine ⟨number, rfl, request, wire.rsp.serialize response.head.msg, known, ?_⟩
      rw [Fleet.packet, same]
      rfl
  · intro packet member
    rcases List.mem_append.mp member with old | new
    · exact (joined.inFlight process packet old).later grown
    · rw [List.mem_singleton.mp new]
      rintro _ ⟨⟩
      exact ⟨request, grown.requests ⟨process, number⟩ request known, fun _ =>
        ⟨place, response, found, answers, rfl⟩⟩
  · intro event member
    exact (joined.delivered process event member).mono fun _ sourced => sourced.later grown

/-- A calm step keeps the fleet joined. -/
theorem Joined.step (joined : fleet.Joined wire) {act : FleetAct Payload}
    (calm : fleet.Calm wire act) (stepped : fleet.step wire act = some next) :
    next.Joined wire := by
  cases act with
  | client process act => exact joined.step_client calm stepped
  | arrive asker accepted now ptr => exact joined.step_arrive calm stepped
  | server act => exact joined.step_server calm stepped
  | carry place => exact joined.step_carry stepped

/-- The result is the response to the request, and its reply is that of redis. -/
def OwnReply (wire : FleetWire Payload) (fleet : Fleet Payload) (asker : Asker)
    (request : MsgHead Payload) (rsp : RedisCmdRsp) : Prop :=
  ∃ response ∈ fleet.server.responses, response.head = reply request response.head.msg ∧
    wire.rsp.read (wire.rsp.serialize response.head.msg) = some rsp ∧
    ∀ pb, response.head.msg.reply = some pb → ∃ number submission produced,
      fleet.asked[number]? = some (some asker) ∧
        fleet.server.submissions[number]? = some submission ∧
        submission.head = received wire request ∧ (number, produced) ∈ fleet.server.produced ∧
        pb = TransRedisCmd.replyToPb produced

/-- A remote call to `redissvr` that returns normally has the response to its own request. -/
def Served (wire : FleetWire Payload) (fleet : Fleet Payload) (process : Bytes) :
    CoEvent SharedTrans (Packet Payload) → Prop
  | .returned coId call ret _ msg =>
      ∀ rsp, sendMsgRpc wire.rsp.read ret (msg.map Packet.head) = .ok rsp →
        ∃ request, fleet.request ⟨process, call.number⟩ = some request ∧ request.srcCoId = coId ∧
          (request.dstBusId = wire.svrId →
            fleet.OwnReply wire ⟨process, call.number⟩ request rsp)
  | _ => True

theorem Joined.served (joined : fleet.Joined wire) {process : Bytes}
    {event : CoEvent SharedTrans (Packet Payload)} (member : event ∈ (fleet.client process).trace) :
    fleet.Served wire process event := by
  have correlated := (joined.matched process).correlated event member
  have brings := joined.delivered process event member
  cases event with
  | returned coId call ret wake msg =>
      intro rsp returned
      obtain ⟨normal, _⟩ := sendMsgRpc_ok.mp returned
      obtain ⟨packet, delivered, parsed, ⟨origin, _⟩, request, known, sender⟩ :=
        correlated RedisCmdRsp wire.rsp.read rsp returned
      refine ⟨request, known, sender, fun addressed => ?_⟩
      obtain ⟨other, same, responded⟩ := brings normal packet delivered call.number origin
      cases same.symm.trans known
      obtain ⟨place, response, found, answers, sameHead⟩ := responded addressed
      obtain ⟨own, _, made, there, replies⟩ := joined.responded place _ answers
      cases made.symm.trans known
      cases there.symm.trans found
      refine ⟨response, List.mem_of_getElem? found, replies, ?_, fun pb carries => ?_⟩
      · rw [sameHead] at parsed
        exact parsed
      · obtain ⟨number, submission, produced, numbered, submitted, _, made, same⟩ :=
          joined.owned.responses response (List.mem_of_getElem? found) pb carries
        obtain ⟨asker, asks, also⟩ := joined.linked place response found number numbered
        cases answers.symm.trans also
        obtain ⟨_, _, asked, there, received⟩ := joined.submitted number _ asks
        cases asked.symm.trans known
        cases there.symm.trans submitted
        exact ⟨number, submission, produced, asks, submitted, received, made, same⟩
  | _ => trivial

end Fleet

/-- Every call that returns normally has its own reply, and no command goes twice. -/
theorem fleet_own_reply {Payload : Type} (wire : FleetWire Payload) :
    (fleetMachine wire).Always (Fleet.Calm wire) fun fleet =>
      (∀ process, ∀ event ∈ (fleet.client process).trace, fleet.Served wire process event) ∧
        fleet.asked.reduceOption.Nodup := by
  have kept : ∀ fleet act next, fleet.Joined wire → fleet.Calm wire act →
      (fleetMachine wire).step fleet act = some next → next.Joined wire :=
    fun fleet act next joined calm stepped => joined.step calm stepped
  exact Machine.always_of_invariant _ Fleet.Joined.start kept fun fleet joined =>
    ⟨fun process event member => joined.served member, joined.single.sublist joined.once⟩

/-- Both kinds of messages as they are. -/
def openWire : FleetWire (RedisCmdReq ⊕ RedisCmdRsp) where
  svrId := [9]
  req := ⟨Sum.inl, Sum.elim (fun req => (req, true)) fun _ => (⟨[], []⟩, false)⟩
  rsp := ⟨Sum.inr, Sum.elim (fun _ => (⟨none⟩, false)) fun rsp => (rsp, true)⟩
  garbage := blank

/-- A process sends a command, and the reply comes back to it. -/
def pingRun : List (FleetAct (RedisCmdReq ⊕ RedisCmdRsp)) :=
  [.client [1] (.registerCmd 1 1),
    .client [1] (.receive ⟨1, 0, 0, [2], [1], .inl ⟨[], []⟩⟩
      (.sendMsgRpc ⟨[9], redisCmdReq, .inl ⟨[], [80]⟩, 0⟩ 0 1)),
    .server (.setState .connected), .arrive ⟨[1], 0⟩ true 0 1,
    .server (.getCallback ⟨RedisReplyType.status, 0, some [79], []⟩), .carry 0,
    .client [1] (.deliver 0 .finish)]

/-- The text of the reply that a call returns with. -/
def CoEvent.text : CoEvent SharedTrans (Packet (RedisCmdReq ⊕ RedisCmdRsp)) → Option Bytes
  | .returned _ _ _ _ (some packet) =>
      packet.head.msg.elim (fun _ => none) fun rsp => rsp.reply.map PbReply.str
  | _ => none

theorem fleet_own_reply_ping : ∃ last, (fleetMachine openWire).run (fleetMachine openWire).start
    pingRun = some last ∧ (last.client [1]).trace.filterMap CoEvent.text = [[79]] ∧
      (∀ process, ∀ event ∈ (last.client process).trace, last.Served openWire process event) ∧
        last.asked.reduceOption.Nodup := by
  have reached : ((fleetMachine openWire).run (fleetMachine openWire).start pingRun).any
      (fun last => decide ((last.client [1]).trace.filterMap CoEvent.text = [[79]])) = true := by
    rw [fleetMachine, Fleet.start, RedisRun.start_eq]
    decide +kernel
  have met : (fleetMachine openWire).Meets (Fleet.Calm openWire) (fleetMachine openWire).start
      pingRun := by
    rw [fleetMachine, Fleet.start, RedisRun.start_eq]
    decide +kernel
  obtain ⟨last, reached, text⟩ := Machine.exists_of_check _ reached
  exact ⟨last, reached, of_decide_eq_true text, fleet_own_reply openWire pingRun last reached met⟩

end QServer
