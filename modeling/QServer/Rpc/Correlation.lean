import QServer.Rpc.SvrCommTrans

/-
This file proves which request the reply of a remote call belongs to.
-/

namespace QServer
open Transition Wire CoTask SvrCommTrans

variable {Payload : Type}

/-- The message is a reply to the request with the number. -/
def Packet.Answers (packet : Packet Payload) (sent : List (MsgHead Payload)) (number : Nat) :
    Prop :=
  packet.origin = some number ∧
    ∃ request msg, sent[number]? = some request ∧ packet.head = reply request msg

/-- A remote call that returns normally parsed a reply to the request that its coroutine sent in
this call. -/
def CoEvent.Correlated (sent : List (MsgHead Payload)) :
    CoEvent SharedTrans (Packet Payload) → Prop
  | .returned coId call ret _ msg =>
      ∀ (Rsp : Type) (parse : Payload → Option Rsp) (rsp : Rsp),
        sendMsgRpc parse ret (msg.map Packet.head) = .ok rsp →
        ∃ packet, msg = some packet ∧ parse packet.head.msg = some rsp ∧
          packet.Answers sent call.number ∧
          ∃ request, sent[call.number]? = some request ∧ request.srcCoId = coId
  | _ => True

/-- A reply comes while its own call or nobody waits, and other messages name nobody. -/
def Punctual (run : RpcRun Payload) : RpcAct Payload → Prop
  -- Nobody waits under the `dst_co_id`, or the call that sent the request has not returned.
  | .deliver place _ => ∀ packet ∈ run.network[place]?,
      run.mgr.coTask.waits packet.head.dstCoId = none ∨
        ∃ number ∈ packet.origin, run.mgr.coTask.StillWaits number
  | .receive head _ => head.dstCoId = 0 ∨ run.mgr.coTask.waits head.dstCoId = none
  | _ => True

instance (run : RpcRun Payload) : DecidablePred (Punctual run)
  | .registerCmd _ _ => isTrue trivial
  | .receive head _ => inferInstanceAs
      (Decidable (head.dstCoId = 0 ∨ run.mgr.coTask.waits head.dstCoId = none))
  | .answer _ _ => isTrue trivial
  | .deliver place _ => inferInstanceAs (Decidable (∀ packet ∈ run.network[place]?,
      run.mgr.coTask.waits packet.head.dstCoId = none ∨
        ∃ number ∈ packet.origin, run.mgr.coTask.StillWaits number))
  | .drop _ => isTrue trivial
  | .tickTimeOutCo _ => isTrue trivial
  | .proceed _ => isTrue trivial

section Sent

variable {sent : List (MsgHead Payload)}

/-- Requests that are sent later change nothing for the earlier ones. -/
theorem Packet.Answers.append {packet : Packet Payload} {number : Nat}
    (answers : packet.Answers sent number) (more : List (MsgHead Payload)) :
    packet.Answers (sent ++ more) number := by
  obtain ⟨origin, request, msg, known, same⟩ := answers
  exact ⟨origin, request, msg, getElem?_append_some known more, same⟩

theorem CoEvent.Correlated.append {event : CoEvent SharedTrans (Packet Payload)}
    (correlated : event.Correlated sent) (more : List (MsgHead Payload)) :
    event.Correlated (sent ++ more) := by
  cases event with
  | returned coId call ret wake msg =>
      intro Rsp parse rsp returned
      obtain ⟨packet, same, parsed, answers, request, known, sender⟩ :=
        correlated Rsp parse rsp returned
      exact ⟨packet, same, parsed, answers.append more, request,
        getElem?_append_some known more, sender⟩
  | _ => trivial

/-- A switch back returns from no call. -/
theorem CoTask.Left.correlated {coTask later : CoTask SharedTrans (Packet Payload)} {coId : CoId}
    {segment : Segment} {last : CoEvent SharedTrans (Packet Payload)}
    (left : Left coTask coId segment later last) (sent : List (MsgHead Payload)) :
    last.Correlated sent := by
  cases left <;> trivial

end Sent

namespace RpcRun

variable {run next : RpcRun Payload} {selfId : Bytes} {deed : Deed Payload}

/-- The requests are numbered as the calls, and every return so far has its own reply. -/
structure Matched (run : RpcRun Payload) : Prop where
  resting : run.mgr.coTask.Resting
  counted : run.sent.length = run.mgr.coTask.yields
  sender : ∀ coId call, run.mgr.coTask.waits coId = some call →
    ∃ request, run.sent[call.number]? = some request ∧ request.srcCoId = coId
  replies : ∀ packet ∈ run.network, ∃ number, packet.Answers run.sent number
  correlated : ∀ event ∈ run.trace, event.Correlated run.sent

theorem Matched.start : (RpcRun.start : RpcRun Payload).Matched := by
  refine ⟨Resting.empty, rfl, ?_, ?_, ?_⟩
  · rintro coId call ⟨⟩
  · intro packet member
    cases member
  · intro event member
    cases member

/-- The task that leaves with a call has sent the request with the number of the call. -/
theorem Matched.left (matched : run.Matched) {outcome : MgrOutcome (Packet Payload)} {coId : CoId}
    {last : CoEvent SharedTrans (Packet Payload)} {more : List (MsgHead Payload)}
    (left : Left run.mgr.coTask coId deed.segment outcome.mgr.coTask last)
    (added : [last].filterMap (deed.request selfId) = more) :
    (run.sent ++ more).length = outcome.mgr.coTask.yields ∧
      ∀ other call, outcome.mgr.coTask.waits other = some call →
        ∃ request, (run.sent ++ more)[call.number]? = some request ∧ request.srcCoId = other := by
  have earlier : ∀ {other call}, run.mgr.coTask.waits other = some call →
      ∃ request, (run.sent ++ more)[call.number]? = some request ∧ request.srcCoId = other := by
    intro other call waiting
    obtain ⟨request, known, sender⟩ := matched.sender other call waiting
    exact ⟨request, getElem?_append_some known more, sender⟩
  cases deed with
  | finish =>
      cases left with
      | finished waits yields =>
          cases added
          refine ⟨?_, fun other call waiting => ?_⟩
          · change (run.sent ++ []).length = outcome.mgr.coTask.yields
            rw [List.append_nil, yields, matched.counted]
          rw [waits, Function.update_apply] at waiting
          split_ifs at waiting
          exact earlier waiting
  | sendMsgRpc rpc now ptr =>
      cases left with
      | yielded waits yields =>
          cases added
          refine ⟨by simp [yields, matched.counted, Deed.request], fun other call waiting => ?_⟩
          rw [waits, Function.update_apply] at waiting
          split_ifs at waiting with here
          · cases waiting
            refine ⟨sendMsgThenYield selfId coId rpc, ?_, here.symm⟩
            change (run.sent ++ [sendMsgThenYield selfId coId rpc])[run.mgr.coTask.yields]? = _
            rw [← matched.counted, List.getElem?_concat_length]
          · exact earlier waiting

/-- A switch to a task keeps the match when its first event has the right reply. -/
theorem Matched.switch (matched : run.Matched) {outcome : MgrOutcome (Packet Payload)}
    {coId : CoId} {first last : CoEvent SharedTrans (Packet Payload)}
    (resting : outcome.mgr.coTask.Resting) (events : outcome.events = [first, last])
    (left : Left run.mgr.coTask coId deed.segment outcome.mgr.coTask last)
    (silent : deed.request selfId first = none) (correlated : first.Correlated run.sent) :
    (run.record selfId deed outcome).Matched := by
  have added : outcome.events.filterMap (deed.request selfId) =
      [last].filterMap (deed.request selfId) := by
    rw [events, List.filterMap_cons, silent]
  obtain ⟨counted, sender⟩ := matched.left left added.symm
  refine ⟨resting, counted, sender, fun packet member => ?_, fun event member => ?_⟩
  · obtain ⟨number, answers⟩ := matched.replies packet member
    exact ⟨number, answers.append _⟩
  · rcases List.mem_append.mp member with old | new
    · exact (matched.correlated event old).append _
    · rw [events] at new
      rcases List.mem_pair.mp new with rfl | rfl
      · exact correlated.append _
      · exact left.correlated _

/-- A step of the manager keeps the match when a message for a call answers its request. -/
theorem Matched.serve (matched : run.Matched) {act : TransAct (Packet Payload)}
    (own : ∀ msg segment, act = .onMsg msg segment → segment = deed.segment ∧ (msg.coId ≠ 0 →
      ∀ call, run.mgr.coTask.waits msg.coId = some call →
        msg.data.Answers run.sent call.number))
    (turn : ∀ segment, act = .proceed segment → segment = deed.segment)
    (served : run.serve selfId deed act = some next) : next.Matched := by
  obtain ⟨outcome, stepped, rfl⟩ := Option.map_eq_some_iff.mp served
  obtain ⟨resting, switched⟩ := TransMgr.step_switched matched.resting stepped
  cases switched with
  | quiet events waits yields =>
      refine ⟨resting, ?_, fun coId call waiting => ?_, ?_, ?_⟩
      · simpa [record, events, yields] using matched.counted
      · rw [record, waits] at waiting
        simpa [record, events] using matched.sender coId call waiting
      · simpa [record, events] using matched.replies
      · simpa [record, events] using matched.correlated
  | started fresh events left =>
      obtain ⟨rfl, _⟩ := own _ _ rfl
      exact matched.switch resting events left rfl trivial
  | answered named waiting events left =>
      obtain ⟨rfl, answers⟩ := own _ _ rfl
      refine matched.switch resting events left rfl fun Rsp parse rsp returned => ?_
      obtain ⟨_, head, same, parsed⟩ := sendMsgRpc_ok.mp returned
      cases same
      exact ⟨_, rfl, parsed, answers named _ waiting, matched.sender _ _ waiting⟩
  | timedOut waiting events left =>
      cases turn _ rfl
      refine matched.switch resting events left rfl fun Rsp parse rsp returned => ?_
      obtain ⟨late, _⟩ := sendMsgRpc_ok.mp returned
      cases late

theorem Matched.take (matched : run.Matched) (place : Nat) : (run.take place).Matched :=
  ⟨matched.resting, matched.counted, matched.sender,
    fun packet member => matched.replies packet (List.mem_of_mem_eraseIdx member),
    matched.correlated⟩

/-- A peer answers with a reply to the request that it has got. -/
theorem Matched.answer (matched : run.Matched) {number : Nat} {msg : Payload}
    (answered : run.answer number msg = some next) : next.Matched := by
  obtain ⟨_, answered⟩ := Option.ite_none_left_eq_some.mp answered
  obtain ⟨request, known, rfl⟩ := Option.map_eq_some_iff.mp answered
  refine ⟨matched.resting, matched.counted, matched.sender, fun packet member => ?_,
    matched.correlated⟩
  rcases List.mem_append.mp member with old | new
  · exact matched.replies packet old
  · rw [List.mem_singleton.mp new]
    exact ⟨number, rfl, request, msg, known, rfl⟩

/-- A reply whose caller still waits finds no other call under its `dst_co_id`. -/
theorem Matched.own_reply (matched : run.Matched) {packet : Packet Payload}
    (member : packet ∈ run.network)
    (punctual : run.mgr.coTask.waits packet.head.dstCoId = none ∨
      ∃ number ∈ packet.origin, run.mgr.coTask.StillWaits number) {call : YieldCall}
    (waiting : run.mgr.coTask.waits packet.head.dstCoId = some call) :
    packet.Answers run.sent call.number := by
  obtain ⟨number, answers⟩ := matched.replies packet member
  obtain ⟨origin, request, msg, known, same⟩ := answers
  rcases punctual with absent | ⟨number', origin', coId, caller, waits, rfl⟩
  · cases absent.symm.trans waiting
  · cases origin.symm.trans origin'
    -- The reply goes to the coroutine that sent the request, and there the caller waits.
    obtain ⟨request', known', sender⟩ := matched.sender coId caller waits
    cases known.symm.trans known'
    have dst : packet.head.dstCoId = coId := by rw [same, ← sender]; rfl
    rw [dst] at waiting
    cases waits.symm.trans waiting
    exact ⟨origin, request, msg, known, same⟩

/-- A punctual step keeps the match. -/
theorem Matched.step (matched : run.Matched) {act : RpcAct Payload} (punctual : Punctual run act)
    (stepped : run.step selfId act = some next) : next.Matched := by
  cases act with
  | registerCmd cmd count =>
      refine matched.serve ?_ ?_ stepped
      · rintro msg segment ⟨⟩
      · rintro segment ⟨⟩
  | receive head deed =>
      refine matched.serve ?_ ?_ stepped
      · rintro msg segment ⟨⟩
        refine ⟨rfl, fun named call waiting => ?_⟩
        rcases punctual with fresh | absent
        · exact absurd fresh named
        · rw [Packet.transMsg, absent] at waiting
          cases waiting
      · rintro segment ⟨⟩
  | answer number msg => exact matched.answer stepped
  | deliver place deed =>
      obtain ⟨packet, found, served⟩ := Option.bind_eq_some_iff.mp stepped
      refine (matched.take place).serve ?_ ?_ served
      · rintro msg segment ⟨⟩
        refine ⟨rfl, fun named call waiting => ?_⟩
        exact matched.own_reply (List.mem_of_getElem? found) (punctual packet found) waiting
      · rintro segment ⟨⟩
  | drop place =>
      cases stepped
      exact matched.take place
  | tickTimeOutCo now =>
      refine matched.serve ?_ ?_ stepped
      · rintro msg segment ⟨⟩
      · rintro segment ⟨⟩
  | proceed deed =>
      refine matched.serve ?_ ?_ stepped
      · rintro msg segment ⟨⟩
      · rintro segment ⟨⟩
        rfl

end RpcRun

/-- Every remote call gets the reply to its own request while the replies are punctual. -/
theorem rpc_correlated {Payload : Type} (selfId : Bytes) :
    (rpcMachine Payload selfId).Always Punctual
      fun run => ∀ event ∈ run.trace, event.Correlated run.sent := by
  have kept : ∀ run act next, run.Matched → Punctual run act →
      (rpcMachine Payload selfId).step run act = some next → next.Matched :=
    fun run act next matched punctual stepped => matched.step punctual stepped
  exact Machine.always_of_invariant _ RpcRun.Matched.start kept fun run matched =>
    matched.correlated

/-- Two calls get their replies in the other order, and a third reply finds nobody. -/
def punctualRun : List (RpcAct Unit) :=
  [.registerCmd 1 2, .receive ⟨1, 0, 0, [2], [1], ()⟩ (.sendMsgRpc ⟨[3], 3, (), 0⟩ 0 1),
    .receive ⟨1, 0, 0, [4], [1], ()⟩ (.sendMsgRpc ⟨[3], 3, (), 0⟩ 10 2), .answer 0 (),
    .answer 1 (), .deliver 1 .finish, .deliver 0 (.sendMsgRpc ⟨[3], 5, (), 0⟩ 20 3), .answer 2 (),
    .tickTimeOutCo 5020, .proceed .finish, .proceed .finish, .proceed .finish, .proceed .finish,
    .deliver 0 .finish]

theorem rpc_correlated_late : ∃ last, (rpcMachine Unit [1]).run (rpcMachine Unit [1]).start
    punctualRun = some last ∧ last.sent.length = 3 ∧
      ∀ event ∈ last.trace, event.Correlated last.sent := by
  have reached : ((rpcMachine Unit [1]).run (rpcMachine Unit [1]).start punctualRun).any
      (fun last => decide (last.sent.length = 3)) = true := by decide +kernel
  have met : (rpcMachine Unit [1]).Meets Punctual (rpcMachine Unit [1]).start punctualRun := by
    decide +kernel
  obtain ⟨last, reached, three⟩ := Machine.exists_of_check _ reached
  exact ⟨last, reached, of_decide_eq_true three,
    rpc_correlated [1] punctualRun last reached met⟩

/-- The first call times out, the task calls again, and the reply to the first request comes. -/
def lateReplyRun : List (RpcAct Unit) :=
  [.registerCmd 1 1,
    .receive ⟨1, 0, 0, [2], [1], ()⟩ (.sendMsgRpc ⟨[3], 3, (), 0⟩ 0 1),
    .tickTimeOutCo 5000, .proceed (.sendMsgRpc ⟨[3], 5, (), 0⟩ 5000 2), .proceed .finish,
    .answer 0 (), .deliver 0 .finish]

/-- A normal return with a message that answers another request. -/
def CoEvent.crossed : CoEvent SharedTrans (Packet Unit) → Bool
  | .returned _ call ret _ (some packet) => ret = 0 ∧ packet.origin ≠ some call.number
  | _ => false

theorem CoEvent.not_correlated {event : CoEvent SharedTrans (Packet Unit)}
    (crossed : event.crossed = true) (sent : List (MsgHead Unit)) : ¬event.Correlated sent := by
  intro correlated
  cases event with
  | returned coId call ret wake msg =>
      cases msg with
      | none => cases crossed
      | some packet =>
          obtain ⟨normal, other⟩ := of_decide_eq_true crossed
          have returned : sendMsgRpc (fun _ => some ()) ret (some packet.head) = .ok () :=
            sendMsgRpc_ok.mpr ⟨normal, packet.head, rfl, rfl⟩
          obtain ⟨_, same, _, answers, _⟩ := correlated Unit (fun _ => some ()) () returned
          cases same
          exact other answers.1
  | _ => cases crossed

theorem lateReply_crosses :
    ¬(rpcMachine Unit [1]).Always Machine.anyStep
      fun run => ∀ event ∈ run.trace, event.Correlated run.sent := by
  intro always
  have reached : (((rpcMachine Unit [1]).run (rpcMachine Unit [1]).start lateReplyRun).any
      fun run => run.trace.any CoEvent.crossed) = true := by decide +kernel
  obtain ⟨last, reached, crossed⟩ := Machine.exists_of_check _ reached
  obtain ⟨event, member, crossed⟩ := List.any_eq_true.mp crossed
  exact CoEvent.not_correlated crossed last.sent
    (always lateReplyRun last reached (Machine.meets_anyStep _ _ _) event member)

end QServer
