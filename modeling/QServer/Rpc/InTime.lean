import QServer.Lib.Clocked
import QServer.Co.Timely
import QServer.Rpc.Correlation

/-
This file proves that each remote call gets its own reply when no reply comes after its time-out.
-/

namespace QServer
open Transition Wire CoTask SvrCommTrans

variable {Payload : Type}

/-- The time that a task reads. -/
def Deed.read : Deed Payload → Option Time
  | .sendMsgRpc _ now _ => some now
  | .finish => none

/-- The time that a step of the process reads. -/
def RpcAct.read : RpcAct Payload → Option Time
  | .receive _ deed => deed.read
  | .deliver _ deed => deed.read
  | .tickTimeOutCo now => some now
  | .proceed deed => deed.read
  | _ => none

/-- The process under the clock of `time_mgr::now_ms`. -/
def timedRpc (Payload : Type) (selfId : Bytes) (begun : Time) :
    Machine (RpcRun Payload × Time) (RpcAct Payload) :=
  (rpcMachine Payload selfId).clocked RpcAct.read begun

/-- A reply to the request of a call comes before the time-out of the call. -/
def Packet.Before (packet : Packet Payload) (clock : Time) :
    CoEvent SharedTrans (Packet Payload) → Prop
  | .yielded _ call => packet.origin = some call.number → clock < call.madeAt + call.timeOut
  | _ => True

instance (packet : Packet Payload) (clock : Time) : DecidablePred (packet.Before clock)
  | .yielded _ call => inferInstanceAs
      (Decidable (packet.origin = some call.number → clock < call.madeAt + call.timeOut))
  | .started _ _ => isTrue trivial
  | .returned _ _ _ _ _ => isTrue trivial
  | .finished _ _ => isTrue trivial

/-- The replies come before the time-outs. Every other message starts a transaction or comes where
nobody waits. -/
def BeforeTimeOut (moment : RpcRun Payload × Time) : RpcAct Payload → Prop
  | .deliver place _ => ∀ packet ∈ moment.1.network[place]?, ∀ event ∈ moment.1.trace,
      packet.Before moment.2 event
  | .receive head _ => head.dstCoId = 0 ∨ moment.1.mgr.coTask.waits head.dstCoId = none
  | _ => True

instance (moment : RpcRun Payload × Time) : DecidablePred (BeforeTimeOut moment)
  | .registerCmd _ _ => isTrue trivial
  | .receive head _ => inferInstanceAs
      (Decidable (head.dstCoId = 0 ∨ moment.1.mgr.coTask.waits head.dstCoId = none))
  | .answer _ _ => isTrue trivial
  | .deliver place _ => inferInstanceAs (Decidable (∀ packet ∈ moment.1.network[place]?,
      ∀ event ∈ moment.1.trace, packet.Before moment.2 event))
  | .drop _ => isTrue trivial
  | .tickTimeOutCo _ => isTrue trivial
  | .proceed _ => isTrue trivial

namespace TransMgr

variable {Data : Type} {mgr : TransMgr Data} {act : TransAct Data} {outcome : MgrOutcome Data}
  {clock : Time}

/-- A message is handled outside of a running `TickTimeOutCo`. -/
theorem onMsg_mainCall {msg : TransMsg Data} {segment : Segment}
    (orderly : mgr.coTask.Orderly) (stepped : mgr.onMsg msg segment = some outcome) :
    outcome.mgr.coTask.mainCall = mgr.coTask.mainCall := by
  rcases onMsg_cases stepped with ⟨_, _, rfl⟩ | ⟨_, taken, shared, got, started⟩ |
    ⟨_, woken, resumed, rfl⟩ | ⟨_, _, rfl⟩
  · rfl
  · obtain ⟨trans, _, _, rfl⟩ := getShared_cases got
    obtain ⟨woken, resumed, rfl⟩ := Option.map_eq_some_iff.mp started
    rw [release_coTask, settle_coTask]
    have keyed := orderly.tidy.keyed
    have resumes := resumeOneWithMsg_cases keyed.newCoroutine
      orderly.tidy.unmarked.newCoroutine resumed
    rw [resumes.mainCall, cancelTimer_mainCall]
    rfl
  · rw [settle_coTask, (orderly.tidy.resumeOneWithMsg_cases resumed).mainCall,
      cancelTimer_mainCall]
  · rfl

theorem step_dueBy (orderly : mgr.coTask.Orderly) (dueBy : mgr.coTask.DueBy clock)
    (reads : ∀ now, act = .tickTimeOutCo now → clock = now)
    (stepped : mgr.step act = some outcome) : outcome.mgr.coTask.DueBy clock := by
  cases act with
  | registerCmd cmd count =>
      obtain ⟨_, operated⟩ := Option.ite_none_right_eq_some.mp stepped
      cases operated
      rwa [registerCmd_coTask]
  | onMsg msg segment =>
      obtain ⟨_, operated⟩ := Option.ite_none_right_eq_some.mp stepped
      exact dueBy.of_same (onMsg_mainCall orderly operated)
  | tickTimeOutCo now =>
      obtain ⟨_, operated⟩ := Option.ite_none_right_eq_some.mp stepped
      cases operated
      cases reads now rfl
      exact DueBy.doTimeOutTask
  | proceed segment =>
      obtain ⟨woken, proceeded, rfl⟩ := Option.map_eq_some_iff.mp stepped
      rw [settle_coTask]
      exact dueBy.turned (orderly.tidy.proceed_cases proceeded)

/-- A message that starts a transaction finds a coroutine that nobody waits in. -/
theorem started_free (orderly : mgr.coTask.Orderly) {msg : TransMsg Data} {segment : Segment}
    (fresh : msg.coId = 0) (stepped : mgr.step (.onMsg msg segment) = some outcome)
    (served : outcome.events ≠ []) (few : outcome.mgr.coTask.coPool.created < 2 ^ 32) :
    mgr.coTask.waits mgr.coTask.coPool.nextCoId = none := by
  obtain ⟨_, operated⟩ := Option.ite_none_right_eq_some.mp stepped
  rcases onMsg_cases operated with ⟨_, _, rfl⟩ | ⟨_, taken, shared, got, started⟩ | ⟨named, _⟩ |
    ⟨named, _⟩
  · exact absurd rfl served
  · obtain ⟨trans, _, _, rfl⟩ := getShared_cases got
    obtain ⟨woken, resumed, rfl⟩ := Option.map_eq_some_iff.mp started
    rw [release_coTask, settle_coTask, resumeOneWithMsg_created resumed, CoTask.addTack,
      CoPool.newCoroutine_created] at few
    refine orderly.resting.waits_eq_none.mpr (orderly.counted.nextCoId_inactive fun empty => ?_)
    split_ifs at few with filled
    · exact few
    · exact absurd empty filled
  · exact absurd fresh named
  · exact absurd fresh named

end TransMgr

namespace RpcRun

variable {run next : RpcRun Payload} {selfId : Bytes} {deed : Deed Payload} {clock : Time}

/-- The reply to the request has not come. -/
def Outstanding (run : RpcRun Payload) (number : Nat) : Prop :=
  number ∉ run.answered ∨ ∃ packet ∈ run.network, packet.origin = some number

/-- A call whose reply has not come waits, or its time has passed. -/
structure Awaited (run : RpcRun Payload) (clock : Time) : Prop where
  matched : run.Matched
  orderly : run.mgr.coTask.Orderly
  dueBy : run.mgr.coTask.DueBy clock
  made : ∀ number request, run.sent[number]? = some request →
    ∃ call, .yielded request.srcCoId call ∈ run.trace ∧ call.number = number
  single : (run.network.map Packet.origin).Nodup
  known : ∀ packet ∈ run.network, ∀ number, packet.origin = some number → number ∈ run.answered
  pending : ∀ coId call, .yielded coId call ∈ run.trace → run.Outstanding call.number →
    run.mgr.coTask.waits coId = some call ∨ call.madeAt + call.timeOut ≤ clock

theorem Awaited.start : (RpcRun.start : RpcRun Payload).Awaited clock := by
  refine ⟨Matched.start, Orderly.empty, DueBy.of_idle rfl, ?_, List.nodup_nil, ?_, ?_⟩
  · rintro number request known
    cases known
  · rintro packet member
    cases member
  · rintro coId call member
    cases member

/-- A task that leaves ends, or it sends a request in the call that comes next. -/
theorem left_cases (selfId : Bytes) {coTask later : CoTask SharedTrans (Packet Payload)} {coId : CoId}
    {last : CoEvent SharedTrans (Packet Payload)}
    (left : Left coTask coId deed.segment later last) :
    ((∃ task, last = .finished coId task) ∧ deed.request selfId last = none ∧
        later.waits = Function.update coTask.waits coId none) ∨
      ∃ rpc call, last = .yielded coId call ∧ call.number = coTask.yields ∧
        deed.request selfId last = some (sendMsgThenYield selfId coId rpc) ∧
        later.waits = Function.update coTask.waits coId (some call) := by
  cases deed with
  | finish =>
      cases left with
      | finished waits yields => exact Or.inl ⟨⟨_, rfl⟩, rfl, waits⟩
  | sendMsgRpc rpc now ptr =>
      cases left with
      | yielded waits yields => exact Or.inr ⟨rpc, _, rfl, rfl, rfl, waits⟩

section Switch

variable {outcome : MgrOutcome (Packet Payload)} {coId : CoId}
  {first last : CoEvent SharedTrans (Packet Payload)}

/-- Each request of a switch belongs to a call of the trace. -/
theorem Awaited.made_switch (awaited : run.Awaited clock)
    (events : outcome.events = [first, last]) (silent : deed.request selfId first = none)
    (left : Left run.mgr.coTask coId deed.segment outcome.mgr.coTask last) :
    ∀ number request, (run.record selfId deed outcome).sent[number]? = some request →
      ∃ call, .yielded request.srcCoId call ∈ (run.record selfId deed outcome).trace ∧
        call.number = number := by
  intro number request known
  have older : run.sent[number]? = some request →
      ∃ call, .yielded request.srcCoId call ∈ (run.record selfId deed outcome).trace ∧
        call.number = number := by
    intro old
    obtain ⟨call, member, numbered⟩ := awaited.made number request old
    exact ⟨call, List.mem_append_left _ member, numbered⟩
  rcases left_cases selfId left with ⟨_, quiet, _⟩ | ⟨rpc, call, rfl, numbered, asked, _⟩
  · rw [record, events, List.filterMap_cons_none silent, List.filterMap_cons_none quiet,
      List.filterMap_nil, List.append_nil] at known
    exact older known
  · rw [record, events, List.filterMap_cons_none silent, List.filterMap_cons_some asked,
      List.filterMap_nil, List.getElem?_append] at known
    split_ifs at known with below
    · exact older known
    · have place : number = run.sent.length := by
        have bound := (List.getElem?_eq_some_iff.mp known).1
        rw [List.length_singleton] at bound
        omega
      rw [place, Nat.sub_self, List.getElem?_cons_zero, Option.some.injEq] at known
      refine ⟨call, ?_, ?_⟩
      · rw [record, events, ← known]
        exact List.mem_append_right _ (List.mem_cons_of_mem _ (List.mem_singleton_self _))
      · rw [place, awaited.matched.counted, numbered]

/-- A switch ends no call of another coroutine. -/
theorem Awaited.pending_switch (awaited : run.Awaited clock)
    (events : outcome.events = [first, last]) (entered : ∀ coId call, first ≠ .yielded coId call)
    (left : Left run.mgr.coTask coId deed.segment outcome.mgr.coTask last)
    (ended : ∀ call, run.mgr.coTask.waits coId = some call → run.Outstanding call.number →
      outcome.mgr.coTask.waits coId = some call ∨ call.madeAt + call.timeOut ≤ clock) :
    ∀ other call, .yielded other call ∈ (run.record selfId deed outcome).trace →
      (run.record selfId deed outcome).Outstanding call.number →
      outcome.mgr.coTask.waits other = some call ∨ call.madeAt + call.timeOut ≤ clock := by
  intro other call member outstanding
  rcases List.mem_append.mp member with old | new
  · rcases awaited.pending other call old outstanding with waits | passed
    · by_cases here : other = coId
      · subst here
        exact ended call waits outstanding
      · left
        rcases left_cases selfId left with ⟨_, _, same⟩ | ⟨rpc, next, _, _, _, same⟩
        · rw [same, Function.update_of_ne here, waits]
        · rw [same, Function.update_of_ne here, waits]
    · exact Or.inr passed
  · rw [events, List.mem_pair] at new
    rcases new with begins | ends
    · exact absurd begins.symm (entered other call)
    · left
      rcases left_cases selfId left with ⟨⟨task, rfl⟩, _⟩ | ⟨rpc, next, rfl, _, _, same⟩
      · cases ends
      · cases ends
        rw [same, Function.update_self]

end Switch

/-- A step of the manager keeps the calls awaited when a message for a call takes its last reply. -/
theorem Awaited.serve (awaited : run.Awaited clock) {act : TransAct (Packet Payload)}
    (reads : ∀ now, act = .tickTimeOutCo now → clock = now)
    (own : ∀ msg segment, act = .onMsg msg segment → segment = deed.segment ∧ (msg.coId ≠ 0 →
      ∀ call, run.mgr.coTask.waits msg.coId = some call → ¬run.Outstanding call.number))
    (turn : ∀ segment, act = .proceed segment → segment = deed.segment)
    (served : run.serve selfId deed act = some next) (matched : next.Matched)
    (few : next.mgr.coTask.coPool.created < 2 ^ 32) : next.Awaited clock := by
  obtain ⟨outcome, stepped, rfl⟩ := Option.map_eq_some_iff.mp served
  have orderly : outcome.mgr.coTask.Orderly :=
    (TransMgr.step_scheduled stepped).orderly awaited.orderly few
  have dueBy := TransMgr.step_dueBy awaited.orderly awaited.dueBy reads stepped
  obtain ⟨_, switched⟩ := TransMgr.step_switched awaited.matched.resting stepped
  cases switched with
  | quiet events waits yields =>
      refine ⟨matched, orderly, dueBy, ?_, awaited.single, awaited.known, ?_⟩
      · simpa [record, events] using awaited.made
      · intro coId call member outstanding
        have old : .yielded coId call ∈ run.trace := by simpa [record, events] using member
        have before := awaited.pending coId call old outstanding
        rwa [← waits] at before
  | started fresh events left =>
      obtain ⟨rfl, _⟩ := own _ _ rfl
      have free := TransMgr.started_free awaited.orderly fresh stepped (by simp [events]) few
      refine ⟨matched, orderly, dueBy, awaited.made_switch events rfl left, awaited.single,
        awaited.known, awaited.pending_switch events (by rintro coId call ⟨⟩) left ?_⟩
      intro call waits
      rw [free] at waits
      cases waits
  | answered named waiting events left =>
      obtain ⟨rfl, taken⟩ := own _ _ rfl
      refine ⟨matched, orderly, dueBy, awaited.made_switch events rfl left, awaited.single,
        awaited.known, awaited.pending_switch events (by rintro coId call ⟨⟩) left ?_⟩
      exact fun call waits outstanding => absurd outstanding (taken named call waits)
  | timedOut waiting events left =>
      rename_i segment coId call armed now stored last
      cases turn segment rfl
      obtain ⟨woken, proceeded, same⟩ := Option.map_eq_some_iff.mp stepped
      refine ⟨matched, orderly, dueBy, awaited.made_switch events rfl left, awaited.single,
        awaited.known, awaited.pending_switch events (by rintro coId call ⟨⟩) left ?_⟩
      intro call waits _
      by_cases stays : outcome.mgr.coTask.waits coId = some call
      · exact Or.inl stays
      · right
        refine awaited.dueBy.lapsed awaited.orderly
          (awaited.orderly.tidy.proceed_cases proceeded) waits ?_
        rwa [← same, TransMgr.settle_coTask] at stays

/-- A reply that comes in time comes for the call that waits. -/
theorem Awaited.own_reply (awaited : run.Awaited clock) {place : Nat}
    (inTime : BeforeTimeOut (run, clock) (.deliver place deed)) {packet : Packet Payload}
    (found : run.network[place]? = some packet) :
    ∃ call, run.mgr.coTask.waits packet.head.dstCoId = some call ∧
      packet.origin = some call.number := by
  have member := List.mem_of_getElem? found
  obtain ⟨number, origin, request, msg, known, same⟩ := awaited.matched.replies packet member
  obtain ⟨call, yielded, rfl⟩ := awaited.made number request known
  have dst : packet.head.dstCoId = request.srcCoId := by rw [same]; rfl
  rcases awaited.pending _ call yielded (Or.inr ⟨packet, member, origin⟩) with waits | passed
  · exact ⟨call, dst ▸ waits, origin⟩
  · exact absurd (inTime packet found _ yielded origin) (not_lt.mpr passed)

theorem Awaited.punctual (awaited : run.Awaited clock) {act : RpcAct Payload}
    (inTime : BeforeTimeOut (run, clock) act) : QServer.Punctual run act := by
  cases act with
  | deliver place deed =>
      intro packet found
      obtain ⟨call, waits, origin⟩ := awaited.own_reply inTime found
      exact Or.inr ⟨call.number, origin, packet.head.dstCoId, call, waits, rfl⟩
  | receive head deed => exact inTime
  | _ => trivial

theorem Awaited.mono (awaited : run.Awaited clock) {later : Time} (order : clock ≤ later) :
    run.Awaited later := by
  refine ⟨awaited.matched, awaited.orderly, awaited.dueBy.mono order, awaited.made,
    awaited.single, awaited.known, fun coId call yielded outstanding => ?_⟩
  exact (awaited.pending coId call yielded outstanding).imp_right fun passed => passed.trans order

/-- A message that leaves the network leaves no reply behind. -/
theorem Awaited.take (awaited : run.Awaited clock) (place : Nat) :
    (run.take place).Awaited clock := by
  have fewer : ∀ {packet}, packet ∈ (run.take place).network → packet ∈ run.network :=
    fun member => List.mem_of_mem_eraseIdx member
  refine ⟨awaited.matched.take place, awaited.orderly, awaited.dueBy, awaited.made, ?_,
    fun packet member => awaited.known packet (fewer member), fun coId call yielded open_ => ?_⟩
  · exact awaited.single.sublist ((List.eraseIdx_sublist _ _).map _)
  · refine awaited.pending coId call yielded (open_.imp_right ?_)
    rintro ⟨packet, member, origin⟩
    exact ⟨packet, fewer member, origin⟩

/-- A reply that is taken was the only one to its request. -/
theorem Awaited.taken (awaited : run.Awaited clock) {place number : Nat} {packet : Packet Payload}
    (found : run.network[place]? = some packet) (origin : packet.origin = some number) :
    ¬(run.take place).Outstanding number := by
  rintro (fresh | ⟨other, member, same⟩)
  · exact fresh (awaited.known packet (List.mem_of_getElem? found) number origin)
  · obtain ⟨elsewhere, apart, there⟩ := List.mem_eraseIdx_iff_getElem?.mp member
    have bound : place < (run.network.map Packet.origin).length := by
      rw [List.length_map]
      exact (List.getElem?_eq_some_iff.mp found).1
    refine apart ((List.getElem?_inj bound awaited.single).mp ?_).symm
    rw [List.getElem?_map, List.getElem?_map, found, there, Option.map_some, Option.map_some,
      origin, same]

/-- A peer that answers a request makes its reply outstanding once more. -/
theorem Awaited.answer (awaited : run.Awaited clock) {number : Nat} {msg : Payload}
    (answered : run.answer number msg = some next) : next.Awaited clock := by
  have matched := awaited.matched.answer answered
  obtain ⟨fresh, sends⟩ := Option.ite_none_left_eq_some.mp answered
  obtain ⟨request, known, rfl⟩ := Option.map_eq_some_iff.mp sends
  refine ⟨matched, awaited.orderly, awaited.dueBy, awaited.made, ?_, ?_, ?_⟩
  · rw [List.map_append, List.map_singleton, List.nodup_append]
    refine ⟨awaited.single, List.nodup_singleton _, ?_⟩
    rintro origin member _ last rfl
    obtain ⟨packet, inside, same⟩ := List.mem_map.mp member
    rw [List.mem_singleton.mp last] at same
    exact fresh (awaited.known packet inside number same)
  · intro packet member other origin
    rw [Finset.mem_insert]
    rcases List.mem_append.mp member with old | new
    · exact Or.inr (awaited.known packet old other origin)
    · rw [List.mem_singleton.mp new] at origin
      exact Or.inl (Option.some.inj origin).symm
  · intro coId call yielded open_
    refine awaited.pending coId call yielded ?_
    by_cases here : call.number = number
    · exact Or.inl (here ▸ fresh)
    · refine open_.imp (fun unanswered old => unanswered (Finset.mem_insert_of_mem old)) ?_
      rintro ⟨packet, member, origin⟩
      rcases List.mem_append.mp member with old | new
      · exact ⟨packet, old, origin⟩
      · rw [List.mem_singleton.mp new] at origin
        exact absurd (Option.some.inj origin).symm here

/-- A step in time keeps the calls awaited. -/
theorem Awaited.step (awaited : run.Awaited clock) {act : RpcAct Payload} {later : Time}
    (inTime : BeforeTimeOut (run, clock) act) (order : clock ≤ later)
    (reads : ∀ now ∈ act.read, later = now) (stepped : run.step selfId act = some next)
    (few : next.mgr.coTask.coPool.created < 2 ^ 32) : next.Awaited later := by
  have matched := awaited.matched.step (awaited.punctual inTime) stepped
  have before := awaited.mono order
  cases act with
  | registerCmd cmd count =>
      refine before.serve ?_ ?_ ?_ stepped matched few
      · rintro now ⟨⟩
      · rintro msg segment ⟨⟩
      · rintro segment ⟨⟩
  | receive head deed =>
      refine before.serve ?_ ?_ ?_ stepped matched few
      · rintro now ⟨⟩
      · rintro msg segment ⟨⟩
        refine ⟨rfl, fun named call waits => ?_⟩
        rcases inTime with fresh | absent
        · exact absurd fresh named
        · cases absent.symm.trans waits
      · rintro segment ⟨⟩
  | answer number msg => exact before.answer stepped
  | deliver place deed =>
      obtain ⟨packet, found, served⟩ := Option.bind_eq_some_iff.mp stepped
      refine (before.take place).serve ?_ ?_ ?_ served matched few
      · rintro now ⟨⟩
      · rintro msg segment ⟨⟩
        refine ⟨rfl, fun named call waits => ?_⟩
        obtain ⟨own, waiting, origin⟩ := awaited.own_reply inTime found
        cases waits.symm.trans waiting
        exact awaited.taken found origin
      · rintro segment ⟨⟩
  | drop place =>
      cases stepped
      exact before.take place
  | tickTimeOutCo now =>
      refine before.serve ?_ ?_ ?_ stepped matched few
      · rintro other ⟨⟩
        exact reads now rfl
      · rintro msg segment ⟨⟩
      · rintro segment ⟨⟩
  | proceed deed =>
      refine before.serve ?_ ?_ ?_ stepped matched few
      · rintro now ⟨⟩
      · rintro msg segment ⟨⟩
      · rintro segment ⟨⟩
        rfl

/-- A coroutine object is never given back. -/
theorem created_le {act : RpcAct Payload} (stepped : run.step selfId act = some next) :
    run.mgr.coTask.coPool.created ≤ next.mgr.coTask.coPool.created := by
  have simulated := (rpcSimulation Payload selfId).simulates run act next stepped
  have kept : ∀ mgr call later,
      run.mgr.coTask.coPool.created ≤ mgr.coTask.coPool.created →
      (transMachine (Packet Payload)).step mgr call = some later →
      run.mgr.coTask.coPool.created ≤ later.coTask.coPool.created := by
    intro mgr call later below moved
    obtain ⟨outcome, operated, rfl⟩ := Option.map_eq_some_iff.mp moved
    exact below.trans (TransMgr.step_scheduled operated).created
  exact Machine.run_invariant _ kept (le_refl _) simulated

end RpcRun

/-- Replies before the time-outs answer their own requests and find their calls waiting. -/
theorem rpc_correlated_in_time {selfId : Bytes} {begun : Time} {acts : List (RpcAct Payload)}
    {last : RpcRun Payload × Time}
    (reached : (timedRpc Payload selfId begun).run (timedRpc Payload selfId begun).start acts =
      some last)
    (met : (timedRpc Payload selfId begun).Meets BeforeTimeOut
      (timedRpc Payload selfId begun).start acts)
    (few : last.1.mgr.coTask.coPool.created < 2 ^ 32) :
    (∀ event ∈ last.1.trace, event.Correlated last.1.sent) ∧
      ∀ packet ∈ last.1.network, ∃ call, .yielded packet.head.dstCoId call ∈ last.1.trace ∧
        packet.origin = some call.number ∧ (last.2 < call.madeAt + call.timeOut →
          last.1.mgr.coTask.waits packet.head.dstCoId = some call) := by
  have kept : ∀ moment act next, (moment.1.mgr.coTask.coPool.created < 2 ^ 32 →
      moment.1.Awaited moment.2) → BeforeTimeOut moment act →
      (timedRpc Payload selfId begun).step moment act = some next →
      next.1.mgr.coTask.coPool.created < 2 ^ 32 → next.1.Awaited next.2 := by
    intro moment act next held inTime stepped bound
    obtain ⟨moved, order, reads⟩ := Machine.clocked_cases stepped
    have fewer := lt_of_le_of_lt (RpcRun.created_le moved) bound
    exact (held fewer).step inTime order reads moved bound
  have awaited := Machine.run_guarded _ kept (fun _ => RpcRun.Awaited.start) reached met few
  refine ⟨awaited.matched.correlated, fun packet member => ?_⟩
  obtain ⟨number, origin, request, msg, known, same⟩ := awaited.matched.replies packet member
  obtain ⟨call, yielded, rfl⟩ := awaited.made number request known
  have dst : packet.head.dstCoId = request.srcCoId := by rw [same]; rfl
  rw [dst]
  refine ⟨call, yielded, origin, fun early => ?_⟩
  rcases awaited.pending _ call yielded (Or.inr ⟨packet, member, origin⟩) with waits | passed
  · exact waits
  · exact absurd early (not_lt.mpr passed)

/-- A reply ends the first call at 4000, and the reply to the second one is on its way. -/
def promptRun : List (RpcAct Unit) :=
  [.registerCmd 1 1,
    .receive ⟨1, 0, 0, [2], [1], ()⟩ (.sendMsgRpc ⟨[3], 3, (), 0⟩ 0 1), .answer 0 (),
    .tickTimeOutCo 4000, .proceed .finish, .deliver 0 (.sendMsgRpc ⟨[3], 5, (), 0⟩ 4000 2),
    .answer 1 (), .tickTimeOutCo 8999, .proceed .finish, .proceed .finish]

theorem rpc_correlated_in_time_twice : ∃ last : RpcRun Unit × Time,
    (timedRpc Unit [1] 0).run (timedRpc Unit [1] 0).start promptRun = some last ∧
      (∀ event ∈ last.1.trace, event.Correlated last.1.sent) ∧
      ∀ packet ∈ last.1.network, ∃ call, .yielded packet.head.dstCoId call ∈ last.1.trace ∧
        packet.origin = some call.number ∧ (last.2 < call.madeAt + call.timeOut →
          last.1.mgr.coTask.waits packet.head.dstCoId = some call) := by
  have reached : ((timedRpc Unit [1] 0).run (timedRpc Unit [1] 0).start promptRun).any
      (fun last => last.1.mgr.coTask.coPool.created < 2 ^ 32) = true := by decide +kernel
  have met : (timedRpc Unit [1] 0).Meets BeforeTimeOut (timedRpc Unit [1] 0).start promptRun := by
    decide +kernel
  obtain ⟨last, reached, few⟩ := Machine.exists_of_check _ reached
  exact ⟨last, reached, rpc_correlated_in_time reached met (of_decide_eq_true few)⟩

end QServer
