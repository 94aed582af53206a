import QServer.Redis.Service
import QServer.Trans.Staffed
import QServer.Trans.Switches

/-
This file proves that each request that starts a `TransRedisCmd` gets one reply.
-/

namespace QServer
open Container Transition Wire CoTask SvrCommTrans

/-- The reply goes to the client that made the request. -/
structure SentReply.Answers {Payload : Type} (sent : SentReply Payload)
    (request : MsgHead Payload) : Prop where
  dstBusId : sent.head.dstBusId = request.srcBusId
  dstCoId : sent.head.dstCoId = request.srcCoId
  cmd : sent.head.cmd = request.cmd + 1

namespace ServiceRun

variable {Payload : Type} {wire : RedisWire Payload} {run next : ServiceRun Payload}

/-- Each accepted request is with one active transaction until it has its only reply. -/
structure OneReply (run : ServiceRun Payload) : Prop where
  answers : ∀ sent ∈ run.sent, ∃ request, run.accepted[sent.number]? = some request ∧
    sent.Answers request
  once : (run.sent.map SentReply.number).Nodup
  working : ∀ coId, coId ∈ run.active ↔ ∃ locals, run.locals coId = some locals
  own : ∀ coId locals, run.locals coId = some locals →
    run.accepted[locals.number]? = some locals.msgHead
  single : ∀ coId other mine theirs, run.locals coId = some mine →
    run.locals other = some theirs → mine.number = theirs.number → coId = other
  ended : ∀ number < run.accepted.length, number ∈ run.sent.map SentReply.number ↔
    ∀ coId locals, run.locals coId = some locals → locals.number ≠ number
  counted : run.sent.length + run.active.card = run.accepted.length

/-- A request has its reply or waits in the locals of a task. -/
def ledger (run : ServiceRun Payload) : Ledger Unit Nat CoId :=
  ⟨fun _ => run.sent.map SentReply.number,
    fun coId => (run.locals coId).map fun locals => ((), locals.number)⟩

/-- The books of the requests. -/
structure Booked (run : ServiceRun Payload) : Prop where
  balanced : run.ledger.Balanced fun _ => List.range run.accepted.length
  own : ∀ coId locals, run.locals coId = some locals →
    run.accepted[locals.number]? = some locals.msgHead
  cmds : ∀ request ∈ run.accepted, request.cmd = redisCmdReq
  answers : ∀ sent ∈ run.sent, ∃ request, run.accepted[sent.number]? = some request ∧
    sent.Answers request

theorem ledger_held {coId : CoId} {number : Nat} : run.ledger.held coId = some ((), number) ↔
    ∃ locals, run.locals coId = some locals ∧ locals.number = number := by
  simp [ledger]

/-- `GetMsg` books a new request for its coroutine. -/
theorem Booked.getMsg (booked : run.Booked) {coId : CoId} {msgHead : MsgHead Payload}
    (free : run.locals coId = none) (named : msgHead.cmd = redisCmdReq) :
    (run.getMsg coId msgHead).Booked := by
  refine ⟨?_, fun other locals found => ?_, fun request member => ?_, fun sent member => ?_⟩
  · have unheld : run.ledger.held coId = none := by simp [ledger, free]
    have entrusted : (run.ledger.entrust coId () run.accepted.length).Balanced _ :=
      booked.balanced.entrust unheld (by simp)
    convert entrusted using 1
    · simp only [ledger, Ledger.entrust, ServiceRun.getMsg]
      congr 1
      funext other
      rw [Function.update_apply, Function.update_apply]
      split_ifs <;> rfl
    · funext key
      cases key
      simp [ServiceRun.getMsg, List.range_succ]
  · change Function.update run.locals coId _ other = some locals at found
    rw [Function.update_apply] at found
    split_ifs at found with here
    · cases found
      exact List.getElem?_concat_length
    · exact getElem?_append_some (booked.own other locals found) _
  · rcases List.mem_append.mp member with old | new
    · exact booked.cmds request old
    · rw [List.mem_singleton.mp new]
      exact named
  · obtain ⟨request, known, answers⟩ := booked.answers sent member
    exact ⟨request, getElem?_append_some known _, answers⟩

/-- The end of a task moves its request to the replies. -/
theorem Booked.endTask (booked : run.Booked) {coId : CoId} {locals : TaskLocals Payload}
    (found : run.locals coId = some locals) (result : Except CmdError (Option RedisReply)) :
    ((run.sendMsg wire locals result).endTask coId).Booked := by
  have own := booked.own coId locals found
  refine ⟨?_, fun other carried found => ?_, booked.cmds, fun sent member => ?_⟩
  · have carried : run.ledger.held coId = some ((), locals.number) :=
      ledger_held.mpr ⟨locals, found, rfl⟩
    have given := booked.balanced.give carried
    have same : ((run.sendMsg wire locals result).endTask coId).ledger =
        run.ledger.give coId () locals.number := by
      simp only [ledger, Ledger.give, ServiceRun.endTask, ServiceRun.sendMsg]
      congr 1
      · funext key
        simp
      · funext other
        rw [Function.update_apply, Function.update_apply]
        split_ifs <;> rfl
    rw [same]
    exact given
  · change Function.update run.locals coId none other = some carried at found
    rw [Function.update_apply] at found
    split_ifs at found
    exact booked.own other carried found
  · rcases List.mem_append.mp member with old | new
    · exact booked.answers sent old
    · rw [List.mem_singleton.mp new]
      refine ⟨locals.msgHead, own, rfl, rfl, ?_⟩
      have named := booked.cmds _ (List.mem_of_getElem? own)
      change (locals.msgHead.cmd + 1) % 2 ^ 32 = locals.msgHead.cmd + 1
      rw [named]
      rfl

/-- The books do not depend on the other fields. -/
theorem Booked.frame (booked : run.Booked) (mgr : TransMgr (Option (TaskMsg Payload)))
    (state : ClientBase.State) (callbacks : List CoId) :
    ({ run with mgr, state, callbacks } : ServiceRun Payload).Booked :=
  ⟨booked.balanced, booked.own, booked.cmds, booked.answers⟩

/-- The books are right, and the coroutines that wait are the ones with a request. -/
structure Sound (run : ServiceRun Payload) : Prop where
  staffed : run.mgr.Staffed redisCmdReq (List.range' 0 10000)
  tracked : ∀ coId, run.locals coId = none ↔ run.mgr.coTask.waits coId = none
  booked : run.Booked

theorem Sound.start (state : ClientBase.State) :
    (ServiceRun.start state : ServiceRun Payload).Sound := by
  have made : (ServiceRun.start state : ServiceRun Payload).mgr =
      (TransMgr.empty.registerCmd redisCmdReq 10000).1 := by rw [ServiceRun.start]
  refine ⟨?_, fun coId => ?_, ?_, ?_, ?_, ?_⟩
  · have staffed := @TransMgr.Staffed.registerCmd (Option (TaskMsg Payload)) redisCmdReq 10000
      (by omega)
    rw [Nat.cast_ofNat] at staffed
    rwa [made]
  · rw [made, TransMgr.registerCmd_coTask]
    exact ⟨fun _ => rfl, fun _ => rfl⟩
  · exact Ledger.Balanced.empty
  · rintro coId locals ⟨⟩
  · rintro request ⟨⟩
  · rintro sent ⟨⟩

/-- A coroutine gets a request and a call, or loses both. -/
theorem tracked_update {locals : CoId → Option (TaskLocals Payload)}
    {waits : CoId → Option YieldCall} (tracked : ∀ coId, locals coId = none ↔ waits coId = none)
    {carried : Option (TaskLocals Payload)} {call : Option YieldCall}
    (same : carried = none ↔ call = none) (coId other : CoId) :
    Function.update locals coId carried other = none ↔
      Function.update waits coId call other = none := by
  rw [Function.update_apply, Function.update_apply]
  split_ifs
  · exact same
  · exact tracked other

section Record

variable {task : Option (TaskStart Payload)} {coId : CoId}
  {outcome : MgrOutcome (Option (TaskMsg Payload))}
  {last : CoEvent SharedTrans (Option (TaskMsg Payload))}

/-- A step that wakes nobody. -/
theorem Sound.quiet (sound : run.Sound)
    (staffed : outcome.mgr.Staffed redisCmdReq (List.range' 0 10000))
    (events : outcome.events = []) (waits : outcome.mgr.coTask.waits = run.mgr.coTask.waits) :
    (run.record wire task outcome).Sound := by
  rw [record, events, List.foldl_nil]
  refine ⟨staffed, fun coId => ?_, sound.booked.frame _ _ _⟩
  rw [sound.tracked coId, waits]

/-- A task that returns from its `Yield` sends its reply and ends. -/
theorem Sound.returned (sound : run.Sound) {call : YieldCall} {ret : Int}
    {wake : Wake (Option (TaskMsg Payload))} {msg : Option (Option (TaskMsg Payload))}
    (staffed : outcome.mgr.Staffed redisCmdReq (List.range' 0 10000))
    (waiting : run.mgr.coTask.waits coId = some call)
    (events : outcome.events = [.returned coId call ret wake msg, last])
    (left : Left run.mgr.coTask coId .finish outcome.mgr.coTask last) :
    (run.record wire task outcome).Sound := by
  have busy : run.locals coId ≠ none := by
    rw [Ne, sound.tracked coId, waiting]
    simp
  obtain ⟨locals, found⟩ := Option.ne_none_iff_exists'.mp busy
  cases left with
  | finished waits yields =>
      have same : run.record wire task outcome =
          { (run.sendMsg wire locals (RedisCmd.cmd ret (msg.join.map wire.cast))).endTask coId with
            mgr := outcome.mgr } := by
        rw [record, events]
        simp only [List.foldl_cons, List.foldl_nil, observe, found]
        rfl
      have booked : ((run.sendMsg wire locals
          (RedisCmd.cmd ret (msg.join.map wire.cast))).endTask coId).Booked :=
        sound.booked.endTask found _
      rw [same]
      refine ⟨staffed, fun other => ?_, booked.frame _ _ _⟩
      rw [waits]
      exact tracked_update sound.tracked (by simp) coId other

/-- A new task waits for its reply, or sends an empty one and ends. -/
theorem Sound.started (sound : run.Sound) {head : MsgHead Payload} {submits : Bool} {now : Time}
    {ptr : Addr} {shared : Option SharedTrans} (named : head.cmd = redisCmdReq)
    (staffed : outcome.mgr.Staffed redisCmdReq (List.range' 0 10000))
    (free : run.mgr.coTask.waits coId = none)
    (events : outcome.events = [.started coId shared, last])
    (left : Left run.mgr.coTask coId (taskSegment now ptr (some ⟨head, submits⟩))
      outcome.mgr.coTask last) :
    (run.record wire (some ⟨head, submits⟩) outcome).Sound := by
  have idle : run.locals coId = none := (sound.tracked coId).mpr free
  have booked := sound.booked.getMsg idle named
  cases submits with
  | true =>
      cases left with
      | yielded waits yields =>
          have same : run.record wire (some ⟨head, true⟩) outcome =
              { run.getMsg coId head with
                mgr := outcome.mgr, callbacks := run.callbacks ++ [coId] } := by
            rw [record, events]
            rfl
          rw [same]
          refine ⟨staffed, fun other => ?_, booked.frame _ _ _⟩
          rw [waits]
          exact tracked_update sound.tracked (by simp) coId other
  | false =>
      cases left with
      | finished waits yields =>
          have same : run.record wire (some ⟨head, false⟩) outcome =
              { ((run.getMsg coId head).sendMsg wire ⟨run.accepted.length, head⟩
                  (.ok none)).endTask coId with mgr := outcome.mgr } := by
            rw [record, events]
            rfl
          have found : (run.getMsg coId head).locals coId = some ⟨run.accepted.length, head⟩ :=
            Function.update_self _ _ _
          have closed : (((run.getMsg coId head).sendMsg wire ⟨run.accepted.length, head⟩
              (.ok none)).endTask coId).Booked := booked.endTask found (.ok none)
          rw [same]
          refine ⟨staffed, fun other => ?_, closed.frame _ _ _⟩
          have emptied : Function.update (run.getMsg coId head).locals coId none =
              Function.update run.locals coId none := Function.update_idem _ _ _
          change Function.update (run.getMsg coId head).locals coId none other = none ↔ _
          rw [waits, emptied]
          exact tracked_update sound.tracked (by simp) coId other

end Record

theorem Sound.onMsg (sound : run.Sound) {head : MsgHead Payload} {hiredis : RedisCommand → Int}
    {now : Time} {ptr : Addr} (stepped : run.onMsg wire head hiredis now ptr = some next) :
    next.Sound := by
  obtain ⟨outcome, served, rfl⟩ := Option.map_eq_some_iff.mp stepped
  have staffed := sound.staffed.step (by rintro cmd count ⟨⟩) served
  obtain ⟨_, switched⟩ := TransMgr.step_switched sound.staffed.orderly.resting served
  cases switched with
  | quiet events waits yields => exact sound.quiet staffed events waits
  | started fresh events left =>
      have named := sound.staffed.onMsg_cmd fresh served (by simp [events])
      have incoming : run.incoming wire head hiredis =
          some ⟨head, run.submits wire head hiredis⟩ := if_pos fresh
      rw [incoming] at left ⊢
      exact sound.started named staffed sound.staffed.nextCoId_free events left
  | answered named waiting events left =>
      have incoming : run.incoming wire head hiredis = none := if_neg named
      rw [incoming] at left
      exact sound.returned staffed waiting events left

theorem Sound.getCallback (sound : run.Sound) {coId : CoId} {reply : Option RedisReply}
    (stepped : run.getCallback wire coId reply = some next) : next.Sound := by
  obtain ⟨_, operated⟩ := Option.ite_none_right_eq_some.mp stepped
  obtain ⟨outcome, settled, rfl⟩ := Option.map_eq_some_iff.mp operated
  obtain ⟨woken, resumed, rfl⟩ := Option.map_eq_some_iff.mp settled
  have staffed := sound.staffed.resumeOneWithMsg resumed
  have sameTask : (run.mgr.settle woken).mgr.coTask = woken.coTask := TransMgr.settle_coTask woken
  obtain ⟨_, ⟨_, events, waits, _⟩ | ⟨call, last, waiting, events, left⟩⟩ :=
    sound.staffed.orderly.resting.resumeOneWithMsg resumed
  · rw [← sameTask] at waits
    exact sound.quiet staffed events waits
  · rw [← sameTask] at left
    exact sound.returned staffed waiting events left

/-- Every step of the server keeps its books. -/
theorem Sound.step (sound : run.Sound) {act : ServiceAct Payload}
    (stepped : run.step wire act = some next) : next.Sound := by
  cases act with
  | setState state =>
      cases stepped
      exact ⟨sound.staffed, sound.tracked, sound.booked.frame _ _ _⟩
  | onMsg head hiredis now ptr => exact sound.onMsg stepped
  | getCallback place reply =>
      obtain ⟨coId, _, called⟩ := Option.bind_eq_some_iff.mp stepped
      have kept : ({ run with callbacks := run.callbacks.eraseIdx place } :
          ServiceRun Payload).Sound :=
        ⟨sound.staffed, sound.tracked, sound.booked.frame _ _ _⟩
      exact kept.getCallback called
  | tickTimeOutCo now =>
      obtain ⟨outcome, served, rfl⟩ := Option.map_eq_some_iff.mp stepped
      have staffed := sound.staffed.step (by rintro cmd count ⟨⟩) served
      obtain ⟨_, switched⟩ := TransMgr.step_switched sound.staffed.orderly.resting served
      cases switched with
      | quiet events waits yields => exact sound.quiet staffed events waits
  | proceed =>
      obtain ⟨outcome, served, rfl⟩ := Option.map_eq_some_iff.mp stepped
      have staffed := sound.staffed.step (by rintro cmd count ⟨⟩) served
      obtain ⟨_, switched⟩ := TransMgr.step_switched sound.staffed.orderly.resting served
      cases switched with
      | quiet events waits yields => exact sound.quiet staffed events waits
      | timedOut waiting events left => exact sound.returned staffed waiting events left

/-- The active transactions are the ones with a request in their locals. -/
theorem Sound.mem_active (sound : run.Sound) (coId : CoId) :
    coId ∈ run.active ↔ ∃ locals, run.locals coId = some locals := by
  rw [← Option.ne_none_iff_exists', Ne, sound.tracked coId,
    sound.staffed.orderly.resting.waits_eq_none, active, Finmap.mem_keys, ← Finmap.lookup_isSome]
  exact Option.isSome_iff_ne_none

theorem Sound.oneReply (sound : run.Sound) : run.OneReply := by
  have balanced := sound.booked.balanced
  refine ⟨sound.booked.answers, balanced.once (), sound.mem_active, sound.booked.own, ?_, ?_, ?_⟩
  · intro coId other mine theirs found foundOther same
    exact balanced.single () mine.number coId other (ledger_held.mpr ⟨mine, found, rfl⟩)
      (ledger_held.mpr ⟨theirs, foundOther, same.symm⟩)
  · intro number below
    constructor
    · rintro answered coId locals found rfl
      exact balanced.apart () locals.number answered coId (ledger_held.mpr ⟨locals, found, rfl⟩)
    · intro free
      rcases (balanced.whole () number).mp (List.mem_range.mpr below) with answered | ⟨coId, held⟩
      · exact answered
      · obtain ⟨locals, found, same⟩ := ledger_held.mp held
        exact absurd same (free coId locals found)
  · have counted := balanced.count List.nodup_range run.active fun coId => by
      rw [sound.mem_active coId]
      constructor
      · rintro ⟨locals, found⟩
        exact ⟨locals.number, ledger_held.mpr ⟨locals, found, rfl⟩⟩
      · rintro ⟨number, held⟩
        obtain ⟨locals, found, _⟩ := ledger_held.mp held
        exact ⟨locals, found⟩
    simpa [ledger] using counted

end ServiceRun

/-- A wire that carries the messages as they are. -/
def plainWire : RedisWire (RedisCmdReq ⊕ RedisCmdRsp) where
  req := ⟨.inl, fun text => text.elim (·, true) fun _ => (⟨[], []⟩, false)⟩
  rsp := ⟨.inr, fun text => text.elim (fun _ => (⟨none⟩, false)) (·, true)⟩
  garbage _ := ⟨0, 0, none, []⟩

/-- In every run of the server, each accepted request gets one reply when its transaction ends. -/
theorem redis_one_reply {Payload : Type} (wire : RedisWire Payload) (state : ClientBase.State) :
    (serviceMachine wire state).Always Machine.anyStep ServiceRun.OneReply := by
  have kept : ∀ run act next, run.Sound → Machine.anyStep run act →
      (serviceMachine wire state).step run act = some next → next.Sound :=
    fun run act next sound _ stepped => sound.step stepped
  exact Machine.always_of_invariant _ (ServiceRun.Sound.start state) kept
    fun run sound => sound.oneReply

/-- Redis answers a request, hiredis refuses one, one times out, and one waits. -/
def fourRequestsRun : List (ServiceAct (RedisCmdReq ⊕ RedisCmdRsp)) :=
  let head (srcCoId : CoId) (srcBusId : Bytes) : MsgHead (RedisCmdReq ⊕ RedisCmdRsp) :=
    ⟨redisCmdReq, srcCoId, 0, srcBusId, [0], .inl ⟨[[80, 73, 78, 71]], []⟩⟩
  [.onMsg (head 7 [1]) (fun _ => 0) 0 1, .onMsg (head 8 [2]) (fun _ => -1) 10 2,
    .onMsg (head 9 [3]) (fun _ => 0) 20 2,
    .getCallback 0 (some ⟨RedisReplyType.status, 0, some [80], []⟩),
    .onMsg (head 7 [1]) (fun _ => 0) 4000 3, .tickTimeOutCo 5020, .proceed, .proceed, .proceed]

theorem redis_one_reply_four : ∃ last, (serviceMachine plainWire .kConnected).run
    (serviceMachine plainWire .kConnected).start fourRequestsRun = some last ∧
      last.sent.length = 3 ∧ last.accepted.length = 4 ∧ last.OneReply := by
  have reached : ((serviceMachine plainWire .kConnected).run
      (serviceMachine plainWire .kConnected).start fourRequestsRun).any (fun last =>
        decide (last.sent.length = 3 ∧ last.accepted.length = 4)) = true := by
    rw [serviceMachine, ServiceRun.start_eq]
    decide +kernel
  obtain ⟨last, reached, counts⟩ := Machine.exists_of_check _ reached
  obtain ⟨sent, accepted⟩ := of_decide_eq_true counts
  exact ⟨last, reached, sent, accepted, redis_one_reply plainWire .kConnected fourRequestsRun last
    reached (Machine.meets_anyStep _ _ _)⟩

end QServer
