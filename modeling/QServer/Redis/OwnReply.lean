import QServer.Redis.RedisSvr

/-
This file proves which command the reply in a response of `redissvr` belongs to.
-/

namespace QServer
open Transition CoTask SvrCommTrans

/-- `Yield` gets the pointer that `GetCallback` delivered for its own command, with the reply of
redis to this command. -/
def CoEvent.OwnReply (run : RedisRun) : CoEvent SharedTrans RedisMsg → Prop
  | .returned coId call ret _ msg => ret = 0 → ∀ ptr, msg = some ptr →
      ∃ reply, ptr = .redisReply reply call.number ∧ (call.number, reply) ∈ run.produced ∧
        ∃ submission, run.submissions[call.number]? = some submission ∧ submission.coId = coId
  | _ => True

/-- A reply in a response is the one that redis produced for the command of the request. -/
def Response.OwnReply (run : RedisRun) (response : Response) : Prop :=
  ∀ pb, response.head.msg.reply = some pb → ∃ number submission produced,
    response.number = some number ∧ run.submissions[number]? = some submission ∧
      response.head = reply submission.head response.head.msg ∧
      (number, produced) ∈ run.produced ∧ pb = TransRedisCmd.replyToPb produced

/-- No empty command and no stray message comes, and no late reply meets another wait. -/
def Undisturbed (run : RedisRun) : RedisAct → Prop
  | .onMsg head accepted _ _ =>
      (head.dstCoId = 0 → run.state = .connected → accepted = true →
        head.msg.command ≠ .argv []) ∧
      (head.dstCoId ≠ 0 → run.mgr.coTask.waits head.dstCoId = none)
  -- Nobody waits under the `co_id`, or the call that registered the callback has not returned.
  | .getCallback _ => ∀ callback ∈ run.callbacks.head?,
      run.mgr.coTask.waits callback.coId = none ∨ run.mgr.coTask.StillWaits callback.number
  | _ => True

instance (run : RedisRun) : DecidablePred (Undisturbed run)
  | .setState _ => isTrue trivial
  | .onMsg head accepted _ _ => inferInstanceAs (Decidable
      ((head.dstCoId = 0 → run.state = .connected → accepted = true →
        head.msg.command ≠ .argv []) ∧
      (head.dstCoId ≠ 0 → run.mgr.coTask.waits head.dstCoId = none)))
  | .getCallback _ => inferInstanceAs (Decidable (∀ callback ∈ run.callbacks.head?,
      run.mgr.coTask.waits callback.coId = none ∨ run.mgr.coTask.StillWaits callback.number))
  | .tickTimeOutCo _ => isTrue trivial
  | .proceed => isTrue trivial

section Later

variable {run next : RedisRun}

/-- Submissions and replies that come later change nothing for a return. -/
theorem CoEvent.OwnReply.later {event : CoEvent SharedTrans RedisMsg} (own : event.OwnReply run)
    (submissions : run.submissions <+: next.submissions)
    (produced : run.produced <+: next.produced) :
    event.OwnReply next := by
  obtain ⟨more, sameSubmissions⟩ := submissions
  cases event with
  | returned coId call ret wake msg =>
      intro normal ptr same
      obtain ⟨reply, delivered, known, submission, submitted, named⟩ := own normal ptr same
      refine ⟨reply, delivered, produced.subset known, submission, ?_, named⟩
      rw [← sameSubmissions]
      exact getElem?_append_some submitted more
  | _ => trivial

theorem Response.OwnReply.later {response : Response} (own : response.OwnReply run)
    (submissions : run.submissions <+: next.submissions)
    (produced : run.produced <+: next.produced) :
    response.OwnReply next := by
  obtain ⟨more, sameSubmissions⟩ := submissions
  intro pb serialised
  obtain ⟨number, submission, reply, numbered, submitted, head, known, same⟩ := own pb serialised
  refine ⟨number, submission, reply, numbered, ?_, head, produced.subset known, same⟩
  rw [← sameSubmissions]
  exact getElem?_append_some submitted more

end Later

namespace RedisRun

variable {garbage : MsgHead RedisCmdReq → RedisReply} {run next : RedisRun}

/-- The commands are numbered as the calls, and the callbacks stand in the order of the replies. -/
structure Owned (run : RedisRun) : Prop where
  resting : run.mgr.coTask.Resting
  counted : run.submissions.length = run.mgr.coTask.yields
  sender : ∀ coId call, run.mgr.coTask.waits coId = some call →
    ∃ submission, run.submissions[call.number]? = some submission ∧ submission.coId = coId
  registered : ∀ callback ∈ run.callbacks,
    ∃ submission, run.submissions[callback.number]? = some submission ∧
      submission.coId = callback.coId
  aligned : run.callbacks.map Callback.number = run.unanswered
  events : ∀ event ∈ run.trace, event.OwnReply run
  responses : ∀ response ∈ run.responses, response.OwnReply run

theorem Owned.start : RedisRun.start.Owned := by
  have idle : RedisRun.start.mgr.coTask = CoTask.empty := by
    rw [RedisRun.start, TransMgr.registerCmd_coTask]
    rfl
  refine ⟨idle ▸ Resting.empty, ?_, ?_, ?_, rfl, ?_, ?_⟩
  · rw [idle]
    rfl
  · intro coId call waiting
    rw [idle] at waiting
    cases waiting
  · intro callback member
    cases member
  · intro event member
    cases member
  · intro response member
    cases member

/-- A response keeps all but the responses. -/
theorem Owned.respond (owned : run.Owned) {number : Option Nat} {head : MsgHead RedisCmdReq}
    {result : Except CmdError (Option RedisReply)}
    (own : Response.OwnReply run ⟨number, reply head (TransRedisCmd.respond result)⟩) :
    (run.respond number head result).Owned := by
  refine ⟨owned.resting, owned.counted, owned.sender, owned.registered, owned.aligned,
    owned.events, fun response member => ?_⟩
  rcases List.mem_append.mp member with old | new
  · exact owned.responses response old
  · rw [List.mem_singleton.mp new]
    exact own

/-- A task that returns from its call responds with its own reply. -/
theorem Owned.returned (owned : run.Owned) {coId : CoId} {call : YieldCall} {ret : Int}
    {wake : Wake RedisMsg} {msg : Option RedisMsg} (job : Option Job)
    (own : CoEvent.OwnReply run (.returned coId call ret wake msg)) :
    (run.observe garbage job (.returned coId call ret wake msg)).Owned := by
  cases known : run.submissions[call.number]? with
  | none =>
      simp only [observe, known]
      exact owned
  | some submission =>
      simp only [observe, known]
      refine owned.respond fun pb serialised => ?_
      obtain ⟨reply, found, rfl⟩ := TransRedisCmd.respond_eq_some.mp serialised
      obtain ⟨normal, same, _, _⟩ := RedisCmd.cmd_eq_some.mp found
      obtain ⟨ptr, delivered, cast⟩ := Option.map_eq_some_iff.mp same
      obtain ⟨produced, rfl, member, _⟩ := own normal ptr delivered
      exact ⟨call.number, submission, produced, rfl, known, rfl, member, by rw [← cast]; rfl⟩

section Record

variable {outcome : MgrOutcome RedisMsg} {coId : CoId} {first last : CoEvent SharedTrans RedisMsg}

/-- The manager and the switches of a step in which no command is submitted. -/
theorem Owned.settle (owned : run.Owned) (resting : outcome.mgr.coTask.Resting)
    (yields : outcome.mgr.coTask.yields = run.mgr.coTask.yields)
    (fewer : ∀ other call, outcome.mgr.coTask.waits other = some call →
      run.mgr.coTask.waits other = some call)
    (own : ∀ event ∈ outcome.events, event.OwnReply run) :
    ({ run with mgr := outcome.mgr, trace := run.trace ++ outcome.events } : RedisRun).Owned := by
  have same : ∀ {event : CoEvent SharedTrans RedisMsg}, event.OwnReply run →
      event.OwnReply { run with mgr := outcome.mgr, trace := run.trace ++ outcome.events } :=
    fun own => own.later List.prefix_rfl List.prefix_rfl
  refine ⟨resting, owned.counted.trans yields.symm, fun other call waiting => ?_,
    owned.registered, owned.aligned, fun event member => ?_, fun response member => ?_⟩
  · exact owned.sender other call (fewer other call waiting)
  · rcases List.mem_append.mp member with old | new
    · exact same (owned.events event old)
    · exact same (own event new)
  · exact (owned.responses response member).later List.prefix_rfl List.prefix_rfl

/-- A step that wakes nobody. -/
theorem Owned.quiet (owned : run.Owned) (job : Option Job)
    (resting : outcome.mgr.coTask.Resting) (events : outcome.events = [])
    (waits : outcome.mgr.coTask.waits = run.mgr.coTask.waits)
    (yields : outcome.mgr.coTask.yields = run.mgr.coTask.yields) :
    (run.record garbage job outcome).Owned := by
  have settled := owned.settle resting yields (fun other call waiting => waits ▸ waiting)
    (by simp [events])
  rw [record, events, List.foldl_nil, ← events]
  exact settled

/-- A task that is switched to and ends. -/
theorem Owned.finished (owned : run.Owned) (job : Option Job)
    (resting : outcome.mgr.coTask.Resting) (events : outcome.events = [first, last])
    (left : Left run.mgr.coTask coId .finish outcome.mgr.coTask last)
    (own : first.OwnReply run)
    (observed : ∀ recorded : RedisRun, recorded.Owned → first.OwnReply recorded →
      (recorded.observe garbage job first).Owned) :
    (run.record garbage job outcome).Owned := by
  cases left with
  | finished waits yields =>
      have settled := owned.settle resting yields (fun other call waiting => by
        rw [waits, Function.update_apply] at waiting
        split_ifs at waiting
        exact waiting) (by
        intro event member
        rw [events] at member
        rcases List.mem_pair.mp member with rfl | rfl
        · exact own
        · trivial)
      have after := observed _ settled (own.later List.prefix_rfl List.prefix_rfl)
      rw [record, events]
      rw [events] at after
      exact after

/-- A task that submits its command waits for the reply to it. -/
theorem Owned.submitted (owned : run.Owned) {head : MsgHead RedisCmdReq} {now : Time} {ptr : Addr}
    {task : Option SharedTrans} (full : head.msg.command ≠ .argv [])
    (resting : outcome.mgr.coTask.Resting) (events : outcome.events = [.started coId task, last])
    (left : Left run.mgr.coTask coId (.yield now 5000 ptr) outcome.mgr.coTask last) :
    (run.record garbage (some ⟨head, true⟩) outcome).Owned := by
  cases left with
  | yielded waits yields =>
      have sameRecord : run.record garbage (some ⟨head, true⟩) outcome =
          ({ run with mgr := outcome.mgr, trace := run.trace ++ outcome.events } :
            RedisRun).submit head coId := by
        rw [record, events]
        rfl
      have later : ∀ {event : CoEvent SharedTrans RedisMsg}, event.OwnReply run →
          event.OwnReply (run.record garbage (some ⟨head, true⟩) outcome) := by
        intro event own
        rw [sameRecord]
        exact own.later (List.prefix_append _ _) List.prefix_rfl
      refine ⟨?_, ?_, ?_, ?_, ?_, ?_, ?_⟩
      · rw [sameRecord]
        exact resting
      · rw [sameRecord]
        simp [submit, owned.counted, yields]
      · intro other call waiting
        rw [sameRecord] at waiting ⊢
        change outcome.mgr.coTask.waits other = some call at waiting
        rw [waits, Function.update_apply] at waiting
        split_ifs at waiting with here
        · cases waiting
          refine ⟨⟨head, coId⟩, ?_, here.symm⟩
          change (run.submissions ++ [_])[run.mgr.coTask.yields]? = _
          rw [← owned.counted, List.getElem?_concat_length]
        · obtain ⟨submission, known, named⟩ := owned.sender other call waiting
          exact ⟨submission, getElem?_append_some known _, named⟩
      · intro callback member
        rw [sameRecord] at member ⊢
        rcases List.mem_append.mp member with old | new
        · obtain ⟨submission, known, named⟩ := owned.registered callback old
          exact ⟨submission, getElem?_append_some known _, named⟩
        · rw [List.mem_singleton.mp new]
          exact ⟨⟨head, coId⟩, List.getElem?_concat_length, rfl⟩
      · rw [sameRecord]
        simp [submit, full, owned.aligned]
      · intro event member
        rw [sameRecord] at member
        rcases List.mem_append.mp member with old | new
        · exact later (owned.events event old)
        · rw [events] at new
          rcases List.mem_pair.mp new with rfl | rfl
          · trivial
          · trivial
      · intro response member
        rw [sameRecord] at member ⊢
        exact (owned.responses response member).later (List.prefix_append _ _) List.prefix_rfl

end Record

/-- A task that cannot submit its command responds without a reply. -/
theorem Owned.started (owned : run.Owned) {coId : CoId} {task : Option SharedTrans}
    (head : MsgHead RedisCmdReq) :
    (run.observe garbage (some ⟨head, false⟩) (.started coId task)).Owned := by
  refine owned.respond fun pb serialised => ?_
  obtain ⟨reply, found, _⟩ := TransRedisCmd.respond_eq_some.mp serialised
  cases found

theorem Owned.onMsg (owned : run.Owned) {head : MsgHead RedisCmdReq} {accepted : Bool}
    {now : Time} {ptr : Addr} (undisturbed : Undisturbed run (.onMsg head accepted now ptr))
    (stepped : run.onMsg garbage head accepted now ptr = some next) : next.Owned := by
  obtain ⟨outcome, served, rfl⟩ := Option.map_eq_some_iff.mp stepped
  obtain ⟨resting, switched⟩ := TransMgr.step_switched owned.resting served
  cases switched with
  | quiet events waits yields => exact owned.quiet _ resting events waits yields
  | answered named waiting events left =>
      rw [undisturbed.2 named] at waiting
      cases waiting
  | started fresh events left =>
      have started : run.job head accepted =
          some ⟨head, run.state = .connected && accepted⟩ := if_pos fresh
      rw [started] at left ⊢
      cases submits : (decide (run.state = .connected) && accepted) with
      | false =>
          rw [submits] at left
          exact owned.finished _ resting events left trivial fun recorded held _ =>
            held.started head
      | true =>
          rw [submits] at left
          rw [Bool.and_eq_true, decide_eq_true_eq] at submits
          exact owned.submitted (undisturbed.1 fresh submits.1 submits.2) resting events left

/-- A callback whose own call still waits finds no other call under its `co_id`. -/
theorem Owned.own_callback (owned : run.Owned) {callback : Callback}
    (member : callback ∈ run.callbacks)
    (undisturbed : run.mgr.coTask.waits callback.coId = none ∨
      run.mgr.coTask.StillWaits callback.number) {call : YieldCall}
    (waiting : run.mgr.coTask.waits callback.coId = some call) :
    call.number = callback.number := by
  rcases undisturbed with absent | ⟨coId, caller, waits, same⟩
  · cases absent.symm.trans waiting
  · -- The submission names the coroutine of the callback, and there its own call waits.
    obtain ⟨submission, known, sender⟩ := owned.sender coId caller waits
    obtain ⟨submission', known', named⟩ := owned.registered callback member
    rw [same, known', Option.some.injEq] at known
    have here : callback.coId = coId := by rw [← named, known, sender]
    rw [here] at waiting
    cases waits.symm.trans waiting
    exact same

/-- A callback that comes for its own call, or for nobody, keeps the replies apart. -/
theorem Owned.resume (owned : run.Owned) {coId : CoId} {number : Nat} {reply : RedisReply}
    (known : (number, reply) ∈ run.produced)
    (own : ∀ call, run.mgr.coTask.waits coId = some call → call.number = number)
    (stepped : run.resume garbage coId (.redisReply reply number) = some next) : next.Owned := by
  obtain ⟨_, operated⟩ := Option.ite_none_right_eq_some.mp stepped
  obtain ⟨outcome, settled, rfl⟩ := Option.map_eq_some_iff.mp operated
  obtain ⟨woken, resumed, rfl⟩ := Option.map_eq_some_iff.mp settled
  have sameTask : (run.mgr.settle woken).mgr.coTask = woken.coTask := TransMgr.settle_coTask woken
  obtain ⟨resting, ⟨_, events, waits, yields⟩ | ⟨call, last, waiting, events, left⟩⟩ :=
    owned.resting.resumeOneWithMsg resumed
  · rw [← sameTask] at resting waits yields
    exact owned.quiet none resting events waits yields
  · rw [← sameTask] at resting left
    have delivered : CoEvent.OwnReply run (.returned coId call 0
        (.resumeOneWithMsg (.redisReply reply number)) (some (.redisReply reply number))) := by
      intro _ ptr same
      cases same
      exact ⟨reply, by rw [own call waiting], by rw [own call waiting]; exact known,
        owned.sender coId call waiting⟩
    exact owned.finished none resting events left delivered fun recorded held own =>
      held.returned none own

/-- The next reply is the one to the command of the next callback. -/
theorem Owned.getCallback (owned : run.Owned) {reply : RedisReply}
    (undisturbed : Undisturbed run (.getCallback reply))
    (stepped : run.getCallback garbage reply = some next) : next.Owned := by
  unfold RedisRun.getCallback at stepped
  split at stepped
  · rename_i callback callbacks number unanswered registered missing
    have aligned := owned.aligned
    rw [registered, missing, List.map_cons, List.cons.injEq] at aligned
    let answered : RedisRun := { run with
      callbacks, unanswered, produced := run.produced ++ [(number, reply)] }
    have kept : answered.Owned := by
      refine ⟨owned.resting, owned.counted, owned.sender, fun other member => ?_, aligned.2,
        fun event member => ?_, fun response member => ?_⟩
      · exact owned.registered other (registered ▸ List.mem_cons_of_mem callback member)
      · exact (owned.events event member).later List.prefix_rfl (List.prefix_append _ _)
      · exact (owned.responses response member).later List.prefix_rfl (List.prefix_append _ _)
    have first : callback ∈ run.callbacks.head? := by rw [registered, List.head?_cons]; rfl
    refine kept.resume ?_ (fun call waiting => owned.own_callback (List.mem_of_head? first)
      (undisturbed callback first) waiting) stepped
    rw [aligned.1]
    exact List.mem_append_right _ List.mem_cons_self
  · cases stepped

/-- A step that disturbs no wait gives every response its own reply. -/
theorem Owned.step (owned : run.Owned) {act : RedisAct} (undisturbed : Undisturbed run act)
    (stepped : run.step garbage act = some next) : next.Owned := by
  cases act with
  | setState state =>
      cases stepped
      exact ⟨owned.resting, owned.counted, owned.sender, owned.registered, owned.aligned,
        owned.events, owned.responses⟩
  | onMsg head accepted now ptr => exact owned.onMsg undisturbed stepped
  | getCallback reply => exact owned.getCallback undisturbed stepped
  | tickTimeOutCo now =>
      obtain ⟨outcome, served, rfl⟩ := Option.map_eq_some_iff.mp stepped
      obtain ⟨resting, switched⟩ := TransMgr.step_switched owned.resting served
      cases switched with
      | quiet events waits yields => exact owned.quiet none resting events waits yields
  | proceed =>
      obtain ⟨outcome, served, rfl⟩ := Option.map_eq_some_iff.mp stepped
      obtain ⟨resting, switched⟩ := TransMgr.step_switched owned.resting served
      cases switched with
      | quiet events waits yields => exact owned.quiet none resting events waits yields
      | timedOut waiting events left =>
          refine owned.finished none resting events left (fun late => ?_) fun recorded held own =>
            held.returned none own
          cases late

end RedisRun

/-- A `MsgHead` that reads as an empty reply of no type. -/
def blank (_ : MsgHead RedisCmdReq) : RedisReply := ⟨0, 0, none, []⟩

end QServer
