import QServer.Discovery.Fetch
import QServer.Co.Tidy

/-
This file proves when the results of `Create` and `Set` of `app/common/zookeeper_client.cpp` can be
trusted.
-/

namespace QServer
open CoTask

/-- What a command gets from `Yield` and from `GetMsg`. -/
structure Waited where
  ret : Int
  data : ZooPtr

/-- The conversion of an `int` to `bool`. -/
def intToBool (value : Int) : Bool := value ≠ 0

namespace ZooCmd

/-- Without a connection `{}` is returned, which is the `int` 0. -/
def create (state : ClientBase.State) (zRet : Int) (waited : Waited) : Int :=
  if state ≠ .kConnected then 0
  else if zRet ≠ 0 then -1
  else if waited.ret ≠ 0 then -1
  else if waited.data = none then -1
  else 0

/-- The -1 for a refused request becomes a `bool`. -/
def set (state : ClientBase.State) (zRet : Int) (waited : Waited) : Bool :=
  if state ≠ .kConnected then false
  else if zRet ≠ 0 then intToBool (-1)
  else if waited.ret ≠ 0 then false
  else if waited.data = none then false
  else true

end ZooCmd

/-- The struct of a completion with `ZOK` is a pointer like any other here. -/
def ZooKeeperClient.statCompletion (rc : Int) : ZooPtr := if rc = 0 then some .value else none

/-- The ways in which the wait for a request ends. -/
inductive WaitEnd
  | timedOut (now : Time)
  | completed (rc : Int)

/-- The timer of the call or the completion of the request wakes the coroutine. -/
def WaitEnd.wake (completion : Int → ZooPtr) (call : YieldCall) : WaitEnd → Wake ZooPtr
  | .timedOut now => .timer call now
  | .completed rc => .resumeOneWithMsg (completion rc)

/-- A coroutine that waits gets the result and the message of its wake. -/
def Coroutine.waited {Body : Type} (co : Coroutine Body ZooPtr) (wake : Wake ZooPtr) : Waited :=
  ⟨if wake.timeOut then -1 else 0, (wake.msg.or co.coMsg).join⟩

/-- A wake of a coroutine that waits leaves its `Yield` with these values. -/
theorem CoTask.Woken.waited {Body : Type} {coTask : CoTask Body ZooPtr} {coId : CoId}
    {wake : Wake ZooPtr} {segment : Segment} {outcome : Outcome Body ZooPtr}
    {co : Coroutine Body ZooPtr} {call : YieldCall} (woken : Woken coTask coId wake segment outcome)
    (found : coTask.coPool.found coId = some co) (waits : co.context = .suspended call) :
    ∃ msg, outcome.events.head? = some (.returned coId call (co.waited wake).ret wake msg) ∧
      (co.waited wake).data = msg.join := by
  have entering : ∀ {ptr first}, coTask.coPool.findCoId coId = some ptr →
      Entered coId wake (coTask.coPool.object ptr) first →
        first = .returned coId call (co.waited wake).ret wake (wake.msg.or co.coMsg) := by
    intro ptr first active entered
    have same := found
    rw [CoPool.found, active, Option.map_some, Option.some.injEq] at same
    rw [same] at entered
    cases entered with
    | started ready =>
        rw [waits] at ready
        cases ready
    | returned suspended =>
        rw [waits, Context.suspended.injEq] at suspended
        rw [suspended]
        rfl
  refine ⟨wake.msg.or co.coMsg, ?_, rfl⟩
  cases woken with
  | missed absent =>
      rw [CoPool.found_eq_none.mpr absent] at found
      cases found
  | yielded active entered fresh => rw [entering active entered]; rfl
  | finished active entered => rw [entering active entered]; rfl

/-- The wait ended in time and with a pointer. -/
def Waited.Answered (waited : Waited) : Prop := waited.ret = 0 ∧ waited.data ≠ none

namespace ZooCmd

variable {state : ClientBase.State} {zRet : Int} {waited : Waited}

theorem create_eq_zero : create state zRet waited = 0 ↔
    state ≠ .kConnected ∨ zRet = 0 ∧ waited.Answered := by
  unfold create Waited.Answered
  split_ifs with unconnected refused late missing
  · simp [unconnected]
  · simp [unconnected, refused]
  · simp [unconnected, late]
  · simp [unconnected, missing]
  · rw [not_not] at refused late
    simp [refused, late, missing]

theorem set_eq_true : set state zRet waited = true ↔
    state = .kConnected ∧ (zRet ≠ 0 ∨ waited.Answered) := by
  unfold set Waited.Answered
  split_ifs with unconnected refused late missing
  · simp [unconnected]
  · rw [not_not] at unconnected
    simp [unconnected, refused, intToBool]
  · rw [not_not] at refused
    simp [refused, late]
  · rw [not_not] at refused
    simp [refused, missing]
  · rw [not_not] at unconnected late
    simp [unconnected, late, missing]

end ZooCmd

/-- The request was sent, and its completion came with `ZOK`. -/
def Succeeded (state : ClientBase.State) (zRet : Int) (ending : WaitEnd) : Prop :=
  state = .kConnected ∧ zRet = 0 ∧ ending = .completed 0

section Writes

variable {Body : Type} (state : ClientBase.State) (zRet : Int) (co : Coroutine Body ZooPtr)
  (call : YieldCall) (ending : WaitEnd)

/-- What `Create` returns for the ending of its wait. -/
def created : Int :=
  ZooCmd.create state zRet (co.waited (ending.wake ZooKeeperClient.sDataCompletion call))

/-- What `Set` returns for the ending of its wait. -/
def wasSet : Bool :=
  ZooCmd.set state zRet (co.waited (ending.wake ZooKeeperClient.statCompletion call))

variable {co call ending}

/-- A wait is answered by a completion with `ZOK` only, whatever message is left from before. -/
theorem answered_iff {completion : Int → ZooPtr} (pointer : ∀ rc, completion rc ≠ none ↔ rc = 0) :
    (co.waited (ending.wake completion call)).Answered ↔ ending = .completed 0 := by
  cases ending with
  | timedOut now =>
      constructor
      · rintro ⟨inTime, _⟩
        cases inTime
      · intro same
        cases same
  | completed rc =>
      rw [WaitEnd.completed.injEq, ← pointer]
      exact and_iff_right rfl

theorem sDataCompletion_ne_none (rc : Int) :
    ZooKeeperClient.sDataCompletion rc ≠ none ↔ rc = 0 := by
  simp [ZooKeeperClient.sDataCompletion]

theorem statCompletion_ne_none (rc : Int) :
    ZooKeeperClient.statCompletion rc ≠ none ↔ rc = 0 := by
  simp [ZooKeeperClient.statCompletion]

variable (co call ending)

/-- `Create` is honest exactly when connected, and `Set` unless a connected client refuses it. -/
theorem writes_honest_iff :
    ((created state zRet co call ending = 0 → Succeeded state zRet ending) ↔
      state = .kConnected) ∧
    ((wasSet state zRet co call ending = true → Succeeded state zRet ending) ↔
      (state = .kConnected → zRet = 0)) := by
  constructor
  · rw [created, ZooCmd.create_eq_zero, answered_iff sDataCompletion_ne_none, Succeeded]
    constructor
    · intro honest
      by_contra unconnected
      exact unconnected (honest (Or.inl unconnected)).1
    · rintro connected (unconnected | answered)
      · exact absurd connected unconnected
      · exact ⟨connected, answered⟩
  · rw [wasSet, ZooCmd.set_eq_true, answered_iff statCompletion_ne_none, Succeeded]
    constructor
    · intro honest connected
      by_contra refused
      exact refused (honest ⟨connected, Or.inl refused⟩).2.1
    · rintro sent ⟨connected, refused | answered⟩
      · exact absurd (sent connected) refused
      · exact ⟨connected, sent connected, answered⟩

end Writes

/-- A coroutine that waits in its first `Yield`. -/
def waiter : Coroutine Unit ZooPtr := ⟨1, some (), none, false, .suspended ⟨0, 0, 5000⟩⟩

/-- `Create` without a connection returns 0, and `Set` returns true for a refused request. -/
theorem lost_writes_reported :
    (¬∀ state zRet (co : Coroutine Unit ZooPtr) call ending,
      created state zRet co call ending = 0 → Succeeded state zRet ending) ∧
    ¬∀ state zRet (co : Coroutine Unit ZooPtr) call ending,
      wasSet state zRet co call ending = true → Succeeded state zRet ending := by
  constructor
  · intro honest
    have success := honest .kDisConnected 0 waiter ⟨0, 0, 5000⟩ (.timedOut 5000) rfl
    cases success.1
  · intro honest
    have success := honest .kConnected (-9) waiter ⟨0, 0, 5000⟩ (.timedOut 5000) (by decide)
    exact absurd success.2.1 (by decide)

end QServer
