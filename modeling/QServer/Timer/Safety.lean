import QServer.Timer.Roster

/-
This file proves when the timer runs a task. The times are assumed not to overflow.
-/

namespace QServer
open Transition

/-- An item that no other item repeats occurs once. -/
theorem countP_eq_one {α β : Type} [DecidableEq β] {name : α → β} {again : α → Prop}
    {items : List α}
    (distinct : items.Pairwise fun a b => name a = name b → again a ∧ again b)
    {item : α} (member : item ∈ items) (once : ¬again item) :
    (items.countP fun other => name other = name item) = 1 := by
  induction items with
  | nil => exact absurd member List.not_mem_nil
  | cons head rest ih =>
      obtain ⟨apart, tail⟩ := List.pairwise_cons.mp distinct
      rcases List.mem_cons.mp member with rfl | later
      · have none_rest : (rest.countP fun other => name other = name item) = 0 := by
          rw [List.countP_eq_zero]
          intro other inside same
          exact once (apart other inside (of_decide_eq_true same).symm).1
        rw [List.countP_cons_of_pos (by simp), none_rest]
      · have different : name head ≠ name item := fun same => once (apart item later same).2
        rw [List.countP_cons_of_neg (by simpa using different)]
        exact ih tail later

namespace TimerRun

variable {run next : TimerRun}

/-- The deadlines of the batch and of the log keep their order. -/
structure Timed (run : TimerRun) : Prop where
  due : ∀ batch, run.batch = some batch → ∀ node ∈ batch.rest, node.deadline ≤ batch.now
  sorted : run.rest.Pairwise fun a b => a.deadline ≤ b.deadline
  logDue : ∀ entry ∈ run.log, entry.deadline ≤ entry.now
  logCalls : ∀ entry ∈ run.log, entry.call ≤ run.calls
  logSorted : run.log.Pairwise fun a b => a.call = b.call → a.deadline ≤ b.deadline
  logBelow : ∀ entry ∈ run.log, entry.call = run.calls →
    ∀ node ∈ run.rest, entry.deadline ≤ node.deadline

theorem timed_start : Timed start := by
  constructor <;> simp [start, rest]

theorem Timed.doTimeOutTask (timed : Timed run) {now : Time}
    (stepped : run.doTimeOutTask now = some next) : Timed next := by
  obtain ⟨_, rfl⟩ := doTimeOutTask_cases stepped
  constructor
  · intro batch started node member
    cases started
    exact run.timer.takeBatch_due member
  · exact run.timer.takeBatch_sorted now
  · exact timed.logDue
  · exact fun entry member => Nat.le_succ_of_le (timed.logCalls entry member)
  · exact timed.logSorted
  · intro entry member same
    have old := timed.logCalls entry member
    simp only at same
    omega

theorem Timed.visit (timed : Timed run) (stepped : run.visit = some next) : Timed next := by
  rcases visit_cases stepped with ⟨now, timeOutSet, running, rfl⟩ |
    ⟨now, timeOutSet, node, rest, timer, running, taken, rfl⟩ |
    ⟨now, timeOutSet, node, rest, running, passed, rfl⟩
  · refine ⟨?_, ?_, timed.logDue, timed.logCalls, timed.logSorted, ?_⟩ <;>
      simp [TimerRun.rest]
  all_goals
    have due := timed.due _ running
    have sorted := timed.sorted
    have below := timed.logBelow
    simp only [TimerRun.rest, running, Option.map_some, Option.getD_some] at due sorted below
    obtain ⟨first, tail⟩ := List.pairwise_cons.mp sorted
  · refine ⟨?_, tail, timed.logDue, timed.logCalls, timed.logSorted, ?_⟩
    · rintro batch ⟨⟩ other member
      exact due other (List.mem_cons_of_mem _ member)
    · exact fun entry member same other inside =>
        below entry member same other (List.mem_cons_of_mem _ inside)
  · refine ⟨?_, tail, ?_, ?_, ?_, ?_⟩
    · rintro batch ⟨⟩ other member
      exact due other (List.mem_cons_of_mem _ member)
    · intro entry member
      rcases List.mem_append.mp member with old | new
      · exact timed.logDue entry old
      · rw [List.mem_singleton.mp new]
        exact due node (by simp)
    · intro entry member
      rcases List.mem_append.mp member with old | new
      · exact timed.logCalls entry old
      · rw [List.mem_singleton.mp new]
    · refine List.pairwise_append.mpr ⟨timed.logSorted, List.pairwise_singleton _ _, ?_⟩
      intro entry old other new same
      rw [List.mem_singleton.mp new] at same ⊢
      exact below entry old same node (by simp)
    · intro entry member same other inside
      rcases List.mem_append.mp member with old | new
      · exact below entry old same other (List.mem_cons_of_mem _ inside)
      · rw [List.mem_singleton.mp new]
        exact first other inside

theorem Timed.step (timed : Timed run) {act : TimerAct} (stepped : run.step act = some next) :
    Timed next := by
  cases act with
  | addTimer ptr now interval repeats =>
      obtain ⟨_, rfl⟩ := addTimer_cases stepped
      exact ⟨timed.due, timed.sorted, timed.logDue, timed.logCalls, timed.logSorted,
        timed.logBelow⟩
  | cancelTimer timerId =>
      rw [cancelTimer_cases stepped]
      exact ⟨timed.due, timed.sorted, timed.logDue, timed.logCalls, timed.logSorted,
        timed.logBelow⟩
  | doTimeOutTask now => exact timed.doTimeOutTask stepped
  | visit => exact timed.visit stepped
  | taskReturns =>
      obtain ⟨now, timeOutSet, rest, node, running, rfl⟩ := taskReturns_cases stepped
      have due := timed.due _ running
      have sorted := timed.sorted
      have below := timed.logBelow
      simp only [TimerRun.rest, running, Option.map_some, Option.getD_some] at due sorted below
      refine ⟨?_, sorted, timed.logDue, timed.logCalls, timed.logSorted, below⟩
      rintro batch ⟨⟩
      exact due

/-- A task that does not repeat leaves the timer when it runs. -/
structure Counted (run : TimerRun) : Prop where
  known : ∀ entry ∈ run.log, entry.task < run.issued.length
  waits : ∀ entry ∈ run.log, ∀ node ∈ run.waiting, entry.task = node.info.task →
    entry.repeats = true ∧ node.info.repeats = true
  runs : ∀ entry ∈ run.log, ∀ node ∈ run.current, entry.task = node.info.task →
    entry.repeats = node.info.repeats
  distinct : run.log.Pairwise fun a b => a.task = b.task → a.repeats = true ∧ b.repeats = true

theorem counted_start : Counted start := by
  constructor <;> simp [start]

theorem Counted.addTimer (counted : Counted run) {ptr : Addr} {now interval : Time}
    {repeats : Bool} (stepped : run.addTimer ptr now interval repeats = some next) :
    Counted next := by
  have placed := addTimer_nodes stepped
  obtain ⟨_, rfl⟩ := addTimer_cases stepped
  constructor
  · intro entry member
    have old := counted.known entry member
    simp only [List.length_append, List.length_singleton]
    omega
  · intro entry member node inside same
    rcases List.mem_append.mp inside with stored | later
    · rcases List.mem_cons.mp (placed.mem_iff.mp stored) with rfl | old
      · have bound := counted.known entry member
        simp only [Timer.newNode] at same
        omega
      · exact counted.waits entry member node (List.mem_append_left _ old) same
    · exact counted.waits entry member node (List.mem_append_right _ later) same
  · exact counted.runs
  · exact counted.distinct

theorem Counted.visit (rostered : Rostered run) (counted : Counted run)
    (stepped : run.visit = some next) : Counted next := by
  have fewer := visit_waiting stepped
  have acted : run.step .visit = some next := stepped
  have sameIssued := issued_step (by rintro _ _ _ _ ⟨⟩) acted
  rcases visit_starts stepped with ⟨idle, sameLog⟩ | ⟨now, node, waits, _, runs, logged⟩
  · constructor
    · rw [sameLog, sameIssued]
      exact counted.known
    · rw [sameLog]
      exact fun entry member other inside => counted.waits entry member other (fewer inside)
    · rw [idle]
      simp
    · rw [sameLog]
      exact counted.distinct
  · have moved := rostered.step acted
    constructor
    · rw [logged, sameIssued]
      intro entry member
      rcases List.mem_append.mp member with old | new
      · exact counted.known entry old
      · rw [List.mem_singleton.mp new]
        exact rostered.task_lt (waiting_subset_roster waits)
    · rw [logged]
      intro entry member other inside same
      rcases List.mem_append.mp member with old | new
      · exact counted.waits entry old other (fewer inside) same
      · rw [List.mem_singleton.mp new] at same
        exact absurd same (moved.current_apart runs inside)
    · rw [logged, runs]
      intro entry member other inside same
      cases Option.mem_some_iff.mp inside
      rcases List.mem_append.mp member with old | new
      · have both := counted.waits entry old node waits same
        rw [both.1, both.2]
      · rw [List.mem_singleton.mp new]
    · rw [logged]
      refine List.pairwise_append.mpr ⟨counted.distinct, List.pairwise_singleton _ _, ?_⟩
      intro entry old other new same
      rw [List.mem_singleton.mp new] at same ⊢
      exact counted.waits entry old node waits same

theorem Counted.taskReturns (rostered : Rostered run) (counted : Counted run)
    (stepped : run.taskReturns = some next) : Counted next := by
  have comesBack := @taskReturns_waiting _ _ rostered stepped
  obtain ⟨now, timeOutSet, rest, node, running, rfl⟩ := taskReturns_cases stepped
  refine ⟨counted.known, ?_, by simp [current], counted.distinct⟩
  intro entry member other inside same
  rcases comesBack inside with old | ⟨batch, returned, before, active, again, rfl⟩
  · exact counted.waits entry member other old same
  · have runs : run.current = some returned := by rw [current, before, Option.bind_some, active]
    exact ⟨(counted.runs entry member returned runs same).trans again, again⟩

theorem Counted.step (rostered : Rostered run) (counted : Counted run) {act : TimerAct}
    (stepped : run.step act = some next) : Counted next := by
  cases act with
  | addTimer ptr now interval repeats => exact counted.addTimer stepped
  | cancelTimer timerId =>
      rw [cancelTimer_cases stepped]
      exact ⟨counted.known, counted.waits, counted.runs, counted.distinct⟩
  | doTimeOutTask now =>
      obtain ⟨moved, silent⟩ := doTimeOutTask_waiting stepped
      obtain ⟨idle, rfl⟩ := doTimeOutTask_cases stepped
      refine ⟨counted.known, ?_, by simp [silent], counted.distinct⟩
      exact fun entry member node inside =>
        counted.waits entry member node (moved.mem_iff.mp inside)
  | visit => exact counted.visit rostered stepped
  | taskReturns => exact counted.taskReturns rostered stepped

/-- A pending timer waits, or it repeats and its task runs. -/
def Pending (run : TimerRun) (node : TimerNode Nat) : Prop :=
  node ∈ run.waiting ∨ run.current = some node ∧ node.info.repeats = true

theorem Pending.roster {node : TimerNode Nat} (pending : run.Pending node) :
    node ∈ run.roster := by
  rcases pending with waits | ⟨runs, _⟩
  · exact waiting_subset_roster waits
  · exact List.mem_append_left _ (by simp [runs])

/-- Every pending node of the task has its entry in the cancel list. -/
structure Stopped (task : Nat) (run : TimerRun) : Prop where
  known : task < run.issued.length
  cancelled : ∀ node, run.Pending node → node.info.task = task →
    node.id ∈ run.timer.cancelList

/-- The runs of one task. -/
def runsOf (task : Nat) (log : List TaskRun) : List TaskRun :=
  log.filter fun entry => entry.task = task

theorem Stopped.addTimer {task : Nat} (stopped : Stopped task run) {ptr : Addr}
    {now interval : Time} {repeats : Bool}
    (stepped : run.addTimer ptr now interval repeats = some next) : Stopped task next := by
  have placed := addTimer_nodes stepped
  obtain ⟨_, rfl⟩ := addTimer_cases stepped
  have known := stopped.known
  refine ⟨by simp only [List.length_append, List.length_singleton]; omega, ?_⟩
  rintro node (inside | ⟨runs, again⟩) same
  · rcases List.mem_append.mp inside with stored | later
    · rcases List.mem_cons.mp (placed.mem_iff.mp stored) with rfl | old
      · simp only [Timer.newNode] at same
        omega
      · exact stopped.cancelled node (Or.inl (List.mem_append_left _ old)) same
    · exact stopped.cancelled node (Or.inl (List.mem_append_right _ later)) same
  · exact stopped.cancelled node (Or.inr ⟨runs, again⟩) same

theorem Stopped.visit {task : Nat} (rostered : Rostered run) (stopped : Stopped task run)
    (stepped : run.visit = some next) :
    Stopped task next ∧ runsOf task next.log = runsOf task run.log := by
  have acted : run.step .visit = some next := stepped
  have known : task < next.issued.length :=
    issued_step (by rintro _ _ _ _ ⟨⟩) acted ▸ stopped.known
  have waits : ∀ other ∈ next.waiting, other.info.task = task →
      other.id ∈ next.timer.cancelList := fun other inside same =>
    visit_cancelList rostered stepped inside
      (stopped.cancelled other (Or.inl (visit_waiting stepped inside)) same)
  rcases visit_starts stepped with ⟨idle, sameLog⟩ | ⟨now, node, first, passed, runs, logged⟩
  · refine ⟨⟨known, ?_⟩, by rw [sameLog]⟩
    rintro other (inside | ⟨active, _⟩) same
    · exact waits other inside same
    · rw [idle] at active
      cases active
  · have different : node.info.task ≠ task := fun same =>
      passed (stopped.cancelled node (Or.inl first) same)
    refine ⟨⟨known, ?_⟩, by simp [logged, runsOf, List.filter_append, different]⟩
    rintro other (inside | ⟨active, _⟩) same
    · exact waits other inside same
    · rw [runs] at active
      cases active
      exact absurd same different

theorem Stopped.taskReturns {task : Nat} (rostered : Rostered run) (stopped : Stopped task run)
    (stepped : run.taskReturns = some next) : Stopped task next := by
  have comesBack := @taskReturns_waiting _ _ rostered stepped
  obtain ⟨now, timeOutSet, rest, node, running, rfl⟩ := taskReturns_cases stepped
  refine ⟨stopped.known, ?_⟩
  rintro other (inside | ⟨runs, _⟩) same
  · rw [Timer.requeue_cancelList]
    rcases comesBack inside with old | ⟨batch, returned, before, active, again, rfl⟩
    · exact stopped.cancelled other (Or.inl old) same
    · have returns : run.current = some returned := by
        rw [current, before, Option.bind_some, active]
      exact stopped.cancelled returned (Or.inr ⟨returns, again⟩) same
  · exact absurd runs (by simp [current])

theorem Stopped.step {task : Nat} (rostered : Rostered run) (stopped : Stopped task run)
    {act : TimerAct} (stepped : run.step act = some next) :
    Stopped task next ∧ runsOf task next.log = runsOf task run.log := by
  cases act with
  | addTimer ptr now interval repeats =>
      refine ⟨stopped.addTimer stepped, ?_⟩
      rw [(addTimer_cases stepped).2]
  | cancelTimer timerId =>
      rw [cancelTimer_cases stepped]
      refine ⟨⟨stopped.known, fun node pending same => ?_⟩, rfl⟩
      exact Finset.mem_insert_of_mem (stopped.cancelled node pending same)
  | doTimeOutTask now =>
      obtain ⟨moved, silent⟩ := doTimeOutTask_waiting stepped
      obtain ⟨idle, rfl⟩ := doTimeOutTask_cases stepped
      refine ⟨⟨stopped.known, ?_⟩, rfl⟩
      rintro node (inside | ⟨runs, _⟩) same
      · exact stopped.cancelled node (Or.inl (moved.mem_iff.mp inside)) same
      · rw [silent] at runs
        cases runs
  | visit => exact stopped.visit rostered stepped
  | taskReturns =>
      refine ⟨stopped.taskReturns rostered stepped, ?_⟩
      obtain ⟨_, _, _, _, _, rfl⟩ := taskReturns_cases stepped
      rfl

/-- The run keeps every invariant of the timer. -/
structure Sound (run : TimerRun) : Prop where
  rostered : Rostered run
  timed : Timed run
  counted : Counted run

theorem Sound.step (sound : Sound run) {act : TimerAct} (stepped : run.step act = some next) :
    Sound next :=
  ⟨sound.rostered.step stepped, sound.timed.step stepped,
    sound.counted.step sound.rostered stepped⟩

theorem sound_start : Sound start := ⟨rostered_start, timed_start, counted_start⟩

theorem sound_of_run {acts : List TimerAct} (sound : Sound run)
    (reached : timerMachine.run run acts = some next) : Sound next :=
  timerMachine.run_invariant (fun _ _ _ held stepped => Sound.step held stepped) sound reached

/-- A cancel of a pending timer stops its task. -/
theorem Stopped.of_cancel (sound : Sound run) {node : TimerNode Nat} (pending : run.Pending node)
    (stepped : run.cancelTimer node.id = some next) : Stopped node.info.task next := by
  have known := sound.rostered.task_lt pending.roster
  rw [cancelTimer_cases stepped]
  refine ⟨known, fun other waits same => ?_⟩
  have twin := sound.rostered.eq_of_task (Pending.roster waits) pending.roster same
  have sameId : other.id = node.id :=
    congrArg (fun object : Addr × TimeInfo Nat => (object.1, object.2.seq)) twin
  exact sameId ▸ Finset.mem_insert_self _ _

/-- A stopped task does not run again. -/
theorem Stopped.never_runs {task : Nat} (sound : Sound run) (stopped : Stopped task run)
    {acts : List TimerAct} (reached : timerMachine.run run acts = some next) :
    runsOf task next.log = runsOf task run.log := by
  have kept : ∀ state act later, (Sound state ∧ Stopped task state ∧
      runsOf task state.log = runsOf task run.log) → timerMachine.step state act = some later →
      Sound later ∧ Stopped task later ∧ runsOf task later.log = runsOf task run.log := by
    rintro state act later ⟨held, stays, same⟩ stepped
    have moved := stays.step held.rostered stepped
    exact ⟨held.step stepped, moved.1, moved.2.trans same⟩
  exact (timerMachine.run_invariant kept ⟨sound, stopped, rfl⟩ reached).2.2

/-- No run of the timer is early, out of order, repeated or after a cancel. -/
theorem timer_safe (acts : List TimerAct) (last : TimerRun)
    (reached : timerMachine.run timerMachine.start acts = some last) :
    (∀ entry ∈ last.log, entry.deadline ≤ entry.now) ∧
    (last.log.Pairwise fun a b => a.call = b.call → a.deadline ≤ b.deadline) ∧
    (∀ entry ∈ last.log, entry.repeats = false →
      (last.log.countP fun other => other.task = entry.task) = 1) ∧
    (∀ node, last.Pending node → ∀ stopped, last.cancelTimer node.id = some stopped →
      ∀ later final, timerMachine.run stopped later = some final →
        runsOf node.info.task final.log = runsOf node.info.task last.log) := by
  have sound : Sound last := sound_of_run sound_start reached
  refine ⟨sound.timed.logDue, sound.timed.logSorted, ?_, ?_⟩
  · intro entry member once
    exact countP_eq_one sound.counted.distinct member (by simp [once])
  · intro node pending stopped cancelled later final continued
    have halted := Stopped.of_cancel sound pending cancelled
    have stepped : last.step (.cancelTimer node.id) = some stopped := cancelled
    have soundStopped : Sound stopped := Sound.step sound stepped
    have same := halted.never_runs soundStopped continued
    rw [cancelTimer_cases cancelled] at same
    exact same

/-- A repeating task runs, cancels itself and does not run again. -/
def selfCancelRun : List TimerAct :=
  [.addTimer 1 0 5 true, .doTimeOutTask 5, .visit, .cancelTimer (1, 0), .taskReturns, .visit,
    .doTimeOutTask 10, .visit, .visit]

theorem timer_safe_self_cancel : ∃ last,
    timerMachine.run timerMachine.start selfCancelRun = some last ∧ last.log.length = 1 ∧
    ∀ entry ∈ last.log, entry.deadline ≤ entry.now := by
  have checked : ((timerMachine.run timerMachine.start selfCancelRun).any
      fun last => last.log.length = 1) = true := by decide +kernel
  obtain ⟨last, reached, counted⟩ := timerMachine.exists_of_check checked
  exact ⟨last, reached, of_decide_eq_true counted, (timer_safe selfCancelRun last reached).1⟩

end TimerRun

end QServer
