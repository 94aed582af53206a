import QServer.Timer.NoLoss
import Mathlib.Data.List.Chain

/-
This file proves for which intervals a repeating timer keeps its period. The times are assumed not to overflow.
-/

namespace QServer
open Transition TimerRun Container

/-- The times that `DoTimeOutTask` is called with. -/
def ClientAct.batchTimes : ClientAct → List Time
  | .doTimeOutTask now => [now]
  | _ => []

/-- The value fits a `time_t`. -/
def FitsTimeT (time : Int) : Prop := -2 ^ 63 ≤ time ∧ time < 2 ^ 63

instance (time : Int) : Decidable (FitsTimeT time) :=
  inferInstanceAs (Decidable (-2 ^ 63 ≤ time ∧ time < 2 ^ 63))

/-- The times at which the task ran, behind the time of its `AddTimer`. -/
def marks (task : Nat) (now : Time) (run : TimerRun) : List Time :=
  now :: (runsOf task run.log).map TaskRun.now

/-- Each mark comes the interval or more after the one before it. -/
def Spaced (interval : Time) (times : List Time) : Prop :=
  times.IsChain fun first second => first + interval ≤ second

/-- A new mark at the interval after the last one keeps the distance. -/
theorem Spaced.append {interval time : Time} {times : List Time} (spaced : Spaced interval times)
    (later : ∀ last ∈ times.getLast?, last + interval ≤ time) :
    Spaced interval (times ++ [time]) := by
  rw [Spaced, List.isChain_append]
  refine ⟨spaced, List.isChain_singleton _, fun last final first single => ?_⟩
  rw [List.head?_cons, Option.mem_some_iff] at single
  rw [← single]
  exact later last final

/-- A repeating timer runs the interval after its start and after each run, not before. -/
def KeepsPeriod (interval : Time) : Prop :=
  ∀ (before after : List ClientAct) (ptr : Addr) (now : Time) (first last : TimerRun),
    let acts := before ++ .addTimer ptr now interval true :: after
    FitsTimeT now → FitsTimeT (now + interval) →
    (acts.flatMap ClientAct.batchTimes).Pairwise (· ≤ ·) →
    clientMachine.run clientMachine.start before = some first →
    clientMachine.run clientMachine.start acts = some last →
    .cancelTimer first.issued.length ∉ after →
    Spaced interval (marks first.issued.length now last)

namespace TimerRun

variable {run next : TimerRun} {task : Nat} {interval now : Time}

/-- The nodes of the task have its interval and are due the interval after its last mark. -/
structure Paced (task : Nat) (interval now : Time) (run : TimerRun) : Prop where
  known : task < run.issued.length
  spaced : Spaced interval (marks task now run)
  stored : ∀ node ∈ run.roster, node.info.task = task → (node.info.interval : Int) = interval
  later : ∀ node ∈ run.waiting, node.info.task = task →
    ∀ last ∈ (marks task now run).getLast?, last + interval ≤ node.deadline
  current : ∀ batch node, run.batch = some batch → batch.current = some node →
    node.info.task = task → ∀ last ∈ (marks task now run).getLast?, last ≤ batch.now

theorem marks_append {entry : TaskRun} (logged : next.log = run.log ++ [entry]) :
    marks task now next =
      if entry.task = task then marks task now run ++ [entry.now] else marks task now run := by
  rw [marks, runsOf, logged, List.filter_append, marks, runsOf]
  split_ifs with here
  · simp [here]
  · simp [here]

/-- A step that logs no run and brings no node of the task. -/
theorem Paced.quiet (paced : Paced task interval now run) (known : task < next.issued.length)
    (sameLog : next.log = run.log)
    (stored : ∀ node ∈ next.roster, node.info.task = task →
      (node.info.interval : Int) = interval)
    (waits : ∀ node ∈ next.waiting, node.info.task = task → node ∈ run.waiting)
    (current : ∀ batch node, next.batch = some batch → batch.current = some node →
      ∃ old, run.batch = some old ∧ old.current = some node ∧ old.now = batch.now) :
    Paced task interval now next := by
  have sameMarks : marks task now next = marks task now run := by rw [marks, marks, sameLog]
  constructor
  · exact known
  · rw [sameMarks]
    exact paced.spaced
  · exact stored
  · intro node member same
    rw [sameMarks]
    exact paced.later node (waits node member same) same
  · intro batch node running active same
    obtain ⟨old, before, runs, time⟩ := current batch node running active
    rw [sameMarks, ← time]
    exact paced.current old node before runs same

theorem Paced.addTimer (paced : Paced task interval now run) {ptr : Addr} {time period : Time}
    {repeats : Bool} (stepped : run.addTimer ptr time period repeats = some next) :
    Paced task interval now next := by
  have placed := addTimer_nodes stepped
  obtain ⟨_, rfl⟩ := addTimer_cases stepped
  have known := paced.known
  -- the new node has the number of its own call
  have old : ∀ {node}, node.info.task = task →
      node ∈ ((run.timer.addTimer ptr time period run.issued.length repeats).1).nodes →
        node ∈ run.timer.nodes := by
    intro node same member
    rcases List.mem_cons.mp (placed.mem_iff.mp member) with rfl | inside
    · simp only [Timer.newNode] at same
      omega
    · exact inside
  apply paced.quiet
  · rw [List.length_append]
    omega
  · rfl
  · intro node member same
    apply paced.stored node _ same
    simp only [roster, waiting, List.mem_append] at member ⊢
    exact member.imp_right (Or.imp_left (old same))
  · intro node member same
    rcases List.mem_append.mp member with stored | later
    · exact List.mem_append_left _ (old same stored)
    · exact List.mem_append_right _ later
  · exact fun batch node running active => ⟨batch, running, active, rfl⟩

theorem Paced.visit (paced : Paced task interval now run) (sound : Sound run)
    (stepped : run.visit = some next) : Paced task interval now next := by
  have known := paced.known
  have subset := (visit_roster stepped).subset
  have stored : ∀ node ∈ next.roster, node.info.task = task →
      (node.info.interval : Int) = interval :=
    fun node member => paced.stored node (subset member)
  have waits := visit_waiting stepped
  rcases visit_cases stepped with ⟨time, timeOutSet, running, rfl⟩ |
    ⟨time, timeOutSet, node, rest, timer, running, taken, rfl⟩ |
    ⟨time, timeOutSet, node, rest, running, passed, started⟩
  · exact paced.quiet known rfl stored (fun node member _ => waits member) (by simp)
  · refine paced.quiet known rfl stored (fun node member _ => waits member) ?_
    rintro batch other ⟨⟩ active
    cases active
  · have head : node ∈ run.waiting := by simp [waiting, TimerRun.rest, running]
    have due := sound.timed.due _ running node List.mem_cons_self
    have batch : next.batch = some ⟨time, timeOutSet, rest, some node⟩ := by rw [started]
    have runs : next.current = some node := by rw [TimerRun.current, batch, Option.bind_some]
    have sameMarks : marks task now next = if node.info.task = task then
        marks task now run ++ [time] else marks task now run :=
      marks_append (congrArg TimerRun.log started)
    constructor
    · rw [started]
      exact known
    · rw [sameMarks]
      split_ifs with here
      · exact paced.spaced.append fun last final =>
          (paced.later node head here last final).trans due
      · exact paced.spaced
    · exact stored
    · intro other member same
      have visited : run.step .visit = some next := stepped
      have apart := (sound.rostered.step visited).current_apart runs member
      rw [sameMarks, if_neg (fun here => apart (here.trans same.symm))]
      exact paced.later other (waits member) same
    · intro other active taken current same last final
      rw [batch, Option.some.injEq] at taken
      subst taken
      cases current
      rw [sameMarks, if_pos same, List.getLast?_append, List.getLast?_singleton] at final
      cases final
      exact le_refl _

theorem Paced.taskReturns (paced : Paced task interval now run) (rostered : Rostered run)
    (stepped : run.taskReturns = some next) : Paced task interval now next := by
  have comesBack := @taskReturns_waiting _ _ rostered stepped
  have returned : run.step .taskReturns = some next := stepped
  have kept := (objects_step (by simp) rostered.addresses returned).subset
  obtain ⟨time, timeOutSet, rest, active, running, rfl⟩ := taskReturns_cases stepped
  constructor
  · exact paced.known
  · exact paced.spaced
  · intro node member same
    obtain ⟨old, inside, object⟩ := List.mem_map.mp (kept (mem_objects member))
    have info : old.info = node.info := congrArg Prod.snd object
    rw [← info] at same ⊢
    exact paced.stored old inside same
  · intro node member same last final
    rcases comesBack member with old | ⟨batch, returned, before, runs, again, rfl⟩
    · exact paced.later node old same last final
    · have current : run.current = some returned := by
        rw [TimerRun.current, before, Option.bind_some, runs]
      have period := paced.stored returned (List.mem_append_left _ (by simp [current])) same
      have passed := paced.current batch returned before runs same last final
      change last + interval ≤ batch.now + returned.info.interval
      rw [period]
      exact Int.add_le_add_right passed interval
  · rintro batch node ⟨⟩ returned
    cases returned

theorem Paced.step (paced : Paced task interval now run) (sound : Sound run) {act : TimerAct}
    (stepped : run.step act = some next) : Paced task interval now next := by
  cases act with
  | addTimer ptr time period repeats => exact paced.addTimer stepped
  | cancelTimer timerId =>
      rw [cancelTimer_cases stepped]
      exact ⟨paced.known, paced.spaced, paced.stored, paced.later, paced.current⟩
  | doTimeOutTask time =>
      have roster := doTimeOutTask_roster stepped
      have waiting := (doTimeOutTask_waiting stepped).1
      obtain ⟨_, rfl⟩ := doTimeOutTask_cases stepped
      refine paced.quiet paced.known rfl (fun node member => ?_) (fun node member _ => ?_) ?_
      · exact paced.stored node (roster.mem_iff.mp member)
      · exact waiting.mem_iff.mp member
      · rintro batch node ⟨⟩ active
        cases active
  | visit => exact paced.visit sound stepped
  | taskReturns => exact paced.taskReturns sound.rostered stepped

theorem toUint32_of_small {value : Int} (small : 0 ≤ value ∧ value < 2 ^ 32) :
    (toUint32 value : Int) = value := by
  rw [toUint32, Int.emod_eq_of_lt small.1 small.2, Int.toNat_of_nonneg small.1]

/-- The node of a new timer is the only one with the number of its call. -/
theorem addTimer_only (rostered : Rostered run) {ptr : Addr} {repeats : Bool}
    (stepped : run.addTimer ptr now interval repeats = some next) {node : TimerNode Nat}
    (member : node ∈ next.roster) (same : node.info.task = run.issued.length) :
    node = Timer.newNode ptr now interval run.issued.length repeats := by
  have placed := addTimer_nodes stepped
  obtain ⟨_, rfl⟩ := addTimer_cases stepped
  by_contra other
  have old : node ∈ run.roster := by
    simp only [roster, waiting, List.mem_append] at member ⊢
    refine member.imp_right (Or.imp_left fun stored => ?_)
    exact (List.mem_cons.mp (placed.mem_iff.mp stored)).resolve_left other
  exact (rostered.task_lt old).ne same

/-- A new timer has no mark but its start. -/
theorem paced_start (sound : Sound run) {ptr : Addr} (small : 0 ≤ interval ∧ interval < 2 ^ 32)
    (stepped : run.addTimer ptr now interval true = some next) :
    Paced run.issued.length interval now next := by
  have only := @addTimer_only _ _ _ _ sound.rostered _ _ stepped
  have apart : ∀ node ∈ run.roster, node.info.task ≠ run.issued.length :=
    fun node member => (sound.rostered.task_lt member).ne
  obtain ⟨_, rfl⟩ := addTimer_cases stepped
  have unlogged : runsOf run.issued.length run.log = [] := by
    apply List.filter_eq_nil_iff.mpr
    intro entry member same
    exact (sound.counted.known entry member).ne (of_decide_eq_true same)
  have single : ∀ timer issued,
      marks run.issued.length now { run with timer, issued } = [now] := by
    intro timer issued
    rw [marks, unlogged]
    rfl
  constructor
  · rw [List.length_append]
    exact Nat.lt_succ_self _
  · rw [single]
    exact List.isChain_singleton _
  · intro node member same
    rw [only member same]
    exact toUint32_of_small small
  · intro node member same last final
    rw [single] at final
    cases final
    rw [only (waiting_subset_roster member) same]
    exact le_refl _
  · intro batch node running active same
    have runs : run.current = some node := by
      rw [current, show run.batch = some batch from running, Option.bind_some, active]
    exact absurd same (apart node (List.mem_append_left _ (by simp [runs])))

end TimerRun

section Lone

/-- The timer set with one node. -/
def lone (node : TimerNode Nat) : Timer Nat := ⟨⟨[node], List.pairwise_singleton _ _⟩, ∅⟩

/-- A node that is due is the whole batch. -/
theorem lone_takeBatch {node : TimerNode Nat} {now : Time} (due : node.deadline ≤ now) :
    (lone node).takeBatch now = ([node], Timer.empty) := by
  have below : node.key < Timer.batchEnd now :=
    Prod.Lex.toLex_lt_toLex.mpr (Or.inl (Int.lt_add_one_iff.mpr due))
  have taken : [node].takeWhile (fun item => item.key < Timer.batchEnd now) = [node] := by
    simp [below]
  have left : [node].dropWhile (fun item => item.key < Timer.batchEnd now) = [] := by
    simp [below]
  simp only [Timer.takeBatch, lone, OrderedSet.below, OrderedSet.eraseBelow, taken, left]
  rfl

/-- A call of `DoTimeOutTask` for one task. -/
def timerRound (now : Time) : List ClientAct := [.doTimeOutTask now, .visit, .taskReturns, .visit]

/-- One round of a repeating timer that is alone. -/
theorem lone_round {run : TimerRun} {node : TimerNode Nat} (idle : run.batch = none)
    (alone : run.timer = lone node) (again : node.info.repeats = true) {now : Time}
    (due : node.deadline ≤ now) :
    clientMachine.run run (timerRound now) =
      some { run with
        timer := lone (Timer.nextRound now node)
        calls := run.calls + 1
        log := run.log ++ [⟨node.info.task, true, node.deadline, now, run.calls + 1⟩] } := by
  have taken := lone_takeBatch due
  have begins : run.doTimeOutTask now = some { run with
      timer := Timer.empty
      batch := some ⟨now, [node], [node], none⟩
      calls := run.calls + 1 } := by
    rw [TimerRun.doTimeOutTask, idle]
    dsimp only
    rw [alone, taken]
  have returns : (Timer.empty : Timer Nat).requeue now node = lone (Timer.nextRound now node) := by
    rw [Timer.requeue, if_pos again]
    rfl
  have visits : (Timer.empty : Timer Nat).takeCancel node = none := rfl
  simp only [timerRound, clientMachine, Machine.run, ClientAct.resolve, Option.bind_some,
    TimerRun.step, begins, TimerRun.visit, visits, TimerRun.taskReturns, returns, again, idle]

/-- The second run comes when the stored interval is over. -/
theorem hurried_run (now interval : Time) : ∃ last,
    clientMachine.run clientMachine.start (.addTimer 1 now interval true ::
      (timerRound (now + interval) ++ timerRound (now + interval + toUint32 interval))) =
        some last ∧
    (runsOf 0 last.log).map TaskRun.now =
      [now + interval, now + interval + (toUint32 interval : Time)] := by
  let node := Timer.newNode 1 now interval 0 true
  let added : TimerRun := { TimerRun.start with timer := lone node, issued := [node.id] }
  have adding : clientMachine.step clientMachine.start (.addTimer 1 now interval true) =
      some added := rfl
  have first := @lone_round added node rfl rfl rfl (now + interval) (le_refl _)
  have dueAgain : (Timer.nextRound (now + interval) node).deadline ≤
      now + interval + (toUint32 interval : Time) := le_refl _
  exact ⟨_, clientMachine.run_cons.mpr ⟨added, adding,
    clientMachine.run_append.mpr ⟨_, first, lone_round rfl rfl rfl dueAgain⟩⟩, rfl⟩

end Lone

/-- A period that is kept from one start fits the field that stores it. -/
theorem KeepsPeriod.lt {interval : Int} (keeps : KeepsPeriod interval) {now : Int}
    (starts : FitsTimeT now) (begins : FitsTimeT (now + interval)) : interval < 2 ^ 32 := by
  by_contra large
  obtain ⟨last, reached, logged⟩ := hurried_run now interval
  have order : ((.addTimer 1 now interval true ::
      (timerRound (now + interval) ++ timerRound (now + interval + toUint32 interval))).flatMap
        ClientAct.batchTimes).Pairwise (· ≤ ·) := by
    simp [timerRound, ClientAct.batchTimes]
  have spaced := keeps [] _ 1 now TimerRun.start last starts begins order rfl reached
    (by simp [timerRound])
  have stored : toUint32 interval < 2 ^ 32 := by
    unfold toUint32
    omega
  rw [marks, show TimerRun.start.issued.length = 0 from rfl, logged] at spaced
  have late : (now + interval : Int) + interval ≤ now + interval + (toUint32 interval : Int) :=
    (List.isChain_cons_cons.mp (List.isChain_cons_cons.mp spaced).2).1
  omega

/-- A period that is kept fits the field that stores it. -/
theorem lt_of_keepsPeriod {interval : Int} (time : FitsTimeT interval)
    (keeps : KeepsPeriod interval) : interval < 2 ^ 32 := by
  by_contra large
  obtain ⟨_, upper⟩ := time
  -- no later sum overflows when the first run comes at time 0
  have starts : FitsTimeT (-interval) := ⟨by omega, by omega⟩
  have begins : FitsTimeT (-interval + interval) := by
    rw [Int.add_left_neg]
    decide
  exact large (keeps.lt starts begins)

theorem keepsPeriod_of_small {interval : Int} (nonneg : 0 ≤ interval) (small : interval < 2 ^ 32) :
    KeepsPeriod interval := by
  intro before after ptr now first last acts _ _ _ begun reached _
  obtain ⟨middle, same, rest⟩ := clientMachine.run_append.mp reached
  rw [begun] at same
  cases same
  obtain ⟨added, adding, rest⟩ := clientMachine.run_cons.mp rest
  have sound := sound_of_client_run sound_start begun
  have soundAdded := sound_of_client_run sound
    (clientMachine.run_cons.mpr ⟨added, adding, clientMachine.run_nil added⟩)
  have kept : ∀ run act next, Sound run ∧ Paced first.issued.length interval now run →
      clientMachine.step run act = some next →
        Sound next ∧ Paced first.issued.length interval now next := by
    intro run act next held stepped
    obtain ⟨resolved, _, continued⟩ := Option.bind_eq_some_iff.mp stepped
    exact ⟨held.1.step continued, held.2.step held.1 continued⟩
  have paced := paced_start sound ⟨nonneg, small⟩ adding
  exact (clientMachine.run_invariant kept ⟨soundAdded, paced⟩ rest).2.spaced

/-- A repeating timer keeps its period if and only if the interval fits a `uint32_t`. -/
theorem keepsPeriod_iff {interval : Int} (time : FitsTimeT interval) (nonneg : 0 ≤ interval) :
    KeepsPeriod interval ↔ interval < 2 ^ 32 :=
  ⟨lt_of_keepsPeriod time, keepsPeriod_of_small nonneg⟩

theorem keepsPeriod_iff_second : KeepsPeriod 1000 ↔ (1000 : Int) < 2 ^ 32 :=
  keepsPeriod_iff (by decide) (by decide)

/-- The shortest interval that does not fit is stored as 0. -/
theorem long_interval_hurries :
    ¬∀ interval : Int, FitsTimeT interval → 0 ≤ interval → KeepsPeriod interval := by
  intro keeps
  have fits : FitsTimeT (2 ^ 32) := by decide
  have starts : FitsTimeT 0 := by decide
  have begins : FitsTimeT (0 + 2 ^ 32) := by decide
  exact absurd ((keeps (2 ^ 32) fits (by decide)).lt starts begins) (by decide)

end QServer
