import QServer.Routing.ConsistentHash

/-
This file proves how the members of the hash ring decide where a key goes.
-/

namespace QServer
open Container Transition ConsistentHash

/-- The slots of the node are empty or hold the node itself. -/
def HasOwnSlots (stdHash : Wire.Bytes → UInt64) (ring : ConsistentHash) (node : Node) : Prop :=
  ∀ entry ∈ ring.hashList.entries, IsSlot stdHash node entry.1 → entry.2 = node

/-- The step does not touch a slot of another node. -/
def Unshared (stdHash : Wire.Bytes → UInt64) (run : RingRun) : RingAct → Prop
  | .addNode node => HasOwnSlots stdHash run.ring node
  | .removeNode node => HasOwnSlots stdHash run.ring node

instance (stdHash : Wire.Bytes → UInt64) (run : RingRun) (act : RingAct) :
    Decidable (Unshared stdHash run act) :=
  match act with
  | .addNode node => inferInstanceAs (Decidable (∀ entry ∈ run.ring.hashList.entries,
      IsSlot stdHash node entry.1 → entry.2 = node))
  | .removeNode node => inferInstanceAs (Decidable (∀ entry ∈ run.ring.hashList.entries,
      IsSlot stdHash node entry.1 → entry.2 = node))

namespace RingRun

variable {stdHash : Wire.Bytes → UInt64} {run next : RingRun} {act : RingAct}

/-- Every slot holds a member that has it. -/
def Owned (stdHash : Wire.Bytes → UInt64) (run : RingRun) : Prop :=
  ∀ key node, (key, node) ∈ run.ring.hashList.entries →
    node ∈ run.members ∧ IsSlot stdHash node key

theorem Owned.start : Owned stdHash (ringMachine stdHash).start := by
  intro key node member
  cases member

/-- A node that leaves takes all its slots with it. -/
theorem Owned.step (owned : run.Owned stdHash) (stepped : run.step stdHash act = some next) :
    next.Owned stdHash := by
  cases act with
  | addNode node =>
      rw [RingRun.step, Option.some.injEq] at stepped
      subst stepped
      intro key other member
      rcases mem_addNode.mp member with ⟨rfl, slot⟩ | ⟨old, _⟩
      · exact ⟨Finset.mem_insert_self _ _, slot⟩
      · obtain ⟨inside, slot⟩ := owned key other old
        exact ⟨Finset.mem_insert_of_mem inside, slot⟩
  | removeNode node =>
      rw [RingRun.step, Option.some.injEq] at stepped
      subst stepped
      intro key other member
      obtain ⟨old, apart⟩ := mem_removeNode.mp member
      obtain ⟨inside, slot⟩ := owned key other old
      have different : other ≠ node := by
        rintro rfl
        exact apart slot
      exact ⟨Finset.mem_erase.mpr ⟨different, inside⟩, slot⟩

theorem owned_of_run {acts : List RingAct}
    (reached : (ringMachine stdHash).run (ringMachine stdHash).start acts = some run) :
    run.Owned stdHash :=
  (ringMachine stdHash).run_invariant (fun _ _ _ owned stepped => owned.step stepped) Owned.start
    reached

/-- The slots are exactly those of the members. -/
def Exact (stdHash : Wire.Bytes → UInt64) (run : RingRun) : Prop :=
  ∀ key node, (key, node) ∈ run.ring.hashList.entries ↔
    node ∈ run.members ∧ IsSlot stdHash node key

theorem Exact.start : Exact stdHash (ringMachine stdHash).start := by
  intro key node
  simp [ringMachine, ConsistentHash.empty]

theorem Exact.step (exact : run.Exact stdHash) (unshared : Unshared stdHash run act)
    (stepped : run.step stdHash act = some next) : next.Exact stdHash := by
  cases act with
  | addNode node =>
      rw [RingRun.step, Option.some.injEq] at stepped
      subst stepped
      intro key other
      dsimp only
      rw [mem_addNode, Finset.mem_insert, exact key other]
      constructor
      · rintro (⟨rfl, slot⟩ | ⟨⟨inside, slot⟩, _⟩)
        · exact ⟨Or.inl rfl, slot⟩
        · exact ⟨Or.inr inside, slot⟩
      · rintro ⟨rfl | inside, slot⟩
        · exact Or.inl ⟨rfl, slot⟩
        · by_cases taken : IsSlot stdHash node key
          · exact Or.inl ⟨unshared _ ((exact key other).mpr ⟨inside, slot⟩) taken, taken⟩
          · exact Or.inr ⟨⟨inside, slot⟩, taken⟩
  | removeNode node =>
      rw [RingRun.step, Option.some.injEq] at stepped
      subst stepped
      intro key other
      dsimp only
      rw [mem_removeNode, Finset.mem_erase, exact key other]
      constructor
      · rintro ⟨⟨inside, slot⟩, apart⟩
        refine ⟨⟨?_, inside⟩, slot⟩
        rintro rfl
        exact apart slot
      · rintro ⟨⟨different, inside⟩, slot⟩
        have stored := (exact key other).mpr ⟨inside, slot⟩
        exact ⟨⟨inside, slot⟩, fun taken => different (unshared _ stored taken)⟩

theorem exact_of_run {acts : List RingAct}
    (reached : (ringMachine stdHash).run (ringMachine stdHash).start acts = some run)
    (met : (ringMachine stdHash).Meets (Unshared stdHash) (ringMachine stdHash).start acts) :
    run.Exact stdHash :=
  (ringMachine stdHash).run_guarded
    (fun _ _ _ exact unshared stepped => exact.step unshared stepped) Exact.start reached met

/-- The members decide the ring. -/
theorem Exact.ring_eq {other : RingRun} (exact : run.Exact stdHash)
    (exact' : other.Exact stdHash) (same : run.members = other.members) :
    run.ring = other.ring := by
  have lists : run.ring.hashList = other.ring.hashList := by
    apply OrderedMap.ext_mem
    rintro ⟨key, node⟩
    rw [exact key node, exact' key node, same]
  exact congrArg ConsistentHash.mk lists

end RingRun

/-- Two histories with the same members route every key alike while no slot is shared. -/
theorem routes_by_members {stdHash : Wire.Bytes → UInt64} {acts acts' : List RingAct}
    {run run' : RingRun}
    (reached : (ringMachine stdHash).run (ringMachine stdHash).start acts = some run)
    (reached' : (ringMachine stdHash).run (ringMachine stdHash).start acts' = some run')
    (met : (ringMachine stdHash).Meets (Unshared stdHash) (ringMachine stdHash).start acts)
    (met' : (ringMachine stdHash).Meets (Unshared stdHash) (ringMachine stdHash).start acts')
    (same : run.members = run'.members) (hashCode : UInt64) :
    run.ring.getNode stdHash hashCode = run'.ring.getNode stdHash hashCode := by
  have rings := (RingRun.exact_of_run reached met).ring_eq (RingRun.exact_of_run reached' met') same
  rw [rings]

/-- A hash for tests, which is the first byte. -/
def firstByte (data : Wire.Bytes) : UInt64 := (data.headD 0).toUInt64

/-- The nodes "a" and "b" come in both orders, and "c" comes and goes. -/
theorem routes_by_members_orders :
    ((ConsistentHash.empty.addNode firstByte [97]).addNode firstByte [98]).getNode firstByte 0 =
      ((((ConsistentHash.empty.addNode firstByte [98]).addNode firstByte [99]).removeNode firstByte
        [99]).addNode firstByte [97]).getNode firstByte 0 :=
  @routes_by_members firstByte [.addNode [97], .addNode [98]]
    [.addNode [98], .addNode [99], .removeNode [99], .addNode [97]] _ _ rfl rfl
    (by decide +kernel) (by decide +kernel) (by decide +kernel) 0

/-- Both nodes have all their virtual nodes at the same code, and the last one added wins. -/
theorem sharedSlot_routes_by_order :
    ¬∀ (stdHash : Wire.Bytes → UInt64) (acts acts' : List RingAct) (run run' : RingRun),
      (ringMachine stdHash).run (ringMachine stdHash).start acts = some run →
        (ringMachine stdHash).run (ringMachine stdHash).start acts' = some run' →
          run.members = run'.members → ∀ hashCode,
            run.ring.getNode stdHash hashCode = run'.ring.getNode stdHash hashCode := by
  intro alike
  have same := alike (fun _ => 0) [.addNode [97], .addNode [98]] [.addNode [98], .addNode [97]] _ _
    rfl rfl (by decide) 0
  revert same
  decide +kernel

/-- No key goes to a node that is not a member. -/
theorem routes_to_members {stdHash : Wire.Bytes → UInt64} {acts : List RingAct} {run : RingRun}
    (reached : (ringMachine stdHash).run (ringMachine stdHash).start acts = some run)
    {hashCode : UInt64} {node : Node} (got : run.ring.getNode stdHash hashCode = .ok node) :
    node ∈ run.members := by
  obtain ⟨key, _, member⟩ := getNode_eq_ok got
  exact (RingRun.owned_of_run reached key node member).1

/-- The key 0 has the code 48. The node with the code 45 has left. -/
theorem routes_to_members_left : ∃ run, (ringMachine firstByte).run (ringMachine firstByte).start
    [.addNode [40], .addNode [45], .addNode [50], .removeNode [45]] = some run ∧
      run.ring.getNode firstByte 0 = .ok [40] ∧ ([40] : Node) ∈ run.members := by
  refine ⟨_, rfl, by decide +kernel, ?_⟩
  exact @routes_to_members firstByte
    [.addNode [40], .addNode [45], .addNode [50], .removeNode [45]] _ rfl 0 [40] (by decide +kernel)

/-- A new node takes over keys, and no key goes to another node. -/
theorem addNode_moves_to_it (stdHash : Wire.Bytes → UInt64) (ring : ConsistentHash) (node : Node)
    (hashCode : UInt64) :
    (ring.addNode stdHash node).getNode stdHash hashCode = ring.getNode stdHash hashCode ∨
      (ring.addNode stdHash node).getNode stdHash hashCode = .ok node :=
  (ConsistentHash.getNode_addCodes _ hashCode).symm

end QServer
