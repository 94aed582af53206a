import QServer.Routing.Membership

/-
This file compares the search of `GetNode` with a walk around the ring.
-/

namespace QServer
open Container Transition ConsistentHash

namespace ConsistentHash

/-- The node is stored at the code of a virtual node. -/
def Stored (ring : ConsistentHash) (code : Int) (node : Node) : Prop :=
  (-code, node) ∈ ring.hashList.entries

/-- The result has the code that comes first on the way down around the ring. -/
def WalksRing (ring : ConsistentHash) (hashed : Int) (result : Except String Node) : Prop :=
  ∃ code node, ring.Stored code node ∧ result = .ok node ∧
    ∀ other node', ring.Stored other node' → (hashed - code) % 2 ^ 32 ≤ (hashed - other) % 2 ^ 32

/-- A code is not above the hashed value. -/
def HasBelow (ring : ConsistentHash) (hashed : Int) : Prop :=
  ∃ code node, ring.Stored code node ∧ code ≤ hashed

/-- The least and the greatest code belong to the same node. -/
def EndsAgree (ring : ConsistentHash) : Prop :=
  ∃ least greatest node, ring.Stored least node ∧ ring.Stored greatest node ∧
    ∀ code other, ring.Stored code other → least ≤ code ∧ code ≤ greatest

variable {stdHash : Wire.Bytes → UInt64} {ring : ConsistentHash} {hashCode : UInt64}

/-- A code has one node. -/
theorem Stored.unique {code : Int} {node other : Node} (stored : ring.Stored code node)
    (stored' : ring.Stored code other) : node = other :=
  congrArg Prod.snd (OrderedMap.eq_of_key stored stored' rfl)

/-- `GetNode` finds the greatest code that is not above the hashed value, or else the least of
all. -/
theorem getNode_stored (stocked : ring.hashList.entries ≠ []) :
    ∃ code node, ring.Stored code node ∧ ring.getNode stdHash hashCode = .ok node ∧
      (code ≤ keyCode stdHash hashCode ∧ (∀ other node', ring.Stored other node' →
          other ≤ keyCode stdHash hashCode → other ≤ code) ∨
        keyCode stdHash hashCode < code ∧ ∀ other node', ring.Stored other node' →
          code ≤ other) := by
  obtain ⟨⟨key, node⟩, found⟩ := Option.isSome_iff_exists.mp
    ((OrderedMap.search_isSome (-keyCode stdHash hashCode)).mpr stocked)
  obtain ⟨member, best⟩ := OrderedMap.search_eq_some found
  have reach : ∀ other node', ring.Stored other node' →
      OrderedMap.Prefers (-keyCode stdHash hashCode) key (-other) :=
    fun other node' stored => best (-other, node') stored
  refine ⟨-key, node, ?_, ?_, ?_⟩
  · rw [Stored, Int.neg_neg]
    exact member
  · rw [getNode, found]
  · by_cases above : -keyCode stdHash hashCode ≤ key
    · refine Or.inl ⟨by omega, fun other node' stored below => ?_⟩
      rcases reach other node' stored with ⟨_, least⟩ | ⟨short, _⟩
      · have order := least (by omega)
        omega
      · omega
    · refine Or.inr ⟨by omega, fun other node' stored => ?_⟩
      rcases reach other node' stored with ⟨far, _⟩ | ⟨_, greatest⟩
      · exact absurd far above
      · omega

/-- The codes of a ring are 32-bit values. -/
theorem code_of_stored {run : RingRun} (owned : run.Owned stdHash) {code : Int} {node : Node}
    (stored : run.ring.Stored code node) : 0 ≤ code ∧ code < 2 ^ 32 := by
  obtain ⟨_, index, _, same⟩ := owned (-code) node stored
  have bounds := code_bounds stdHash (node ++ [95, 35] ++ toString index)
  have here : code = ConsistentHash.code stdHash (node ++ [95, 35] ++ toString index) :=
    Int.neg_inj.mp same
  rwa [here]

section Walk

variable {run : RingRun} (owned : run.Owned stdHash)
include owned

/-- Without a wrap, `GetNode` goes down to the next code. -/
theorem walks_of_below (below : run.ring.HasBelow (keyCode stdHash hashCode)) :
    run.ring.WalksRing (keyCode stdHash hashCode) (run.ring.getNode stdHash hashCode) := by
  have hashed : keyCode stdHash hashCode < 2 ^ 32 := (code_bounds stdHash _).2
  obtain ⟨under, node', stored', reached⟩ := below
  obtain ⟨code, node, stored, got, ⟨below, greatest⟩ | ⟨above, least⟩⟩ :=
    getNode_stored (List.ne_nil_of_mem stored')
  · refine ⟨code, node, stored, got, fun other node' inside => ?_⟩
    have bounds := code_of_stored owned stored
    have bounds' := code_of_stored owned inside
    by_cases under : other ≤ keyCode stdHash hashCode
    · have order := greatest other node' inside under
      omega
    · omega
  · have order := least under node' stored'
    omega

/-- Below all codes, `GetNode` stays at the least code, and a walk wraps to the greatest one. -/
theorem walks_iff_of_above (stocked : run.ring.hashList.entries ≠ [])
    (none : ¬run.ring.HasBelow (keyCode stdHash hashCode)) :
    run.ring.WalksRing (keyCode stdHash hashCode) (run.ring.getNode stdHash hashCode) ↔
      run.ring.EndsAgree := by
  have hashed : 0 ≤ keyCode stdHash hashCode := (code_bounds stdHash _).1
  have above : ∀ {other node'}, run.ring.Stored other node' → keyCode stdHash hashCode < other := by
    intro other node' inside
    by_contra reached
    exact none ⟨other, node', inside, not_lt.mp reached⟩
  obtain ⟨code, node, stored, got, ⟨below, _⟩ | ⟨_, least⟩⟩ :=
    getNode_stored stocked
  · exact absurd ⟨code, node, stored, below⟩ none
  -- A walk to a code above the hashed value is longer by one turn.
  have turn : ∀ {other node'}, run.ring.Stored other node' →
      (keyCode stdHash hashCode - other) % 2 ^ 32 = keyCode stdHash hashCode - other + 2 ^ 32 := by
    intro other node' inside
    have start := above inside
    have bounds := code_of_stored owned inside
    omega
  constructor
  · rintro ⟨far, node', stored', got', nearest⟩
    have same : node = node' := Except.ok.inj (got.symm.trans got')
    subst same
    refine ⟨code, far, node, stored, stored', fun other node' inside => ⟨?_, ?_⟩⟩
    · exact least other node' inside
    · have order := nearest other node' inside
      rw [turn inside, turn stored'] at order
      omega
  · rintro ⟨first, final, node', low, high, ends⟩
    have same : first = code := le_antisymm (ends code node stored).1 (least first node' low)
    subst same
    have same : node = node' := stored.unique low
    subst same
    refine ⟨final, node, high, got, fun other node' inside => ?_⟩
    have order := (ends other node' inside).2
    rw [turn inside, turn high]
    omega

end Walk

end ConsistentHash

open ConsistentHash

/-- `GetNode` walks exactly when it need not wrap around or both ends agree. -/
theorem getNode_walks_iff {stdHash : Wire.Bytes → UInt64} {acts : List RingAct} {run : RingRun}
    (reached : (ringMachine stdHash).run (ringMachine stdHash).start acts = some run)
    (stocked : run.ring.hashList.entries ≠ []) (hashCode : UInt64) :
    run.ring.WalksRing (keyCode stdHash hashCode) (run.ring.getNode stdHash hashCode) ↔
      run.ring.HasBelow (keyCode stdHash hashCode) ∨ run.ring.EndsAgree := by
  have owned := RingRun.owned_of_run reached
  by_cases below : run.ring.HasBelow (keyCode stdHash hashCode)
  · exact ⟨fun _ => Or.inl below, fun _ => walks_of_below owned below⟩
  · rw [walks_iff_of_above owned stocked below]
    exact ⟨Or.inr, fun either => either.resolve_left below⟩

/-- The key 0 has the code 48, between the codes 40 and 120 of the two nodes. -/
theorem getNode_walks_iff_between : ∃ run,
    (ringMachine firstByte).run (ringMachine firstByte).start [.addNode [40], .addNode [120]] =
      some run ∧ run.ring.HasBelow 48 ∧
        run.ring.WalksRing (keyCode firstByte 0) (run.ring.getNode firstByte 0) := by
  have below : ((ConsistentHash.empty.addNode firstByte [40]).addNode firstByte [120]).HasBelow
      (keyCode firstByte 0) := by
    refine ⟨40, [40], ?_, by decide +kernel⟩
    rw [Stored]
    decide +kernel
  refine ⟨_, rfl, below, ?_⟩
  exact (@getNode_walks_iff firstByte [.addNode [40], .addNode [120]] _ rfl (by decide +kernel)
    0).mpr (Or.inl below)

/-- The key with the code 48 goes to 100, and the walk ends at 120. -/
theorem wrap_not_walked :
    ¬∀ (stdHash : Wire.Bytes → UInt64) (acts : List RingAct) (run : RingRun),
      (ringMachine stdHash).run (ringMachine stdHash).start acts = some run →
        run.ring.hashList.entries ≠ [] → ∀ hashCode,
          run.ring.WalksRing (keyCode stdHash hashCode) (run.ring.getNode stdHash hashCode) := by
  intro walked
  obtain ⟨code, node, stored, got, nearest⟩ :=
    walked firstByte [.addNode [100], .addNode [120]] _ rfl (by decide +kernel) 0
  have first : Except.ok node = .ok [100] := got.symm.trans (by decide +kernel)
  have entries : ((ConsistentHash.empty.addNode firstByte [100]).addNode firstByte
      [120]).hashList.entries = [(-120, [120]), (-100, [100])] := by decide +kernel
  have stored' : (-120, [120]) ∈ ((ConsistentHash.empty.addNode firstByte [100]).addNode firstByte
      [120]).hashList.entries := entries.symm ▸ List.mem_cons_self
  have far := nearest 120 [120] stored'
  have key : keyCode firstByte 0 = 48 := by decide +kernel
  rw [key] at far
  change (-code, node) ∈ ((ConsistentHash.empty.addNode firstByte [100]).addNode firstByte
    [120]).hashList.entries at stored
  rw [entries, Except.ok.inj first] at stored
  have here : code = 100 := by simpa using stored
  omega

end QServer
