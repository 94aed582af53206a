import QServer.Lib.Machine
import QServer.Lib.OrderedMap
import QServer.Lib.ProtoCodec
import Mathlib.Algebra.Ring.Int.Defs
import Mathlib.Data.Finset.Erase
import Mathlib.Data.Finset.Insert

/-
This file models the hash ring of `commlib/consistent_hash.hpp`.
-/

namespace QServer
open Container Transition Wire

/-- A `Node` is a `std::string`. -/
abbrev Node := Bytes

namespace ConsistentHash

/-- The number of virtual nodes of a node, `1 << 4`. -/
def replacementCount : Nat := 1 <<< 4

def kKeySize : UInt32 := 0

/-- The result of `std::hash` is cut to an `unsigned int`. -/
def hash (stdHash : Bytes → UInt64) (data : Bytes) : UInt32 := (stdHash data).toUInt32

/-- The decimal digits of `std::to_string`. -/
def toString (number : Nat) : Bytes :=
  (Nat.toDigits 10 number).map fun digit => digit.toNat.toUInt8

/-- The mask `kKeySize - 1` wraps around and has all bits. The code becomes an `int64_t`. -/
def code (stdHash : Bytes → UInt64) (data : Bytes) : Int :=
  (hash stdHash data &&& (kKeySize - 1)).toNat

/-- The code of the virtual node `node + "_#" + index`. -/
def nodeCode (stdHash : Bytes → UInt64) (node : Node) (index : Nat) : Int :=
  code stdHash (node ++ [95, 35] ++ toString index)

/-- The `real_hash_code` of a key. -/
def keyCode (stdHash : Bytes → UInt64) (hashCode : UInt64) : Int :=
  code stdHash (toString hashCode.toNat)

end ConsistentHash

/-- The list maps the negated codes of the virtual nodes to their nodes. -/
structure ConsistentHash where
  hashList : OrderedMap Int Node

namespace ConsistentHash

def empty : ConsistentHash := ⟨OrderedMap.empty⟩

variable (stdHash : Bytes → UInt64) (ring : ConsistentHash)

/-- The query is the negated code of the key. Only an empty list has no entry to return. -/
def getNode (hashCode : UInt64) : Except String Node :=
  match ring.hashList.search (-keyCode stdHash hashCode) with
  | none => .error "hash_list empty"
  | some entry => .ok entry.2

/-- One turn of the loop of `AddNode`. -/
def addCode (node : Node) (ring : ConsistentHash) (index : Nat) : ConsistentHash :=
  ⟨ring.hashList.assign (-nodeCode stdHash node index) node⟩

def addNode (node : Node) : ConsistentHash :=
  (List.range replacementCount).foldl (addCode stdHash node) ring

/-- One turn of the loop of `RemoveNode`. -/
def removeCode (node : Node) (ring : ConsistentHash) (index : Nat) : ConsistentHash :=
  ⟨ring.hashList.erase (-nodeCode stdHash node index)⟩

def removeNode (node : Node) : ConsistentHash :=
  (List.range replacementCount).foldl (removeCode stdHash node) ring

end ConsistentHash

/-- The ring and the nodes that are added and not removed since. -/
structure RingRun where
  ring : ConsistentHash
  members : Finset Node

inductive RingAct
  | addNode (node : Node)
  | removeNode (node : Node)

def RingRun.step (stdHash : Bytes → UInt64) (run : RingRun) : RingAct → Option RingRun
  | .addNode node => some ⟨run.ring.addNode stdHash node, insert node run.members⟩
  | .removeNode node => some ⟨run.ring.removeNode stdHash node, run.members.erase node⟩

/-- The ring with every history of added and removed nodes. -/
def ringMachine (stdHash : Bytes → UInt64) : Machine RingRun RingAct :=
  ⟨⟨ConsistentHash.empty, ∅⟩, RingRun.step stdHash⟩

namespace ConsistentHash

variable {stdHash : Bytes → UInt64} {ring : ConsistentHash} {node : Node}

/-- The key is the slot of a virtual node of the node. -/
def IsSlot (stdHash : Bytes → UInt64) (node : Node) (key : Int) : Prop :=
  ∃ index < replacementCount, key = -nodeCode stdHash node index

instance (key : Int) : Decidable (IsSlot stdHash node key) :=
  inferInstanceAs (Decidable (∃ index < replacementCount, key = -nodeCode stdHash node index))

/-- The mask drops no bit. -/
theorem code_eq (data : Bytes) : code stdHash data = (hash stdHash data).toNat := by
  have mask : kKeySize - 1 = -1 := rfl
  rw [code, mask, UInt32.and_neg_one]

theorem code_bounds (stdHash : Bytes → UInt64) (data : Bytes) :
    0 ≤ code stdHash data ∧ code stdHash data < 2 ^ 32 := by
  rw [code_eq]
  have below := (hash stdHash data).toNat_lt
  omega

theorem mem_addCodes (indices : List Nat) {key : Int} {other : Node} :
    (key, other) ∈ (indices.foldl (addCode stdHash node) ring).hashList.entries ↔
      (other = node ∧ ∃ index ∈ indices, key = -nodeCode stdHash node index) ∨
        (key, other) ∈ ring.hashList.entries ∧
          ¬∃ index ∈ indices, key = -nodeCode stdHash node index := by
  induction indices generalizing ring with
  | nil => simp
  | cons index rest ih =>
      rw [List.foldl_cons, ih, addCode, OrderedMap.mem_assign, Prod.mk.injEq,
        List.exists_mem_cons_iff]
      -- An index that comes again overwrites its own slot.
      by_cases later : ∃ index ∈ rest, key = -nodeCode stdHash node index
      · simp only [later, not_true, and_false, or_true, or_false, and_true]
      · simp only [later, not_false_eq_true, and_true, and_false, or_false, false_or, ne_eq]
        exact or_congr_left and_comm

theorem mem_addNode {key : Int} {other : Node} :
    (key, other) ∈ (ring.addNode stdHash node).hashList.entries ↔
      other = node ∧ IsSlot stdHash node key ∨
        (key, other) ∈ ring.hashList.entries ∧ ¬IsSlot stdHash node key := by
  simp [addNode, mem_addCodes, IsSlot]

theorem mem_removeCodes (indices : List Nat) {entry : Int × Node} :
    entry ∈ (indices.foldl (removeCode stdHash node) ring).hashList.entries ↔
      entry ∈ ring.hashList.entries ∧
        ¬∃ index ∈ indices, entry.1 = -nodeCode stdHash node index := by
  induction indices generalizing ring with
  | nil => simp
  | cons index rest ih =>
      rw [List.foldl_cons, ih, removeCode, OrderedMap.mem_erase, List.exists_mem_cons_iff, not_or,
        and_assoc]

theorem mem_removeNode {entry : Int × Node} :
    entry ∈ (ring.removeNode stdHash node).hashList.entries ↔
      entry ∈ ring.hashList.entries ∧ ¬IsSlot stdHash node entry.1 := by
  simp [removeNode, mem_removeCodes, IsSlot]

/-- A node that is returned is stored in a slot. -/
theorem getNode_eq_ok {hashCode : UInt64} (got : ring.getNode stdHash hashCode = .ok node) :
    ∃ key, ring.hashList.search (-keyCode stdHash hashCode) = some (key, node) ∧
      (key, node) ∈ ring.hashList.entries := by
  unfold getNode at got
  split at got
  · cases got
  · rename_i entry found
    cases got
    exact ⟨entry.1, found, (OrderedMap.search_eq_some found).1⟩

/-- Each new virtual node takes over a key or leaves it where it was. -/
theorem getNode_addCodes (indices : List Nat) (hashCode : UInt64) :
    (indices.foldl (addCode stdHash node) ring).getNode stdHash hashCode = .ok node ∨
      (indices.foldl (addCode stdHash node) ring).getNode stdHash hashCode =
        ring.getNode stdHash hashCode := by
  induction indices generalizing ring with
  | nil => exact Or.inr rfl
  | cons index rest ih =>
      rw [List.foldl_cons]
      rcases @ih (addCode stdHash node ring index) with moved | stayed
      · exact Or.inl moved
      · rw [stayed]
        rcases ring.hashList.search_assign (-nodeCode stdHash node index)
          (-keyCode stdHash hashCode) node with taken | same
        · left
          rw [getNode, addCode, taken]
        · right
          rw [getNode, addCode, same, getNode]

end ConsistentHash

end QServer
