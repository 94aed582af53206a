import QServer.Discovery.SvrList
import QServer.Identity.LocalIP

/-
This file models the identifiers that `app/common/app_base.h` makes for the servers.
-/

namespace QServer
open Wire Separated SvrList

/-- The character '/'. -/
def slash : UInt8 := 47

/-- The character '|'. -/
def bar : UInt8 := 124

/-- The text "discovery". -/
def kDiscoverySvr : Bytes := [100, 105, 115, 99, 111, 118, 101, 114, 121]

/-- The loop of `MakeSelfId` over the characters of the working directory. -/
def replaceSlash (c : UInt8) : UInt8 := if c = slash then bar else c

/-- The address is the first one of `GetLocalIP`. -/
def makeSelfId (ip cwd : Bytes) : Bytes := ip ++ dash :: cwd.map replaceSlash

/-- The `self_id` of `Init`. -/
def initSelfId (svrType ip cwd : Bytes) : Bytes :=
  if svrType = kDiscoverySvr then kDiscoverySvr else svrType ++ dash :: makeSelfId ip cwd

/-- A type of servers that register themselves. -/
structure SvrType where
  text : Bytes
  nonempty : text ≠ []
  other : text ≠ kDiscoverySvr
  undashed : dash ∉ text
  unslashed : slash ∉ text

/-- A working directory that `getcwd` can write to its buffer of 1024 bytes. -/
structure WorkDir where
  path : Bytes
  absolute : path.head? = some slash
  terminated : 0 ∉ path
  fits : path.length < 1024

/-- What a server makes its identifier of. -/
structure Server where
  svrType : SvrType
  ip : InAddr
  cwd : WorkDir

def Server.selfId (server : Server) : Bytes :=
  initSelfId server.svrType.text (inetNtoa server.ip) server.cwd.path

theorem Server.selfId_eq (server : Server) :
    server.selfId = server.svrType.text ++ dash ::
      (inetNtoa server.ip ++ dash :: server.cwd.path.map replaceSlash) :=
  if_neg server.svrType.other

/-- The identifier names the type, and it is one component of a ZooKeeper path. -/
def Server.Named (server : Server) : Prop :=
  getType server.selfId = server.svrType.text ∧ slash ∉ server.selfId

/-- Servers with one identifier are the same. -/
def Server.Identified (first second : Server) : Prop :=
  first.selfId = second.selfId → first.svrType.text = second.svrType.text ∧
    first.ip = second.ip ∧ first.cwd.path = second.cwd.path

/-- The characters are the same, or one is '/' and the other '|'. -/
def Blurred (a b : UInt8) : Prop := a = b ∨ a = slash ∧ b = bar ∨ a = bar ∧ b = slash

/-- Two servers at one address whose directories differ only in '/' and '|'. -/
def Server.Confused (first second : Server) : Prop :=
  first.svrType.text = second.svrType.text ∧ first.ip = second.ip ∧
    first.cwd.path ≠ second.cwd.path ∧ List.Forall₂ Blurred first.cwd.path second.cwd.path

theorem replaceSlash_eq_iff {a b : UInt8} : replaceSlash a = replaceSlash b ↔ Blurred a b := by
  have different : slash ≠ bar := by decide
  unfold replaceSlash Blurred
  split_ifs with first second second
  · simp [first, second]
  · constructor
    · intro same
      exact Or.inr (Or.inl ⟨first, same.symm⟩)
    · rintro (same | ⟨_, same⟩ | ⟨_, same⟩)
      · exact absurd (same ▸ first) second
      · exact same.symm
      · exact absurd same second
  · constructor
    · intro same
      exact Or.inr (Or.inr ⟨same, second⟩)
    · rintro (same | ⟨same, _⟩ | ⟨same, _⟩)
      · exact absurd (same ▸ second) first
      · exact absurd same first
      · exact same
  · constructor
    · exact Or.inl
    · rintro (same | ⟨same, _⟩ | ⟨_, same⟩)
      · exact same
      · exact absurd same first
      · exact absurd same second

theorem slash_not_replaced (path : Bytes) : slash ∉ path.map replaceSlash := by
  intro member
  obtain ⟨c, _, same⟩ := List.mem_map.mp member
  unfold replaceSlash at same
  split_ifs at same with replaced
  · exact absurd same (by decide)
  · exact replaced same

/-- A character below the digits that is no dot is not in an address. -/
theorem not_mem_inetNtoa {addr : InAddr} {char : UInt8} (other : char ≠ dot)
    (below : ¬zeroDigit ≤ char) : char ∉ inetNtoa addr := by
  intro member
  rcases mem_inetNtoa member with same | ⟨above, _⟩
  · exact other same
  · exact below above

theorem dash_not_mem_inetNtoa (addr : InAddr) : dash ∉ inetNtoa addr :=
  not_mem_inetNtoa (by decide) (by decide)

theorem slash_not_mem_inetNtoa (addr : InAddr) : slash ∉ inetNtoa addr :=
  not_mem_inetNtoa (by decide) (by decide)

theorem Server.named (server : Server) : server.Named := by
  constructor
  · have dashed : dash ∈ server.selfId := by
      rw [selfId_eq]
      exact List.mem_append_right _ List.mem_cons_self
    rw [getType, if_pos dashed, selfId_eq]
    exact takeWhile_field server.svrType.undashed
  · have different : slash ≠ dash := by decide
    rw [selfId_eq, List.mem_append, List.mem_cons, List.mem_append, List.mem_cons]
    rintro (inside | same | inside | same | inside)
    · exact server.svrType.unslashed inside
    · exact different same
    · exact slash_not_mem_inetNtoa _ inside
    · exact different same
    · exact slash_not_replaced _ inside

/-- Two servers share their identifier when only a '|' of a directory hides their difference. -/
theorem Server.selfId_eq_iff {first second : Server} :
    first.selfId = second.selfId ↔ first.svrType.text = second.svrType.text ∧
      first.ip = second.ip ∧ List.Forall₂ Blurred first.cwd.path second.cwd.path := by
  have changed : ∀ path other : Bytes, path.map replaceSlash = other.map replaceSlash ↔
      List.Forall₂ Blurred path other := by
    intro path other
    rw [map_eq_map_iff]
    have same : (fun a b => replaceSlash a = replaceSlash b) = Blurred := by
      funext a b
      exact propext replaceSlash_eq_iff
    rw [same]
  rw [← changed, selfId_eq, selfId_eq]
  constructor
  · intro same
    obtain ⟨types, same⟩ := field_inj first.svrType.undashed second.svrType.undashed same
    obtain ⟨ips, paths⟩ := field_inj (dash_not_mem_inetNtoa _) (dash_not_mem_inetNtoa _) same
    exact ⟨types, inetNtoa_inj ips, paths⟩
  · rintro ⟨types, ips, paths⟩
    rw [types, ips, paths]

/-- An identifier names the type, and it identifies the servers unless they are confused. -/
theorem selfId_identifies_iff (first second : Server) :
    (first.Named ∧ second.Named ∧ first.Identified second) ↔ ¬first.Confused second := by
  constructor
  · rintro ⟨_, _, identified⟩ ⟨types, ips, different, blurred⟩
    exact different (identified (Server.selfId_eq_iff.mpr ⟨types, ips, blurred⟩)).2.2
  · intro distinct
    refine ⟨first.named, second.named, fun same => ?_⟩
    obtain ⟨types, ips, blurred⟩ := Server.selfId_eq_iff.mp same
    refine ⟨types, ips, ?_⟩
    by_contra different
    exact distinct ⟨types, ips, different, blurred⟩

/-- A server of the type "a" in the directory. -/
def serverIn (cwd : WorkDir) : Server :=
  ⟨⟨[97], by decide, by decide, by decide, by decide⟩, ⟨10, 0, 0, 5⟩, cwd⟩

/-- The directories "/a/b" and "/a|b" make one identifier. -/
theorem bar_not_identified : ¬∀ first second : Server,
    first.Named ∧ second.Named ∧ first.Identified second := by
  intro identifies
  let nested := serverIn ⟨[47, 97, 47, 98], by decide, by decide, by decide⟩
  let barred := serverIn ⟨[47, 97, 124, 98], by decide, by decide, by decide⟩
  have same : nested.selfId = barred.selfId := by decide +kernel
  have paths := ((identifies nested barred).2.2 same).2.2
  exact absurd paths (by decide)

end QServer
