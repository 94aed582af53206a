import QServer.Lib.Proto3
import QServer.Redis.RedisSvr

/-
This file follows the arguments of `RedisActuator::redisCommandArgv` to the command that
`TransRedisCmd` submits.
-/

namespace QServer
open Wire SvrCommTrans

/-- The fields of `RedisCmdReq`. -/
def redisCmdReqLayout : Layout RedisCmdReq where
  fields req := (req.cmdArgv.map fun arg => ⟨1, .text arg⟩) ++ textField 2 req.formattedCmd
  unset := ⟨[], []⟩
  merge req
    | ⟨1, .text text⟩ => { req with cmdArgv := req.cmdArgv ++ [text] }
    | ⟨2, .text text⟩ => { req with formattedCmd := text }
    | _ => req

/-- The fields of `MsgHead`. A `uint32` is cut to its size. -/
def msgHeadLayout : Layout (MsgHead Bytes) where
  fields head :=
    varintField 1 head.cmd ++ (varintField 2 head.srcCoId ++ (varintField 3 head.dstCoId ++
      (textField 4 head.srcBusId ++ (textField 5 head.dstBusId ++ textField 6 head.msg))))
  unset := ⟨0, 0, 0, [], [], []⟩
  merge head
    | ⟨1, .varint value⟩ => { head with cmd := value % 2 ^ 32 }
    | ⟨2, .varint value⟩ => { head with srcCoId := value % 2 ^ 32 }
    | ⟨3, .varint value⟩ => { head with dstCoId := value % 2 ^ 32 }
    | ⟨4, .text text⟩ => { head with srcBusId := text }
    | ⟨5, .text text⟩ => { head with dstBusId := text }
    | ⟨6, .text text⟩ => { head with msg := text }
    | _ => head

/-- The request of `redisCommandArgv`. -/
def RedisActuator.redisCommandArgv (argv : List Bytes) : RedisCmdReq := ⟨argv, []⟩

section Path

variable (reqCodec : ProtoCodec RedisCmdReq Bytes) (headCodec : ProtoCodec (MsgHead Bytes) Bytes)

/-- `SendMsgRpcByType` sends the request to a server of the type. -/
def RedisActuator.sendMsgRpc (selfId dstSvrId : Bytes) (coId : CoId) (argv : List Bytes) :
    MsgHead Bytes :=
  sendMsgThenYield selfId coId
    ⟨dstSvrId, redisCmdReq, reqCodec.serialize (redisCommandArgv argv), 0⟩

/-- `Task` submits what `ParseFromString` left in the request, whatever its result is. -/
def TransRedisCmd.submit (state : ClientState) (head : MsgHead Bytes) : Option RedisCommand :=
  if state = .connected then some (reqCodec.parse head.msg).1.command else none

/-- The recv handler starts a transaction for what `ParseFromString` left in the head, whatever
its result is. -/
def recvMsg (state : ClientState) (text : Bytes) : Option RedisCommand :=
  let head := (headCodec.parse text).1
  if head.cmd = redisCmdReq ∧ head.dstCoId = 0 then TransRedisCmd.submit reqCodec state head
  else none

/-- The command that goes to redis for the arguments of the caller. -/
def submitted (state : ClientState) (selfId dstSvrId : Bytes) (coId : CoId)
    (argv : List Bytes) : Option RedisCommand :=
  recvMsg reqCodec headCodec state
    (headCodec.serialize (RedisActuator.sendMsgRpc reqCodec selfId dstSvrId coId argv))

end Path

/-- The arguments that `Parse` leaves in the request. -/
def keptArgv (keepsBad : Bool) : List Bytes → List Bytes
  | [] => []
  | arg :: rest =>
      if validUtf8 arg then arg :: keptArgv keepsBad rest else if keepsBad then [arg] else []

/-- All arguments are valid UTF-8, but for the last one when `Parse` keeps the string at which it
stops. -/
def Carried (keepsBad : Bool) (argv : List Bytes) : Prop :=
  ∀ arg ∈ (if keepsBad then argv.dropLast else argv), validUtf8 arg = true

instance (keepsBad : Bool) (argv : List Bytes) : Decidable (Carried keepsBad argv) :=
  inferInstanceAs (Decidable (∀ arg ∈ _, _))

theorem carried_cons {keepsBad : Bool} {arg : Bytes} {rest : List Bytes} :
    Carried keepsBad (arg :: rest) ↔
      (validUtf8 arg = true ∨ keepsBad = true ∧ rest = []) ∧ Carried keepsBad rest := by
  cases keepsBad with
  | false => simp [Carried]
  | true =>
      cases rest with
      | nil => simp [Carried]
      | cons next rest => simp [Carried]

theorem keptArgv_eq_iff {keepsBad : Bool} {argv : List Bytes} :
    keptArgv keepsBad argv = argv ↔ Carried keepsBad argv := by
  induction argv with
  | nil => simp [keptArgv, Carried]
  | cons arg rest ih =>
      rw [keptArgv, carried_cons]
      by_cases valid : validUtf8 arg = true
      · simp [valid, ih]
      · cases keepsBad with
        | false => simp [valid]
        | true =>
            simp only [valid, Bool.false_eq_true, if_false, if_true, List.cons.injEq, true_and,
              false_or]
            constructor
            · rintro rfl
              simp [Carried]
            · exact fun carried => carried.1.symm

/-- The request comes back with the arguments up to the first one that is not valid. -/
theorem read_redisCmdReq {keepsBad : Bool} (front argv : List Bytes) :
    (redisCmdReqLayout.read keepsBad ⟨front, []⟩ (argv.map fun arg => ⟨1, .text arg⟩)).1 =
      ⟨front ++ keptArgv keepsBad argv, []⟩ := by
  induction argv generalizing front with
  | nil => simp [Layout.read, keptArgv]
  | cons arg rest ih =>
      have more := ih (front ++ [arg])
      rw [List.map_cons, Layout.read, keptArgv]
      by_cases valid : validUtf8 arg
      · have readable : Field.readable ⟨1, .text arg⟩ = true := valid
        rw [if_pos readable, if_pos valid]
        rw [List.append_assoc, List.singleton_append] at more
        exact more
      · have unreadable : ¬Field.readable ⟨1, .text arg⟩ = true := valid
        rw [if_neg unreadable, if_neg valid]
        cases keepsBad <;> simp [redisCmdReqLayout]

/-- The head comes back with its message when all strings up to it are valid. -/
theorem read_msgHead (keepsBad : Bool) (head : MsgHead Bytes) :
    ∃ srcBusId dstBusId,
      (msgHeadLayout.read keepsBad msgHeadLayout.unset (msgHeadLayout.fields head)).1 =
        ⟨head.cmd % 2 ^ 32, head.srcCoId % 2 ^ 32, head.dstCoId % 2 ^ 32, srcBusId, dstBusId,
          if validUtf8 head.srcBusId ∧ validUtf8 head.dstBusId ∧
            (keepsBad ∨ validUtf8 head.msg) then head.msg else []⟩ := by
  obtain ⟨cmd, srcCoId, dstCoId, srcBusId, dstBusId, msg⟩ := head
  have last : textField 6 msg = textField 6 msg ++ [] := (List.append_nil _).symm
  have numbers : msgHeadLayout.read keepsBad msgHeadLayout.unset
      (msgHeadLayout.fields ⟨cmd, srcCoId, dstCoId, srcBusId, dstBusId, msg⟩) =
      msgHeadLayout.read keepsBad ⟨cmd % 2 ^ 32, srcCoId % 2 ^ 32, dstCoId % 2 ^ 32, [], [], []⟩
        (textField 4 srcBusId ++ (textField 5 dstBusId ++ textField 6 msg)) := by
    change msgHeadLayout.read keepsBad msgHeadLayout.unset (varintField 1 cmd ++
      (varintField 2 srcCoId ++ (varintField 3 dstCoId ++ _))) = _
    rw [Layout.read_varintField (by rintro rfl; rfl), Layout.read_varintField (by rintro rfl; rfl),
      Layout.read_varintField (by rintro rfl; rfl)]
    rfl
  rw [numbers, Layout.read_textField (by rintro rfl; rfl)]
  by_cases source : validUtf8 srcBusId
  · rw [if_pos source, Layout.read_textField (by rintro rfl; rfl)]
    by_cases target : validUtf8 dstBusId
    · rw [if_pos target, last, Layout.read_textField (by rintro rfl; rfl)]
      refine ⟨srcBusId, dstBusId, ?_⟩
      by_cases whole : validUtf8 msg
      · simp [whole, source, target, Layout.read, msgHeadLayout]
      · cases keepsBad <;> simp [whole, source, target, msgHeadLayout]
    · rw [if_neg target]
      cases keepsBad with
      | false => exact ⟨srcBusId, [], by simp [target, msgHeadLayout]⟩
      | true => exact ⟨srcBusId, dstBusId, by simp [target, msgHeadLayout]⟩
  · rw [if_neg source]
    cases keepsBad with
    | false => exact ⟨[], [], by simp [source]⟩
    | true => exact ⟨srcBusId, [], by simp [source, msgHeadLayout]⟩

section Submitted

variable {keepsBad : Bool} {reqCodec : ProtoCodec RedisCmdReq Bytes}
  {headCodec : ProtoCodec (MsgHead Bytes) Bytes}

/-- The request comes to `Task` with the arguments that `Parse` left in it. -/
theorem command_whole (reqObeyed : redisCmdReqLayout.Obeyed keepsBad reqCodec)
    (argv : List Bytes) :
    (reqCodec.parse (reqCodec.serialize ⟨argv, []⟩)).1.command =
      .argv (keptArgv keepsBad argv) := by
  have fields : redisCmdReqLayout.fields ⟨argv, []⟩ = argv.map fun arg => ⟨1, .text arg⟩ :=
    List.append_nil _
  have kept : (redisCmdReqLayout.read keepsBad redisCmdReqLayout.unset
      (argv.map fun arg => ⟨1, .text arg⟩)).1 = ⟨keptArgv keepsBad argv, []⟩ :=
    read_redisCmdReq [] argv
  rw [reqObeyed.parse, fields, kept]
  rfl

/-- A message that is lost with the rest of its head leaves an empty command. -/
theorem command_empty (reqObeyed : redisCmdReqLayout.Obeyed keepsBad reqCodec) :
    (reqCodec.parse []).1.command = .argv [] := by
  rw [reqObeyed.empty]
  rfl

/-- What a connected server submits. -/
theorem submitted_eq (reqObeyed : redisCmdReqLayout.Obeyed keepsBad reqCodec)
    (headObeyed : msgHeadLayout.Obeyed keepsBad headCodec) (selfId dstSvrId : Bytes) (coId : CoId)
    (argv : List Bytes) :
    submitted reqCodec headCodec .connected selfId dstSvrId coId argv =
      if validUtf8 selfId ∧ validUtf8 dstSvrId ∧
        (keepsBad ∨ validUtf8 (reqCodec.serialize ⟨argv, []⟩)) then
        some (.argv (keptArgv keepsBad argv))
      else some (.argv []) := by
  obtain ⟨srcBusId, dstBusId, arrived⟩ := read_msgHead keepsBad
    (RedisActuator.sendMsgRpc reqCodec selfId dstSvrId coId argv)
  have started : redisCmdReq % 2 ^ 32 = redisCmdReq ∧ (0 : CoId) % 2 ^ 32 = 0 := by decide
  rw [submitted, recvMsg, headObeyed.parse, arrived]
  change (if redisCmdReq % 2 ^ 32 = redisCmdReq ∧ (0 : CoId) % 2 ^ 32 = 0 then
    some (reqCodec.parse (if validUtf8 selfId ∧ validUtf8 dstSvrId ∧
      (keepsBad ∨ validUtf8 (reqCodec.serialize ⟨argv, []⟩)) then
        reqCodec.serialize ⟨argv, []⟩ else [])).1.command else none) = _
  rw [if_pos started]
  split_ifs with readable
  · rw [command_whole reqObeyed]
  · rw [command_empty reqObeyed]

end Submitted

/-- Redis gets the whole list or nothing under exactly these conditions. -/
theorem argv_whole_iff {keepsBad : Bool} {reqCodec : ProtoCodec RedisCmdReq Bytes}
    {headCodec : ProtoCodec (MsgHead Bytes) Bytes}
    (reqObeyed : redisCmdReqLayout.Obeyed keepsBad reqCodec)
    (headObeyed : msgHeadLayout.Obeyed keepsBad headCodec) (state : ClientState)
    (selfId dstSvrId : Bytes) (coId : CoId) (argv : List Bytes) :
    (submitted reqCodec headCodec state selfId dstSvrId coId argv = none ∨
        submitted reqCodec headCodec state selfId dstSvrId coId argv = some (.argv argv)) ↔
      state ≠ .connected ∨ argv = [] ∨
        (validUtf8 selfId = true ∧ validUtf8 dstSvrId = true ∧
          (keepsBad = true ∨ validUtf8 (reqCodec.serialize ⟨argv, []⟩) = true) ∧
          Carried keepsBad argv) := by
  by_cases connected : state = .connected
  · subst connected
    rw [submitted_eq reqObeyed headObeyed selfId dstSvrId coId argv]
    split_ifs with readable
    · obtain ⟨source, target, whole⟩ := readable
      simp only [false_or, Option.some.injEq, RedisCommand.argv.injEq,
        keptArgv_eq_iff, source, target, whole, ne_eq, not_true_eq_false, true_and]
      constructor
      · exact Or.inr
      · rintro (rfl | carried)
        · cases keepsBad <;> simp [Carried]
        · exact carried
    · simp only [false_or, Option.some.injEq, RedisCommand.argv.injEq, ne_eq,
        not_true_eq_false]
      constructor
      · exact fun empty => Or.inl empty.symm
      · rintro (rfl | ⟨source, target, whole, _⟩)
        · rfl
        · exact absurd ⟨source, target, whole⟩ readable
  · have nothing : submitted reqCodec headCodec state selfId dstSvrId coId argv = none := by
      simp [submitted, recvMsg, TransRedisCmd.submit, connected]
    exact iff_of_true (Or.inl nothing) (Or.inl connected)

/-- `SET k v` on the wire format, with a `Parse` that keeps the string at which it stops. -/
theorem argv_whole_set :
    submitted (wireCodec redisCmdReqLayout true) (wireCodec msgHeadLayout true) .connected [49]
        [48] 1 [[83, 69, 84], [107], [118]] = none ∨
      submitted (wireCodec redisCmdReqLayout true) (wireCodec msgHeadLayout true) .connected [49]
        [48] 1 [[83, 69, 84], [107], [118]] = some (.argv [[83, 69, 84], [107], [118]]) := by
  have carried : Carried true [[83, 69, 84], [107], [118]] := by decide +kernel
  exact (argv_whole_iff wireCodec_obeyed wireCodec_obeyed .connected [49] [48] 1 _).mpr
    (Or.inr (Or.inr ⟨by decide +kernel, by decide +kernel, Or.inl rfl, carried⟩))

/-- `SET k v PX 9` with a `v` that is no text. -/
def binaryArgv : List Bytes := [[83, 69, 84], [107], [255], [80, 88], [57]]

theorem binaryArgv_cut :
    ¬(submitted (wireCodec redisCmdReqLayout true) (wireCodec msgHeadLayout true) .connected [49]
        [48] 1 binaryArgv = none ∨
      submitted (wireCodec redisCmdReqLayout true) (wireCodec msgHeadLayout true) .connected [49]
        [48] 1 binaryArgv = some (.argv binaryArgv)) := by
  decide +kernel

end QServer
