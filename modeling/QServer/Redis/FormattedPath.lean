import QServer.Redis.Command
import QServer.Redis.Commands

/-
This file follows a formatted command from `Connection::send` through `redissvr` to redis.
-/

namespace QServer
open Wire SvrCommTrans FormatCommand

/-- The request of `redisCommandFormatted`. -/
def RedisActuator.redisCommandFormatted (cmd : Bytes) : RedisCmdReq := ⟨[], cmd⟩

/-- What hiredis writes to its connection for a command. -/
def RedisCommand.written : RedisCommand → Bytes
  | .formatted cmd => cmd
  | .argv args => Resp.command args

section Path

variable (reqCodec : ProtoCodec RedisCmdReq Bytes) (headCodec : ProtoCodec (MsgHead Bytes) Bytes)

/-- The command that the server submits for a request of `RedisActuator`. -/
def carried (state : ClientState) (selfId dstSvrId : Bytes) (coId : CoId) (req : RedisCmdReq) :
    Option RedisCommand :=
  recvMsg reqCodec headCodec state (headCodec.serialize
    (sendMsgThenYield selfId coId ⟨dstSvrId, redisCmdReq, reqCodec.serialize req, 0⟩))

end Path

section Arrival

variable {keepsBad : Bool} {reqCodec : ProtoCodec RedisCmdReq Bytes}
  {headCodec : ProtoCodec (MsgHead Bytes) Bytes}

/-- The strings that `Parse` must accept for a formatted command. -/
def Readable (keepsBad : Bool) (reqCodec : ProtoCodec RedisCmdReq Bytes)
    (selfId dstSvrId cmd : Bytes) : Prop :=
  validUtf8 selfId = true ∧ validUtf8 dstSvrId = true ∧
    (keepsBad = true ∨
      validUtf8 (reqCodec.serialize (RedisActuator.redisCommandFormatted cmd)) = true ∧
        validUtf8 cmd = true)

instance (selfId dstSvrId cmd : Bytes) :
    Decidable (Readable keepsBad reqCodec selfId dstSvrId cmd) :=
  inferInstanceAs (Decidable (_ ∧ _))

/-- The formatted command comes whole or is lost whole. -/
theorem command_formatted (reqObeyed : redisCmdReqLayout.Obeyed keepsBad reqCodec) {cmd : Bytes}
    (present : cmd ≠ []) :
    (reqCodec.parse (reqCodec.serialize (RedisActuator.redisCommandFormatted cmd))).1.command =
      if validUtf8 cmd ∨ keepsBad then .formatted cmd else .argv [] := by
  have fields : redisCmdReqLayout.fields (RedisActuator.redisCommandFormatted cmd) =
      textField 2 cmd ++ [] := (List.append_nil _).symm
  rw [reqObeyed.parse, fields, Layout.read_textField fun empty => absurd empty present]
  by_cases valid : validUtf8 cmd = true
  · simp [valid, Layout.read, redisCmdReqLayout, RedisCmdReq.command, present]
  · cases keepsBad <;> simp [valid, redisCmdReqLayout, RedisCmdReq.command, present]

theorem carried_formatted (reqObeyed : redisCmdReqLayout.Obeyed keepsBad reqCodec)
    (headObeyed : msgHeadLayout.Obeyed keepsBad headCodec) (state : ClientState)
    (selfId dstSvrId : Bytes) (coId : CoId) {cmd : Bytes} (present : cmd ≠ []) :
    carried reqCodec headCodec state selfId dstSvrId coId
        (RedisActuator.redisCommandFormatted cmd) =
      if state = .connected then
        some (if Readable keepsBad reqCodec selfId dstSvrId cmd then .formatted cmd else .argv [])
      else none := by
  let text := reqCodec.serialize (RedisActuator.redisCommandFormatted cmd)
  obtain ⟨srcBusId, dstBusId, arrived⟩ := read_msgHead keepsBad
    (sendMsgThenYield selfId coId ⟨dstSvrId, redisCmdReq, text, 0⟩)
  have started : redisCmdReq % 2 ^ 32 = redisCmdReq ∧ (0 : CoId) % 2 ^ 32 = 0 := by decide
  rw [carried, recvMsg, headObeyed.parse, arrived]
  change (if redisCmdReq % 2 ^ 32 = redisCmdReq ∧ (0 : CoId) % 2 ^ 32 = 0 then
    if state = .connected then some (reqCodec.parse (if validUtf8 selfId ∧ validUtf8 dstSvrId ∧
      (keepsBad ∨ validUtf8 text) then text else [])).1.command else none else none) = _
  rw [if_pos started]
  split_ifs with connected headed readable readable
  · rw [command_formatted reqObeyed present, if_pos]
    rcases readable.2.2 with kept | valid
    · exact Or.inr kept
    · exact Or.inl valid.2
  · rw [command_formatted reqObeyed present, if_neg]
    rintro (valid | kept)
    · refine readable ⟨headed.1, headed.2.1, ?_⟩
      rcases headed.2.2 with kept | whole
      · exact Or.inl kept
      · exact Or.inr ⟨whole, valid⟩
    · exact readable ⟨headed.1, headed.2.1, Or.inl kept⟩
  · refine absurd ⟨readable.1, readable.2.1, ?_⟩ headed
    rcases readable.2.2 with kept | valid
    · exact Or.inl kept
    · exact Or.inr valid.1
  · rw [command_empty reqObeyed]
  · rfl

end Arrival

theorem chunkWords_ne_nil {print : Bytes → VaArg → Bytes} {chunks : List Bytes} {args : List Arg}
    (present : chunks ≠ []) (fits : chunksFit chunks (args.map Arg.type) = true) :
    chunkWords print chunks args ≠ [] := by
  obtain ⟨chunk, chunks, rfl⟩ := List.exists_cons_of_ne_nil present
  rw [chunksFit_cons] at fits
  rw [chunkWords_cons]
  split_ifs at fits ⊢
  · cases args with
    | nil => cases fits
    | cons arg args => exact List.cons_ne_nil _ _
  · exact List.cons_ne_nil _ _

/-- A command has its name at least. -/
theorem Call.Proper.words_ne_nil {print : Bytes → VaArg → Bytes} {call : Call}
    (proper : call.Proper print) : call.send.words print call.args ≠ [] := by
  have fits := sends_fit call.send proper.listed
  rw [← proper.typed] at fits
  exact chunkWords_ne_nil (List.splitOn_ne_nil _ _) fits

/-- A command comes whole exactly when a connected server can read it. -/
theorem call_arrives {print : Bytes → VaArg → Bytes} {call : Call} (proper : call.Proper print)
    {keepsBad : Bool} {reqCodec : ProtoCodec RedisCmdReq Bytes}
    {headCodec : ProtoCodec (MsgHead Bytes) Bytes}
    (reqObeyed : redisCmdReqLayout.Obeyed keepsBad reqCodec)
    (headObeyed : msgHeadLayout.Obeyed keepsBad headCodec) (state : ClientState)
    (selfId dstSvrId : Bytes) (coId : CoId) :
    ∃ cmd, call.send.run print call.args = .ok cmd ∧
      ((∃ command, carried reqCodec headCodec state selfId dstSvrId coId
          (RedisActuator.redisCommandFormatted cmd) = some command ∧
        ∀ rest, Resp.readCommand (command.written ++ rest) =
          some (call.send.words print call.args, rest)) ↔
        state = .connected ∧ Readable keepsBad reqCodec selfId dstSvrId cmd) ∧
      ∀ command, carried reqCodec headCodec state selfId dstSvrId coId
          (RedisActuator.redisCommandFormatted cmd) = some command →
        Readable keepsBad reqCodec selfId dstSvrId cmd ∨ command = .argv [] := by
  have present : Resp.command (call.send.words print call.args) ≠ [] := List.cons_ne_nil _ _
  refine ⟨_, proper.run_eq, ?_⟩
  rw [carried_formatted reqObeyed headObeyed state selfId dstSvrId coId present]
  by_cases connected : state = .connected
  · rw [if_pos connected]
    split_ifs with readable
    · refine ⟨iff_of_true ⟨_, rfl, Resp.readCommand_command _⟩ ⟨connected, readable⟩, ?_⟩
      exact fun _ _ => Or.inl readable
    · constructor
      · refine iff_of_false ?_ fun arrived => readable arrived.2
        rintro ⟨_, same, read⟩
        cases same
        have empty : Resp.readCommand (Resp.command [] ++ []) = some ([], []) :=
          Resp.readCommand_command [] []
        have words := read []
        rw [RedisCommand.written, empty] at words
        exact proper.words_ne_nil (Prod.mk.inj (Option.some.inj words)).1.symm
      · rintro _ same
        cases same
        exact Or.inr rfl
  · rw [if_neg connected]
    refine ⟨iff_of_false ?_ fun arrived => connected arrived.1, ?_⟩
    · rintro ⟨_, same, _⟩
      cases same
    · intro _ same
      cases same

/-- A codec of the wire format, with a `Parse` that keeps the string at which it stops. -/
theorem call_arrives_setex :
    ∃ cmd, setexCall.send.run printSixty setexCall.args = .ok cmd ∧
      ((∃ command, carried (wireCodec redisCmdReqLayout true) (wireCodec msgHeadLayout true)
          .connected [49] [48] 1 (RedisActuator.redisCommandFormatted cmd) = some command ∧
        ∀ rest, Resp.readCommand (command.written ++ rest) =
          some (setexCall.send.words printSixty setexCall.args, rest)) ↔
        ClientState.connected = .connected ∧
          Readable true (wireCodec redisCmdReqLayout true) [49] [48] cmd) ∧
      ∀ command, carried (wireCodec redisCmdReqLayout true) (wireCodec msgHeadLayout true)
          .connected [49] [48] 1 (RedisActuator.redisCommandFormatted cmd) = some command →
        Readable true (wireCodec redisCmdReqLayout true) [49] [48] cmd ∨ command = .argv [] :=
  call_arrives setexCall_proper wireCodec_obeyed wireCodec_obeyed .connected [49] [48] 1

end QServer
