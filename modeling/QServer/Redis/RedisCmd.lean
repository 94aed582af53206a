import QServer.Rpc.SvrCommTrans

/-
This file models the redis messages of `app/proto/redis_cmd.proto` and the work of one
`TransRedisCmd` in `app/redissvr/redis_client.cpp` and `main.cpp`.
-/

namespace QServer
open Wire

/-- The struct `redisReply` of hiredis. A null string pointer is none. -/
structure RedisReply where
  type : Int
  integer : Int64
  str : Option Bytes
  element : List RedisReply

namespace RedisReplyType

def string : Int := 1
def array : Int := 2
def integer : Int := 3
def nil : Int := 4
def status : Int := 5
def error : Int := 6

end RedisReplyType

/-- The message `proto::redis::redisReply`. -/
structure PbReply where
  type : Int
  integer : UInt64
  str : Bytes
  element : List PbReply

/-- The command that `TransRedisCmd` is registered for. -/
def redisCmdReq : Cmd := 0x10001

/-- The message `RedisCmdReq`. -/
structure RedisCmdReq where
  cmdArgv : List Bytes
  formattedCmd : Bytes

/-- The message `RedisCmdRsp`. -/
structure RedisCmdRsp where
  reply : Option PbReply

/-- `reply()` gives the default message when the field is not set. -/
def RedisCmdRsp.getReply (rsp : RedisCmdRsp) : PbReply := rsp.reply.getD ⟨0, 0, [], []⟩

/-- What goes to redis. -/
inductive RedisCommand
  | formatted (cmd : Bytes)
  | argv (argv : List Bytes)
  deriving DecidableEq

/-- `Task` prefers a formatted command that is not empty. -/
def RedisCmdReq.command (req : RedisCmdReq) : RedisCommand :=
  if req.formattedCmd ≠ [] then .formatted req.formattedCmd else .argv req.cmdArgv

/-- The reasons for which `Yield` throws. The reply of redis has its own text. -/
inductive CmdError
  | yieldFailed
  | replyNull
  | reply (text : Bytes)

namespace RedisCmd

/-- `Yield` reads the message as a reply. -/
def yield (ret : Int) (msg : Option RedisReply) : Except CmdError RedisReply :=
  if ret ≠ 0 then .error .yieldFailed
  else
    match msg with
    | none => .error .replyNull
    | some redisReply =>
        if redisReply.type = RedisReplyType.error then .error (.reply (redisReply.str.getD []))
        else .ok redisReply

/-- `FormattedCmd` and `Cmd` after the command is submitted. A nil reply is a null pointer. -/
def cmd (ret : Int) (msg : Option RedisReply) : Except CmdError (Option RedisReply) :=
  (yield ret msg).map fun reply => if reply.type = RedisReplyType.nil then none else some reply

end RedisCmd

namespace TransRedisCmd

mutual

/-- The strings and the numbers are set for every type, the elements for an array only. -/
def replyToPb : RedisReply → PbReply
  | ⟨type, integer, str, element⟩ =>
      ⟨type, integer.toUInt64, str.getD [],
        if type = RedisReplyType.array then elementsToPb element else []⟩

def elementsToPb : List RedisReply → List PbReply
  | [] => []
  | reply :: rest => replyToPb reply :: elementsToPb rest

end

/-- An exception and a null reply leave the response empty. -/
def respond : Except CmdError (Option RedisReply) → RedisCmdRsp
  | .ok (some reply) => ⟨some (replyToPb reply)⟩
  | .ok none => ⟨none⟩
  | .error _ => ⟨none⟩

theorem respond_eq_some {result : Except CmdError (Option RedisReply)} {pb : PbReply} :
    (respond result).reply = some pb ↔
      ∃ reply, result = .ok (some reply) ∧ replyToPb reply = pb := by
  cases result with
  | error failure => simp [respond]
  | ok found => cases found <;> simp [respond]

end TransRedisCmd

theorem RedisCmd.cmd_eq_some {ret : Int} {msg : Option RedisReply} {reply : RedisReply} :
    RedisCmd.cmd ret msg = .ok (some reply) ↔
      ret = 0 ∧ msg = some reply ∧ reply.type ≠ RedisReplyType.error ∧
        reply.type ≠ RedisReplyType.nil := by
  unfold RedisCmd.cmd RedisCmd.yield
  split_ifs with late
  · simp [Except.map, late]
  · rw [not_not] at late
    cases msg with
    | none => simp [Except.map]
    | some found =>
        dsimp only
        split_ifs with failed
        · simp only [Except.map, reduceCtorEq, Option.some.injEq, false_iff]
          rintro ⟨_, rfl, good, _⟩
          exact good failed
        · simp only [Except.map, Except.ok.injEq, late, Option.some.injEq, true_and]
          constructor
          · intro kept
            split_ifs at kept with missing
            cases kept
            exact ⟨rfl, failed, missing⟩
          · rintro ⟨rfl, _, present⟩
            rw [if_neg present]

end QServer
