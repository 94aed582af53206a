import QServer.Lib.ProtoCodec
import QServer.Redis.RedisCmd

/-
This file models the way of a reply from hiredis to `RedisActuator::recv`, with
`app/common/convert_reply_help.h` and `redis_actuator.cpp`.
-/

namespace QServer
open Wire SvrCommTrans

/-- A reply of redis. -/
inductive Reply
  | string (str : Bytes)
  | status (str : Bytes)
  | error (str : Bytes)
  | integer (value : Int64)
  | nil
  | array (elements : List Reply)

namespace Reply

mutual

/-- The struct that hiredis delivers for the reply. -/
def object : Reply → RedisReply
  | .string str => ⟨RedisReplyType.string, 0, some str, []⟩
  | .status str => ⟨RedisReplyType.status, 0, some str, []⟩
  | .error str => ⟨RedisReplyType.error, 0, some str, []⟩
  | .integer value => ⟨RedisReplyType.integer, value, none, []⟩
  | .nil => ⟨RedisReplyType.nil, 0, none, []⟩
  | .array elements => ⟨RedisReplyType.array, 0, none, objects elements⟩

def objects : List Reply → List RedisReply
  | [] => []
  | reply :: rest => object reply :: objects rest

end

end Reply

namespace ConvertReply

mutual

/-- `PbToReply` without failures of `malloc`. The junk tells which `r` is not null. -/
def pbToReply (junk : List Nat → Bool) : PbReply → Option RedisReply
  | ⟨type, integer, str, element⟩ =>
      if type = RedisReplyType.error ∨ type = RedisReplyType.status ∨
          type = RedisReplyType.string then
        some ⟨type, 0, some str, []⟩
      else if type = RedisReplyType.integer then
        if junk [] then some ⟨type, integer.toInt64, none, []⟩ else none
      else if type = RedisReplyType.array then
        (pbToElements junk 0 element).map fun element => ⟨type, 0, none, element⟩
      else if junk [] then some ⟨type, 0, none, []⟩
      else none

/-- The loop over the elements breaks at the first null pointer. -/
def pbToElements (junk : List Nat → Bool) (place : Nat) : List PbReply → Option (List RedisReply)
  | [] => some []
  | pb :: rest =>
      (pbToReply (fun path => junk (place :: path)) pb).bind fun reply =>
        (pbToElements junk (place + 1) rest).map (reply :: ·)

end

end ConvertReply

variable {Payload : Type}

/-- The pointer that `recv` hands out after `redisCommandArgv` got the response. -/
def RedisActuator.recv (codec : ProtoCodec RedisCmdRsp Payload) (junk : List Nat → Bool)
    (retMsg : MsgHead Payload) : Except String (Option RedisReply) :=
  (sendMsgRpc codec.read 0 (some retMsg)).map fun rsp =>
    ConvertReply.pbToReply junk rsp.getReply

/-- The response of `TransRedisCmd` when hiredis delivers the reply in time. -/
def TransRedisCmd.response (reply : Reply) : RedisCmdRsp :=
  TransRedisCmd.respond (RedisCmd.cmd 0 (some reply.object))

/-- The reply on its way from hiredis through the server to the caller of a request. -/
def proxied (codec : ProtoCodec RedisCmdRsp Payload) (request : MsgHead Payload)
    (junk : List Nat → Bool) (redisReply : Reply) : Except String (Option RedisReply) :=
  RedisActuator.recv codec junk
    (reply request (codec.serialize (TransRedisCmd.response redisReply)))

end QServer
