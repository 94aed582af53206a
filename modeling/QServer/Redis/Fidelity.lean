import QServer.Redis.ConvertReply

/-
This file proves which replies of redis come to the caller as they are.
-/

namespace QServer
open Wire SvrCommTrans ConvertReply

namespace Reply

mutual

/-- No integer and no nil occurs in the reply. -/
def Plain : Reply → Prop
  | .integer _ => False
  | .nil => False
  | .array elements => AllPlain elements
  | _ => True

def AllPlain : List Reply → Prop
  | [] => True
  | reply :: rest => Plain reply ∧ AllPlain rest

end

theorem allPlain_iff {elements : List Reply} :
    AllPlain elements ↔ ∀ reply ∈ elements, reply.Plain := by
  induction elements with
  | nil => simp [AllPlain]
  | cons reply rest ih => simp [AllPlain, ih]

/-- The replies that the proxy hands on unchanged. -/
def Survives : Reply → Prop
  | .string _ => True
  | .status _ => True
  | .array elements => ∀ reply ∈ elements, reply.Plain
  | _ => False

end Reply

mutual

/-- The conversions to protobuf and back keep a plain reply. -/
theorem pbToReply_plain (reply : Reply) (plain : reply.Plain) (junk : List Nat → Bool) :
    pbToReply junk (TransRedisCmd.replyToPb reply.object) = some reply.object := by
  cases reply with
  | string str => rfl
  | status str => rfl
  | error str => rfl
  | integer value => exact plain.elim
  | nil => exact plain.elim
  | array elements =>
      have kept := pbToElements_plain elements plain junk 0
      change (pbToElements junk 0 (TransRedisCmd.elementsToPb (Reply.objects elements))).map _ = _
      rw [kept]
      rfl

theorem pbToElements_plain (elements : List Reply) (plain : Reply.AllPlain elements)
    (junk : List Nat → Bool) (place : Nat) :
    pbToElements junk place (TransRedisCmd.elementsToPb (Reply.objects elements)) =
      some (Reply.objects elements) := by
  cases elements with
  | nil => rfl
  | cons reply rest =>
      have first := pbToReply_plain reply plain.1 fun path => junk (place :: path)
      have others := pbToElements_plain rest plain.2 junk (place + 1)
      simp only [Reply.objects, TransRedisCmd.elementsToPb, pbToElements, first, others,
        Option.bind_some, Option.map_some]

end

mutual

/-- With null pointers as junk an integer or a nil makes the whole reply null. -/
theorem pbToReply_lost (reply : Reply) (lost : ¬reply.Plain) :
    pbToReply (fun _ => false) (TransRedisCmd.replyToPb reply.object) = none := by
  cases reply with
  | string str => exact absurd trivial lost
  | status str => exact absurd trivial lost
  | error str => exact absurd trivial lost
  | integer value => rfl
  | nil => rfl
  | array elements =>
      have gone := pbToElements_lost elements lost 0
      change (pbToElements _ 0 (TransRedisCmd.elementsToPb (Reply.objects elements))).map _ = _
      rw [gone]
      rfl

theorem pbToElements_lost (elements : List Reply) (lost : ¬Reply.AllPlain elements)
    (place : Nat) :
    pbToElements (fun _ => false) place (TransRedisCmd.elementsToPb (Reply.objects elements)) =
      none := by
  cases elements with
  | nil => exact absurd trivial lost
  | cons reply rest =>
      simp only [Reply.objects, TransRedisCmd.elementsToPb, pbToElements]
      by_cases plain : reply.Plain
      · have others := pbToElements_lost rest (fun kept => lost ⟨plain, kept⟩) (place + 1)
        rw [pbToReply_plain reply plain, Option.bind_some, others, Option.map_none]
      · rw [pbToReply_lost reply plain, Option.bind_none]

end

section Proxied

variable {Payload : Type} {codec : ProtoCodec RedisCmdRsp Payload}

theorem proxied_eq {redisReply : Reply} (request : MsgHead Payload)
    (roundTrips : codec.RoundTrips (TransRedisCmd.response redisReply)) (junk : List Nat → Bool) :
    proxied codec request junk redisReply =
      .ok (pbToReply junk (TransRedisCmd.response redisReply).getReply) := by
  have received : sendMsgRpc codec.read 0
      (some (reply request (codec.serialize (TransRedisCmd.response redisReply)))) =
        .ok (TransRedisCmd.response redisReply) :=
    sendMsgRpc_ok.mpr ⟨rfl, _, rfl, roundTrips.read⟩
  rw [proxied, RedisActuator.recv, received]
  rfl

/-- A nil and an error leave the response empty, and no reply of redis comes of that. -/
theorem empty_ne {found : RedisReply} (typed : found.type ≠ 0) :
    pbToReply (fun _ => true) (RedisCmdRsp.getReply ⟨none⟩) ≠ some found := by
  intro same
  have types : 0 = found.type := congrArg RedisReply.type (Option.some.inj same)
  exact typed types.symm

end Proxied

/-- A reply comes whole exactly when it has no integer and no nil and is no error. -/
theorem proxied_iff {Payload : Type} {codec : ProtoCodec RedisCmdRsp Payload}
    {redisReply : Reply} (request : MsgHead Payload)
    (roundTrips : codec.RoundTrips (TransRedisCmd.response redisReply)) :
    (∀ junk, proxied codec request junk redisReply = .ok (some redisReply.object)) ↔
      redisReply.Survives := by
  simp only [proxied_eq request roundTrips, Except.ok.injEq]
  cases redisReply with
  | string str => exact iff_of_true (fun junk => pbToReply_plain (.string str) trivial junk) trivial
  | status str => exact iff_of_true (fun junk => pbToReply_plain (.status str) trivial junk) trivial
  | error str =>
      have typed : RedisReplyType.error ≠ 0 := by decide
      exact iff_of_false (fun kept => empty_ne typed (kept fun _ => true)) id
  | integer value =>
      have same : (TransRedisCmd.response (.integer value)).getReply =
          TransRedisCmd.replyToPb (Reply.integer value).object := rfl
      refine iff_of_false (fun kept => ?_) id
      have gone := kept fun _ => false
      rw [same, pbToReply_lost (.integer value) id] at gone
      cases gone
  | nil =>
      have typed : Reply.nil.object.type ≠ 0 := by decide
      exact iff_of_false (fun kept => empty_ne typed (kept fun _ => true)) id
  | array elements =>
      have same : (TransRedisCmd.response (.array elements)).getReply =
          TransRedisCmd.replyToPb (Reply.array elements).object := rfl
      rw [same]
      constructor
      · intro kept
        by_contra lost
        have gone := kept fun _ => false
        have dirty : ¬(Reply.array elements).Plain :=
          fun plain => lost (Reply.allPlain_iff.mp plain)
        rw [pbToReply_lost (.array elements) dirty] at gone
        cases gone
      · intro plain junk
        exact pbToReply_plain (.array elements) (Reply.allPlain_iff.mpr plain) junk

/-- A codec that keeps every message as it is. -/
def openCodec : ProtoCodec RedisCmdRsp RedisCmdRsp := ⟨id, fun rsp => (rsp, true)⟩

/-- The request of a client that asks for a reply. -/
def clientRequest : MsgHead RedisCmdRsp := ⟨redisCmdReq, 1, 0, [1], [0], ⟨none⟩⟩

/-- An array with an error inside comes to the caller, and so does the text of the error. -/
theorem proxied_iff_array :
    (∀ junk, proxied openCodec clientRequest junk (.array [.string [65], .error [66]]) =
      .ok (some (Reply.array [.string [65], .error [66]]).object)) ↔
      (Reply.array [.string [65], .error [66]]).Survives :=
  proxied_iff clientRequest rfl

theorem nil_not_proxied :
    ¬∀ junk, proxied openCodec clientRequest junk .nil = .ok (some Reply.nil.object) := by
  intro kept
  have typed : Reply.nil.object.type ≠ 0 := by decide
  have roundTrips : openCodec.RoundTrips (TransRedisCmd.response .nil) := rfl
  have same := kept fun _ => true
  rw [proxied_eq clientRequest roundTrips, Except.ok.injEq] at same
  exact empty_ne typed same

end QServer
