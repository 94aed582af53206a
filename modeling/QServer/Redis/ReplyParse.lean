import QServer.Lib.Resp
import QServer.Redis.Fidelity

/-
This file models the typed replies of `commlib/redis/reply.h` and `reply.cpp`, and what a caller of
`Redis` gets through `redissvr`.
-/

namespace QServer
open Wire SvrCommTrans ConvertReply

/-- The function `parse` of a type. An error has the text of the exception. -/
class ReplyParse (Value : Type) where
  parse : RedisReply → Except Bytes Value

namespace ReplyParse

def toStatus (reply : RedisReply) : Except Bytes Bytes :=
  if reply.type ≠ RedisReplyType.status then .error (ascii "Expect STATUS reply")
  else
    match reply.str with
    | none => .error (ascii "A null status reply")
    | some str => .ok str

def parseString (reply : RedisReply) : Except Bytes Bytes :=
  if reply.type ≠ RedisReplyType.string ∧ reply.type ≠ RedisReplyType.status then
    .error (ascii "Expect STRING reply")
  else
    match reply.str with
    | none => .error (ascii "A null string reply")
    | some str => .ok str

instance : ReplyParse Bytes := ⟨parseString⟩

def parseLongLong (reply : RedisReply) : Except Bytes Int64 :=
  if reply.type ≠ RedisReplyType.integer then .error (ascii "Expect INTEGER reply")
  else .ok reply.integer

instance : ReplyParse Int64 := ⟨parseLongLong⟩

def parseBool (reply : RedisReply) : Except Bytes Bool :=
  (parseLongLong reply).bind fun ret =>
    if ret = 1 then .ok true
    else if ret = 0 then .ok false
    else .error (ascii "Invalid bool reply: " ++ ascii (toString ret))

instance : ReplyParse Bool := ⟨parseBool⟩

/-- The type `void` takes the status `OK` only. -/
def parseVoid (reply : RedisReply) : Except Bytes Unit :=
  (toStatus reply).bind fun status =>
    if status = ascii "OK" then .ok ()
    else .error (ascii "NOT ok status reply: " ++ status)

instance : ReplyParse Unit := ⟨parseVoid⟩

section Composite

variable {First Second Value : Type} [ReplyParse First] [ReplyParse Second] [ReplyParse Value]

instance : ReplyParse (Option Value) where
  parse reply := if reply.type = RedisReplyType.nil then .ok none else (parse reply).map some

/-- Of two errors the compiler chooses one. Here the first element comes first. -/
def parsePair (reply : RedisReply) : Except Bytes (First × Second) :=
  if reply.type ≠ RedisReplyType.array then .error (ascii "Expect ARRAY reply")
  else
    match reply.element with
    | [first, second] =>
        (parse first).bind fun first => (parse second).map fun second => (first, second)
    | _ => .error (ascii "NOT key-value PAIR reply")

instance : ReplyParse (First × Second) := ⟨parsePair⟩

def parseElements : List RedisReply → Except Bytes (List Value)
  | [] => .ok []
  | reply :: rest => (parse reply).bind fun value => (parseElements rest).map (value :: ·)

/-- `to_array` for elements that are no pairs. -/
def toArray (reply : RedisReply) : Except Bytes (List Value) :=
  if reply.type ≠ RedisReplyType.array then .error (ascii "Expect ARRAY reply")
  else parseElements reply.element

instance (priority := low) : ReplyParse (List Value) := ⟨toArray⟩

/-- The first element tells whether the keys and the values alternate. -/
def isFlatArray (reply : RedisReply) : Bool :=
  match reply.element with
  | [] => false
  | first :: _ => first.type ≠ RedisReplyType.array

def alternating : List RedisReply → Except Bytes (List (First × Second))
  | key :: value :: rest =>
      (parse key).bind fun key => (parse value).bind fun value =>
        (alternating rest).map ((key, value) :: ·)
  | _ => .ok []

def toFlatArray (reply : RedisReply) : Except Bytes (List (First × Second)) :=
  if reply.element.length % 2 ≠ 0 then .error (ascii "Not string pair array reply")
  else alternating reply.element

/-- `to_array` for pairs. -/
def toPairArray (reply : RedisReply) : Except Bytes (List (First × Second)) :=
  if reply.type ≠ RedisReplyType.array then .error (ascii "Expect ARRAY reply")
  else if isFlatArray reply then toFlatArray reply
  else parseElements reply.element

instance : ReplyParse (List (First × Second)) := ⟨toPairArray⟩

end Composite

end ReplyParse

/-- What a function of `Redis` comes to. It reads through the pointer of `recv` without a test. -/
inductive ClientResult (Value : Type)
  | value (value : Value)
  | thrown (text : Bytes)
  | undefined

def Redis.parsed {Value : Type} [ReplyParse Value]
    (received : Except String (Option RedisReply)) : ClientResult Value :=
  match received with
  | .error text => .thrown (ascii text)
  | .ok none => .undefined
  | .ok (some reply) =>
      match ReplyParse.parse reply with
      | .error text => .thrown text
      | .ok value => .value value

section Delivery

variable {Value : Type} [ReplyParse Value]

theorem Redis.parsed_eq_value {received : Except String (Option RedisReply)} {value : Value} :
    Redis.parsed received = .value value ↔
      ∃ reply, received = .ok (some reply) ∧ ReplyParse.parse reply = .ok value := by
  cases received with
  | error text => simp [Redis.parsed]
  | ok pointer =>
      cases pointer with
      | none => simp [Redis.parsed]
      | some reply =>
          cases parsed : (ReplyParse.parse reply : Except Bytes Value) <;>
            simp [Redis.parsed, parsed]

/-- A reply that does not survive makes a null pointer when the variables are null. -/
theorem response_lost {redisReply : Reply} (lost : ¬redisReply.Survives) :
    pbToReply (fun _ => false) (TransRedisCmd.response redisReply).getReply = none := by
  cases redisReply with
  | string str => exact absurd trivial lost
  | status str => exact absurd trivial lost
  | error str => rfl
  | integer value => rfl
  | nil => rfl
  | array elements =>
      have dirty : ¬(Reply.array elements).Plain :=
        fun plain => lost (Reply.allPlain_iff.mp plain)
      exact pbToReply_lost (.array elements) dirty

theorem response_kept {redisReply : Reply} (survives : redisReply.Survives)
    (junk : List Nat → Bool) :
    pbToReply junk (TransRedisCmd.response redisReply).getReply = some redisReply.object := by
  cases redisReply with
  | string str => rfl
  | status str => rfl
  | error str => exact survives.elim
  | integer value => exact survives.elim
  | nil => exact survives.elim
  | array elements => exact pbToReply_plain (.array elements) (Reply.allPlain_iff.mpr survives) junk

/-- What a caller gets of a reply that survives. -/
theorem parsed_kept {Payload : Type} {codec : ProtoCodec RedisCmdRsp Payload} {redisReply : Reply}
    (request : MsgHead Payload)
    (roundTrips : codec.RoundTrips (TransRedisCmd.response redisReply))
    (survives : redisReply.Survives) (junk : List Nat → Bool) :
    (Redis.parsed (proxied codec request junk redisReply) : ClientResult Value) =
      Redis.parsed (.ok (some redisReply.object)) := by
  rw [proxied_eq request roundTrips, response_kept survives]

/-- A typed value comes whatever the junk is exactly when it survives and parses. -/
theorem delivered_iff {Payload : Type} {codec : ProtoCodec RedisCmdRsp Payload}
    {redisReply : Reply} (request : MsgHead Payload)
    (roundTrips : codec.RoundTrips (TransRedisCmd.response redisReply)) (value : Value) :
    (∀ junk, Redis.parsed (proxied codec request junk redisReply) = .value value) ↔
      redisReply.Survives ∧ ReplyParse.parse redisReply.object = .ok value := by
  simp only [proxied_eq request roundTrips, Redis.parsed_eq_value, Except.ok.injEq]
  constructor
  · intro delivered
    by_cases survives : redisReply.Survives
    · obtain ⟨reply, arrived, parsed⟩ := delivered fun _ => false
      rw [response_kept survives] at arrived
      cases arrived
      exact ⟨survives, parsed⟩
    · obtain ⟨reply, arrived, _⟩ := delivered fun _ => false
      rw [response_lost survives] at arrived
      cases arrived
  · rintro ⟨survives, parsed⟩ junk
    exact ⟨_, response_kept survives junk, parsed⟩

end Delivery

section Lost

theorem parse_number_lost {redisReply : Reply} (survives : redisReply.Survives) (number : Int64) :
    ReplyParse.parse redisReply.object ≠ .ok number := by
  cases redisReply with
  | string str => exact fun parsed => by cases parsed
  | status str => exact fun parsed => by cases parsed
  | error str => exact survives.elim
  | integer value => exact survives.elim
  | nil => exact survives.elim
  | array elements => exact fun parsed => by cases parsed

theorem parse_none_lost {Value : Type} [ReplyParse Value] {redisReply : Reply}
    (survives : redisReply.Survives) :
    ReplyParse.parse redisReply.object ≠ .ok (none : Option Value) := by
  intro parsed
  change (if redisReply.object.type = RedisReplyType.nil then Except.ok none
    else (ReplyParse.parse redisReply.object).map some) = _ at parsed
  split_ifs at parsed with missing
  · cases redisReply with
    | nil => exact survives
    | _ => cases missing
  · cases found : (ReplyParse.parse redisReply.object : Except Bytes Value) with
    | error text =>
        rw [found] at parsed
        cases parsed
    | ok value =>
        rw [found] at parsed
        cases parsed

/-- Which typed results come whatever the junk is: no number, truth value or empty value. -/
theorem typed_delivered {Payload : Type} {codec : ProtoCodec RedisCmdRsp Payload}
    {redisReply : Reply} (request : MsgHead Payload)
    (roundTrips : codec.RoundTrips (TransRedisCmd.response redisReply)) :
    (∀ (Value : Type) [ReplyParse Value] (value : Value),
      (∀ junk, Redis.parsed (proxied codec request junk redisReply) = .value value) ↔
        redisReply.Survives ∧ ReplyParse.parse redisReply.object = .ok value) ∧
    (∀ number : Int64,
      ¬∀ junk, Redis.parsed (proxied codec request junk redisReply) = .value number) ∧
    (∀ truth : Bool,
      ¬∀ junk, Redis.parsed (proxied codec request junk redisReply) = .value truth) ∧
    ∀ (Value : Type) [ReplyParse Value],
      ¬∀ junk, Redis.parsed (proxied codec request junk redisReply) =
        .value (none : Option Value) := by
  refine ⟨fun Value _ value => delivered_iff request roundTrips value,
    fun number delivered => ?_, fun truth delivered => ?_, fun Value _ delivered => ?_⟩
  · obtain ⟨survives, parsed⟩ := (delivered_iff request roundTrips _).mp delivered
    exact parse_number_lost survives number parsed
  · obtain ⟨survives, parsed⟩ := (delivered_iff request roundTrips _).mp delivered
    change (ReplyParse.parseLongLong redisReply.object).bind _ = _ at parsed
    cases number : ReplyParse.parseLongLong redisReply.object with
    | error text =>
        rw [number] at parsed
        cases parsed
    | ok ret => exact parse_number_lost survives ret number
  · obtain ⟨survives, parsed⟩ := (delivered_iff request roundTrips _).mp delivered
    exact parse_none_lost survives parsed

/-- The reply to `INCR` on its way. -/
theorem typed_delivered_integer :
    (∀ (Value : Type) [ReplyParse Value] (value : Value),
      (∀ junk, Redis.parsed (proxied openCodec clientRequest junk (.integer 1)) = .value value) ↔
        (Reply.integer 1).Survives ∧ ReplyParse.parse (Reply.integer 1).object = .ok value) ∧
    (∀ number : Int64,
      ¬∀ junk, Redis.parsed (proxied openCodec clientRequest junk (.integer 1)) =
        .value number) ∧
    (∀ truth : Bool,
      ¬∀ junk, Redis.parsed (proxied openCodec clientRequest junk (.integer 1)) = .value truth) ∧
    ∀ (Value : Type) [ReplyParse Value],
      ¬∀ junk, Redis.parsed (proxied openCodec clientRequest junk (.integer 1)) =
        .value (none : Option Value) :=
  typed_delivered clientRequest rfl

end Lost

/-- How redis writes the values of a type. -/
class ReplyCodec (Value : Type) extends ReplyParse Value where
  encode : Value → Reply
  parse_encode : ∀ value, parse (encode value).object = .ok value

namespace ReplyCodec

instance : ReplyCodec Bytes := ⟨.string, fun _ => rfl⟩

instance : ReplyCodec Int64 := ⟨.integer, fun _ => rfl⟩

instance : ReplyCodec Bool where
  encode truth := .integer (if truth then 1 else 0)
  parse_encode truth := by cases truth <;> rfl

instance : ReplyCodec Unit := ⟨fun _ => .status (ascii "OK"), fun ⟨⟩ => by decide +kernel⟩

variable {First Second Value : Type} [ReplyCodec First] [ReplyCodec Second] [ReplyCodec Value]

instance : ReplyCodec (First × Second) where
  encode pair := .array [encode pair.1, encode pair.2]
  parse_encode pair := by
    change ((ReplyParse.parse (encode pair.1).object).bind fun first =>
      (ReplyParse.parse (encode pair.2).object).map fun second => (first, second)) = _
    rw [parse_encode, Except.bind, parse_encode]
    rfl

theorem parseElements_encode (values : List Value) :
    ReplyParse.parseElements (Reply.objects (values.map encode)) = .ok values := by
  induction values with
  | nil => rfl
  | cons value values ih =>
      rw [List.map_cons, Reply.objects, ReplyParse.parseElements, parse_encode, Except.bind, ih]
      rfl

/-- The keys and the values alternate. -/
def flat (pairs : List (First × Second)) : List Reply :=
  pairs.flatMap fun pair => [encode pair.1, encode pair.2]

theorem alternating_flat (pairs : List (First × Second)) :
    ReplyParse.alternating (Reply.objects (flat pairs)) = .ok pairs ∧
      (Reply.objects (flat pairs)).length = 2 * pairs.length := by
  induction pairs with
  | nil => exact ⟨rfl, rfl⟩
  | cons pair pairs ih =>
      have shape : Reply.objects (flat (pair :: pairs)) =
          (encode pair.1).object :: (encode pair.2).object :: Reply.objects (flat pairs) := rfl
      constructor
      · rw [shape, ReplyParse.alternating, parse_encode, Except.bind, parse_encode, Except.bind,
          ih.1]
        rfl
      · rw [shape, List.length_cons, List.length_cons, ih.2, List.length_cons]
        omega

/-- An array of pairs is read from both forms. -/
theorem toPairArray_encode {pairs : List (First × Second)}
    (keyed : ∀ pair ∈ pairs, (encode pair.1).object.type ≠ RedisReplyType.array) :
    ReplyParse.toPairArray (Reply.array (flat pairs)).object = .ok pairs ∧
      ReplyParse.toPairArray (Reply.array (pairs.map encode)).object = .ok pairs := by
  cases pairs with
  | nil => exact ⟨rfl, rfl⟩
  | cons pair pairs =>
      have key := keyed pair List.mem_cons_self
      constructor
      · have whole := alternating_flat (pair :: pairs)
        have even : (Reply.objects (flat (pair :: pairs))).length % 2 = 0 := by omega
        have first : ReplyParse.isFlatArray (Reply.array (flat (pair :: pairs))).object = true :=
          decide_eq_true key
        rw [ReplyParse.toPairArray, if_neg (fun other => other rfl), if_pos first,
          ReplyParse.toFlatArray, if_neg (fun odd => odd even)]
        exact whole.1
      · have first : ReplyParse.isFlatArray
            (Reply.array ((pair :: pairs).map encode)).object = false := rfl
        rw [ReplyParse.toPairArray, if_neg (fun other => other rfl), 
          if_neg fun set => Bool.false_ne_true (first.symm.trans set)]
        exact parseElements_encode (pair :: pairs)

end ReplyCodec

open ReplyCodec

/-- A list of pairs whose elements survive comes to the caller in both forms. -/
theorem pairs_delivered {Payload First Second : Type} [ReplyCodec First] [ReplyCodec Second]
    {codec : ProtoCodec RedisCmdRsp Payload} (request : MsgHead Payload)
    {pairs : List (First × Second)}
    (flatTrips : codec.RoundTrips (TransRedisCmd.response (.array (flat pairs))))
    (nestedTrips : codec.RoundTrips (TransRedisCmd.response (.array (pairs.map encode))))
    (keyed : ∀ pair ∈ pairs, (encode pair.1).object.type ≠ RedisReplyType.array)
    (plain : ∀ pair ∈ pairs, (encode pair.1).Plain ∧ (encode pair.2).Plain) :
    (∀ junk, Redis.parsed (proxied codec request junk (.array (flat pairs))) = .value pairs) ∧
      ∀ junk, Redis.parsed (proxied codec request junk (.array (pairs.map encode))) =
        .value pairs := by
  have parsed := toPairArray_encode keyed
  constructor
  · refine (delivered_iff request flatTrips pairs).mpr ⟨?_, parsed.1⟩
    intro reply member
    obtain ⟨pair, among, element⟩ := List.mem_flatMap.mp member
    rcases List.mem_pair.mp element with rfl | rfl
    · exact (plain pair among).1
    · exact (plain pair among).2
  · refine (delivered_iff request nestedTrips pairs).mpr ⟨?_, parsed.2⟩
    intro reply member
    obtain ⟨pair, among, rfl⟩ := List.mem_map.mp member
    exact ⟨(plain pair among).1, (plain pair among).2, trivial⟩

/-- A field with its value. -/
def hashPairs : List (Bytes × Bytes) := [(ascii "field", ascii "value")]

theorem pairs_delivered_hash :
    (∀ junk, Redis.parsed (proxied openCodec clientRequest junk (.array (flat hashPairs))) =
      .value hashPairs) ∧
      ∀ junk, Redis.parsed (proxied openCodec clientRequest junk
        (.array (hashPairs.map encode))) = .value hashPairs :=
  pairs_delivered clientRequest rfl rfl (fun _ _ equal => by cases equal) fun _ _ =>
    ⟨trivial, trivial⟩

end QServer
