import QServer.Redis.FormatWords
import Mathlib.Algebra.Order.BigOperators.Group.List

/-
This file models the commands of `commlib/redis/command.h` and `command.cpp` that are sent with a
format, and proves what redis reads of them.
-/

namespace QServer
open Wire FormatCommand

/-- The types of the arguments in the calls of `send`. -/
inductive ArgType
  -- A `StringView` is given by its data and its size, and a text by `c_str`.
  | view
  | text
  | longLong
  | double
  deriving DecidableEq

inductive Arg
  | view (bytes : Bytes)
  | text (bytes : Bytes)
  | longLong (value : Int64)
  | double (bits : UInt64)

namespace Arg

def type : Arg → ArgType
  | .view _ => .view
  | .text _ => .text
  | .longLong _ => .longLong
  | .double _ => .double

/-- What the call passes. -/
def passed : Arg → List VaArg
  | .view bytes => [.pointer bytes, .size (UInt64.ofNat bytes.length)]
  | .text bytes => [.pointer (bytes ++ [0])]
  | .longLong value => [.longLong value]
  | .double bits => [.double bits]

end Arg

/-- The word of an argument. A text ends at its first zero. -/
def Arg.word (print : Bytes → VaArg → Bytes) : Arg → Bytes
  | .view bytes => bytes
  | .text bytes => bytes.takeWhile (· ≠ 0)
  | .longLong value => print (ascii "%lld") (.longLong value)
  | .double bits => print (ascii "%f") (.double bits)

namespace ArgType

/-- The directive that takes an argument of the type. -/
def directive : ArgType → Bytes
  | .view => ascii "%b"
  | .text => ascii "%s"
  | .longLong => ascii "%lld"
  | .double => ascii "%f"

def meaning : ArgType → Directive
  | .view => .binary
  | .text => .string
  | .longLong => .number (ascii "%lld") .longLong
  | .double => .number (ascii "%f") .double

end ArgType

/-- A chunk of a format without a percent sign is a word. Others stand for the next argument. -/
def chunkWords (print : Bytes → VaArg → Bytes) : List Bytes → List Arg → List Bytes
  | [], _ => []
  | chunk :: chunks, args =>
      if '%'.toUInt8 ∈ chunk then
        match args with
        | [] => []
        | arg :: args => arg.word print :: chunkWords print chunks args
      else chunk :: chunkWords print chunks args

theorem chunkWords_cons (print : Bytes → VaArg → Bytes) (chunk : Bytes) (chunks : List Bytes)
    (args : List Arg) :
    chunkWords print (chunk :: chunks) args =
      if '%'.toUInt8 ∈ chunk then
        match args with
        | [] => []
        | arg :: args => arg.word print :: chunkWords print chunks args
      else chunk :: chunkWords print chunks args := rfl

/-- The arguments have the types that the format reads, in its order, and no chunk is empty. -/
def chunksFit : List Bytes → List ArgType → Bool
  | [], types => types = []
  | chunk :: chunks, types =>
      if '%'.toUInt8 ∈ chunk then
        match types with
        | [] => false
        | type :: types => chunk = type.directive && chunksFit chunks types
      else chunk ≠ [] && chunksFit chunks types

theorem chunksFit_cons (chunk : Bytes) (chunks : List Bytes) (types : List ArgType) :
    chunksFit (chunk :: chunks) types =
      if '%'.toUInt8 ∈ chunk then
        match types with
        | [] => false
        | type :: types => chunk = type.directive && chunksFit chunks types
      else chunk ≠ [] && chunksFit chunks types := rfl

/-- A call of `send` in the function of the name. -/
structure Send where
  symbol : String
  format : String
  types : List ArgType
  deriving DecidableEq

namespace Send

def chunks (send : Send) : List Bytes := (ascii send.format).splitOn ' '.toUInt8

/-- The words of the command for the arguments. -/
def words (print : Bytes → VaArg → Bytes) (send : Send) (args : List Arg) : List Bytes :=
  chunkWords print send.chunks args

def run (print : Bytes → VaArg → Bytes) (send : Send) (args : List Arg) :
    Except FormatFailure Bytes :=
  redisvFormatCommand print (ascii send.format) (args.flatMap Arg.passed)

end Send

/-- The calls of `send` with a format, in the order of the files. -/
def sends : List Send := [
  ⟨"auth", "AUTH %b", [.view]⟩,
  ⟨"echo", "ECHO %b", [.view]⟩,
  ⟨"ping", "PING", []⟩,
  ⟨"quit", "QUIT", []⟩,
  ⟨"ping", "PING %b", [.view]⟩,
  ⟨"select", "SELECT %lld", [.longLong]⟩,
  ⟨"swapdb", "SWAPDB %lld %lld", [.longLong, .longLong]⟩,
  ⟨"bgrewriteaof", "BGREWRITEAOF", []⟩,
  ⟨"bgsave", "BGSAVE", []⟩,
  ⟨"dbsize", "DBSIZE", []⟩,
  ⟨"flushall", "FLUSHALL ASYNC", []⟩,
  ⟨"flushall", "FLUSHALL", []⟩,
  ⟨"flushdb", "FLUSHDB ASYNC", []⟩,
  ⟨"flushdb", "FLUSHDB", []⟩,
  ⟨"info", "INFO", []⟩,
  ⟨"info", "INFO %b", [.view]⟩,
  ⟨"lastsave", "LASTSAVE", []⟩,
  ⟨"save", "SAVE", []⟩,
  ⟨"del", "DEL %b", [.view]⟩,
  ⟨"dump", "DUMP %b", [.view]⟩,
  ⟨"exists", "EXISTS %b", [.view]⟩,
  ⟨"expire", "EXPIRE %b %lld", [.view, .longLong]⟩,
  ⟨"expireat", "EXPIREAT %b %lld", [.view, .longLong]⟩,
  ⟨"keys", "KEYS %b", [.view]⟩,
  ⟨"move", "MOVE %b %lld", [.view, .longLong]⟩,
  ⟨"persist", "PERSIST %b", [.view]⟩,
  ⟨"pexpire", "PEXPIRE %b %lld", [.view, .longLong]⟩,
  ⟨"pexpireat", "PEXPIREAT %b %lld", [.view, .longLong]⟩,
  ⟨"pttl", "PTTL %b", [.view]⟩,
  ⟨"randomkey", "RANDOMKEY", []⟩,
  ⟨"rename", "RENAME %b %b", [.view, .view]⟩,
  ⟨"renamenx", "RENAMENX %b %b", [.view, .view]⟩,
  ⟨"scan", "SCAN %lld MATCH %b COUNT %lld", [.longLong, .view, .longLong]⟩,
  ⟨"touch", "TOUCH %b", [.view]⟩,
  ⟨"ttl", "TTL %b", [.view]⟩,
  ⟨"type", "TYPE %b", [.view]⟩,
  ⟨"unlink", "UNLINK %b", [.view]⟩,
  ⟨"wait", "WAIT %lld %lld", [.longLong, .longLong]⟩,
  ⟨"append", "APPEND %b %b", [.view, .view]⟩,
  ⟨"bitcount", "BITCOUNT %b %lld %lld", [.view, .longLong, .longLong]⟩,
  ⟨"bitpos", "BITPOS %b %lld %lld %lld", [.view, .longLong, .longLong, .longLong]⟩,
  ⟨"decr", "DECR %b", [.view]⟩,
  ⟨"decrby", "DECRBY %b %lld", [.view, .longLong]⟩,
  ⟨"get", "GET %b", [.view]⟩,
  ⟨"getbit", "GETBIT %b %lld", [.view, .longLong]⟩,
  ⟨"getrange", "GETRANGE %b %lld %lld", [.view, .longLong, .longLong]⟩,
  ⟨"getset", "GETSET %b %b", [.view, .view]⟩,
  ⟨"incr", "INCR %b", [.view]⟩,
  ⟨"incrby", "INCRBY %b %lld", [.view, .longLong]⟩,
  ⟨"incrbyfloat", "INCRBYFLOAT %b %f", [.view, .double]⟩,
  ⟨"psetex", "PSETEX %b %lld %b", [.view, .longLong, .view]⟩,
  ⟨"setex", "SETEX %b %lld %b", [.view, .longLong, .view]⟩,
  ⟨"setnx", "SETNX %b %b", [.view, .view]⟩,
  ⟨"setrange", "SETRANGE %b %lld %b", [.view, .longLong, .view]⟩,
  ⟨"strlen", "STRLEN %b", [.view]⟩,
  ⟨"blpop", "BLPOP %b %lld", [.view, .longLong]⟩,
  ⟨"brpop", "BRPOP %b %lld", [.view, .longLong]⟩,
  ⟨"brpoplpush", "BRPOPLPUSH %b %b %lld", [.view, .view, .longLong]⟩,
  ⟨"lindex", "LINDEX %b %lld", [.view, .longLong]⟩,
  ⟨"llen", "LLEN %b", [.view]⟩,
  ⟨"lpop", "LPOP %b", [.view]⟩,
  ⟨"lpush", "LPUSH %b %b", [.view, .view]⟩,
  ⟨"lpushx", "LPUSHX %b %b", [.view, .view]⟩,
  ⟨"lrange", "LRANGE %b %lld %lld", [.view, .longLong, .longLong]⟩,
  ⟨"lrem", "LREM %b %lld %b", [.view, .longLong, .view]⟩,
  ⟨"lset", "LSET %b %lld %b", [.view, .longLong, .view]⟩,
  ⟨"ltrim", "LTRIM %b %lld %lld", [.view, .longLong, .longLong]⟩,
  ⟨"rpop", "RPOP %b", [.view]⟩,
  ⟨"rpoplpush", "RPOPLPUSH %b %b", [.view, .view]⟩,
  ⟨"rpush", "RPUSH %b %b", [.view, .view]⟩,
  ⟨"rpushx", "RPUSHX %b %b", [.view, .view]⟩,
  ⟨"hdel", "HDEL %b %b", [.view, .view]⟩,
  ⟨"hexists", "HEXISTS %b %b", [.view, .view]⟩,
  ⟨"hget", "HGET %b %b", [.view, .view]⟩,
  ⟨"hgetall", "HGETALL %b", [.view]⟩,
  ⟨"hincrby", "HINCRBY %b %b %lld", [.view, .view, .longLong]⟩,
  ⟨"hincrbyfloat", "HINCRBYFLOAT %b %b %f", [.view, .view, .double]⟩,
  ⟨"hkeys", "HKEYS %b", [.view]⟩,
  ⟨"hlen", "HLEN %b", [.view]⟩,
  ⟨"hscan", "HSCAN %b %lld MATCH %b COUNT %lld", [.view, .longLong, .view, .longLong]⟩,
  ⟨"hset", "HSET %b %b %b", [.view, .view, .view]⟩,
  ⟨"hsetnx", "HSETNX %b %b %b", [.view, .view, .view]⟩,
  ⟨"hstrlen", "HSTRLEN %b %b", [.view, .view]⟩,
  ⟨"hvals", "HVALS %b", [.view]⟩,
  ⟨"sadd", "SADD %b %b", [.view, .view]⟩,
  ⟨"scard", "SCARD %b", [.view]⟩,
  ⟨"sdiffstore", "SDIFFSTORE %b %b", [.view, .view]⟩,
  ⟨"sinterstore", "SINTERSTORE %b %b", [.view, .view]⟩,
  ⟨"sismember", "SISMEMBER %b %b", [.view, .view]⟩,
  ⟨"smembers", "SMEMBERS %b", [.view]⟩,
  ⟨"smove", "SMOVE %b %b %b", [.view, .view, .view]⟩,
  ⟨"spop", "SPOP %b", [.view]⟩,
  ⟨"spop_range", "SPOP %b %lld", [.view, .longLong]⟩,
  ⟨"srandmember", "SRANDMEMBER %b", [.view]⟩,
  ⟨"srandmember_range", "SRANDMEMBER %b %lld", [.view, .longLong]⟩,
  ⟨"srem", "SREM %b %b", [.view, .view]⟩,
  ⟨"sscan", "SSCAN %b %lld MATCH %b COUNT %lld", [.view, .longLong, .view, .longLong]⟩,
  ⟨"sunionstore", "SUNIONSTORE %b %b", [.view, .view]⟩,
  ⟨"bzpopmax", "BZPOPMAX %b %lld", [.view, .longLong]⟩,
  ⟨"bzpopmin", "BZPOPMIN %b %lld", [.view, .longLong]⟩,
  ⟨"zcard", "ZCARD %b", [.view]⟩,
  ⟨"zcount", "ZCOUNT %b %s %s", [.view, .text, .text]⟩,
  ⟨"zincrby", "ZINCRBY %b %f %b", [.view, .double, .view]⟩,
  ⟨"zinterstore", "ZINTERSTORE %b 1 %b WEIGHTS %f", [.view, .view, .double]⟩,
  ⟨"zlexcount", "ZLEXCOUNT %b %b %b", [.view, .view, .view]⟩,
  ⟨"zpopmax", "ZPOPMAX %b %lld", [.view, .longLong]⟩,
  ⟨"zpopmin", "ZPOPMIN %b %lld", [.view, .longLong]⟩,
  ⟨"zrange", "ZRANGE %b %lld %lld WITHSCORES", [.view, .longLong, .longLong]⟩,
  ⟨"zrange", "ZRANGE %b %lld %lld", [.view, .longLong, .longLong]⟩,
  ⟨"zrangebylex", "ZRANGEBYLEX %b %b %b LIMIT %lld %lld",
    [.view, .view, .view, .longLong, .longLong]⟩,
  ⟨"zrangebyscore", "ZRANGEBYSCORE %b %b %b WITHSCORES LIMIT %lld %lld",
    [.view, .view, .view, .longLong, .longLong]⟩,
  ⟨"zrangebyscore", "ZRANGEBYSCORE %b %b %b LIMIT %lld %lld",
    [.view, .view, .view, .longLong, .longLong]⟩,
  ⟨"zrank", "ZRANK %b %b", [.view, .view]⟩,
  ⟨"zrem", "ZREM %b %b", [.view, .view]⟩,
  ⟨"zremrangebylex", "ZREMRANGEBYLEX %b %b %b", [.view, .view, .view]⟩,
  ⟨"zremrangebyrank", "zremrangebyrank %b %lld %lld", [.view, .longLong, .longLong]⟩,
  ⟨"zremrangebyscore", "ZREMRANGEBYSCORE %b %b %b", [.view, .view, .view]⟩,
  ⟨"zrevrange", "ZREVRANGE %b %lld %lld WITHSCORES", [.view, .longLong, .longLong]⟩,
  ⟨"zrevrange", "ZREVRANGE %b %lld %lld", [.view, .longLong, .longLong]⟩,
  ⟨"zrevrangebylex", "ZREVRANGEBYLEX %b %b %b LIMIT %lld %lld",
    [.view, .view, .view, .longLong, .longLong]⟩,
  ⟨"zrevrangebyscore", "ZREVRANGEBYSCORE %b %b %b WITHSCORES LIMIT %lld %lld",
    [.view, .view, .view, .longLong, .longLong]⟩,
  ⟨"zrevrangebyscore", "ZREVRANGEBYSCORE %b %b %b LIMIT %lld %lld",
    [.view, .view, .view, .longLong, .longLong]⟩,
  ⟨"zrevrank", "ZREVRANK %b %b", [.view, .view]⟩,
  ⟨"zscan", "ZSCAN %b %lld MATCH %b COUNT %lld", [.view, .longLong, .view, .longLong]⟩,
  ⟨"zscore", "ZSCORE %b %b", [.view, .view]⟩,
  ⟨"zunionstore", "ZUNIONSTORE %b 1 %b WEIGHTS %f", [.view, .view, .double]⟩,
  ⟨"pfadd", "PFADD %b %b", [.view, .view]⟩,
  ⟨"pfcount", "PFCOUNT %b", [.view]⟩,
  ⟨"pfmerge", "PFMERGE %b %b", [.view, .view]⟩,
  ⟨"geoadd", "GEOADD %b %f %f %b", [.view, .double, .double, .view]⟩,
  ⟨"script_exists", "SCRIPT EXISTS %b", [.view]⟩,
  ⟨"script_flush", "SCRIPT FLUSH", []⟩,
  ⟨"script_kill", "SCRIPT KILL", []⟩,
  ⟨"script_load", "SCRIPT LOAD %b", [.view]⟩,
  ⟨"psubscribe", "PSUBSCRIBE %b", [.view]⟩,
  ⟨"publish", "PUBLISH %b %b", [.view, .view]⟩,
  ⟨"punsubscribe", "PUNSUBSCRIBE", []⟩,
  ⟨"punsubscribe", "PUNSUBSCRIBE %b", [.view]⟩,
  ⟨"subscribe", "SUBSCRIBE %b", [.view]⟩,
  ⟨"unsubscribe", "UNSUBSCRIBE", []⟩,
  ⟨"unsubscribe", "UNSUBSCRIBE %b", [.view]⟩,
  ⟨"discard", "DISCARD", []⟩,
  ⟨"exec", "EXEC", []⟩,
  ⟨"multi", "MULTI", []⟩,
  ⟨"unwatch", "UNWATCH %b", [.view]⟩,
  ⟨"watch", "WATCH %b", [.view]⟩,
  ⟨"xack", "XACK %b %b %b", [.view, .view, .view]⟩,
  ⟨"xclaim", "XCLAIM %b %b %b %lld %b", [.view, .view, .view, .longLong, .view]⟩,
  ⟨"xdel", "XDEL %b %b", [.view, .view]⟩,
  ⟨"xgroup_setid", "XGROUP SETID %b %b %b", [.view, .view, .view]⟩,
  ⟨"xgroup_destroy", "XGROUP DESTROY %b %b", [.view, .view]⟩,
  ⟨"xgroup_delconsumer", "XGROUP DELCONSUMER %b %b %b", [.view, .view, .view]⟩,
  ⟨"xlen", "XLEN %b", [.view]⟩,
  ⟨"xpending", "XPENDING %b %b", [.view, .view]⟩,
  ⟨"xpending_detail", "XPENDING %b %b %b %b %lld", [.view, .view, .view, .view, .longLong]⟩,
  ⟨"xpending_per_consumer", "XPENDING %b %b %b %b %lld %b",
    [.view, .view, .view, .view, .longLong, .view]⟩,
  ⟨"xrange", "XRANGE %b %b %b", [.view, .view, .view]⟩,
  ⟨"xrange_count", "XRANGE %b %b %b COUNT %lld", [.view, .view, .view, .longLong]⟩,
  ⟨"xread", "XREAD COUNT %lld STREAMS %b %b", [.longLong, .view, .view]⟩,
  ⟨"xread_block", "XREAD COUNT %lld BLOCK %lld STREAMS %b %b",
    [.longLong, .longLong, .view, .view]⟩,
  ⟨"xrevrange", "XREVRANGE %b %b %b", [.view, .view, .view]⟩,
  ⟨"xrevrange_count", "XREVRANGE %b %b %b COUNT %lld", [.view, .view, .view, .longLong]⟩,
  ⟨"linsert", "LINSERT %b %s %b %b", [.view, .text, .view, .view]⟩]

theorem sends_fit : ∀ send ∈ sends, chunksFit send.chunks send.types = true := by
  decide +kernel

section Tokens

variable {print : Bytes → VaArg → Bytes}

theorem tokens_space (rest : Bytes) : tokens (' '.toUInt8 :: rest) = .space :: tokens rest := by
  rw [tokens, if_pos (Or.inl (by decide)), if_pos rfl]

theorem tokens_word {chunk : Bytes} (literal : '%'.toUInt8 ∉ chunk) (joined : ' '.toUInt8 ∉ chunk)
    (rest : Bytes) : tokens (chunk ++ rest) = chunk.map Token.literal ++ tokens rest := by
  induction chunk with
  | nil => rfl
  | cons byte chunk ih =>
      rw [List.mem_cons, not_or] at literal joined
      rw [List.cons_append, tokens, if_pos (Or.inl (Ne.symm literal.1)),
        if_neg (Ne.symm joined.1), ih literal.2 joined.2]
      rfl

theorem tokens_percent {left rest : Bytes} {meaning : Directive} (further : rest ≠ [])
    (taken : directive rest = .ok (meaning, left)) :
    tokens ('%'.toUInt8 :: rest) = .directive meaning :: tokens left := by
  have percent : ¬('%'.toUInt8 ≠ '%'.toUInt8 ∨ rest = []) := by simp [further]
  rw [tokens, if_neg percent]
  split
  · rename_i found
    rw [taken] at found
    cases found
  · rename_i found
    rw [taken] at found
    cases found
    rfl

theorem directive_number {byte : UInt8} {rest last : Bytes} {type : NumberType} {length : Nat}
    (other : byte ≠ 's'.toUInt8 ∧ byte ≠ 'b'.toUInt8 ∧ byte ≠ '%'.toUInt8)
    (converted : conversion (skipModifiers (byte :: rest)) = some (type, last)) (more : last ≠ [])
    (long : (byte :: rest).length + 2 - last.length = length) (short : length < 14) :
    directive (byte :: rest) =
      .ok (.number ('%'.toUInt8 :: (byte :: rest).take (length - 1)) type, last.tail) := by
  rw [directive, if_neg other.1, if_neg other.2.1, if_neg other.2.2, converted]
  dsimp only
  rw [long, if_pos short, if_neg more]

theorem directive_longLong (rest : Bytes) :
    directive ('l'.toUInt8 :: 'l'.toUInt8 :: 'd'.toUInt8 :: rest) =
      .ok (.number (ascii "%lld") .longLong, rest) := by
  have converted : conversion (skipModifiers ('l'.toUInt8 :: 'l'.toUInt8 :: 'd'.toUInt8 :: rest)) =
      some (.longLong, 'd'.toUInt8 :: rest) := rfl
  have long : ('l'.toUInt8 :: 'l'.toUInt8 :: 'd'.toUInt8 :: rest).length + 2 -
      ('d'.toUInt8 :: rest).length = 4 := by
    simp only [List.length_cons]
    omega
  exact directive_number (by decide) converted (List.cons_ne_nil _ _) long (by decide)

theorem directive_double (rest : Bytes) :
    directive ('f'.toUInt8 :: rest) = .ok (.number (ascii "%f") .double, rest) := by
  have converted : conversion (skipModifiers ('f'.toUInt8 :: rest)) =
      some (.double, 'f'.toUInt8 :: rest) := rfl
  have long : ('f'.toUInt8 :: rest).length + 2 - ('f'.toUInt8 :: rest).length = 2 := by omega
  exact directive_number (by decide) converted (List.cons_ne_nil _ _) long (by decide)

/-- The directive of a type is read whatever follows it. -/
theorem tokens_directive (type : ArgType) (rest : Bytes) :
    tokens (type.directive ++ rest) = .directive type.meaning :: tokens rest := by
  cases type with
  | view => exact tokens_percent (List.cons_ne_nil _ _) rfl
  | text => exact tokens_percent (List.cons_ne_nil _ _) rfl
  | longLong => exact tokens_percent (List.cons_ne_nil _ _) (directive_longLong rest)
  | double => exact tokens_percent (List.cons_ne_nil _ _) (directive_double rest)

/-- The directive takes the argument as it was passed. -/
theorem expand_passed {arg : Arg} (short : (arg.word print).length < 2 ^ 64) (ap : List VaArg) :
    expand print arg.type.meaning (arg.passed ++ ap) = .ok (arg.word print, ap) := by
  cases arg with
  | view bytes =>
      have size : (UInt64.ofNat bytes.length).toNat = bytes.length := by
        rw [UInt64.toNat_ofNat']
        exact Nat.mod_eq_of_lt short
      have enough : (UInt64.ofNat bytes.length).toNat ≤ bytes.length := size.le
      rw [Arg.type, ArgType.meaning, Arg.passed, Arg.word, List.cons_append, List.cons_append,
        List.nil_append, expand, if_pos enough, size, List.take_length]
  | text bytes =>
      rw [Arg.type, ArgType.meaning, Arg.passed, Arg.word, List.cons_append, List.nil_append,
        expand, cString_zero bytes []]
  | longLong value => rfl
  | double bits => rfl

/-- The chunk is read as one word, for the arguments in front of others. -/
def ReadsWord (print : Bytes → VaArg → Bytes) (chunk : Bytes) (used : List VaArg) (word : Bytes) :
    Prop :=
  ∃ found texts, texts ≠ [] ∧ texts.flatten = word ∧
    (∀ rest, tokens (chunk ++ rest) = found ++ tokens rest) ∧
    ∀ more later pieces, fill print more later = .ok pieces →
      fill print (found ++ more) (used ++ later) = .ok (texts.map some ++ pieces)

theorem readsWord_literal {chunk : Bytes} (present : chunk ≠ []) (literal : '%'.toUInt8 ∉ chunk)
    (joined : ' '.toUInt8 ∉ chunk) : ReadsWord print chunk [] chunk := by
  refine ⟨chunk.map Token.literal, chunk.map fun byte => [byte], by simpa using present, ?_,
    tokens_word literal joined, ?_⟩
  · simp [← List.flatMap_def]
  · intro more later pieces filled
    clear present literal joined
    induction chunk with
    | nil => exact filled
    | cons byte chunk ih =>
        rw [List.nil_append] at ih
        rw [List.map_cons, List.cons_append, List.nil_append, fill, ih]
        rfl

theorem readsWord_directive {arg : Arg} (short : (arg.word print).length < 2 ^ 64) :
    ReadsWord print arg.type.directive arg.passed (arg.word print) := by
  refine ⟨[.directive arg.type.meaning], [arg.word print], List.cons_ne_nil _ _,
    List.append_nil _, tokens_directive arg.type, ?_⟩
  intro more later pieces filled
  rw [List.singleton_append, fill, expand_passed short, Except.bind, filled]
  rfl

theorem reduceOption_map_some (texts : List Bytes) : (texts.map some).reduceOption = texts := by
  simp [List.reduceOption, List.filterMap_map]

theorem words_last {texts : List Bytes} (present : texts ≠ []) :
    words (texts.map some) = [texts.flatten] := by
  have whole : (texts.map some).splitOnP Option.isNone = [texts.map some] :=
    List.splitOnP_eq_singleton (by simp)
  simp [words, whole, present, reduceOption_map_some]

theorem words_next {texts : List Bytes} (present : texts ≠ []) (pieces : List (Option Bytes)) :
    words (texts.map some ++ none :: pieces) = texts.flatten :: words pieces := by
  have whole : (texts.map some ++ none :: pieces).splitOnP Option.isNone =
      texts.map some :: pieces.splitOnP Option.isNone :=
    List.splitOnP_append_cons_of_forall_mem (by simp) none rfl pieces
  simp [words, whole, present, reduceOption_map_some]

/-- A word stands at the end of a format or before a space. -/
theorem fill_word {chunk word : Bytes} {chunks : List Bytes} {used later : List VaArg}
    {texts : List Bytes} (reads : ReadsWord print chunk used word)
    (others : ∃ pieces, fill print (tokens ([' '.toUInt8].intercalate chunks)) later = .ok pieces ∧
      words pieces = texts) (ended : chunks = [] → texts = []) :
    ∃ pieces, fill print (tokens ([' '.toUInt8].intercalate (chunk :: chunks))) (used ++ later) =
      .ok pieces ∧ words pieces = word :: texts := by
  obtain ⟨found, front, present, rfl, tokenized, filling⟩ := reads
  obtain ⟨pieces, filled, worded⟩ := others
  cases chunks with
  | nil =>
      have last : [' '.toUInt8].intercalate [chunk] = chunk ++ [] := by simp [List.intercalate]
      have nothing : fill print (tokens []) later = .ok [] := by
        rw [tokens]
        rfl
      refine ⟨front.map some, ?_, ?_⟩
      · rw [last, tokenized, filling _ _ _ nothing, List.append_nil]
      · rw [words_last present, ended rfl]
  | cons next chunks =>
      have step : [' '.toUInt8].intercalate (chunk :: next :: chunks) =
          chunk ++ ' '.toUInt8 :: [' '.toUInt8].intercalate (next :: chunks) := by
        simp [List.intercalate]
      refine ⟨front.map some ++ none :: pieces, ?_, ?_⟩
      · rw [step, tokenized]
        apply filling
        rw [tokens_space, fill, filled]
        rfl
      · rw [words_next present, worded]

/-- The words of a format whose chunks fit the arguments. -/
theorem fill_chunks {chunks : List Bytes} {args : List Arg}
    (fits : chunksFit chunks (args.map Arg.type) = true)
    (joined : ∀ chunk ∈ chunks, ' '.toUInt8 ∉ chunk)
    (short : ∀ arg ∈ args, (arg.word print).length < 2 ^ 64) :
    ∃ pieces, fill print (tokens ([' '.toUInt8].intercalate chunks)) (args.flatMap Arg.passed) =
      .ok pieces ∧ words pieces = chunkWords print chunks args := by
  induction chunks generalizing args with
  | nil =>
      refine ⟨[], ?_, rfl⟩
      rw [List.intercalate_nil, tokens]
      rfl
  | cons chunk chunks ih =>
      rw [List.forall_mem_cons] at joined
      rw [chunksFit_cons] at fits
      by_cases percent : '%'.toUInt8 ∈ chunk
      · rw [if_pos percent] at fits
        cases args with
        | nil => cases fits
        | cons arg args =>
            rw [List.map_cons, Bool.and_eq_true, decide_eq_true_eq] at fits
            rw [List.forall_mem_cons] at short
            rw [chunkWords_cons, if_pos percent, fits.1, List.flatMap_cons]
            refine fill_word (readsWord_directive short.1) (ih fits.2 joined.2 short.2) ?_
            rintro rfl
            rfl
      · rw [if_neg percent, Bool.and_eq_true, decide_eq_true_eq] at fits
        rw [chunkWords_cons, if_neg percent, ← List.nil_append (args.flatMap Arg.passed)]
        refine fill_word (readsWord_literal fits.1 percent joined.1) (ih fits.2 joined.2 short) ?_
        rintro rfl
        rfl

end Tokens

theorem notMem_of_mem_splitOn {byte : UInt8} {text : Bytes} :
    ∀ chunk ∈ text.splitOn byte, byte ∉ chunk := by
  induction text with
  | nil => simp
  | cons first text ih =>
      rw [List.splitOn_cons_eq_if_modifyHead]
      split_ifs with same
      · simpa using ih
      · have other : byte ≠ first := fun equal => same (beq_iff_eq.mpr equal.symm)
        cases split : text.splitOn byte with
        | nil => simp
        | cons chunk chunks =>
            rw [split, List.forall_mem_cons] at ih
            rw [List.modifyHead_cons, List.forall_mem_cons, List.mem_cons, not_or]
            exact ⟨⟨other, ih.1⟩, ih.2⟩

theorem length_le_totlen {argv : List Bytes} {arg : Bytes} (member : arg ∈ argv) :
    arg.length ≤ totlen argv := by
  have within : bulklen arg.length ≤ (argv.map fun arg => bulklen arg.length).sum :=
    List.single_le_sum (fun _ _ => Nat.zero_le _) _ (List.mem_map_of_mem member)
  rw [bulklen] at within
  rw [totlen]
  omega

theorem word_mem_chunkWords {print : Bytes → VaArg → Bytes} {chunks : List Bytes} {args : List Arg}
    (fits : chunksFit chunks (args.map Arg.type) = true) {arg : Arg} (member : arg ∈ args) :
    arg.word print ∈ chunkWords print chunks args := by
  induction chunks generalizing args with
  | nil =>
      rw [chunksFit, decide_eq_true_eq, List.map_eq_nil_iff] at fits
      rw [fits] at member
      cases member
  | cons chunk chunks ih =>
      rw [chunksFit_cons] at fits
      rw [chunkWords_cons]
      split_ifs at fits ⊢ with percent
      · cases args with
        | nil => cases member
        | cons first args =>
            rw [List.map_cons, Bool.and_eq_true] at fits
            rcases List.mem_cons.mp member with rfl | later
            · exact List.mem_cons_self
            · exact List.mem_cons_of_mem _ (ih fits.2 later)
      · rw [Bool.and_eq_true] at fits
        exact List.mem_cons_of_mem _ (ih fits.2 member)

/-- A call whose arguments have the types of its format sends its words. -/
theorem run_eq {print : Bytes → VaArg → Bytes} {send : Send} {args : List Arg}
    (fits : chunksFit send.chunks (args.map Arg.type) = true)
    (small : totlen (send.words print args) + 1 < 2 ^ 31) :
    send.run print args = .ok (Resp.command (send.words print args)) := by
  have short : ∀ arg ∈ args, (arg.word print).length < 2 ^ 64 := by
    intro arg member
    have within : (arg.word print).length ≤ totlen (send.words print args) :=
      length_le_totlen (word_mem_chunkWords fits member)
    exact lt_of_le_of_lt within (lt_trans (Nat.lt_of_succ_lt small) (by decide))
  have joined : ∀ chunk ∈ send.chunks, ' '.toUInt8 ∉ chunk := notMem_of_mem_splitOn
  have format : [' '.toUInt8].intercalate send.chunks = ascii send.format :=
    List.intercalate_splitOn _
  obtain ⟨pieces, filled, worded⟩ := fill_chunks fits joined short
  rw [format] at filled
  refine redisvFormatCommand_eq_ok.mpr ⟨pieces, filled, ?_, ?_⟩
  · rw [worded]
    exact small
  · rw [worded]
    rfl

/-- The command of a call. -/
structure Call where
  send : Send
  args : List Arg

namespace Call

/-- The call stands in the files with its types, and its command fits an `int`. -/
structure Proper (print : Bytes → VaArg → Bytes) (call : Call) : Prop where
  listed : call.send ∈ sends
  typed : call.args.map Arg.type = call.send.types
  small : totlen (call.send.words print call.args) + 1 < 2 ^ 31

theorem Proper.run_eq {print : Bytes → VaArg → Bytes} {call : Call} (proper : call.Proper print) :
    call.send.run print call.args = .ok (Resp.command (call.send.words print call.args)) := by
  have fits := sends_fit call.send proper.listed
  rw [← proper.typed] at fits
  exact QServer.run_eq fits proper.small

end Call

/-- Redis reads the words of the format in a command, whatever follows it, and the arguments only
fill them. -/
theorem formatted_reads {print : Bytes → VaArg → Bytes} {format : Bytes} {ap : List VaArg}
    {cmd : Bytes} (formatted : redisvFormatCommand print format ap = .ok cmd) :
    ∃ pieces, fill print (tokens format) ap = .ok pieces ∧
      (words pieces).length = argc format ∧ cmd.length = totlen (words pieces) ∧
      ∀ rest, Resp.readCommand (cmd ++ rest) = some (words pieces, rest) := by
  obtain ⟨pieces, filled, small, rfl⟩ := redisvFormatCommand_eq_ok.mp formatted
  refine ⟨pieces, filled, ?_, (totlen_eq _).symm, Resp.readCommand_command _⟩
  rw [length_words, fill_spaces filled, argc]

/-- A `%lld` for the number 60. -/
def printSixty : Bytes → VaArg → Bytes := fun _ _ => ascii "60"

/-- A key with a space and a value with a line end. -/
def setexCall : Call :=
  ⟨⟨"setex", "SETEX %b %lld %b", [.view, .longLong, .view]⟩,
    [.view (ascii "a b"), .longLong 60, .view (ascii "1\r\n2")]⟩

theorem setexCall_words : setexCall.send.words printSixty setexCall.args =
    [ascii "SETEX", ascii "a b", ascii "60", ascii "1\r\n2"] := by
  decide +kernel

theorem setexCall_proper : setexCall.Proper printSixty where
  listed := by decide +kernel
  typed := rfl
  small := by
    have digits : ∀ v < 10, countDigits v = 1 := fun v small => by rw [countDigits, if_pos small]
    rw [setexCall_words]
    change bulklen 5 + (bulklen 3 + (bulklen 2 + (bulklen 4 + 0))) + (1 + countDigits 4 + 2) + 1 <
      2 ^ 31
    simp [bulklen, digits]

theorem formatted_reads_setex :
    ∃ pieces, fill printSixty (tokens (ascii "SETEX %b %lld %b"))
        (setexCall.args.flatMap Arg.passed) = .ok pieces ∧
      (words pieces).length = argc (ascii "SETEX %b %lld %b") ∧
      (Resp.command (setexCall.send.words printSixty setexCall.args)).length =
        totlen (words pieces) ∧
      ∀ rest, Resp.readCommand
        (Resp.command (setexCall.send.words printSixty setexCall.args) ++ rest) =
          some (words pieces, rest) :=
  formatted_reads setexCall_proper.run_eq

/-- Redis reads one command for each call, with the words of its format and arguments. -/
theorem sends_read {print : Bytes → VaArg → Bytes} {calls : List Call}
    (proper : ∀ call ∈ calls, call.Proper print) :
    ∃ cmds, List.Forall₂ (fun call cmd => call.send.run print call.args = .ok cmd) calls cmds ∧
      Resp.readStream cmds.flatten = some (calls.map fun call => call.send.words print call.args) := by
  refine ⟨calls.map fun call => Resp.command (call.send.words print call.args), ?_, ?_⟩
  · rw [List.forall₂_map_right_iff, List.forall₂_same]
    exact fun call member => (proper call member).run_eq
  · rw [← Resp.readStream_flatMap, List.flatMap_map, List.flatMap_def]

theorem sends_read_setex :
    ∃ cmds, List.Forall₂ (fun call cmd => call.send.run printSixty call.args = .ok cmd)
        [setexCall, setexCall] cmds ∧
      Resp.readStream cmds.flatten = some ([setexCall, setexCall].map fun call =>
        call.send.words printSixty call.args) :=
  sends_read (List.forall_mem_cons.mpr ⟨setexCall_proper,
    List.forall_mem_singleton.mpr setexCall_proper⟩)

end QServer
