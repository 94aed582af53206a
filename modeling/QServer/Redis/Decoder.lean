import QServer.Redis.ConvertReply

/-
This file proves for which replies `PbToReply` is inverse to `ReplyToPb`.
-/

namespace QServer
open Wire ConvertReply TransRedisCmd

namespace RedisReplyType

/-- The types whose replies have a text. -/
def Textual (type : Int) : Prop := type = error ∨ type = status ∨ type = string

instance : DecidablePred Textual := fun type =>
  inferInstanceAs (Decidable (type = error ∨ type = status ∨ type = string))

/-- The types that hiredis knows. -/
def Known (type : Int) : Prop := Textual type ∨ type = integer ∨ type = array ∨ type = nil

end RedisReplyType

open RedisReplyType

mutual

/-- Each node of the tree has a known type. -/
def PbReply.Typed : PbReply → Prop
  | ⟨type, _, _, element⟩ => Known type ∧ AllTyped element

def AllTyped : List PbReply → Prop
  | [] => True
  | pb :: rest => pb.Typed ∧ AllTyped rest

end

mutual

/-- Each node has the fields of its type only. -/
def PbReply.normal : PbReply → PbReply
  | ⟨type, integer, str, element⟩ =>
      ⟨type, if type = RedisReplyType.integer then integer else 0,
        if Textual type then str else [], if type = array then normals element else []⟩

def normals : List PbReply → List PbReply
  | [] => []
  | pb :: rest => pb.normal :: normals rest

end

mutual

/-- The variable `r` happens not to be null in each call that decodes an integer or a nil. -/
def Fortunate (junk : List Nat → Bool) : PbReply → Prop
  | ⟨type, _, _, element⟩ =>
      if type = integer ∨ type = nil then junk [] = true
      else if type = array then AllFortunate junk 0 element
      else True

def AllFortunate (junk : List Nat → Bool) (place : Nat) : List PbReply → Prop
  | [] => True
  | pb :: rest =>
      Fortunate (fun path => junk (place :: path)) pb ∧ AllFortunate junk (place + 1) rest

end

/-- The decoder gives a reply that is encoded as the tree again. -/
def Decoded (junk : List Nat → Bool) (pb : PbReply) : Prop :=
  ∃ reply, pbToReply junk pb = some reply ∧ replyToPb reply = pb.normal

section Nodes

variable (junk : List Nat → Bool) (number : UInt64) (str : Bytes) (element : List PbReply)

theorem decoded_textual {type : Int} (textual : Textual type) :
    Decoded junk ⟨type, number, str, element⟩ := by
  refine ⟨⟨type, 0, some str, []⟩, if_pos textual, ?_⟩
  rcases textual with rfl | rfl | rfl <;> rfl

theorem decoded_integer (set : junk [] = true) : Decoded junk ⟨integer, number, str, element⟩ := by
  refine ⟨⟨integer, number.toInt64, none, []⟩, ?_, rfl⟩
  change (if junk [] then some _ else none) = _
  rw [if_pos set]

theorem decoded_nil (set : junk [] = true) : Decoded junk ⟨nil, number, str, element⟩ := by
  refine ⟨⟨nil, 0, none, []⟩, ?_, rfl⟩
  change (if junk [] then some _ else none) = _
  rw [if_pos set]

theorem decoded_array {replies : List RedisReply} (elements : pbToElements junk 0 element =
    some replies) (encoded : elementsToPb replies = normals element) :
    Decoded junk ⟨array, number, str, element⟩ := by
  refine ⟨⟨array, 0, none, replies⟩, ?_, ?_⟩
  · change (pbToElements junk 0 element).map _ = _
    rw [elements, Option.map_some]
  · change PbReply.mk array 0 [] (elementsToPb replies) = PbReply.mk array 0 [] (normals element)
    rw [encoded]

end Nodes

mutual

theorem decoded_of_fortunate (pb : PbReply) (typed : pb.Typed) (junk : List Nat → Bool)
    (fortunate : Fortunate junk pb) : Decoded junk pb := by
  obtain ⟨type, number, str, element⟩ := pb
  rcases typed with ⟨textual | rfl | rfl | rfl, elements⟩
  · exact decoded_textual junk number str element textual
  · exact decoded_integer junk number str element fortunate
  · obtain ⟨replies, decoded, encoded⟩ :=
      decodedAll_of_fortunate element elements junk 0 fortunate
    exact decoded_array junk number str element decoded encoded
  · exact decoded_nil junk number str element fortunate

theorem decodedAll_of_fortunate (pbs : List PbReply) (typed : AllTyped pbs)
    (junk : List Nat → Bool) (place : Nat) (fortunate : AllFortunate junk place pbs) :
    ∃ replies, pbToElements junk place pbs = some replies ∧
      elementsToPb replies = normals pbs := by
  cases pbs with
  | nil => exact ⟨[], rfl, rfl⟩
  | cons pb rest =>
      obtain ⟨reply, decoded, encoded⟩ := decoded_of_fortunate pb typed.1 _ fortunate.1
      obtain ⟨replies, others, encodedRest⟩ :=
        decodedAll_of_fortunate rest typed.2 junk (place + 1) fortunate.2
      refine ⟨reply :: replies, ?_, ?_⟩
      · rw [pbToElements, decoded, Option.bind_some, others, Option.map_some]
      · rw [elementsToPb, encoded, encodedRest, normals]

end

mutual

/-- One null variable makes the whole reply null. -/
theorem null_of_unfortunate (pb : PbReply) (typed : pb.Typed) (junk : List Nat → Bool)
    (unfortunate : ¬Fortunate junk pb) : pbToReply junk pb = none := by
  obtain ⟨type, number, str, element⟩ := pb
  rcases typed with ⟨(rfl | rfl | rfl) | rfl | rfl | rfl, elements⟩
  · exact absurd trivial unfortunate
  · exact absurd trivial unfortunate
  · exact absurd trivial unfortunate
  · change (if junk [] then some _ else none) = _
    exact if_neg unfortunate
  · change (pbToElements junk 0 element).map _ = _
    rw [nullAll_of_unfortunate element elements junk 0 unfortunate, Option.map_none]
  · change (if junk [] then some _ else none) = _
    exact if_neg unfortunate

theorem nullAll_of_unfortunate (pbs : List PbReply) (typed : AllTyped pbs)
    (junk : List Nat → Bool) (place : Nat) (unfortunate : ¬AllFortunate junk place pbs) :
    pbToElements junk place pbs = none := by
  cases pbs with
  | nil => exact absurd trivial unfortunate
  | cons pb rest =>
      rw [pbToElements]
      by_cases first : Fortunate (fun path => junk (place :: path)) pb
      · have others : ¬AllFortunate junk (place + 1) rest := fun kept => unfortunate ⟨first, kept⟩
        obtain ⟨reply, decoded, _⟩ := decoded_of_fortunate pb typed.1 _ first
        rw [decoded, Option.bind_some, nullAll_of_unfortunate rest typed.2 junk _ others,
          Option.map_none]
      · rw [null_of_unfortunate pb typed.1 _ first, Option.bind_none]

end

/-- The decoder inverts the encoder exactly when no integer or nil meets a null. -/
theorem decoded_iff {pb : PbReply} (typed : pb.Typed) (junk : List Nat → Bool) :
    Decoded junk pb ↔ Fortunate junk pb := by
  constructor
  · rintro ⟨reply, decoded, _⟩
    by_contra unfortunate
    rw [null_of_unfortunate pb typed junk unfortunate] at decoded
    cases decoded
  · exact decoded_of_fortunate pb typed junk

/-- An array with a text and a number. -/
def mixedPair : PbReply := ⟨array, 0, [], [⟨string, 0, [65], []⟩, ⟨integer, 7, [], []⟩]⟩

theorem mixedPair_typed : mixedPair.Typed :=
  ⟨Or.inr (Or.inr (Or.inl rfl)), ⟨Or.inl (Or.inr (Or.inr rfl)), trivial⟩,
    ⟨Or.inr (Or.inl rfl), trivial⟩, trivial⟩

theorem decoded_iff_pair :
    Decoded (fun path => path == [1]) mixedPair ↔ Fortunate (fun path => path == [1]) mixedPair :=
  decoded_iff mixedPair_typed _

theorem number_not_decoded : ¬∀ (junk : List Nat → Bool) (pb : PbReply), pb.Typed →
    Decoded junk pb := by
  intro decoded
  obtain ⟨reply, gone, _⟩ :=
    decoded (fun _ => false) ⟨integer, 7, [], []⟩ ⟨Or.inr (Or.inl rfl), trivial⟩
  cases gone

end QServer
