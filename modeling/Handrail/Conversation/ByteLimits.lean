import Handrail.Conversation.JsonLimits
import Handrail.JsonSize
import Handrail.Js.Utf8Reading

/-!
# Byte lengths

`utf8ByteLength` of `conversation/events.ts` against the bytes of UTF-8, a surrogate that stands alone included.
-/

namespace Handrail.Conversation
open Js

theorem length_encodePoint (n : Nat) :
    (encodePoint n).length = if n < 0x80 then 1 else if n < 0x800 then 2 else if n < 0x10000 then 3 else 4 := by
  unfold encodePoint
  split
  · rfl
  · split
    · rfl
    · split <;> rfl

/-- A unit that opens no pair: a surrogate counts as the replacement character, three bytes. -/
theorem length_lonePoint (c : UInt16) :
    (encodePoint (lonePoint c)).length = if c ≤ 0x7f then 1 else if c ≤ 0x7ff then 2 else 3 := by
  have bound := c.toNat_lt
  rw [length_encodePoint, lonePoint]
  simp only [isLeadingSurrogate, isTrailingSurrogate, Bool.or_eq_true, Bool.and_eq_true, decide_eq_true_eq,
    UInt16.le_iff_toNat_le,
    UInt16.reduceToNat]
  split_ifs <;> omega

theorem utf8Bytes_eq (units : List UInt16) : utf8Bytes units = ((codePoints units).flatMap encodePoint).length := by
  fun_induction codePoints units with
  | case1 => rfl
  | case2 c => rw [List.flatMap_singleton, length_lonePoint, utf8Bytes]
  | case3 c d rest pair ih =>
    have bounds := pair_bounds pair
    have wide : ¬c ≤ 0x7f ∧ ¬c ≤ 0x7ff := by
      simp only [UInt16.le_iff_toNat_le, UInt16.reduceToNat]
      omega
    rw [List.flatMap_cons, List.length_append, ← ih, length_encodePoint, utf8Bytes, pair, if_neg wide.1,
      if_neg wide.2, if_pos rfl,
      if_neg (by omega), if_neg (by omega), if_neg (by omega)]
  | case4 c d rest apart ih =>
    rw [List.flatMap_cons, List.length_append, ← ih, length_lonePoint, utf8Bytes, if_neg apart]
    split_ifs <;> rfl

theorem utf8ByteLength_eq (text : JsString) : utf8ByteLength text = (encodeUtf8 text).length := utf8Bytes_eq text.units

/-! ### Concatenation -/

def separatesPair (first second : JsString) : Bool :=
  first.units.getLast?.any isLeadingSurrogate && second.units.head?.any isTrailingSurrogate

theorem separatesPair_cons (c d : UInt16) (rest : List UInt16) (second : JsString) :
    separatesPair ⟨c :: d :: rest⟩ second = separatesPair ⟨d :: rest⟩ second := by
  rw [separatesPair, separatesPair, List.getLast?_cons_cons]

theorem separatesPair_trailing {d : UInt16} (trailing : isTrailingSurrogate d = true) (rest : List UInt16) (second : JsString) :
    separatesPair ⟨d :: rest⟩ second = separatesPair ⟨rest⟩ second := by
  cases rest with
  | nil =>
    have alone : isLeadingSurrogate d = false := by
      by_contra leading
      rw [leading_not_trailing ((Bool.not_eq_false _).mp leading)] at trailing
      cases trailing
    simp [separatesPair, alone]
  | cons e rest => exact separatesPair_cons d e rest second

theorem utf8Bytes_append (first second : List UInt16) : utf8Bytes first + utf8Bytes second = utf8Bytes (first ++ second) +
    if separatesPair ⟨first⟩ ⟨second⟩ then 2 else 0 := by
  fun_induction utf8Bytes first with
  | case1 => simp [separatesPair]
  | case2 c narrow =>
    have alone : isLeadingSurrogate c = false := by
      by_contra leading
      exact (leading_wide ((Bool.not_eq_false _).mp leading)).1 narrow
    cases second with
    | nil => simp [separatesPair, utf8Bytes, narrow]
    | cons d rest => simp [separatesPair, utf8Bytes, narrow, alone]
  | case3 c wide narrow =>
    have alone : isLeadingSurrogate c = false := by
      by_contra leading
      exact (leading_wide ((Bool.not_eq_false _).mp leading)).2 narrow
    cases second with
    | nil => simp [separatesPair, utf8Bytes, wide, narrow]
    | cons d rest => simp [separatesPair, utf8Bytes, wide, narrow, alone]
  | case4 c wide wider =>
    cases second with
    | nil => simp [separatesPair, utf8Bytes, wide, wider]
    | cons d rest =>
      cases pair : isLeadingSurrogate c && isTrailingSurrogate d with
      | false => simp [separatesPair, utf8Bytes, wide, wider, pair]
      | true =>
        rw [utf8Bytes_trailing (Bool.and_eq_true _ _ |>.mp pair).2]
        simp [separatesPair, utf8Bytes, wide, wider, pair]
        omega
  | case5 c d rest narrow ih =>
    rw [separatesPair_cons, List.cons_append, List.cons_append, utf8Bytes, if_pos narrow, ← List.cons_append]
    omega
  | case6 c d rest wide narrow ih =>
    rw [separatesPair_cons, List.cons_append, List.cons_append, utf8Bytes, if_neg wide, if_pos narrow, ← List.cons_append]
    omega
  | case7 c d rest wide wider pair ih =>
    have trailing := ((Bool.and_eq_true _ _).mp pair).2
    rw [separatesPair_cons, separatesPair_trailing trailing, List.cons_append, List.cons_append, utf8Bytes,
      if_neg wide, if_neg wider,
      if_pos pair]
    omega
  | case8 c d rest wide wider apart ih =>
    rw [separatesPair_cons, List.cons_append, List.cons_append, utf8Bytes, if_neg wide, if_neg wider,
      if_neg apart, ← List.cons_append]
    omega

theorem utf8ByteLength_append (first second : JsString) :
    utf8ByteLength (first ++ second) = utf8ByteLength first + utf8ByteLength second ↔ separatesPair first second = false := by
  have sum := utf8Bytes_append first.units second.units
  simp only [utf8ByteLength, JsString.units_append]
  cases pair : separatesPair first second with
  | false =>
    rw [pair] at sum
    exact iff_of_true sum.symm rfl
  | true =>
    rw [pair] at sum
    refine iff_of_false (fun same => ?_) (by simp)
    rw [if_pos rfl] at sum
    omega

/-! ### Limits -/

/-- `utf8ByteLength` measures what `TextEncoder` writes, and text cut between two surrogates of a pair alone measures more in pieces.
The metadata of an event are accepted exactly when their JSON text fits as UTF-8. -/
theorem byte_lengths :
    (∀ text : JsString, utf8ByteLength text = (encodeUtf8 text).length) ∧
      (∀ first second : JsString, utf8ByteLength (first ++ second) = utf8ByteLength first + utf8ByteLength second ↔
        separatesPair first second = false) ∧
      ∀ (value : Option Json) (object : JsonObject), validateMetadata value = .ok object ↔
        validateObject metadataLimits value = .ok object ∧
          (encodeUtf8 (stringify (.obj object.fields))).length ≤ eventLimits.metadataSerializedBytes := by
  refine ⟨utf8ByteLength_eq, utf8ByteLength_append, fun value object => ?_⟩
  rw [validateMetadata, validateBoundedObject_eq_ok, utf8ByteLength_eq]

example : utf8ByteLength ⟨[0xd83d, 0xde00, 0xd83d, 97, 0xde00]⟩ = 11 := by decide +kernel

end Handrail.Conversation
