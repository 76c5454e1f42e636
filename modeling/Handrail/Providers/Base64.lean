import Handrail.Rfc4648.Base64
import Mathlib.Algebra.Ring.Nat

/-!
# Base 64 of attachments

`base64` of `providers/openai-responses.ts`. What it writes decodes to the bytes it was given.
-/

namespace Handrail.Providers
open Js

def alphabet : JsString := js "ABCDEFGHIJKLMNOPQRSTUVWXYZabcdefghijklmnopqrstuvwxyz0123456789+/"

/-- `alphabet.charAt(index)` -/
def charAt (index : Nat) : List UInt16 := alphabet.units[index]?.toList

def base64Group (first : UInt8) (second third : Option UInt8) : List UInt16 :=
  let value := (first.toNat <<< 16) ||| ((second.getD 0).toNat <<< 8) ||| (third.getD 0).toNat
  charAt ((value >>> 18) &&& 63) ++ charAt ((value >>> 12) &&& 63) ++
    (if second = none then [61] else charAt ((value >>> 6) &&& 63)) ++ if third = none then [61] else charAt (value &&& 63)

def base64Units : List UInt8 → List UInt16
  | [] => []
  | [first] => base64Group first none none
  | [first, second] => base64Group first (some second) none
  | first :: second :: third :: rest => base64Group first (some second) (some third) ++ base64Units rest

def base64 (bytes : List UInt8) : JsString := ⟨base64Units bytes⟩

example : base64 [104, 97, 110, 100, 114, 97, 105, 108] = js "aGFuZHJhaWw=" := by decide +kernel

/-! ### Groups -/

def letter (bits : Nat) : UInt16 := alphabet.units.getD bits 0

theorem letter_spec : ∀ k : Fin 64, charAt k = [letter k] ∧ Rfc4648.sextet
    (letter k) = some k.val ∧ letter k ≠ 61 := by decide +kernel

theorem charAt_eq {bits : Nat} (small : bits < 64) : charAt bits = [letter bits] := (letter_spec ⟨bits, small⟩).1

theorem sextet_letter {bits : Nat} (small : bits < 64) : Rfc4648.sextet (letter bits) = some bits :=
  (letter_spec ⟨bits, small⟩).2.1

theorem letter_ne {bits : Nat} (small : bits < 64) : letter bits ≠ 61 := (letter_spec ⟨bits, small⟩).2.2

theorem packed {a b c : Nat} (second : b < 256) (third : c < 256) :
    (a <<< 16) ||| (b <<< 8) ||| c = 65536 * a + 256 * b + c := by
  have low : (b <<< 8) ||| c = 256 * b + c := by
    rw [← Nat.shiftLeft_add_eq_or_of_lt third, Nat.shiftLeft_eq]
    omega
  have small : 256 * b + c < 2 ^ 16 := by omega
  rw [Nat.or_assoc, low, ← Nat.shiftLeft_add_eq_or_of_lt small, Nat.shiftLeft_eq]
  omega

theorem sixBits (value shift : Nat) : (value >>> shift) &&& 63 = value / 2 ^ shift % 64 := by
  rw [Nat.shiftRight_eq_div_pow]
  exact Nat.and_two_pow_sub_one_eq_mod _ 6

theorem group_three (a b c : UInt8) : base64Group a (some b) (some c) =
    [letter (a.toNat / 4), letter (16 * (a.toNat % 4) + b.toNat / 16),
      letter (4 * (b.toNat % 16) + c.toNat / 64), letter (c.toNat % 64)] := by
  have first := a.toNat_lt
  have second := b.toNat_lt
  have third := c.toNat_lt
  have last (value : Nat) : value &&& 63 = value % 64 := Nat.and_two_pow_sub_one_eq_mod _ 6
  simp only [base64Group, Option.getD_some, packed second third, last, reduceCtorEq, if_false]
  rw [charAt_eq (by omega), charAt_eq (by omega), charAt_eq (by omega), charAt_eq (by omega)]
  simp only [List.cons_append, List.nil_append, List.cons.injEq, and_true]
  refine ⟨congrArg letter ?_, congrArg letter ?_, congrArg letter ?_, congrArg letter ?_⟩ <;> omega

theorem group_two (a b : UInt8) : base64Group a (some b) none =
    [letter (a.toNat / 4), letter (16 * (a.toNat % 4) + b.toNat / 16), letter (4 * (b.toNat % 16)), 61] := by
  have first := a.toNat_lt
  have second := b.toNat_lt
  simp only [base64Group, Option.getD_some, Option.getD_none, UInt8.toNat_zero, packed second (show 0 < 256 by decide), sixBits,
    reduceCtorEq, if_false, if_true]
  rw [charAt_eq (by omega), charAt_eq (by omega), charAt_eq (by omega)]
  simp only [List.cons_append, List.nil_append, List.cons.injEq, and_true]
  refine ⟨congrArg letter ?_, congrArg letter ?_, congrArg letter ?_⟩ <;> omega

theorem group_one (a : UInt8) : base64Group a none none = [letter (a.toNat / 4), letter (16 * (a.toNat % 4)), 61, 61] := by
  have first := a.toNat_lt
  simp only [base64Group, Option.getD_none, UInt8.toNat_zero,
    packed (show 0 < 256 by decide) (show 0 < 256 by decide), sixBits, if_true]
  rw [charAt_eq (by omega), charAt_eq (by omega)]
  simp only [List.cons_append, List.nil_append, List.cons.injEq, and_true]
  refine ⟨congrArg letter ?_, congrArg letter ?_⟩ <;> omega

/-! ### What is read back -/

theorem toUInt8_toNat {n : Nat} {a : UInt8} (same : n = a.toNat) : n.toUInt8 = a := by
  rw [same]
  exact UInt8.ofNat_toNat

theorem wholeGroup_three (a b c : UInt8) :
    Rfc4648.wholeGroup (letter (a.toNat / 4)) (letter (16 * (a.toNat % 4) + b.toNat / 16)) (letter (4 * (b.toNat % 16) + c.toNat / 64))
      (letter (c.toNat % 64)) = some [a, b, c] := by
  have first := a.toNat_lt
  have second := b.toNat_lt
  have third := c.toNat_lt
  unfold Rfc4648.wholeGroup
  rw [sextet_letter (by omega), sextet_letter (by omega), sextet_letter (by omega), sextet_letter (by omega)]
  simp only [bind, Option.bind, pure, Option.some.injEq, List.cons.injEq, and_true]
  exact ⟨toUInt8_toNat (by omega), toUInt8_toNat (by omega), toUInt8_toNat (by omega)⟩

theorem base64Units_ne_nil {bytes : List UInt8} (given : bytes ≠ []) : base64Units bytes ≠ [] := by
  unfold base64Units
  split
  · exact (given rfl).elim
  · rw [group_one]
    exact List.cons_ne_nil _ _
  · rw [group_two]
    exact List.cons_ne_nil _ _
  · rw [group_three]
    exact List.cons_ne_nil _ _

theorem decode_base64Units (bytes : List UInt8) : Rfc4648.decodeUnits (base64Units bytes) = some bytes := by
  fun_induction base64Units bytes with
  | case1 => rfl
  | case2 a =>
    have first := a.toNat_lt
    rw [group_one, Rfc4648.decodeUnits, Rfc4648.lastGroup, if_neg (by decide), if_neg (by decide), sextet_letter (by omega),
      sextet_letter (by omega)]
    simp only [bind, Option.bind, pure]
    rw [if_pos (by omega), Option.some_inj, toUInt8_toNat (show 4 * (a.toNat / 4) + 16 * (a.toNat % 4) / 16 = a.toNat by omega)]
  | case3 a b =>
    have first := a.toNat_lt
    have second := b.toNat_lt
    rw [group_two, Rfc4648.decodeUnits, Rfc4648.lastGroup, if_neg (by decide), if_pos (letter_ne (by omega)),
      sextet_letter (by omega),
      sextet_letter (by omega), sextet_letter (by omega)]
    simp only [bind, Option.bind, pure]
    rw [if_pos (by omega), Option.some_inj, toUInt8_toNat (a := a) (by omega), toUInt8_toNat (a := b) (by omega)]
  | case4 a b c rest ih =>
    rw [group_three]
    simp only [List.cons_append, List.nil_append]
    by_cases last : rest = []
    · subst last
      have third := c.toNat_lt
      rw [base64Units, Rfc4648.decodeUnits, Rfc4648.lastGroup, if_pos (letter_ne (by omega)), wholeGroup_three]
    · rw [Rfc4648.decodeUnits_group (base64Units_ne_nil last), wholeGroup_three, ih]
      rfl

/-! ### Length and padding -/

def padding (length : Nat) : Nat := (3 - length % 3) % 3

theorem base64Units_length (bytes : List UInt8) : (base64Units bytes).length = 4 * ((bytes.length + 2) / 3) := by
  fun_induction base64Units bytes with
  | case1 => rfl
  | case2 a => simp [group_one]
  | case3 a b => simp [group_two]
  | case4 a b c rest ih =>
    rw [group_three, List.length_append, ih]
    simp only [List.length_cons, List.length_nil]
    omega

theorem base64Units_padding (bytes : List UInt8) :
    ∃ body, base64Units bytes = body ++ List.replicate (padding bytes.length) 61 ∧ 61 ∉ body := by
  fun_induction base64Units bytes with
  | case1 => exact ⟨[], rfl, List.not_mem_nil⟩
  | case2 a =>
    have first := a.toNat_lt
    refine ⟨[letter (a.toNat / 4), letter (16 * (a.toNat % 4))], group_one a, ?_⟩
    have one := (letter_ne (show a.toNat / 4 < 64 by omega)).symm
    have two := (letter_ne (show 16 * (a.toNat % 4) < 64 by omega)).symm
    simp only [List.mem_cons, List.not_mem_nil, or_false, not_or]
    exact ⟨one, two⟩
  | case3 a b =>
    have first := a.toNat_lt
    have second := b.toNat_lt
    refine ⟨[letter (a.toNat / 4), letter (16 * (a.toNat % 4) + b.toNat / 16), letter (4 * (b.toNat % 16))], group_two a b, ?_⟩
    have one := (letter_ne (show a.toNat / 4 < 64 by omega)).symm
    have two := (letter_ne (show 16 * (a.toNat % 4) + b.toNat / 16 < 64 by omega)).symm
    have three := (letter_ne (show 4 * (b.toNat % 16) < 64 by omega)).symm
    simp only [List.mem_cons, List.not_mem_nil, or_false, not_or]
    exact ⟨one, two, three⟩
  | case4 a b c rest ih =>
    have first := a.toNat_lt
    have second := b.toNat_lt
    obtain ⟨body, shape, plain⟩ := ih
    have same : padding (a :: b :: c :: rest).length = padding rest.length := by
      simp only [padding, List.length_cons]
      omega
    refine ⟨base64Group a (some b) (some c) ++ body, by rw [shape, same, List.append_assoc], ?_⟩
    have one := (letter_ne (show a.toNat / 4 < 64 by omega)).symm
    have two := (letter_ne (show 16 * (a.toNat % 4) + b.toNat / 16 < 64 by omega)).symm
    have three := (letter_ne (show 4 * (b.toNat % 16) + c.toNat / 64 < 64 by have := c.toNat_lt; omega)).symm
    have four := (letter_ne (show c.toNat % 64 < 64 by omega)).symm
    rw [group_three]
    simp only [List.mem_append, List.mem_cons, List.not_mem_nil, or_false, not_or]
    exact ⟨⟨one, two, three, four⟩, plain⟩

/-- Every text that `base64` writes decodes to its bytes; it consists of whole groups, with padding at its end only. -/
theorem base64_decodes (bytes : List UInt8) : Rfc4648.decode (base64 bytes) = some bytes ∧
    (base64 bytes).length = 4 * ((bytes.length + 2) / 3) ∧
    (∃ body, (base64 bytes).units = body ++ List.replicate (padding bytes.length) 61 ∧ 61 ∉ body) ∧
    ∀ other, base64 other = base64 bytes → other = bytes := by
  refine ⟨decode_base64Units bytes, base64Units_length bytes, base64Units_padding bytes, fun other same => ?_⟩
  have read := congrArg Rfc4648.decode same
  rw [show Rfc4648.decode (base64 other) = some other from decode_base64Units other,
    show Rfc4648.decode (base64 bytes) = some bytes from decode_base64Units bytes] at read
  exact Option.some.inj read

end Handrail.Providers
