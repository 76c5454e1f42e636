import Handrail.ProviderContext.Sha256Text

/-!
# `sha256Text` is SHA-256

Each sum of the code stays below 2⁵³ and is exact, so the thirty-two bits that are read of it are the sum of the words.
-/

namespace Handrail.ProviderContext
open Js Js.Number Fips180

/-! ### Words -/

theorem constants_eq : sha256Constants = constants := by decide +kernel

theorem initial_eq : sha256Initial = initialHash := by decide +kernel

theorem holds_rotate {x : Int} {b : BitVec 32} {m n : Nat} (one : Holds x b m) (some : 0 < n) (small : n < 32) :
    Holds (rotate x n) (b.rotateRight n) 1 := by
  have both := (one.shiftRight small).or (one.shiftLeft (show 32 - n < 32 by omega))
  have same : b.rotateRight n = b >>> n ||| b <<< (32 - n) := by
    rw [BitVec.rotateRight, Nat.mod_eq_of_lt small, BitVec.rotateRightAux]
  rw [same]
  exact both

theorem holds_element (words : List (BitVec 32)) (index : Nat) : Holds (element words index) (words.getD index 0) 1 :=
  holds_toNat _

theorem getD_setElement {words : List (BitVec 32)} {index : Nat} (inside : index < words.length) (value : Int) (other : Nat) :
    (setElement words index value).getD other 0 = if other = index then bits value else words.getD other 0 := by
  rw [setElement, List.getD_eq_getElem?_getD, List.getD_eq_getElem?_getD, List.getElem?_set]
  by_cases same : index = other
  · rw [if_pos same, if_pos inside, if_pos same.symm]
    rfl
  · rw [if_neg same, if_neg fun equal => same equal.symm]

@[simp] theorem length_setElement (words : List (BitVec 32)) (index : Nat) (value : Int) :
    (setElement words index value).length = words.length := List.length_set

theorem bits_truncate {x : Int} {b : BitVec 32} {m : Nat} (one : Holds x b m) : bits (shiftRight x 0) = b := by
  rw [one.truncate]
  exact (holds_toNat b).bits

/-! ### The message schedule -/

variable {w : List (BitVec 32)}

theorem extendWord_eq {M : Nat → Word} {t : Nat} (late : 16 ≤ t)
    (before : ∀ i < t, w.getD i 0 = schedule M i) :
    extendWord w t = setElement w t (schedule M t).toNat := by
  have x := holds_element w (t - 15)
  have y := holds_element w (t - 2)
  have s0 := ((holds_rotate x (n := 7) (by decide) (by decide)).xor (holds_rotate x (n := 18) (by decide) (by decide))).xor
    (x.shiftRight (n := 3) (by decide))
  have s1 := ((holds_rotate y (n := 17) (by decide) (by decide)).xor (holds_rotate y (n := 19) (by decide) (by decide))).xor
    (y.shiftRight (n := 10) (by decide))
  have sum := (((holds_element w (t - 16)).add s0 (by decide)).add (holds_element w (t - 7)) (by decide)).add s1 (by decide)
  simp only [extendWord, sum.truncate]
  congr 2
  rw [before _ (by omega), before _ (by omega), before _ (by omega), before _ (by omega), schedule_later M late,
    smallSigma0, smallSigma1]
  ac_rfl

theorem extendWords_eq {M : Nat → Word} (whole : w.length = 64)
    (loaded : ∀ t < 16, w.getD t 0 = M t) :
    (extendWords w).length = 64 ∧ ∀ t < 64, (extendWords w).getD t 0 = schedule M t := by
  have extended (n : Nat) (room : n ≤ 48) : ((List.range' 16 n).foldl extendWord w).length = 64 ∧
      ∀ t < 16 + n, ((List.range' 16 n).foldl extendWord w).getD t 0 = schedule M t := by
    induction n with
    | zero =>
      refine ⟨whole, fun t early => ?_⟩
      rw [schedule_message M early]
      exact loaded t early
    | succ n ih =>
      obtain ⟨length, known⟩ := ih (by omega)
      rw [List.range'_concat, Nat.one_mul, List.foldl_append, List.foldl_cons, List.foldl_nil,
        extendWord_eq (by omega) known]
      refine ⟨(length_setElement ..).trans length, fun t early => ?_⟩
      rw [getD_setElement (by omega)]
      split
      · rename_i here
        rw [here]
        exact (holds_toNat _).bits
      · exact known t (by omega)
  exact extended 48 (by decide)

theorem loadWords_eq (whole : w.length = 64) (padded : List UInt8) (offset : Nat) :
    (loadWords padded offset w).length = 64 ∧
      ∀ t < 16, (loadWords padded offset w).getD t 0 = bits (getUint32 padded (offset + t * 4)) := by
  have loaded (n : Nat) (room : n ≤ 16) :
      ((List.range n).foldl (fun w index => setElement w index (getUint32 padded (offset + index * 4))) w).length = 64 ∧
      ∀ t < n, ((List.range n).foldl (fun w index => setElement w index (getUint32 padded (offset + index * 4))) w).getD t 0 =
        bits (getUint32 padded (offset + t * 4)) := by
    induction n with
    | zero => exact ⟨whole, fun t early => absurd early (Nat.not_lt_zero t)⟩
    | succ n ih =>
      obtain ⟨length, known⟩ := ih (by omega)
      rw [List.range_succ, List.foldl_append, List.foldl_cons, List.foldl_nil]
      refine ⟨(length_setElement ..).trans length, fun t early => ?_⟩
      rw [getD_setElement (by omega)]
      split
      · rename_i here
        rw [here]
      · exact known t (by omega)
  exact loaded 16 (Nat.le_refl _)

theorem getUint32_eq {view : List UInt8} {offset : Nat} (inside : offset + 4 ≤ view.length) :
    bits (getUint32 view offset) = wordOf ((view.drop offset).take 4) := by
  have byte (i : Nat) (small : i < 4) : view.getD (offset + i) 0 = ((view.drop offset).take 4).getD i 0 := by
    rw [List.getD_eq_getElem?_getD, List.getD_eq_getElem?_getD, List.getElem?_take_of_lt small, List.getElem?_drop]
  have four : ((view.drop offset).take 4).length = 4 := by
    rw [List.length_take, List.length_drop]
    omega
  rw [getUint32, show offset = offset + 0 from rfl,
    Nat.add_zero offset, byte 1 (by decide), byte 2 (by decide), byte 3 (by decide)]
  have first := byte 0 (by decide)
  rw [Nat.add_zero] at first
  rw [first]
  obtain ⟨a, b, c, d, bytes⟩ : ∃ a b c d, (view.drop offset).take 4 = [a, b, c, d] := by
    rcases bytes : (view.drop offset).take 4 with _ | ⟨a, _ | ⟨b, _ | ⟨c, _ | ⟨d, _ | ⟨e, rest⟩⟩⟩⟩⟩ <;> rw [bytes] at four <;>
      simp at four
    exact ⟨a, b, c, d, rfl⟩
  rw [bytes, bits, BitVec.ofInt_natCast, wordOf]
  congr 1
  simp only [List.foldl_cons, List.foldl_nil, List.getD_cons_zero, List.getD_cons_succ]
  omega

/-! ### The rounds -/

def numbers (v : Work) : Variables := ⟨v.a.toNat, v.b.toNat, v.c.toNat, v.d.toNat, v.e.toNat, v.f.toNat, v.g.toNat, v.h.toNat⟩

theorem runRound_eq {W : Nat → Word} {t : Nat} (known : w.getD t 0 = W t) (v : Work) :
    runRound w (numbers v) t = numbers (Fips180.round W v t) := by
  have a := holds_toNat v.a
  have e := holds_toNat v.e
  have s1 := ((holds_rotate e (n := 6) (by decide) (by decide)).xor (holds_rotate e (n := 11) (by decide) (by decide))).xor
    (holds_rotate e (n := 25) (by decide) (by decide))
  have choice := (e.and (holds_toNat v.f)).xor (e.not.and (holds_toNat v.g))
  have t1 := ((((holds_toNat v.h).add s1 (by decide)).add choice (by decide)).add (holds_element sha256Constants t)
    (by decide)).add (holds_element w t) (by decide)
  have s0 := ((holds_rotate a (n := 2) (by decide) (by decide)).xor (holds_rotate a (n := 13) (by decide) (by decide))).xor
    (holds_rotate a (n := 22) (by decide) (by decide))
  have majority := ((a.and (holds_toNat v.b)).xor (a.and (holds_toNat v.c))).xor ((holds_toNat v.b).and (holds_toNat v.c))
  have t2 := s0.add majority (by decide)
  have sum (left right : BitVec 32) : shiftRight (add left.toNat right.toNat) 0 = (left + right).toNat :=
    ((holds_toNat left).add (holds_toNat right) (by decide)).truncate
  simp only [runRound, numbers, Fips180.round, t1.truncate, t2.truncate, sum, known]
  rw [← constants_eq]
  rfl

theorem runRounds_eq {W : Nat → Word} (known : ∀ t < 64, w.getD t 0 = W t) (v : Work) :
    runRounds w (numbers v) = numbers ((List.range 64).foldl (Fips180.round W) v) := by
  have ran (turns : List Nat) (all : ∀ t ∈ turns, t < 64) (v : Work) :
      turns.foldl (runRound w) (numbers v) = numbers (turns.foldl (Fips180.round W) v) := by
    induction turns generalizing v with
    | nil => rfl
    | cons t rest ih =>
      rw [List.foldl_cons, List.foldl_cons, runRound_eq (known t (all t List.mem_cons_self))]
      exact ih (fun other member => all other (List.mem_cons_of_mem _ member)) _
  exact ran _ (fun t member => List.mem_range.mp member) v

/-! ### Blocks -/

theorem starts (h : List (BitVec 32)) :
    (⟨element h 0, element h 1, element h 2, element h 3, element h 4, element h 5, element h 6, element h 7⟩ : Variables) =
      numbers (.ofHash h) := by
  simp only [numbers, Work.ofHash, element]

theorem eight_words {h : List (BitVec 32)} (eight : h.length = 8) : (List.range 8).map (fun i => h.getD i 0) = h := by
  apply List.ext_getElem
  · rw [List.length_map, List.length_range, eight]
  · intro i inside there
    rw [List.getElem_map, List.getElem_range, List.getD_eq_getElem?_getD, List.getElem?_eq_getElem there, Option.getD_some]

theorem hashBlock_sums {h : List (BitVec 32)} (eight : h.length = 8) (v : Work) :
    let sum (index : Nat) (value : Int) : BitVec 32 := bits (shiftRight (add (element h index) value) 0)
    let n := numbers v
    [sum 0 n.a, sum 1 n.b, sum 2 n.c, sum 3 n.d, sum 4 n.e, sum 5 n.f, sum 6 n.g, sum 7 n.hh] =
      List.zipWith (· + ·) h v.words := by
  have sum (index : Nat) (word : BitVec 32) :
      bits (shiftRight (add (element h index) word.toNat) 0) = h.getD index 0 + word :=
    bits_truncate ((holds_element h index).add (holds_toNat word) (by decide))
  simp only [numbers, sum, Work.words]
  conv_rhs => rw [← eight_words eight]
  rfl

theorem hashBlock_eq {padded : List UInt8} {h w : List (BitVec 32)} {block : Nat} (eight : h.length = 8)
    (whole : w.length = 64) (inside : 64 * block + 64 ≤ padded.length) :
    (hashBlock padded h w (block * 64)).1 = compress (messageWord padded block) h ∧
      (hashBlock padded h w (block * 64)).2.length = 64 := by
  obtain ⟨loaded, words⟩ := loadWords_eq whole padded (block * 64)
  have message : ∀ t < 16, (loadWords padded (block * 64) w).getD t 0 = messageWord padded block t := by
    intro t early
    rw [words t early, getUint32_eq (by omega), messageWord]
    rw [show block * 64 + t * 4 = 64 * block + 4 * t by omega]
  obtain ⟨length, scheduled⟩ := extendWords_eq loaded message
  have ran := runRounds_eq scheduled (.ofHash h)
  rw [← starts] at ran
  have result : hashBlock padded h w (block * 64) =
      (compress (messageWord padded block) h, extendWords (loadWords padded (block * 64) w)) := by
    rw [hashBlock, ran, compress, ← hashBlock_sums eight]
  constructor
  · rw [result]
  · rw [result]
    dsimp only
    rw [length]

theorem length_compress {M : Nat → Word} {hash : List Word} (eight : hash.length = 8) : (compress M hash).length = 8 := by
  rw [compress, List.length_zipWith, eight]
  rfl

theorem hashBlocks_eq {padded : List UInt8} {n : Nat} (room : 64 * n ≤ padded.length) :
    let after := ((List.range n).map fun block => block * 64).foldl (fun s offset => hashBlock padded s.1 s.2 offset)
      (sha256Initial, List.replicate 64 0)
    after.1 = (List.range n).foldl (fun hash i => compress (messageWord padded i) hash) initialHash ∧
      after.1.length = 8 ∧ after.2.length = 64 := by
  induction n with
  | zero => exact ⟨initial_eq, rfl, List.length_replicate⟩
  | succ n ih =>
    obtain ⟨same, eight, whole⟩ := ih (by omega)
    obtain ⟨next, length⟩ := hashBlock_eq eight whole (show 64 * n + 64 ≤ padded.length by omega)
    rw [List.range_succ, List.map_append, List.foldl_append, List.foldl_append]
    refine ⟨next.trans ?_, ?_, length⟩
    · rw [same]
      rfl
    · exact (congrArg List.length next).trans (length_compress eight)

/-! ### Padding -/

theorem setUint32_eq {four : List UInt8} (length : four.length = 4) (front back : List UInt8) (value : Int) :
    setUint32 (front ++ four ++ back) front.length value = front ++ bigEndian 4 (bits value).toNat ++ back := by
  have before : (front ++ four ++ back).take front.length = front := by
    rw [List.append_assoc, List.take_left]
  have after : (front ++ four ++ back).drop (front.length + 4) = back := by
    rw [← length, ← List.length_append, List.drop_left]
  have bytes : bigEndian 4 (bits value).toNat = [((bits value).toNat / 2 ^ 24).toUInt8, ((bits value).toNat / 2 ^ 16).toUInt8,
      ((bits value).toNat / 2 ^ 8).toUInt8, (bits value).toNat.toUInt8] := by
    simp only [bigEndian, Nat.shiftRight_eq_div_pow]
    rw [← Nat.div_one (bits value).toNat]
    simp only [Nat.div_div_eq_div_mul, Nat.one_mul]
    rfl
  rw [setUint32, before, after, bytes]

theorem ofNat_congr {m n : Nat} (same : m % 256 = n % 256) : UInt8.ofNat m = UInt8.ofNat n := by
  apply UInt8.toNat_inj.mp
  rw [UInt8.toNat_ofNat', UInt8.toNat_ofNat']
  exact same

theorem bigEndian_halves (n : Nat) :
    bigEndian 4 (n / 2 ^ 32) ++ bigEndian 4 (n % 2 ^ 32) = bigEndian 8 n := by
  have high (i : Nat) : n / 2 ^ 32 / 2 ^ i = n / 2 ^ (32 + i) := by rw [Nat.div_div_eq_div_mul, Nat.pow_add]
  simp only [bigEndian, Nat.shiftRight_eq_div_pow, List.range_succ, List.range_zero, List.nil_append, List.cons_append,
    List.reverse_cons, List.reverse_nil, List.map_cons, List.map_nil, high]
  simp only [List.cons.injEq, true_and, and_true]
  refine ⟨?_, ?_, ?_, ?_⟩ <;> exact ofNat_congr (by omega)

theorem padBytes_eq {bytes : List UInt8} (short : bytes.length < 2 ^ 50) : padBytes bytes = pad bytes := by
  have exact_ : mul bytes.length 8 = (8 * bytes.length : Nat) := by
    rw [mul, roundInt_eq (by omega)]
    omega
  have highBits : (bits ((8 * bytes.length : Nat) / 0x100000000)).toNat = 8 * bytes.length / 2 ^ 32 := by
    have whole : ((8 * bytes.length : Nat) / 0x100000000 : Int) = (8 * bytes.length / 2 ^ 32 : Nat) := by omega
    rw [whole, bits, BitVec.ofInt_natCast, BitVec.toNat_ofNat, Nat.mod_eq_of_lt (by omega)]
  have lowBits : (bits (shiftRight (8 * bytes.length : Nat) 0)).toNat = 8 * bytes.length % 2 ^ 32 := by
    rw [shiftRight, Nat.zero_mod, BitVec.ushiftRight_zero, (holds_toNat _).bits, bits, BitVec.ofInt_natCast,
      BitVec.toNat_ofNat]
  generalize zeros : (119 - bytes.length % 64) % 64 = k
  have paddedLength : (bytes.length + 9 + 63) / 64 * 64 = bytes.length + 1 + k + 8 := by omega
  generalize front : bytes ++ 0x80 :: List.replicate k 0 = start
  have long : start.length = bytes.length + 1 + k := by
    rw [← front, List.length_append, List.length_cons, List.length_replicate]
    omega
  have marked : (bytes ++ List.replicate (1 + k + 8) 0).set bytes.length 0x80 =
      start ++ [0, 0, 0, 0] ++ [0, 0, 0, 0] := by
    rw [List.set_append_right _ _ (Nat.le_refl _), Nat.sub_self, ← front, show 1 + k + 8 = (k + 8) + 1 by omega,
      List.replicate_succ, List.set_cons_zero, ← List.replicate_append_replicate]
    simp [List.replicate]
  unfold padBytes
  dsimp only
  rw [exact_, paddedLength, show bytes.length + 1 + k + 8 - bytes.length = 1 + k + 8 by omega, marked,
    show bytes.length + 1 + k + 8 - 8 = start.length by omega, setUint32_eq rfl, highBits]
  have second : start.length + 4 = (start ++ bigEndian 4 (8 * bytes.length / 2 ^ 32)).length := by
    rw [List.length_append, length_bigEndian]
  have last := setUint32_eq (show [0, 0, 0, 0].length = 4 from rfl) (start ++ bigEndian 4 (8 * bytes.length / 2 ^ 32)) []
    (shiftRight (8 * bytes.length : Nat) 0)
  rw [List.append_nil, List.append_nil, lowBits, ← second] at last
  rw [show bytes.length + 1 + k + 8 - 4 = start.length + 4 by omega, last, List.append_assoc,
    bigEndian_halves, pad, zeros, ← front, List.append_assoc]

/-! ### The digest as text -/

/-- Digit `i` of a number in base sixteen. -/
def hexDigitAt (n i : Nat) : UInt16 := hexUnit (n / 16 ^ i % 16).toUInt16

def lowercaseHex (word : Word) : List UInt16 := (List.range 8).reverse.map (hexDigitAt word.toNat)

theorem digits_succ (n fuel : Nat) : (List.range (fuel + 1)).reverse.map (hexDigitAt n) =
    (List.range fuel).reverse.map (hexDigitAt (n / 16)) ++ [hexDigitAt n 0] := by
  rw [List.range_succ_eq_map, List.reverse_cons, List.map_append, List.map_reverse, List.map_reverse, List.map_map]
  congr 2
  apply List.map_congr_left
  intro i _
  rw [Function.comp_apply, hexDigitAt, hexDigitAt, Nat.succ_eq_add_one, Nat.pow_succ', ← Nat.div_div_eq_div_mul]

theorem hexText_eq {fuel n : Nat} (small : n < 16 ^ fuel) :
    (hexText fuel n).length ≤ fuel ∧
      List.replicate (fuel - (hexText fuel n).length) 48 ++ hexText fuel n = (List.range fuel).reverse.map (hexDigitAt n) := by
  induction fuel generalizing n with
  | zero => exact ⟨Nat.le_refl _, rfl⟩
  | succ fuel ih =>
    have zeros (fuel : Nat) : List.replicate fuel 48 = (List.range fuel).reverse.map (hexDigitAt 0) := by
      symm
      refine List.eq_replicate_iff.mpr ⟨by simp, fun unit member => ?_⟩
      obtain ⟨i, -, rfl⟩ := List.mem_map.mp member
      rw [hexDigitAt, Nat.zero_div]
      rfl
    rw [digits_succ]
    unfold hexText
    split
    · rename_i digit
      refine ⟨by simp, ?_⟩
      rw [List.length_singleton, Nat.add_sub_cancel, zeros, Nat.div_eq_of_lt digit, hexDigitAt, Nat.pow_zero, Nat.div_one,
        Nat.mod_eq_of_lt digit]
    · obtain ⟨short, same⟩ := ih (n := n / 16) (by rw [Nat.pow_succ] at small; omega)
      refine ⟨by rw [List.length_append, List.length_singleton]; omega, ?_⟩
      rw [List.length_append, List.length_singleton, Nat.add_sub_add_right, ← List.append_assoc, same, hexDigitAt,
        Nat.pow_zero, Nat.div_one]

theorem hexWord_eq (part : Word) : hexWord part = lowercaseHex part := (hexText_eq (show part.toNat < 16 ^ 8 from part.isLt)).2

/-- For a text of fewer than 2⁵⁰ bytes, `sha256Text` is the lower-case hexadecimal form of the SHA-256 hash of its UTF-8
encoding. -/
theorem sha256Text_eq (value : JsString) (short : (encodeUtf8 value).length < 2 ^ 50) :
    sha256Text value = ⟨(sha256 (encodeUtf8 value)).flatMap lowercaseHex⟩ := by
  unfold sha256Text
  rw [padBytes_eq short]
  dsimp only
  have room : 64 * ((pad (encodeUtf8 value)).length / 64) ≤ (pad (encodeUtf8 value)).length := Nat.mul_div_le ..
  have blocks := hashBlocks_eq room
  dsimp only at blocks
  rw [blocks.1, sha256, funext hexWord_eq]

/-- The hash of "abc". -/
theorem sha256Text_abc : (⟨(sha256 (encodeUtf8 (js "abc"))).flatMap lowercaseHex⟩ : JsString) =
    js "ba7816bf8f01cfea414140de5dae2223b00361a396177a9cb410ff61f20015ad" := by
  rw [← sha256Text_eq (js "abc") (by decide)]
  decide +kernel

end Handrail.ProviderContext
