import Handrail.Js.JsonText
import Mathlib.Tactic.Ring

/-!
# Reading `JSON.stringify` back

A text of `JSON.stringify` is read back to the value that it was written from, so two values with one
text differ in the sign of zeros at most.
-/

namespace Js

/-! ### Digits -/

def digitsValue (units : List UInt16) : Nat := units.foldl (fun n c => 10 * n + (c.toNat - 48)) 0

theorem foldl_digits (units : List UInt16) (n : Nat) :
    units.foldl (fun n c => 10 * n + (c.toNat - 48)) n = 10 ^ units.length * n + digitsValue units := by
  induction units generalizing n with
  | nil => simp [digitsValue]
  | cons c rest ih =>
    have head : digitsValue (c :: rest) = 10 ^ rest.length * (c.toNat - 48) + digitsValue rest := by
      rw [digitsValue, List.foldl_cons, ih, Nat.mul_zero, Nat.zero_add]
    rw [List.foldl_cons, ih, head, List.length_cons, Nat.pow_succ]
    ring

theorem digitsValue_append (units more : List UInt16) :
    digitsValue (units ++ more) = 10 ^ more.length * digitsValue units + digitsValue more := by
  rw [digitsValue, List.foldl_append, foldl_digits]
  rfl

theorem digitsValue_zeros (count : Nat) : digitsValue (List.replicate count 48) = 0 := by
  induction count with
  | zero => rfl
  | succ count ih => rw [List.replicate_succ', digitsValue_append, ih]; rfl

namespace JsNumber

theorem digit_of_mem {n : Nat} {c : UInt16} (inside : c ∈ digitUnits n) : 48 ≤ c.toNat ∧ c.toNat ≤ 57 := by
  obtain ⟨char, digit, rfl⟩ := List.mem_map.mp inside
  have digit := Nat.isDigit_of_mem_toDigits (by omega) (by omega) digit
  have bounds : 48 ≤ char.toNat ∧ char.toNat ≤ 57 := by
    simp only [Char.isDigit, Bool.and_eq_true, decide_eq_true_eq] at digit
    exact ⟨digit.1, digit.2⟩
  rw [toNat_toUInt16 (by omega)]
  exact bounds

@[simp] theorem digitsValue_digitUnits (n : Nat) : digitsValue (digitUnits n) = n := by
  have read (chars : List Char) (digits : ∀ c ∈ chars, c.isDigit = true) (m : Nat) :
      (chars.map (fun c => c.toNat.toUInt16)).foldl (fun n c => 10 * n + (c.toNat - 48)) m =
        Nat.ofDigitChars 10 chars m := by
    induction chars generalizing m with
    | nil => rfl
    | cons c rest ih =>
      rw [List.forall_mem_cons] at digits
      have bound : c.toNat ≤ 57 := by
        have digit := digits.1
        simp only [Char.isDigit, Bool.and_eq_true, decide_eq_true_eq] at digit
        exact digit.2
      rw [List.map_cons, List.foldl_cons, ih digits.2, Nat.ofDigitChars_cons, toNat_toUInt16 (by omega)]
      rfl
  rw [digitsValue, digitUnits, read _ fun c inside => Nat.isDigit_of_mem_toDigits (by omega) (by omega) inside]
  exact Nat.ofDigitChars_ten_toDigits

theorem digitUnits_length_pos (n : Nat) : 0 < (digitUnits n).length := by
  rw [digitUnits, List.length_map]
  exact Nat.length_toDigits_pos

/-! ### Numbers -/

def readExponent : List UInt16 → Int
  | _ :: sign :: digits => if sign == 45 then -(digitsValue digits : Int) else digitsValue digits
  | _ => 0

def readNumber (units : List UInt16) : Bool × Nat × Int :=
  let negative := units.head? == some 45
  let body := if negative then units.tail else units
  let mantissa := body.takeWhile (· != 101)
  let whole := mantissa.takeWhile (· != 46)
  let fraction := (mantissa.dropWhile (· != 46)).tail
  (negative, digitsValue (whole ++ fraction), readExponent (body.dropWhile (· != 101)) - fraction.length)

def IsDigits (units : List UInt16) : Prop := ∀ c ∈ units, 48 ≤ c.toNat ∧ c.toNat ≤ 57

theorem isDigits_nil : IsDigits [] := List.forall_mem_nil _

theorem isDigits_zeros (count : Nat) : IsDigits (List.replicate count 48) := by
  intro c inside
  rw [List.eq_of_mem_replicate inside]
  decide

theorem IsDigits.append {units more : List UInt16} (first : IsDigits units) (second : IsDigits more) :
    IsDigits (units ++ more) := by
  intro c inside
  exact (List.mem_append.mp inside).elim (first c) (second c)

theorem IsDigits.ne {units : List UInt16} (digits : IsDigits units) {c d : UInt16} (inside : c ∈ units)
    (other : d.toNat < 48 ∨ 57 < d.toNat) : (c != d) = true := by
  have bounds := digits c inside
  rw [bne_iff_ne]
  rintro rfl
  omega

theorem span_before (p : UInt16 → Bool) (rest : List UInt16) {units : List UInt16} (before : ∀ c ∈ units, p c = true)
    (stops : rest = [] ∨ ∃ c more, rest = c :: more ∧ p c = false) :
    (units ++ rest).takeWhile p = units ∧ (units ++ rest).dropWhile p = rest := by
  rw [List.takeWhile_append_of_pos before, List.dropWhile_append_of_pos before]
  rcases stops with rfl | ⟨c, more, rfl, stop⟩
  · simp
  · simp [stop]

theorem readNumber_write (negative : Bool) {whole : List UInt16} (fraction exponent : List UInt16) (digits : IsDigits whole)
    (nonempty : whole ≠ []) (digits' : IsDigits fraction) (power : exponent = [] ∨ ∃ rest, exponent = 101 :: rest) :
    readNumber ((if negative then [45] else []) ++
        (whole ++ ((if fraction = [] then [] else 46 :: fraction) ++ exponent))) =
      (negative, digitsValue (whole ++ fraction), readExponent exponent - fraction.length) := by
  obtain ⟨point, written⟩ : ∃ point, (if fraction = [] then [] else 46 :: fraction) = point := ⟨_, rfl⟩
  have mantissa : ∀ c ∈ whole ++ point, (c != 101) = true := by
    intro c inside
    rcases List.mem_append.mp inside with inside | inside
    · exact digits.ne inside (.inr (by decide))
    · rw [← written] at inside
      split at inside
      · cases inside
      · rcases List.mem_cons.mp inside with rfl | inside
        · decide
        · exact digits'.ne inside (.inr (by decide))
  have outer := span_before _ exponent mantissa (power.imp_right fun ⟨rest, h⟩ => ⟨101, rest, h, rfl⟩)
  have inner := span_before (· != 46) point (fun c inside => digits.ne inside (.inl (by decide)))
    (by
      rw [← written]
      split
      · exact .inl rfl
      · exact .inr ⟨46, fraction, rfl, rfl⟩)
  have tail : point.tail = fraction := by
    rw [← written]
    split
    · rename_i none
      rw [none, List.tail_nil]
    · rfl
  have body : (if negative then ((if negative then [45] else []) ++ (whole ++ (point ++ exponent))).tail
      else (if negative then [45] else []) ++ (whole ++ (point ++ exponent))) = whole ++ point ++ exponent := by
    rw [← List.append_assoc whole]
    cases negative <;> rfl
  have sign : (((if negative then [45] else []) ++ (whole ++ (point ++ exponent))).head? == some 45) = negative := by
    cases negative with
    | true => rfl
    | false =>
      obtain ⟨first, rest, rfl⟩ := List.exists_cons_of_ne_nil nonempty
      have other := digits.ne (d := 45) List.mem_cons_self (.inl (by decide))
      simpa using other
  rw [written]
  simp only [readNumber, sign, body, outer.1, outer.2, inner.1, inner.2, tail]

theorem readNumber_text {x : JsNumber} (nonzero : x.digits ≠ 0) :
    ∃ j : Nat, readNumber x.text.units = (x.negative, x.digits * 10 ^ j, x.exponent - j) := by
  have digits : IsDigits (digitUnits x.digits) := fun c inside => digit_of_mem inside
  have value : digitsValue (digitUnits x.digits) = x.digits := digitsValue_digitUnits _
  have positive := digitUnits_length_pos x.digits
  have taken (m : Nat) : IsDigits ((digitUnits x.digits).take m) := fun c inside => digits c (List.mem_of_mem_take inside)
  have dropped (m : Nat) : IsDigits ((digitUnits x.digits).drop m) := fun c inside => digits c (List.mem_of_mem_drop inside)
  have sign : (if x.negative && x.digits != 0 then (js "-").units else []) = if x.negative then [45] else [] := by
    cases x.negative
    · rfl
    · simp only [Bool.true_and, bne_iff_ne, ne_eq, nonzero, not_false_eq_true, ↓reduceIte]
      rfl
  obtain ⟨k, length⟩ : ∃ k, (digitUnits x.digits).length = k := ⟨_, rfl⟩
  obtain ⟨minus, signed⟩ : ∃ minus : List UInt16, (if x.negative then [45] else []) = minus := ⟨_, rfl⟩
  simp only [text, sign, length, if_neg nonzero, signed]
  split
  · rename_i whole
    refine ⟨((k : Int) + x.exponent - k).toNat, ?_⟩
    have written := readNumber_write x.negative [] []
      (digits.append (isDigits_zeros ((k : Int) + x.exponent - k).toNat)) (by
        rw [← List.length_pos_iff, List.length_append]
        omega) isDigits_nil (.inl rfl)
    rw [if_pos rfl, List.nil_append, List.append_nil, digitsValue_append, digitsValue_zeros, value,
      List.length_replicate, signed] at written
    rw [written]
    simp only [Prod.mk.injEq, true_and, readExponent, List.length_nil]
    exact ⟨by rw [Nat.add_zero, Nat.mul_comm], by omega⟩
  · split
    · rename_i _ point
      refine ⟨0, ?_⟩
      have rest : ((digitUnits x.digits).drop ((k : Int) + x.exponent).toNat).length = (-x.exponent).toNat := by
        rw [List.length_drop]
        omega
      have written := readNumber_write x.negative _ []
        (taken ((k : Int) + x.exponent).toNat) (by
          rw [← List.length_pos_iff, List.length_take]
          omega) (dropped ((k : Int) + x.exponent).toNat) (.inl rfl)
      rw [signed, if_neg (by rw [← List.length_eq_zero_iff]; omega), List.append_nil, List.take_append_drop,
        value, rest] at written
      have shape : (js ".").units = [46] := rfl
      rw [shape, List.append_assoc, List.singleton_append, written]
      simp only [readExponent, Nat.pow_zero, Nat.mul_one, Prod.mk.injEq, true_and]
      omega
    · split
      · rename_i _ _ small
        refine ⟨0, ?_⟩
        have rest : (List.replicate (-((k : Int) + x.exponent)).toNat 48 ++ digitUnits x.digits).length =
            (-x.exponent).toNat := by
          rw [List.length_append, List.length_replicate]
          omega
        have written := readNumber_write x.negative _ []
          (show IsDigits [48] from isDigits_zeros 1) (List.cons_ne_nil 48 [])
            ((isDigits_zeros (-((k : Int) + x.exponent)).toNat).append digits) (.inl rfl)
        rw [signed, if_neg (by rw [← List.length_eq_zero_iff]; omega), List.append_nil, rest, digitsValue_append,
          digitsValue_append, digitsValue_zeros, value] at written
        have shape : (js "0.").units = [48, 46] := rfl
        rw [shape, List.append_assoc, List.cons_append, List.cons_append, List.nil_append]
        refine written.trans ?_
        simp only [readExponent, Prod.mk.injEq, true_and]
        refine ⟨?_, by omega⟩
        simp [digitsValue]
      · rename_i _ _ large
        refine ⟨0, ?_⟩
        obtain ⟨power, exponent⟩ : ∃ power, (js "e").units ++
            (if 0 < (k : Int) + x.exponent then (js "+").units else (js "-").units) ++
              digitUnits ((k : Int) + x.exponent - 1).natAbs = power := ⟨_, rfl⟩
        have raised : readExponent power = (k : Int) + x.exponent - 1 := by
          rw [← exponent]
          split
          · show (digitsValue (digitUnits _) : Int) = _
            rw [digitsValue_digitUnits]
            omega
          · show -(digitsValue (digitUnits _) : Int) = _
            rw [digitsValue_digitUnits]
            omega
        have written := readNumber_write x.negative _ power (taken 1) (by
          rw [← List.length_pos_iff, List.length_take]
          omega) (dropped 1) (.inr ⟨_, exponent.symm⟩)
        have rest : ((digitUnits x.digits).drop 1).length = k - 1 := by rw [List.length_drop, length]
        have point : (if (digitUnits x.digits).drop 1 = [] then [] else 46 :: (digitUnits x.digits).drop 1) =
            if k = 1 then [] else (js ".").units ++ (digitUnits x.digits).drop 1 := by
          by_cases one : k = 1
          · rw [if_pos one, if_pos (List.length_eq_zero_iff.mp (by omega))]
          · rw [if_neg one, if_neg (by rw [← List.length_eq_zero_iff]; omega)]
            rfl
        rw [signed, point, List.take_append_drop, value, rest, raised] at written
        rw [exponent, List.append_assoc, written]
        simp only [Nat.pow_zero, Nat.mul_one, Prod.mk.injEq, true_and]
        omega

theorem scaled_inj {m n i j : Nat} (last : m % 10 ≠ 0) (last' : n % 10 ≠ 0) (same : m * 10 ^ i = n * 10 ^ j) :
    m = n ∧ i = j := by
  induction i generalizing j with
  | zero =>
    cases j with
    | zero => simpa using same
    | succ j =>
      rw [Nat.pow_succ, ← Nat.mul_assoc] at same
      omega
  | succ i ih =>
    cases j with
    | zero =>
      rw [Nat.pow_succ, ← Nat.mul_assoc] at same
      omega
    | succ j =>
      rw [Nat.pow_succ, Nat.pow_succ, ← Nat.mul_assoc, ← Nat.mul_assoc] at same
      obtain ⟨rfl, rfl⟩ := ih (Nat.eq_of_mul_eq_mul_right (by omega) same)
      exact ⟨rfl, rfl⟩

theorem readNumber_zero {x : JsNumber} (zero : x.digits = 0) : readNumber x.text.units = (false, 0, 0) := by
  have written : x.text.units = [48] := by
    simp only [text, zero, ↓reduceIte]
    cases x.negative <;> rfl
  rw [written]
  rfl

theorem text_inj {x y : JsNumber} : x.text = y.text ↔ x.roundTrip = y.roundTrip := by
  constructor
  · intro same
    have read : readNumber x.text.units = readNumber y.text.units := by rw [same]
    have last {z : JsNumber} (nonzero : z.digits ≠ 0) : z.digits % 10 ≠ 0 :=
      z.canonical.resolve_right fun zero => nonzero zero.1
    by_cases zero : x.digits = 0
    · by_cases zero' : y.digits = 0
      · rw [roundTrip, roundTrip, if_pos zero, if_pos zero']
      · obtain ⟨j, written⟩ := readNumber_text zero'
        rw [readNumber_zero zero, written, Prod.mk.injEq, Prod.mk.injEq] at read
        cases Nat.mul_eq_zero.mp read.2.1.symm with
        | inl none => exact (zero' none).elim
        | inr none => exact absurd none (Nat.pos_iff_ne_zero.mp (Nat.pow_pos (by omega)))
    · obtain ⟨i, written⟩ := readNumber_text zero
      by_cases zero' : y.digits = 0
      · rw [readNumber_zero zero', written, Prod.mk.injEq, Prod.mk.injEq] at read
        cases Nat.mul_eq_zero.mp read.2.1 with
        | inl none => exact (zero none).elim
        | inr none => exact absurd none (Nat.pos_iff_ne_zero.mp (Nat.pow_pos (by omega)))
      · obtain ⟨j, written'⟩ := readNumber_text zero'
        rw [written, written', Prod.mk.injEq, Prod.mk.injEq] at read
        obtain ⟨sign, scaled, exponent⟩ := read
        obtain ⟨digits, rfl⟩ := scaled_inj (last zero) (last zero') scaled
        obtain ⟨negative, m, e, canonical⟩ := x
        obtain ⟨negative', m', e', canonical'⟩ := y
        obtain rfl : negative = negative' := sign
        obtain rfl : m = m' := digits
        obtain rfl : e = e' := by
          simp only at exponent
          omega
        rfl
  · intro same
    rw [← text_roundTrip x, same, text_roundTrip y]

end JsNumber

/-! ### Strings -/

def hexValue (c : UInt16) : Nat := if c.toNat < 97 then c.toNat - 48 else c.toNat - 87

def readUnit : List UInt16 → Option (UInt16 × List UInt16)
  | [] => none
  | c :: rest =>
    if c = 92 then
      match rest with
      | 117 :: a :: b :: c :: d :: rest =>
        some ((hexValue a * 4096 + hexValue b * 256 + hexValue c * 16 + hexValue d).toUInt16, rest)
      | 98 :: rest => some (8, rest)
      | 116 :: rest => some (9, rest)
      | 110 :: rest => some (10, rest)
      | 102 :: rest => some (12, rest)
      | 114 :: rest => some (13, rest)
      | c :: rest => some (c, rest)
      | [] => none
    else some (c, rest)

theorem hexValue_hexUnit {n : UInt16} (small : n.toNat < 16) : hexValue (hexUnit n) = n.toNat := by
  have each : ∀ m : Fin 16, hexValue (hexUnit (UInt16.ofNat m)) = m := by decide
  have same : UInt16.ofNat n.toNat = n := UInt16.ofNat_toNat
  have found := each ⟨n.toNat, small⟩
  rwa [same] at found

theorem readUnit_unicodeEscape (c : UInt16) (rest : List UInt16) :
    readUnit (unicodeEscape c ++ rest) = some (c, rest) := by
  have high : (c >>> 12).toNat = c.toNat / 4096 := by simp [Nat.shiftRight_eq_div_pow]
  have digit (k : UInt16) : (k &&& 15).toNat = k.toNat % 16 := by
    simp only [UInt16.toNat_and, UInt16.reduceToNat]
    exact Nat.and_two_pow_sub_one_eq_mod k.toNat 4
  have second : (c >>> 8 &&& 15).toNat = c.toNat / 256 % 16 := by simp [digit, Nat.shiftRight_eq_div_pow]
  have third : (c >>> 4 &&& 15).toNat = c.toNat / 16 % 16 := by simp [digit, Nat.shiftRight_eq_div_pow]
  have fourth : (c &&& 15).toNat = c.toNat % 16 := digit c
  have bound := c.toNat_lt
  simp only [unicodeEscape, List.cons_append, List.nil_append, readUnit, ↓reduceIte]
  rw [hexValue_hexUnit (by omega), hexValue_hexUnit (by omega), hexValue_hexUnit (by omega), hexValue_hexUnit (by omega),
    high, second, third, fourth]
  have value : c.toNat / 4096 * 4096 + c.toNat / 256 % 16 * 256 + c.toNat / 16 % 16 * 16 + c.toNat % 16 = c.toNat := by
    omega
  rw [value]
  simp

theorem readUnit_escapeUnit (c : UInt16) (rest : List UInt16) : readUnit (escapeUnit c ++ rest) = some (c, rest) := by
  unfold escapeUnit
  split
  · subst c; rfl
  split
  · subst c; rfl
  split
  · subst c; rfl
  split
  · subst c; rfl
  split
  · subst c; rfl
  split
  · subst c; rfl
  split
  · subst c; rfl
  split
  · exact readUnit_unicodeEscape c rest
  · rename_i different _
    exact if_neg different

inductive ReadsString : List UInt16 → List UInt16 → List UInt16 → Prop
  | closed (rest : List UInt16) : ReadsString (34 :: rest) [] rest
  | unit {text after units rest : List UInt16} {c : UInt16} (open_ : text.head? ≠ some 34)
      (read : readUnit text = some (c, after)) (tail : ReadsString after units rest) : ReadsString text (c :: units) rest

theorem ReadsString.unique {text units rest units' rest' : List UInt16} (first : ReadsString text units rest)
    (second : ReadsString text units' rest') : units = units' ∧ rest = rest' := by
  induction first generalizing units' with
  | closed rest =>
    cases second with
    | closed => exact ⟨rfl, rfl⟩
    | unit open_ => exact (open_ rfl).elim
  | unit open_ read _ ih =>
    cases second with
    | closed => exact (open_ rfl).elim
    | unit _ read' tail' =>
      cases read.symm.trans read'
      obtain ⟨rfl, rfl⟩ := ih tail'
      exact ⟨rfl, rfl⟩

theorem readsString_escapeUnits (units rest : List UInt16) : ReadsString (escapeUnits units ++ 34 :: rest) units rest := by
  have quoted (c : UInt16) (rest : List UInt16) : (escapeUnit c ++ rest).head? ≠ some 34 := by
    unfold escapeUnit
    repeat' split
    all_goals simp [unicodeEscape]
    assumption
  have plain {c : UInt16} (rest : List UInt16) (surrogate : 0xd800 ≤ c.toNat) :
      (c :: rest).head? ≠ some 34 ∧ readUnit (c :: rest) = some (c, rest) := by
    have different (d : UInt16) (small : d.toNat < 0xd800) : c ≠ d := by
      rintro rfl
      omega
    exact ⟨by simpa using different 34 (by decide), if_neg (different 92 (by decide))⟩
  induction units using escapeUnits.induct with
  | case1 => exact .closed rest
  | case2 c => exact .unit (quoted c _) (readUnit_escapeUnit c _) (.closed rest)
  | case3 c d more pair ih =>
    simp only [isLeadingSurrogate, isTrailingSurrogate, Bool.and_eq_true, decide_eq_true_eq] at pair
    have leading := plain (d :: (escapeUnits more ++ 34 :: rest)) (c := c) pair.1.1
    have trailing := plain (escapeUnits more ++ 34 :: rest) (c := d)
      (Nat.le_trans (by decide) (show 0xdc00 ≤ d.toNat from pair.2.1))
    rw [escapeUnits, if_pos (by simpa [isLeadingSurrogate, isTrailingSurrogate] using pair)]
    exact .unit leading.1 leading.2 (.unit trailing.1 trailing.2 ih)
  | case4 c d more single ih =>
    rw [escapeUnits, if_neg single, List.append_assoc]
    exact .unit (quoted c _) (readUnit_escapeUnit c _) ih

theorem quoteUnits_inj {s t : JsString} {xs ys : List UInt16} (same : quoteUnits s ++ xs = quoteUnits t ++ ys) :
    s = t ∧ xs = ys := by
  simp only [quoteUnits, List.cons_append, List.cons.injEq, true_and, List.append_assoc, List.nil_append] at same
  have read := readsString_escapeUnits t.units ys
  rw [← same] at read
  obtain ⟨units, rest⟩ := (readsString_escapeUnits s.units xs).unique read
  exact ⟨JsString.ext units, rest⟩

/-! ### Values -/

def isNumeral (c : UInt16) : Bool := 48 ≤ c && c ≤ 57 || c == 43 || c == 45 || c == 46 || c == 101

theorem JsNumber.isNumeral_text (x : JsNumber) : ∀ c ∈ x.text.units, isNumeral c = true := by
  have digit {n : Nat} : ∀ c ∈ digitUnits n, isNumeral c = true := by
    intro c inside
    have bounds := digit_of_mem inside
    simp only [isNumeral, Bool.or_eq_true, Bool.and_eq_true, decide_eq_true_eq]
    exact .inl (.inl (.inl (.inl bounds)))
  have zeros (count : Nat) : ∀ c ∈ List.replicate count 48, isNumeral c = true := by
    intro c inside
    rw [List.eq_of_mem_replicate inside]
    rfl
  have literal {units : List UInt16} (each : units.all isNumeral = true) : ∀ c ∈ units, isNumeral c = true :=
    List.all_eq_true.mp each
  have join {left right : List UInt16} (first : ∀ c ∈ left, isNumeral c = true) (second : ∀ c ∈ right, isNumeral c = true) :
      ∀ c ∈ left ++ right, isNumeral c = true := List.forall_mem_append.mpr ⟨first, second⟩
  have taken (m : Nat) : ∀ c ∈ (digitUnits x.digits).take m, isNumeral c = true :=
    fun c inside => digit c (List.mem_of_mem_take inside)
  have dropped (m : Nat) : ∀ c ∈ (digitUnits x.digits).drop m, isNumeral c = true :=
    fun c inside => digit c (List.mem_of_mem_drop inside)
  refine join ?_ ?_
  · split
    · exact literal (by decide)
    · exact literal rfl
  · dsimp only
    split
    · exact digit
    split
    · exact join digit (zeros _)
    split
    · exact join (join (taken _) (literal (by decide))) (dropped _)
    split
    · exact join (join (literal (by decide)) (zeros _)) digit
    · refine join (join (taken _) ?_) (join (join (literal (by decide)) ?_) digit)
      · split
        · exact literal rfl
        · exact join (literal (by decide)) (dropped _)
      · split
        · exact literal (by decide)
        · exact literal (by decide)

theorem JsNumber.text_nonempty (x : JsNumber) : x.text.units ≠ [] := by
  by_cases zero : x.digits = 0
  · have written : x.text.units = [48] := by
      simp only [text, zero, ↓reduceIte]
      cases x.negative <;> rfl
    rw [written]
    exact List.cons_ne_nil 48 []
  · intro none
    obtain ⟨j, written⟩ := readNumber_text zero
    rw [none] at written
    have digits : 0 = x.digits * 10 ^ j := (Prod.mk.inj (Prod.mk.inj written).2).1
    have positive : 0 < 10 ^ j := Nat.pow_pos (by omega)
    rcases Nat.mul_eq_zero.mp digits.symm with none | none
    · exact zero none
    · omega

def leads (c : UInt16) : Nat :=
  if c = 110 then 0 else if c = 116 then 1 else if c = 102 then 2 else if isNumeral c then 3 else if c = 34 then 4
  else if c = 91 then 5 else if c = 123 then 6 else 7

def Json.kind : Json → Nat
  | .null => 0
  | .bool true => 1
  | .bool false => 2
  | .num _ => 3
  | .str _ => 4
  | .arr _ => 5
  | .obj _ => 6

theorem textUnits_head (j : Json) : ∃ c rest, textUnits j = c :: rest ∧ leads c = j.kind := by
  cases j with
  | null => exact ⟨_, _, rfl, by decide⟩
  | bool b => cases b <;> exact ⟨_, _, rfl, by decide⟩
  | num x =>
    obtain ⟨c, rest, written⟩ := List.exists_cons_of_ne_nil x.text_nonempty
    have numeral := x.isNumeral_text c (written ▸ List.mem_cons_self)
    refine ⟨c, rest, written, ?_⟩
    have other (d : UInt16) (plain : isNumeral d = false) : c ≠ d := by
      rintro rfl
      rw [plain] at numeral
      cases numeral
    rw [leads, if_neg (other 110 (by decide)), if_neg (other 116 (by decide)), if_neg (other 102 (by decide)), if_pos numeral]
    rfl
  | str s => exact ⟨_, _, rfl, rfl⟩
  | arr items => exact ⟨_, _, rfl, rfl⟩
  | obj fields => exact ⟨_, _, rfl, rfl⟩

def Delimited (units : List UInt16) : Prop := units = [] ∨ ∃ c rest, units = c :: rest ∧ isNumeral c = false

theorem delimited_items (items : List Json) (xs : List UInt16) : Delimited (itemUnits false items ++ xs) := by
  cases items with
  | nil => exact .inr ⟨93, xs, rfl, rfl⟩
  | cons item rest => exact .inr ⟨44, _, rfl, rfl⟩

theorem delimited_fields (fields : Fields) (xs : List UInt16) : Delimited (fieldUnits false fields ++ xs) := by
  cases fields with
  | nil => exact .inr ⟨125, xs, rfl, rfl⟩
  | cons field rest => exact .inr ⟨44, _, rfl, rfl⟩

theorem textUnits_ne {j : Json} {c : UInt16} {xs ys : List UInt16} (closes : leads c = 7) :
    c :: xs ≠ textUnits j ++ ys := by
  obtain ⟨d, rest, written, kind⟩ := textUnits_head j
  intro same
  rw [written, List.cons_append, List.cons.injEq] at same
  rw [← same.1, closes] at kind
  cases j with
  | bool b => cases b <;> cases kind
  | _ => cases kind

def Determined (a : Json) : Prop := ∀ (b : Json) (xs ys : List UInt16), Delimited xs → Delimited ys →
  textUnits a ++ xs = textUnits b ++ ys → a.roundTrip = b.roundTrip ∧ xs = ys

theorem itemUnits_inj {items others : List Json} (each : ∀ item ∈ items, Determined item) {first : Bool}
    {xs ys : List UInt16} (same : itemUnits first items ++ xs = itemUnits first others ++ ys) :
    items.map Json.roundTrip = others.map Json.roundTrip ∧ xs = ys := by
  induction items generalizing others first with
  | nil =>
    cases others with
    | nil => exact ⟨rfl, List.append_cancel_left same⟩
    | cons other rest =>
      cases first with
      | false => cases same
      | true =>
        simp only [itemUnits, ↓reduceIte, List.nil_append, List.append_assoc] at same
        exact (textUnits_ne rfl same).elim
  | cons item rest ih =>
    rw [List.forall_mem_cons] at each
    cases others with
    | nil =>
      cases first with
      | false => cases same
      | true =>
        simp only [itemUnits, ↓reduceIte, List.nil_append, List.append_assoc] at same
        exact (textUnits_ne rfl same.symm).elim
    | cons other others =>
      simp only [itemUnits, List.append_assoc, List.append_cancel_left_eq] at same
      obtain ⟨here, later⟩ := each.1 other _ _ (delimited_items rest xs) (delimited_items others ys) same
      obtain ⟨tail, after⟩ := ih each.2 later
      exact ⟨by rw [List.map_cons, List.map_cons, here, tail], after⟩

theorem fieldUnits_inj {fields others : Fields} (each : ∀ field ∈ fields, Determined field.2) {first : Bool}
    {xs ys : List UInt16} (same : fieldUnits first fields ++ xs = fieldUnits first others ++ ys) :
    fields.map (fun field => (field.1, field.2.roundTrip)) = others.map (fun field => (field.1, field.2.roundTrip)) ∧
      xs = ys := by
  induction fields generalizing others first with
  | nil =>
    cases others with
    | nil => exact ⟨rfl, List.append_cancel_left same⟩
    | cons other rest => cases first <;> cases same
  | cons field rest ih =>
    rw [List.forall_mem_cons] at each
    cases others with
    | nil => cases first <;> cases same
    | cons other others =>
      simp only [fieldUnits, List.append_assoc, List.append_cancel_left_eq] at same
      obtain ⟨name, same⟩ := quoteUnits_inj same
      rw [List.append_cancel_left_eq] at same
      obtain ⟨here, later⟩ := each.1 other.2 _ _ (delimited_fields rest xs) (delimited_fields others ys) same
      obtain ⟨tail, after⟩ := ih each.2 later
      exact ⟨by rw [List.map_cons, List.map_cons, name, here, tail], after⟩

theorem textUnits_determined (a : Json) : Determined a := by
  have kinds {a b : Json} {xs ys : List UInt16} (same : textUnits a ++ xs = textUnits b ++ ys) : a.kind = b.kind := by
    obtain ⟨c, rest, written, kind⟩ := textUnits_head a
    obtain ⟨d, rest', written', kind'⟩ := textUnits_head b
    rw [written, written', List.cons_append, List.cons_append, List.cons.injEq] at same
    rw [← kind, ← kind', same.1]
  induction a using Json.induction with
  | null =>
    intro b xs ys _ _ same
    have kind := kinds same
    cases b with
    | null => exact ⟨rfl, List.append_cancel_left same⟩
    | bool b => cases b <;> cases kind
    | _ => cases kind
  | bool a =>
    intro b xs ys _ _ same
    have kind := kinds same
    cases b with
    | bool b =>
      cases a <;> cases b <;> first | exact ⟨rfl, List.append_cancel_left same⟩ | cases kind
    | _ => cases a <;> cases kind
  | num x =>
    intro b xs ys delimited delimited' same
    have kind := kinds same
    cases b with
    | num y =>
      have stops {rest : List UInt16} : Delimited rest → rest = [] ∨ ∃ c more, rest = c :: more ∧ isNumeral c = false := id
      have left := JsNumber.span_before _ _ x.isNumeral_text (stops delimited)
      have right := JsNumber.span_before _ _ y.isNumeral_text (stops delimited')
      have same : x.text.units ++ xs = y.text.units ++ ys := same
      rw [same] at left
      have number : x.text = y.text := JsString.ext (left.1.symm.trans right.1)
      exact ⟨by rw [Json.roundTrip_num, Json.roundTrip_num, JsNumber.text_inj.mp number], left.2.symm.trans right.2⟩
    | bool b => cases b <;> cases kind
    | _ => cases kind
  | str s =>
    intro b xs ys _ _ same
    have kind := kinds same
    cases b with
    | str t =>
      obtain ⟨rfl, after⟩ := quoteUnits_inj same
      exact ⟨rfl, after⟩
    | bool b => cases b <;> cases kind
    | _ => cases kind
  | arr items ih =>
    intro b xs ys _ _ same
    have kind := kinds same
    cases b with
    | arr others =>
      simp only [textUnits, List.cons_append, List.cons.injEq, true_and] at same
      obtain ⟨each, after⟩ := itemUnits_inj ih same
      exact ⟨by rw [Json.roundTrip_arr, Json.roundTrip_arr, each], after⟩
    | bool b => cases b <;> cases kind
    | _ => cases kind
  | obj fields ih =>
    intro b xs ys _ _ same
    have kind := kinds same
    cases b with
    | obj others =>
      simp only [textUnits, List.cons_append, List.cons.injEq, true_and] at same
      obtain ⟨each, after⟩ := fieldUnits_inj ih same
      exact ⟨by rw [Json.roundTrip_obj, Json.roundTrip_obj, each], after⟩
    | bool b => cases b <;> cases kind
    | _ => cases kind

/-- Two values have one text when they are one value, the order of fields included and negative zero apart. -/
theorem stringify_inj {a b : Json} : stringify a = stringify b ↔ a.roundTrip = b.roundTrip := by
  constructor
  · intro same
    have units : textUnits a ++ [] = textUnits b ++ [] := by
      rw [List.append_nil, List.append_nil]
      exact congrArg JsString.units same
    exact (textUnits_determined a b [] [] (.inl rfl) (.inl rfl) units).1
  · intro same
    rw [← stringify_roundTrip a, same, stringify_roundTrip b]

theorem stringify_canonical_inj {a b : Json} :
    stringify a.canonical = stringify b.canonical ↔ a.roundTrip.canonical = b.roundTrip.canonical := by
  rw [stringify_inj, Json.canonical_roundTrip, Json.canonical_roundTrip]

end Js
