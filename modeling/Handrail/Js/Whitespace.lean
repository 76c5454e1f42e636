import Handrail.Js.Pattern
import Handrail.Js.Utf8Reading

/-!
# Cutting and spacing texts

`replace(/\s+/gu, " ")`, `trimEnd` and a cut that never separates the halves of a surrogate pair, with what they keep of a
text.
-/

namespace Js

/-- `replace(/\s+/gu, " ")`; the flag says that the unit before was white space. -/
def collapse : Bool → List UInt16 → List UInt16
  | _, [] => []
  | true, c :: rest => if isWhitespace c then collapse true rest else c :: collapse false rest
  | false, c :: rest => if isWhitespace c then 32 :: collapse true rest else c :: collapse false rest

/-- `String.prototype.trimEnd` -/
def trimEnd (s : JsString) : JsString := ⟨s.units.rdropWhile isWhitespace⟩

/-- The first units of a text, at most `maximumLength`, without the first half of a pair at the end. -/
def truncateUtf16 (value : JsString) (maximumLength : Nat) : JsString :=
  if value.length ≤ maximumLength then value
  else
    let truncated := value.units.take maximumLength
    match truncated.getLast? with
    | some final => if isLeadingSurrogate final then ⟨truncated.dropLast⟩ else ⟨truncated⟩
    | none => ⟨truncated⟩

def spaced : Bool → List UInt16 → Bool
  | _, [] => true
  | afterSpace, c :: rest => if isWhitespace c then !afterSpace && c == 32 && spaced true rest else spaced false rest

theorem whitespace_not_surrogate {c : UInt16} (space : isWhitespace c = true) :
    isLeadingSurrogate c = false ∧ isTrailingSurrogate c = false := by
  simp only [isWhitespace, Bool.or_eq_true, Bool.and_eq_true, decide_eq_true_eq, beq_iff_eq, ← UInt16.toNat_inj,
    UInt16.le_iff_toNat_le, UInt16.reduceToNat] at space
  simp only [isLeadingSurrogate, isTrailingSurrogate, Bool.and_eq_false_iff, decide_eq_false_iff_not,
    UInt16.le_iff_toNat_le, UInt16.reduceToNat]
  omega

theorem trailing_not_leading {c : UInt16} (trailing : isTrailingSurrogate c = true) : isLeadingSurrogate c = false := by
  simp only [isTrailingSurrogate, Bool.and_eq_true, decide_eq_true_eq, UInt16.le_iff_toNat_le, UInt16.reduceToNat] at trailing
  simp only [isLeadingSurrogate, Bool.and_eq_false_iff, decide_eq_false_iff_not, UInt16.le_iff_toNat_le,
    UInt16.reduceToNat]
  omega

theorem trim_of_plain {text : JsString} (plain : ∀ c ∈ text.units, isWhitespace c = false) : trim text = text := by
  have front : text.units.dropWhile isWhitespace = text.units := by
    cases units : text.units with
    | nil => rfl
    | cons c rest => exact List.dropWhile_cons_of_neg (by simp [plain c (units ▸ List.mem_cons_self)])
  have back : text.units.reverse.dropWhile isWhitespace = text.units.reverse := by
    cases units : text.units.reverse with
    | nil => rfl
    | cons c rest =>
      have member : c ∈ text.units := List.mem_reverse.mp (units ▸ List.mem_cons_self)
      exact List.dropWhile_cons_of_neg (by simp [plain c member])
  rw [trim, front, back, List.reverse_reverse]

def Printable (text : JsString) : Prop := ∀ c ∈ text.units, 0x20 < c ∧ c < 0x7f

theorem Printable.trim_eq {text : JsString} (printable : Printable text) : trim text = text := by
  refine trim_of_plain fun c member => ?_
  have bounds := printable c member
  simp only [UInt16.lt_iff_toNat_lt, UInt16.reduceToNat] at bounds
  simp only [isWhitespace, Bool.or_eq_false_iff, Bool.and_eq_false_iff, decide_eq_false_iff_not, beq_eq_false_iff_ne, ne_eq,
    UInt16.le_iff_toNat_le, ← UInt16.toNat_inj, UInt16.reduceToNat]
  omega

theorem Printable.no_controls {text : JsString} (printable : Printable text) :
    (text.units.any fun c => c ≤ 0x1f || c == 0x7f) = false := by
  rw [List.any_eq_false]
  intro c member
  have bounds := printable c member
  simp only [UInt16.lt_iff_toNat_lt, UInt16.reduceToNat] at bounds
  simp only [Bool.or_eq_true, decide_eq_true_eq, beq_iff_eq, UInt16.le_iff_toNat_le, ← UInt16.toNat_inj, UInt16.reduceToNat]
  omega

/-! ### Collapsing -/

variable {l : List UInt16}

theorem collapse_members {afterSpace : Bool} {c : UInt16} (member : c ∈ collapse afterSpace l) :
    c = 32 ∨ c ∈ l := by
  induction l generalizing afterSpace with
  | nil => cases afterSpace <;> cases member
  | cons d rest ih =>
    have later {b : Bool} (inside : c ∈ collapse b rest) : c = 32 ∨ c ∈ d :: rest :=
      (ih inside).imp_right (List.mem_cons_of_mem _)
    cases afterSpace with
    | true =>
      simp only [collapse] at member
      split at member
      · exact later member
      · rcases List.mem_cons.mp member with rfl | inside
        · exact .inr List.mem_cons_self
        · exact later inside
    | false =>
      simp only [collapse] at member
      split at member
      · rcases List.mem_cons.mp member with rfl | inside
        · exact .inl rfl
        · exact later inside
      · rcases List.mem_cons.mp member with rfl | inside
        · exact .inr List.mem_cons_self
        · exact later inside

theorem spaced_collapse (afterSpace : Bool) (l : List UInt16) : spaced afterSpace (collapse afterSpace l) = true := by
  induction l generalizing afterSpace with
  | nil => cases afterSpace <;> rfl
  | cons c rest ih =>
    have blank : isWhitespace 32 = true := by decide
    cases afterSpace with
    | true =>
      rw [collapse]
      split
      · exact ih true
      · rename_i black
        rw [spaced, if_neg black]
        exact ih false
    | false =>
      rw [collapse]
      split
      · rw [spaced, if_pos blank]
        simpa using ih true
      · rename_i black
        rw [spaced, if_neg black]
        exact ih false

theorem collapse_spaced {afterSpace : Bool} (single : spaced afterSpace l = true) :
    collapse afterSpace l = l := by
  induction l generalizing afterSpace with
  | nil => cases afterSpace <;> rfl
  | cons c rest ih =>
    rw [spaced] at single
    by_cases blank : isWhitespace c = true
    · rw [if_pos blank, Bool.and_eq_true, Bool.and_eq_true, Bool.not_eq_true', beq_iff_eq] at single
      obtain ⟨⟨rfl, rfl⟩, tail⟩ := single
      rw [collapse, if_pos blank, ih tail]
    · rw [if_neg blank] at single
      cases afterSpace <;> rw [collapse, if_neg blank, ih single]

theorem spaced_weaken (single : spaced true l = true) : spaced false l = true := by
  cases l with
  | nil => rfl
  | cons c rest =>
    rw [spaced] at single ⊢
    split at single
    · simp at single
    · rename_i black
      rw [if_neg black]
      exact single

theorem spaced_prefix {afterSpace : Bool} {xs ys : List UInt16} (single : spaced afterSpace (xs ++ ys) = true) :
    spaced afterSpace xs = true := by
  induction xs generalizing afterSpace with
  | nil => rfl
  | cons c rest ih =>
    rw [List.cons_append, spaced] at single
    rw [spaced]
    split
    · rename_i blank
      rw [if_pos blank, Bool.and_eq_true] at single
      rw [Bool.and_eq_true]
      exact ⟨single.1, ih single.2⟩
    · rename_i black
      rw [if_neg black] at single
      exact ih single

/-- Without the white space at its start a text with single spaces starts with none. -/
theorem spaced_dropWhile (single : spaced false l = true) : spaced true (l.dropWhile isWhitespace) = true := by
  cases l with
  | nil => rfl
  | cons c rest =>
    rw [spaced] at single
    by_cases blank : isWhitespace c = true
    · rw [if_pos blank, Bool.and_eq_true] at single
      rw [List.dropWhile_cons_of_pos blank]
      have tail := single.2
      -- The unit after a single space is no white space.
      cases rest with
      | nil => rfl
      | cons d more =>
        have black : ¬isWhitespace d = true := by
          intro second
          rw [spaced, if_pos second] at tail
          simp at tail
        rw [List.dropWhile_cons_of_neg black]
        exact tail
    · rw [List.dropWhile_cons_of_neg blank, spaced, if_neg blank]
      rwa [if_neg blank] at single

/-! ### Pairs of surrogates -/

theorem paired_collapse (whole : paired l = true) (afterSpace : Bool) :
    paired (collapse afterSpace l) = true := by
  have blank : isLeadingSurrogate 32 = false ∧ isTrailingSurrogate 32 = false := by decide
  induction l using paired.induct generalizing afterSpace with
  | case1 => cases afterSpace <;> rfl
  | case2 c => 
    by_cases space : isWhitespace c = true
    · cases afterSpace <;> simp [collapse, space, paired, blank]
    · cases afterSpace <;> simpa [collapse, space] using whole
  | case3 c d rest pair ih =>
    rw [paired, if_pos pair] at whole
    rw [Bool.and_eq_true] at pair
    have first : ¬isWhitespace c = true := by
      intro space
      rw [(whitespace_not_surrogate space).1] at pair
      cases pair.1
    have second : ¬isWhitespace d = true := by
      intro space
      rw [(whitespace_not_surrogate space).2] at pair
      cases pair.2
    have both : collapse afterSpace (c :: d :: rest) = c :: d :: collapse false rest := by
      cases afterSpace <;> simp [collapse, first, second]
    rw [both, paired, if_pos (by rw [pair.1, pair.2]; rfl)]
    exact ih whole false
  | case4 c d rest apart ih =>
    rw [paired, if_neg apart, Bool.and_eq_true, Bool.and_eq_true, Bool.not_eq_true', Bool.not_eq_true'] at whole
    obtain ⟨⟨leading, trailing⟩, tail⟩ := whole
    cases afterSpace with
    | true =>
      rw [collapse]
      split
      · exact ih tail true
      · rw [paired_cons leading trailing]
        exact ih tail false
    | false =>
      rw [collapse]
      split
      · rw [paired_cons blank.1 blank.2]
        exact ih tail true
      · rw [paired_cons leading trailing]
        exact ih tail false

theorem paired_dropWhile (whole : paired l = true) : paired (l.dropWhile isWhitespace) = true := by
  induction l with
  | nil => rfl
  | cons c rest ih =>
    by_cases space : isWhitespace c = true
    · rw [List.dropWhile_cons_of_pos space]
      obtain ⟨leading, trailing⟩ := whitespace_not_surrogate space
      rw [paired_cons leading trailing] at whole
      exact ih whole
    · rw [List.dropWhile_cons_of_neg space]
      exact whole

theorem paired_init {xs : List UInt16} {c : UInt16}
    (trailing : isTrailingSurrogate c = false) (whole : paired (xs ++ [c]) = true) : paired xs = true := by
  induction xs using paired.induct with
  | case1 => rfl
  | case2 d =>
    rw [List.cons_append, List.nil_append, paired] at whole
    split at whole
    · rename_i pair
      simp [trailing] at pair
    · rw [paired]
      exact (Bool.and_eq_true_iff.mp whole).1
  | case3 d e rest pair ih =>
    rw [List.cons_append, List.cons_append, paired, if_pos pair] at whole
    rw [paired, if_pos pair]
    exact ih whole
  | case4 d e rest apart ih =>
    rw [List.cons_append, List.cons_append, paired, if_neg apart, Bool.and_eq_true] at whole
    rw [paired, if_neg apart, Bool.and_eq_true]
    exact ⟨whole.1, ih whole.2⟩

theorem paired_rdropWhile (whole : paired l = true) : paired (l.rdropWhile isWhitespace) = true := by
  induction l using List.reverseRecOn with
  | nil => rfl
  | append_singleton xs c ih =>
    by_cases space : isWhitespace c = true
    · rw [List.rdropWhile_concat_pos _ _ _ space]
      exact ih (paired_init (whitespace_not_surrogate space).2 whole)
    · rw [List.rdropWhile_concat_neg _ _ _ space]
      exact whole

theorem paired_take (whole : paired l = true) (n : Nat) :
    paired (l.take n) = true ∨ ∃ xs c, l.take n = xs ++ [c] ∧ isLeadingSurrogate c = true ∧ paired xs = true := by
  induction l using paired.induct generalizing n with
  | case1 => exact .inl (by rw [List.take_nil]; rfl)
  | case2 c =>
    cases n with
    | zero => exact .inl rfl
    | succ n => exact .inl (by rwa [List.take_succ_cons, List.take_nil])
  | case3 c d rest pair ih =>
    rw [paired, if_pos pair] at whole
    rcases n with _ | _ | n
    · exact .inl rfl
    · exact .inr ⟨[], c, rfl, (Bool.and_eq_true_iff.mp pair).1, rfl⟩
    · rw [List.take_succ_cons, List.take_succ_cons]
      rcases ih whole n with left | ⟨xs, e, cut, leading, kept⟩
      · exact .inl (by rw [paired, if_pos pair, left])
      · exact .inr ⟨c :: d :: xs, e, by rw [cut]; rfl, leading, by rw [paired, if_pos pair, kept]⟩
  | case4 c d rest apart ih =>
    rw [paired, if_neg apart, Bool.and_eq_true, Bool.and_eq_true, Bool.not_eq_true', Bool.not_eq_true'] at whole
    obtain ⟨⟨leading, trailing⟩, tail⟩ := whole
    cases n with
    | zero => exact .inl rfl
    | succ n =>
      rw [List.take_succ_cons]
      rcases ih tail n with left | ⟨xs, e, cut, longer, kept⟩
      · exact .inl (by rw [paired_cons leading trailing, left])
      · exact .inr ⟨c :: xs, e, by rw [cut]; rfl, longer, by rw [paired_cons leading trailing, kept]⟩

theorem paired_last {xs : List UInt16} {c : UInt16} (whole : paired (xs ++ [c]) = true) : isLeadingSurrogate c = false := by
  induction xs using paired.induct with
  | case1 =>
    rw [List.nil_append, paired, Bool.and_eq_true, Bool.not_eq_true'] at whole
    exact whole.1
  | case2 d =>
    rw [List.cons_append, List.nil_append, paired] at whole
    split at whole
    · rename_i pair
      exact trailing_not_leading (Bool.and_eq_true_iff.mp pair).2
    · rw [paired, Bool.and_eq_true, Bool.and_eq_true, Bool.and_eq_true, Bool.not_eq_true'] at whole
      simpa using whole.2.1
  | case3 d e rest pair ih =>
    rw [List.cons_append, List.cons_append, paired, if_pos pair] at whole
    exact ih whole
  | case4 d e rest apart ih =>
    rw [List.cons_append, List.cons_append, paired, if_neg apart, Bool.and_eq_true] at whole
    exact ih whole.2

theorem paired_truncateUtf16 {value : JsString} (whole : paired value.units = true) (maximumLength : Nat) :
    paired (truncateUtf16 value maximumLength).units = true := by
  unfold truncateUtf16
  split
  · exact whole
  · rcases paired_take whole maximumLength with kept | ⟨xs, c, cut, leading, kept⟩
    · cases last : (value.units.take maximumLength).getLast? with
      | none => simpa [last] using kept
      | some final =>
        obtain ⟨xs, cut⟩ := List.getLast?_eq_some_iff.mp last
        rw [cut] at kept
        have whole_end := paired_last kept
        simp only [last, whole_end, Bool.false_eq_true, if_false]
        rw [cut]
        exact kept
    · have last : (value.units.take maximumLength).getLast? = some c := by rw [cut, List.getLast?_concat]
      simp only [last, leading, if_true]
      rw [cut, List.dropLast_concat]
      exact kept

theorem prefix_truncateUtf16 (value : JsString) (maximumLength : Nat) :
    (truncateUtf16 value maximumLength).units <+: value.units ∧
      (truncateUtf16 value maximumLength).length ≤ maximumLength := by
  unfold truncateUtf16
  split
  · rename_i short
    exact ⟨List.prefix_rfl, short⟩
  · have cut := List.take_prefix maximumLength value.units
    have length : (value.units.take maximumLength).length ≤ maximumLength := by
      rw [List.length_take]
      exact Nat.min_le_left _ _
    dsimp only
    split
    · split
      · refine ⟨(List.dropLast_prefix _).trans cut, ?_⟩
        show (value.units.take maximumLength).dropLast.length ≤ _
        rw [List.length_dropLast]
        omega
      · exact ⟨cut, length⟩
    · exact ⟨cut, length⟩

end Js
