import Mathlib.Data.List.Basic

/-!
# Lines that come in pieces

A text is cut into lines that end in a carriage return, a line feed, or both. What stands after the last line may go on:
a carriage return at the very end belongs to it, since a line feed may follow.
-/

namespace Js

variable {α : Type}

def addLine (line : List α) (others : List (List α) × List α) : List (List α) × List α := (line :: others.1, others.2)

/-- The lines that have ended, and the rest; `line` is what the line has so far. -/
def cutLines [DecidableEq α] (cr lf : α) (line : List α) : List α → List (List α) × List α
  | [] => ([], line)
  | [unit] => if unit = lf ∧ unit ≠ cr then ([line], []) else ([], line ++ [unit])
  | unit :: next :: rest =>
    if unit = cr then
      if next = lf then addLine line (cutLines cr lf [] rest) else addLine line (cutLines cr lf [] (next :: rest))
    else if unit = lf then addLine line (cutLines cr lf [] (next :: rest))
    else cutLines cr lf (line ++ [unit]) (next :: rest)

def IsLine (cr lf : α) (line : List α) : Prop := cr ∉ line ∧ lf ∉ line

variable {cr lf : α} {line : List α}

theorem isLine_nil : IsLine cr lf [] := ⟨List.not_mem_nil, List.not_mem_nil⟩

theorem IsLine.concat {unit : α} (plain : IsLine cr lf line) (notCr : unit ≠ cr) (notLf : unit ≠ lf) :
    IsLine cr lf (line ++ [unit]) := by
  constructor
  · intro member
    rcases List.mem_append.mp member with before | last
    · exact plain.1 before
    · exact notCr (List.mem_singleton.mp last).symm
  · intro member
    rcases List.mem_append.mp member with before | last
    · exact plain.2 before
    · exact notLf (List.mem_singleton.mp last).symm

variable [DecidableEq α]

theorem cutLines_resume (plain : IsLine cr lf line) (before text : List α) :
    cutLines cr lf before (line ++ text) = cutLines cr lf (before ++ line) text := by
  induction line generalizing before with
  | nil => rw [List.nil_append, List.append_nil]
  | cons unit line ih =>
    have notCr : unit ≠ cr := fun same => plain.1 (same ▸ List.mem_cons_self)
    have notLf : unit ≠ lf := fun same => plain.2 (same ▸ List.mem_cons_self)
    have rest : IsLine cr lf line :=
      ⟨fun member => plain.1 (List.mem_cons_of_mem _ member), fun member => plain.2 (List.mem_cons_of_mem _ member)⟩
    have more := ih rest (before ++ [unit])
    rw [List.append_assoc] at more
    rw [← List.singleton_append (l := line), ← more]
    cases whole : line ++ text with
    | nil =>
      rw [List.append_assoc, whole, List.append_nil]
      simp [cutLines, notCr, notLf]
    | cons next after =>
      rw [List.append_assoc, whole, List.singleton_append, cutLines, if_neg notCr, if_neg notLf]

/-- Lines that come in two pieces: the rest of the first piece is the beginning of the second. -/
theorem cutLines_append (plain : IsLine cr lf line) (first second : List α) :
    cutLines cr lf line (first ++ second) =
      ((cutLines cr lf line first).1 ++ (cutLines cr lf [] ((cutLines cr lf line first).2 ++ second)).1,
        (cutLines cr lf [] ((cutLines cr lf line first).2 ++ second)).2) := by
  induction line, first using cutLines.induct cr lf with
  | case1 line =>
    rw [List.nil_append, cutLines, List.nil_append, cutLines_resume plain, List.nil_append]
  | case2 line unit ends =>
    rw [cutLines, if_pos ends, List.nil_append, List.singleton_append]
    cases second with
    | nil =>
      rw [cutLines, cutLines, if_pos ends]
      rfl
    | cons next rest =>
      rw [cutLines, if_neg ends.2, if_pos ends.1]
      rfl
  | case3 line unit goes =>
    have passed : cutLines cr lf line [unit] = ([], line ++ [unit]) := by rw [cutLines, if_neg goes]
    rw [passed, List.nil_append, List.append_assoc, cutLines_resume plain, List.nil_append]
  | case4 line rest ih =>
    rw [List.cons_append, List.cons_append, cutLines, if_pos rfl, if_pos rfl, ih isLine_nil, cutLines, if_pos rfl, if_pos rfl]
    rfl
  | case5 line next rest other ih =>
    rw [List.cons_append, List.cons_append, cutLines, if_pos rfl, if_neg other, ← List.cons_append, ih isLine_nil, cutLines,
      if_pos rfl, if_neg other]
    rfl
  | case6 line next rest notCr ih =>
    rw [List.cons_append, List.cons_append, cutLines, if_neg notCr, if_pos rfl, ← List.cons_append, ih isLine_nil, cutLines,
      if_neg notCr, if_pos rfl]
    rfl
  | case7 line unit next rest notCr notLf ih =>
    rw [List.cons_append, List.cons_append, cutLines, if_neg notCr, if_neg notLf, ← List.cons_append,
      ih (plain.concat notCr notLf), cutLines, if_neg notCr, if_neg notLf]

def writeLines (lf : α) (lines : List (List α)) : List α := lines.flatMap fun line => line ++ [lf]

theorem cutLines_writeLines (apart : cr ≠ lf) {lines : List (List α)} (plain : ∀ line ∈ lines, IsLine cr lf line) {rest : List α}
    (open_ : IsLine cr lf rest) : cutLines cr lf [] (writeLines lf lines ++ rest) = (lines, rest) := by
  induction lines with
  | nil =>
    have alone := cutLines_resume open_ [] []
    rwa [List.append_nil, cutLines, List.nil_append] at alone
  | cons line others ih =>
    rw [List.forall_mem_cons] at plain
    have later := ih plain.2
    rw [writeLines, List.flatMap_cons, ← writeLines, List.append_assoc, List.append_assoc,
      cutLines_resume plain.1, List.nil_append,
      List.singleton_append]
    cases text : writeLines lf others ++ rest with
    | nil =>
      rw [text, cutLines, Prod.mk.injEq] at later
      rw [cutLines, if_pos ⟨rfl, apart.symm⟩, ← later.1, ← later.2]
    | cons next after =>
      rw [cutLines, if_neg apart.symm, if_pos rfl, ← text, later]
      rfl

omit [DecidableEq α] in
/-- A beginning of written lines is some of the lines and a beginning of the next one. -/
theorem prefix_writeLines {lf : α} {lines : List (List α)} {part : List α} (begins : part <+: writeLines lf lines) :
    ∃ count rest, part = writeLines lf (lines.take count) ++ rest ∧ (rest = [] ∨ ∃ line ∈ lines, rest <+: line) := by
  induction lines generalizing part with
  | nil => exact ⟨0, [], by rw [List.prefix_nil.mp begins]; rfl, .inl rfl⟩
  | cons line others ih =>
    rw [writeLines, List.flatMap_cons, ← writeLines] at begins
    by_cases short : part.length ≤ line.length
    · rw [List.append_assoc] at begins
      have inside : part <+: line := List.prefix_of_prefix_length_le begins (List.prefix_append line _) short
      exact ⟨0, part, rfl, .inr ⟨line, List.mem_cons_self, inside⟩⟩
    · have whole : line ++ [lf] <+: part := List.prefix_of_prefix_length_le (List.prefix_append _ _) begins (by
        rw [List.length_append, List.length_singleton]
        omega)
      obtain ⟨more, rfl⟩ := whole
      obtain ⟨count, rest, rfl, where_⟩ := ih ((List.prefix_append_right_inj _).mp begins)
      refine ⟨count + 1, rest, ?_, where_.imp_right fun ⟨other, member, begins⟩ => ⟨other, List.mem_cons_of_mem _ member, begins⟩⟩
      rw [List.take_succ_cons, ← List.append_assoc]
      rfl

end Js
