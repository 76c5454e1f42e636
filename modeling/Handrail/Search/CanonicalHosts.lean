import Handrail.Search.WebSearch
import Handrail.Whatwg.Urls

/-!
# Host names of canonical URLs

What the checks of `canonicalUrl` see of a host, and what its host becomes when the name they saw is set.
-/

namespace Handrail.Search
open Js
open Whatwg (Host HostPlatform HostStandard Ipv4 Ipv6 parseHost endsInANumber)

/-! ### Literals -/

theorem splitUnits_eq (separator : UInt16) (units : List UInt16) : splitUnits separator units = units.splitOn separator := by
  induction units with
  | nil => rfl
  | cons c rest ih =>
    rw [splitUnits, List.splitOn_cons_eq_if_modifyHead, ih]
    obtain ⟨part, parts, split⟩ := List.exists_cons_of_ne_nil (List.splitOn_ne_nil separator rest)
    rw [split]
    by_cases same : c = separator
    · rw [if_pos same, if_pos (beq_iff_eq.mpr same)]
    · rw [if_neg same, if_neg (by rwa [beq_iff_eq]), List.modifyHead_cons]

theorem parseIpv4_serializeIpv4 (address : Ipv4) : parseIpv4 (Whatwg.serializeIpv4 address) = some (Whatwg.octets address) := by
  have read : ∀ k : Fin 256, (1 ≤ (Whatwg.octetText k).length ∧ (Whatwg.octetText k).length ≤ 3) ∧
      (readDigits (Whatwg.octetText k)).filter (· ≤ 255) = some k.val := by decide +kernel
  have each {octet : Nat} (bound : octet < 256) :
      (if 1 ≤ (Whatwg.octetText octet).length ∧ (Whatwg.octetText octet).length ≤ 3 then
        (readDigits (Whatwg.octetText octet)).filter (· ≤ 255) else none) = some octet := by
    rw [if_pos (read ⟨octet, bound⟩).1]
    exact (read ⟨octet, bound⟩).2
  have small := Whatwg.octet_lt address
  simp only [Whatwg.octets, List.forall_mem_cons] at small
  obtain ⟨a, b, c, d, -⟩ := small
  unfold parseIpv4
  rw [splitUnits_eq, Whatwg.splitOn_serializeIpv4]
  simp only [Whatwg.octets, List.map_cons, List.map_nil, List.length_cons, List.length_nil, Nat.reduceAdd,
    ne_eq, not_true_eq_false, ↓reduceIte,
    List.mapM_cons, List.mapM_nil, each a, each b, each c, each d]
  rfl

section
variable {part : List UInt16}

theorem splitDoubleColon_ne_nil (units : List UInt16) : splitDoubleColon units ≠ [] := by
  unfold splitDoubleColon
  split
  · simp
  · simp
  · split
    · simp
    · split <;> simp

theorem splitDoubleColon_cons {c : UInt16} (other : c ≠ 58) (rest : List UInt16) :
    splitDoubleColon (c :: rest) = (splitDoubleColon rest).modifyHead (c :: ·) := by
  cases rest with
  | nil => rfl
  | cons d rest =>
    rw [splitDoubleColon, if_neg (by simp [other])]
    cases split : splitDoubleColon (d :: rest) with
    | nil => exact (splitDoubleColon_ne_nil _ split).elim
    | cons part parts => rfl

theorem splitDoubleColon_append (none : 58 ∉ part) (rest : List UInt16) :
    splitDoubleColon (part ++ rest) = (splitDoubleColon rest).modifyHead (part ++ ·) := by
  induction part with
  | nil =>
    obtain ⟨first, others, split⟩ := List.exists_cons_of_ne_nil (splitDoubleColon_ne_nil rest)
    rw [List.nil_append, split]
    rfl
  | cons c part ih =>
    rw [List.mem_cons, not_or] at none
    rw [List.cons_append, splitDoubleColon_cons (Ne.symm none.1), ih none.2]
    obtain ⟨first, others, split⟩ := List.exists_cons_of_ne_nil (splitDoubleColon_ne_nil rest)
    rw [split]
    rfl

theorem splitDoubleColon_colon {c : UInt16} (other : c ≠ 58) (rest : List UInt16) :
    splitDoubleColon (58 :: c :: rest) = (splitDoubleColon (c :: rest)).modifyHead (58 :: ·) := by
  rw [splitDoubleColon, if_neg (by simp [other])]
  cases split : splitDoubleColon (c :: rest) with
  | nil => exact (splitDoubleColon_ne_nil _ split).elim
  | cons part parts => rfl

end

section
variable {pieces : List Nat}

theorem splitDoubleColon_pieces (small : ∀ piece ∈ pieces, piece < 0x10000) (rest : List UInt16) :
    splitDoubleColon (Whatwg.piecesText pieces ++ rest) = (splitDoubleColon rest).modifyHead (Whatwg.piecesText pieces ++ ·) := by
  induction pieces with
  | nil =>
    obtain ⟨first, others, split⟩ := List.exists_cons_of_ne_nil (splitDoubleColon_ne_nil rest)
    rw [show Whatwg.piecesText [] = [] from rfl, List.nil_append, split]
    rfl
  | cons piece pieces ih =>
    rw [List.forall_mem_cons] at small
    have first := Whatwg.colon_not_mem small.1
    cases pieces with
    | nil =>
      rw [show Whatwg.piecesText [piece] = Whatwg.pieceText piece by simp [Whatwg.piecesText, List.intercalate_singleton]]
      exact splitDoubleColon_append first rest
    | cons next pieces =>
      have text : Whatwg.piecesText (piece :: next :: pieces) =
          Whatwg.pieceText piece ++ 58 :: Whatwg.piecesText (next :: pieces) := by
        simp [Whatwg.piecesText, List.intercalate_cons_cons]
      obtain ⟨c, units, start⟩ : ∃ c units, Whatwg.piecesText (next :: pieces) ++ rest = c :: units ∧ c ≠ 58 := by
        obtain ⟨c, units, start⟩ := List.exists_cons_of_ne_nil (Whatwg.pieceText_ne_nil next)
        have other : c ≠ 58 := by
          rintro rfl
          exact Whatwg.colon_not_mem (List.forall_mem_cons.mp small.2).1 (start ▸ List.mem_cons_self)
        cases pieces with
        | nil => exact ⟨c, units ++ rest, by simp [Whatwg.piecesText, List.intercalate_singleton, start], other⟩
        | cons third pieces =>
          refine ⟨c, units ++ 58 :: Whatwg.piecesText (third :: pieces) ++ rest, ?_, other⟩
          simp [Whatwg.piecesText, List.intercalate_cons_cons, start]
      rw [text, List.append_assoc, List.cons_append, splitDoubleColon_append first, start.1,
        splitDoubleColon_colon start.2, ← start.1,
        ih small.2]
      obtain ⟨first, others, split⟩ := List.exists_cons_of_ne_nil (splitDoubleColon_ne_nil rest)
      rw [split]
      simp [List.modifyHead_cons]

theorem ipv6Segment_pieceText {piece : Nat} (small : piece < 0x10000) : ipv6Segment (Whatwg.pieceText piece) = some piece := by
  have digit : ∀ k : Fin 16, hexDigit (hexUnit k.val.toUInt16) = some k.val := by decide +kernel
  have digits (list : List Nat) (bound : ∀ digit ∈ list, digit < 16) :
      (list.map fun digit => hexUnit digit.toUInt16).mapM hexDigit = some list := by
    induction list with
    | nil => rfl
    | cons first list ih =>
      rw [List.forall_mem_cons] at bound
      rw [List.map_cons, List.mapM_cons, digit ⟨first, bound.1⟩, ih bound.2]
      rfl
  have length := Whatwg.pieceDigits_length piece
  unfold ipv6Segment Whatwg.pieceText
  rw [List.length_map, if_pos length, digits _ (Whatwg.pieceDigits_lt small), Option.map_some,
    Whatwg.pieceDigits_value piece small]

theorem segments_pieces (small : ∀ piece ∈ pieces, piece < 0x10000) :
    (if Whatwg.piecesText pieces = [] then [] else splitUnits 58 (Whatwg.piecesText pieces)).mapM ipv6Segment = some pieces := by
  cases pieces with
  | nil => rfl
  | cons piece others =>
    have split : splitUnits 58 (Whatwg.piecesText (piece :: others)) = (piece :: others).map Whatwg.pieceText := by
      rw [splitUnits_eq]
      refine List.splitOn_intercalate 58 ?_ (by simp)
      intro part member
      obtain ⟨one, inside, rfl⟩ := List.mem_map.mp member
      exact Whatwg.colon_not_mem (small one inside)
    have given : Whatwg.piecesText (piece :: others) ≠ [] := by
      intro none
      rw [none] at split
      have first := congrArg List.head? split
      simp [splitUnits] at first
      exact Whatwg.pieceText_ne_nil piece first
    rw [if_neg given, split]
    generalize piece :: others = all at small
    induction all with
    | nil => rfl
    | cons first rest ih =>
      rw [List.forall_mem_cons] at small
      rw [List.map_cons, List.mapM_cons, ipv6Segment_pieceText small.1, ih small.2]
      rfl

end

theorem parseIpv6_serializeIpv6 (address : Ipv6) : parseIpv6 (Whatwg.serializeIpv6 address) = some address.value := by
  obtain ⟨pieces, length, small⟩ := address
  generalize shown : Whatwg.compressedText pieces (Whatwg.compress pieces) = inner
  have text : (Whatwg.serializeIpv6 ⟨pieces, length, small⟩).units = [91] ++ inner ++ [93] := by
    rw [← shown]
    rfl
  have unwrapped : (if (Whatwg.serializeIpv6 ⟨pieces, length, small⟩).units.head? = some 91 ∧
      (Whatwg.serializeIpv6 ⟨pieces, length, small⟩).units.getLast? = some 93 then
        ((Whatwg.serializeIpv6 ⟨pieces, length, small⟩).units.drop 1).dropLast
      else (Whatwg.serializeIpv6 ⟨pieces, length, small⟩).units) = inner := by
    rw [text, if_pos ⟨rfl, by rw [List.getLast?_append, List.getLast?_singleton, Option.some_or]⟩]
    simp
  unfold parseIpv6
  dsimp only
  rw [unwrapped]
  cases run : Whatwg.compress pieces with
  | none =>
    rw [run] at shown
    dsimp only [Whatwg.compressedText] at shown
    have halves : splitDoubleColon inner = [inner] := by
      have split := splitDoubleColon_pieces small []
      rwa [List.append_nil, shown, show splitDoubleColon [] = [[]] from rfl, List.modifyHead_cons, List.append_nil] at split
    have segments := segments_pieces small
    rw [shown] at segments
    have colon : inner.contains 58 = true := by
      obtain ⟨a, b, rest, rfl⟩ : ∃ a b rest, pieces = a :: b :: rest := by
        cases pieces with
        | nil => cases length
        | cons a pieces =>
          cases pieces with
          | nil => cases length
          | cons b rest => exact ⟨a, b, rest, rfl⟩
      rw [← shown]
      simp [Whatwg.piecesText, List.intercalate_cons_cons]
    rw [colon, halves]
    simp only [Bool.not_true, Bool.false_eq_true, ↓reduceIte, List.length_cons, List.length_nil,
      List.getD_cons_zero, List.getD_cons_succ,
      List.getD_nil, segments, bind, Option.bind, List.mapM_nil, pure]
    simp [length, Ipv6.value]
  | some run' =>
    obtain ⟨index, zeros⟩ := run'
    have zeroRun := Whatwg.compress_zeroRun run
    rw [run] at shown
    dsimp only [Whatwg.compressedText] at shown
    have left : ∀ piece ∈ pieces.take index, piece < 0x10000 := fun piece member => small piece (List.mem_of_mem_take member)
    have right : ∀ piece ∈ pieces.drop (index + zeros), piece < 0x10000 :=
      fun piece member => small piece (List.mem_of_mem_drop member)
    have halves : splitDoubleColon inner =
      [Whatwg.piecesText (pieces.take index), Whatwg.piecesText (pieces.drop (index + zeros))] := by
      have after := splitDoubleColon_pieces right []
      rw [List.append_nil, show splitDoubleColon [] = [[]] from rfl, List.modifyHead_cons, List.append_nil] at after
      have colons : splitDoubleColon (58 :: 58 :: Whatwg.piecesText (pieces.drop (index + zeros))) =
          [] :: splitDoubleColon (Whatwg.piecesText (pieces.drop (index + zeros))) := by
        rw [splitDoubleColon, if_pos ⟨rfl, rfl⟩]
      rw [← shown, List.append_assoc, splitDoubleColon_pieces left, List.cons_append, List.cons_append,
        List.nil_append, colons, after,
        List.modifyHead_cons, List.append_nil]
    have colon : inner.contains 58 = true := by
      rw [← shown]
      simp
    have many := zeroRun.many
    have inside := zeroRun.inside
    dsimp only at many inside
    have known : (pieces.take index).length + (pieces.drop (index + zeros)).length = 8 - zeros := by
      rw [List.length_take, List.length_drop]
      omega
    rw [colon, halves]
    simp only [Bool.not_true, Bool.false_eq_true, ↓reduceIte, List.length_cons, List.length_nil,
      List.getD_cons_zero, List.getD_cons_succ,
      segments_pieces left, segments_pieces right, bind, Option.bind]
    rw [if_neg (by omega), if_neg (by omega), known, show 8 - (8 - zeros) = zeros by omega, ← zeroRun.zero]
    rfl

/-! ### The checks of a host name -/

/-- What `canonicalUrl` checks of a host name. -/
def PublicName (hostname : JsString) : Prop :=
  hostname ≠ js "localhost" ∧ endsWith hostname (js ".localhost") = false ∧
    (parseIpv4 hostname).any isNonPublicIpv4 = false ∧ (parseIpv6 hostname).any isNonPublicIpv6 = false

def hostName (host : Host) : JsString := normalizedHostname host.text

inductive Embeds : List Nat → Nat → Prop where
  | mapped (high low : Nat) : Embeds [0, 0, 0, 0, 0, 0xffff, high, low] (high * 0x10000 + low)
  | compatible (high low : Nat) : Embeds [0, 0, 0, 0, 0, 0, high, low] (high * 0x10000 + low)
  | sixToFour (high low : Nat) (rest : List Nat) : Embeds (0x2002 :: high :: low :: rest) (high * 0x10000 + low)

def PublicHost : Host → Prop
  | .domain text => Whatwg.stem text ≠ js "localhost" ∧ endsWith (Whatwg.stem text) (js ".localhost") = false
  | .ipv4 address => isNonPublicIpv4 (Whatwg.octets address) = false
  | .ipv6 address => ∀ embedded, Embeds address.pieces embedded → isNonPublicIpv4 (Whatwg.octets embedded) = false

theorem endsWith_iff {text suffix : JsString} : endsWith text suffix = true ↔ ∃ front, text.units = front ++ suffix.units := by
  rw [endsWith, beq_iff_eq]
  constructor
  · intro taken
    refine ⟨(text.units.reverse.drop suffix.length).reverse, ?_⟩
    rw [← List.reverse_inj, List.reverse_append, List.reverse_reverse, ← taken, List.take_append_drop]
  · rintro ⟨front, units⟩
    rw [units, List.reverse_append]
    exact List.take_left' (List.length_reverse)

theorem parseIpv6_name {name : JsString} (plain : 58 ∉ name.units) : parseIpv6 name = none := by
  unfold parseIpv6
  dsimp only
  rw [if_pos]
  rw [Bool.not_eq_true', ← Bool.not_eq_true, List.contains_iff_mem]
  intro inside
  split at inside
  · exact plain (List.mem_of_mem_drop (List.dropLast_subset _ inside))
  · exact plain inside

theorem mapM_none_right {α β : Type} {f : α → Option β} {left : List α} {last : α} (none_ : f last = none) :
    (left ++ [last]).mapM f = none := by
  rw [List.mapM_append, List.mapM_cons, none_]
  cases left.mapM f <;> rfl

theorem parseIpv4_dot (units : List UInt16) : parseIpv4 ⟨units ++ [46]⟩ = none := by
  unfold parseIpv4
  rw [splitUnits_eq, Whatwg.splitOn_dot]
  dsimp only
  split
  · rfl
  · exact mapM_none_right rfl

theorem publicName_dot {units : List UInt16} (plain : 58 ∉ units) : PublicName ⟨units ++ [46]⟩ := by
  have last (suffix : JsString) (other : suffix.units.getLast? ≠ some 46) (given : suffix.units ≠ []) :
      ¬∃ front, units ++ [46] = front ++ suffix.units := by
    rintro ⟨front, same⟩
    have ends := congrArg List.getLast? same
    rw [List.getLast?_append, List.getLast?_singleton, Option.some_or, List.getLast?_append, List.getLast?_eq_some_getLast given,
      Option.some_or] at ends
    exact other (by rw [List.getLast?_eq_some_getLast given, ends])
  refine ⟨fun same => ?_, ?_, ?_, ?_⟩
  · exact last (js "localhost") (by decide) (by decide) ⟨[], congrArg JsString.units same⟩
  · rw [← Bool.not_eq_true, endsWith_iff]
    exact last (js ".localhost") (by decide) (by decide)
  · rw [parseIpv4_dot]
    rfl
  · rw [parseIpv6_name (by simpa using plain)]
    rfl

theorem public_of_number {name : JsString} (number : endsInANumber name = true) :
    name ≠ js "localhost" ∧ endsWith name (js ".localhost") = false := by
  constructor
  · rintro rfl
    revert number
    decide +kernel
  · rw [← Bool.not_eq_true, endsWith_iff]
    rintro ⟨front, units⟩
    have split : name.units.splitOn 46 = front.splitOn 46 ++ [(js "localhost").units] := by
      rw [units, show (js ".localhost").units = 46 :: (js "localhost").units by decide, List.splitOn_append_cons_self]
      rfl
    have last : (Whatwg.ipv4Parts name).getLast? = some (js "localhost").units := by
      unfold Whatwg.ipv4Parts
      dsimp only
      rw [split, List.getLast?_append, List.getLast?_singleton, Option.some_or, if_neg (by decide), List.getLast?_append,
        List.getLast?_singleton, Option.some_or]
    rw [endsInANumber, last] at number
    revert number
    decide +kernel

theorem publicName_ipv4 {address : Ipv4} :
    PublicName (Whatwg.serializeIpv4 address) ↔ isNonPublicIpv4 (Whatwg.octets address) = false := by
  have units := Whatwg.serializeIpv4_units address
  have plain : 58 ∉ (Whatwg.serializeIpv4 address).units := by
    intro colon
    have digit := units 58 colon
    revert digit
    decide
  obtain ⟨local_, under⟩ := public_of_number (Whatwg.endsInANumber_serializeIpv4 address)
  unfold PublicName
  rw [parseIpv4_serializeIpv4, parseIpv6_name plain, Option.any_some, Option.any_none]
  simp only [ne_eq, local_, not_false_eq_true, under, true_and, and_true]

theorem publicName_ipv6 {address : Ipv6} (passes : PublicName (Whatwg.serializeIpv6 address)) :
    PublicHost (.ipv6 address) ↔ ∀ high low rest, address.pieces = 0x2002 :: high :: low :: rest →
      isNonPublicIpv4 (Whatwg.octets (high * 0x10000 + low)) = false := by
  obtain ⟨-, -, -, passes⟩ := passes
  rw [parseIpv6_serializeIpv6, Option.any_some] at passes
  obtain ⟨pieces, length, small⟩ := address
  have low_ {high low leading : Nat} (first : high < 0x10000) (second : low < 0x10000) (either : leading = 0xffff ∨ leading = 0)
      (passed : isNonPublicIpv6 (leading * 2 ^ 32 + high * 0x10000 + low) = false) :
      isNonPublicIpv4 (Whatwg.octets (high * 0x10000 + low)) = false := by
    have top : (leading * 2 ^ 32 + high * 0x10000 + low) / 2 ^ 32 = leading := by omega
    have bottom : (leading * 2 ^ 32 + high * 0x10000 + low) % 2 ^ 32 = high * 0x10000 + low := by omega
    unfold isNonPublicIpv6 at passed
    dsimp only at passed
    rw [top, bottom, if_pos (by simpa using either)] at passed
    exact passed
  constructor
  · rintro public_ high low rest rfl
    exact public_ _ (.sixToFour high low rest)
  · intro sixToFour embedded embeds
    cases embeds with
    | mapped high low =>
      have value : Ipv6.value ⟨[0, 0, 0, 0, 0, 0xffff, high, low], length, small⟩ = 0xffff * 2 ^ 32 + high * 0x10000 + low := by
        simp only [Ipv6.value, List.foldl_cons, List.foldl_nil]
        omega
      rw [value] at passes
      exact low_ (small high (by simp)) (small low (by simp)) (.inl rfl) passes
    | compatible high low =>
      have value : Ipv6.value ⟨[0, 0, 0, 0, 0, 0, high, low], length, small⟩ = 0 * 2 ^ 32 + high * 0x10000 + low := by
        simp only [Ipv6.value, List.foldl_cons, List.foldl_nil]
        omega
      rw [value] at passes
      exact low_ (small high (by simp)) (small low (by simp)) (.inr rfl) passes
    | sixToFour high low rest => exact sixToFour high low rest rfl

end Handrail.Search
