import Handrail.Whatwg.Hosts

/-!
# Hosts are read back

What the host serializer writes is parsed as the same host, and a dot at the end changes nothing that the IPv4 parser sees.
-/

namespace Whatwg
open Js

/-! ### Dots at the end -/

theorem getLast_splitOn {a : UInt16} {units : List UInt16} (empty : (units.splitOn a).getLast? = some []) :
    units = [] ∨ units.getLast? = some a := by
  induction units with
  | nil => exact .inl rfl
  | cons c rest ih =>
    refine .inr ?_
    rw [List.splitOn_cons_eq_if_modifyHead] at empty
    obtain ⟨part, parts, split⟩ := List.exists_cons_of_ne_nil (List.splitOn_ne_nil a rest)
    rw [split] at ih empty
    split at empty
    · rename_i same
      rw [List.getLast?_cons_cons] at empty
      rcases ih empty with none | last
      · rw [none, List.getLast?_singleton, beq_iff_eq.mp same]
      · rw [List.getLast?_cons, last, Option.getD_some]
    · cases parts with
      | nil => cases empty
      | cons next others =>
        rw [List.modifyHead_cons, List.getLast?_cons_cons] at empty
        rw [List.getLast?_cons_cons] at ih
        rcases ih empty with none | last
        · rw [none, List.splitOn_nil] at split
          cases split
        · rw [List.getLast?_cons, last, Option.getD_some]

theorem splitOn_dot (units : List UInt16) : (units ++ [46]).splitOn 46 = units.splitOn 46 ++ [[]] :=
  List.splitOn_append_cons_self units []

theorem ipv4Parts_dot (units : List UInt16) : ipv4Parts ⟨units ++ [46]⟩ = units.splitOn 46 := by
  simp only [ipv4Parts, splitOn_dot, List.getLast?_append, List.getLast?_singleton, Option.some_or, if_true, List.dropLast_concat]

variable {text : JsString}

theorem ipv4Parts_bare (some_ : text.units ≠ []) (bare : text.units.getLast? ≠ some 46) :
    ipv4Parts text = text.units.splitOn 46 := by
  unfold ipv4Parts
  rw [if_neg]
  intro empty
  exact (getLast_splitOn empty).elim some_ bare

theorem ipv4Parts_dot_bare (some_ : text.units ≠ []) (bare : text.units.getLast? ≠ some 46) :
    ipv4Parts ⟨text.units ++ [46]⟩ = ipv4Parts text := by
  rw [ipv4Parts_dot, ipv4Parts_bare some_ bare]

theorem endsInANumber_dot (some_ : text.units ≠ []) (bare : text.units.getLast? ≠ some 46) :
    endsInANumber ⟨text.units ++ [46]⟩ = endsInANumber text := by
  unfold endsInANumber
  rw [ipv4Parts_dot_bare some_ bare]

theorem parseIpv4_dot (some_ : text.units ≠ []) (bare : text.units.getLast? ≠ some 46) :
    parseIpv4 ⟨text.units ++ [46]⟩ = parseIpv4 text := by
  unfold parseIpv4
  rw [ipv4Parts_dot_bare some_ bare]

theorem endsInANumber_dots (units : List UInt16) : endsInANumber ⟨units ++ [46, 46]⟩ = false := by
  have parts : ipv4Parts ⟨units ++ [46, 46]⟩ = units.splitOn 46 ++ [[]] := by
    rw [show units ++ [46, 46] = units ++ [46] ++ [46] by simp, ipv4Parts_dot, splitOn_dot]
  unfold endsInANumber
  rw [parts, List.getLast?_append, List.getLast?_singleton, Option.some_or]
  rfl

/-! ### Names and the dots after them -/

def stem (text : JsString) : JsString := ⟨text.units.rdropWhile (· == 46)⟩

def dots (text : JsString) : Nat := text.length - (stem text).length

def dotted (name : JsString) (count : Nat) : JsString := ⟨name.units ++ List.replicate count 46⟩

theorem dotted_succ (name : JsString) (count : Nat) : dotted name (count + 1) = ⟨(dotted name count).units ++ [46]⟩ := by
  rw [dotted, dotted, List.append_assoc, List.replicate_succ']

theorem dotted_zero (name : JsString) : dotted name 0 = name := by
  rw [dotted, List.replicate_zero, List.append_nil]

theorem dotted_inj {name : JsString} {m n : Nat} (same : dotted name m = dotted name n) : m = n := by
  have length := congrArg JsString.length same
  simp only [dotted, JsString.length, List.length_append, List.length_replicate] at length
  omega

theorem dotted_ne_empty {name : JsString} {count : Nat} (given : name ≠ JsString.empty ∨ count ≠ 0) :
    dotted name count ≠ JsString.empty := by
  intro empty
  have length := congrArg JsString.length empty
  simp only [dotted, JsString.length, List.length_append, List.length_replicate, JsString.empty, List.length_nil] at length
  rcases given with name_ | count_
  · exact name_ (JsString.ext (List.length_eq_zero_iff.mp (by omega)))
  · omega

section
variable {name : JsString} (bare : name.units.getLast? ≠ some 46)
include bare

theorem stem_dotted (count : Nat) : stem (dotted name count) = name := by
  induction count with
  | zero =>
    rw [dotted_zero, stem]
    refine JsString.ext (List.rdropWhile_eq_self_iff.mpr fun given => ?_)
    rw [List.getLast?_eq_some_getLast given, Ne, Option.some_inj] at bare
    simpa using bare
  | succ count ih =>
    rw [dotted_succ, stem, List.rdropWhile_concat_pos _ _ _ (by rfl)]
    exact ih

theorem dots_dotted (count : Nat) : dots (dotted name count) = count := by
  rw [dots, stem_dotted bare]
  simp only [dotted, JsString.length, List.length_append, List.length_replicate]
  omega

end

theorem eq_dotted (text : JsString) : (stem text).units.getLast? ≠ some 46 ∧ text = dotted (stem text) (dots text) := by
  have whole := List.rdropWhile_append_rtakeWhile (p := (· == 46)) (l := text.units)
  have taken : text.units.rtakeWhile (· == 46) = List.replicate (dots text) 46 := by
    refine List.eq_replicate_iff.mpr ⟨?_, fun c member => by simpa using List.mem_rtakeWhile_imp member⟩
    have length := congrArg List.length whole
    rw [List.length_append] at length
    unfold dots stem JsString.length
    dsimp only
    omega
  constructor
  · intro dot
    have given : (stem text).units ≠ [] := by
      intro none
      rw [none] at dot
      cases dot
    rw [List.getLast?_eq_some_getLast given, Option.some_inj] at dot
    exact List.rdropWhile_last_not _ _ given (beq_iff_eq.mpr dot)
  · rw [taken] at whole
    exact JsString.ext whole.symm

/-! ### IPv4 addresses -/

theorem octet_lt (address : Ipv4) : ∀ octet ∈ octets address, octet < 256 := by
  have bound := address.isLt
  simp only [octets, List.forall_mem_cons, List.not_mem_nil, false_implies, implies_true, and_true]
  omega

theorem octetText_read : ∀ k : Fin 256, (octetText k ≠ [] ∧ isDigits (octetText k) = true) ∧ parseIpv4Number
    (octetText k) = some k.val := by
  decide +kernel

theorem octetText_spec {octet : Nat} (bound : octet < 256) :
    (octetText octet ≠ [] ∧ isDigits (octetText octet) = true) ∧ parseIpv4Number (octetText octet) = some octet :=
  octetText_read ⟨octet, bound⟩

theorem digits_of_isDigits {part : List UInt16} (digits : isDigits part = true) : ∀ c ∈ part, 48 ≤ c ∧ c ≤ 57 := by
  intro c member
  have each := List.all_eq_true.mp digits c member
  rwa [Bool.and_eq_true, decide_eq_true_eq, decide_eq_true_eq] at each

theorem splitOn_serializeIpv4 (address : Ipv4) : (serializeIpv4 address).units.splitOn 46 = (octets address).map octetText := by
  refine List.splitOn_intercalate 46 ?_ (by simp [octets])
  intro part member dot
  obtain ⟨octet, inside, rfl⟩ := List.mem_map.mp member
  have digit := digits_of_isDigits (octetText_spec (octet_lt address octet inside)).1.2 46 dot
  revert digit
  decide

theorem ipv4Parts_serializeIpv4 (address : Ipv4) : ipv4Parts (serializeIpv4 address) = (octets address).map octetText := by
  unfold ipv4Parts
  rw [splitOn_serializeIpv4, if_neg]
  have last : octets address = [address.val / 2 ^ 24, address.val / 2 ^ 16 % 256, address.val / 2 ^ 8 % 256] ++
    [address.val % 256] := rfl
  rw [last, List.map_append, List.map_singleton, List.getLast?_append, List.getLast?_singleton, Option.some_or, Option.some_inj]
  exact (octetText_spec (octet_lt address _ (by simp [octets]))).1.1

theorem endsInANumber_serializeIpv4 (address : Ipv4) : endsInANumber (serializeIpv4 address) = true := by
  have spec := (octetText_spec (octet_lt address (address.val % 256) (by simp [octets]))).1
  unfold endsInANumber
  rw [ipv4Parts_serializeIpv4]
  simp only [octets, List.map_cons, List.map_nil, List.getLast?_cons_cons, List.getLast?_singleton,
    Option.any_some, isNumberPart, spec.2,
    Bool.and_true, Bool.or_eq_true, bne_iff_ne, ne_eq]
  exact .inl spec.1

theorem parseIpv4_serializeIpv4 (address : Ipv4) : parseIpv4 (serializeIpv4 address) = some address := by
  have small := octet_lt address
  have numbers : ((octets address).map octetText).mapM parseIpv4Number = some (octets address) := by
    simp only [octets, List.forall_mem_cons] at small
    obtain ⟨a, b, c, d, -⟩ := small
    simp only [octets, List.map_cons, List.map_nil, List.mapM_cons, List.mapM_nil, (octetText_spec a).2, (octetText_spec b).2,
      (octetText_spec c).2, (octetText_spec d).2]
    rfl
  have bound := address.isLt
  unfold parseIpv4
  rw [ipv4Parts_serializeIpv4, if_neg (by simp [octets]), numbers]
  simp only [octets, List.forall_mem_cons] at small
  have value : ipv4Value [address.val / 2 ^ 24, address.val / 2 ^ 16 % 256,
    address.val / 2 ^ 8 % 256] (address.val % 256) = address.val := by
    simp only [ipv4Value, List.zipIdx_cons, List.zipIdx_nil, List.map_cons, List.map_nil, List.sum_cons, List.sum_nil]
    omega
  simp only [octets, bind, Option.bind, List.getLast?_cons_cons, List.getLast?_singleton,
    List.dropLast_cons_cons, List.dropLast_singleton,
    List.length_cons, List.length_nil, List.any_cons, List.any_nil, Bool.or_false, Bool.or_eq_true, decide_eq_true_eq]
  rw [if_neg (by omega)]
  simp only [value, bound, dite_true]

theorem serializeIpv4_units (address : Ipv4) : ∀ c ∈ (serializeIpv4 address).units, c = 46 ∨ (48 ≤ c ∧ c ≤ 57) := by
  have octet (k : Nat) (inside : k ∈ octets address) := digits_of_isDigits (octetText_spec (octet_lt address k inside)).1.2
  simp only [octets, List.forall_mem_cons] at octet
  obtain ⟨a, b, c, d, -⟩ := octet
  intro unit member
  simp only [serializeIpv4, octets, List.map_cons, List.map_nil, List.intercalate_cons_cons,
    List.intercalate_singleton, List.mem_append,
    List.mem_singleton] at member
  rcases member with ((first | dot) | ((second | dot) | ((third | dot) | fourth)))
  · exact .inr (a unit first)
  · exact .inl dot
  · exact .inr (b unit second)
  · exact .inl dot
  · exact .inr (c unit third)
  · exact .inl dot
  · exact .inr (d unit fourth)

theorem serializeIpv4_bare (address : Ipv4) : (serializeIpv4 address).units.getLast? ≠ some 46 := by
  intro dot
  obtain ⟨front, units⟩ := List.getLast?_eq_some_iff.mp dot
  have parts := splitOn_serializeIpv4 address
  rw [units, splitOn_dot] at parts
  have last := congrArg List.getLast? parts
  simp only [octets, List.map_cons, List.map_nil, List.getLast?_append, List.getLast?_cons_cons,
    List.getLast?_singleton, Option.some_or,
    Option.some_inj] at last
  exact (octetText_spec (octet_lt address (address.val % 256) (by simp [octets]))).1.1 last.symm

/-! ### IPv6 addresses -/

theorem pieceDigits_value (piece : Nat) (small : piece < 0x10000) :
    (pieceDigits piece).foldl (fun value digit => value * 16 + digit) 0 = piece := by
  have dropped (digits rest : List Nat) : (digits.dropWhile (· == 0) ++ rest).foldl (fun value digit => value * 16 + digit) 0 =
      (digits ++ rest).foldl (fun value digit => value * 16 + digit) 0 := by
    induction digits with
    | nil => rfl
    | cons digit digits ih =>
      by_cases zero : digit = 0
      · rw [List.dropWhile_cons_of_pos (by simp [zero]), ih, zero]
        rfl
      · rw [List.dropWhile_cons_of_neg (by simp [zero])]
  rw [pieceDigits, dropped]
  simp only [List.cons_append, List.nil_append, List.foldl_cons, List.foldl_nil]
  omega

theorem pieceDigits_lt {piece : Nat} (small : piece < 0x10000) : ∀ digit ∈ pieceDigits piece, digit < 16 := by
  intro digit member
  rcases List.mem_append.mp member with dropped | last
  · have inside := (List.dropWhile_suffix _).subset dropped
    simp only [List.mem_cons, List.not_mem_nil, or_false] at inside
    omega
  · rw [List.mem_singleton] at last
    omega

theorem pieceDigits_length (piece : Nat) : 1 ≤ (pieceDigits piece).length ∧ (pieceDigits piece).length ≤ 4 := by
  have dropped := (List.dropWhile_suffix (fun digit : Nat =>
    digit == 0) (l := [piece / 0x1000, piece / 0x100 % 16, piece / 0x10 % 16])).length_le
  simp only [List.length_cons, List.length_nil] at dropped
  simp only [pieceDigits, List.length_append, List.length_cons, List.length_nil]
  omega

theorem pieceText_ne_nil (piece : Nat) : pieceText piece ≠ [] := by
  have length := (pieceDigits_length piece).1
  rw [pieceText, Ne, List.map_eq_nil_iff]
  rintro none
  rw [none] at length
  cases length

theorem hexUnit_spec : ∀ k : Fin 16, hexDigit? (hexUnit k.val.toUInt16) = some k.val ∧
    (48 ≤ hexUnit k.val.toUInt16 ∧ hexUnit k.val.toUInt16 ≤ 57 ∨ 97 ≤ hexUnit k.val.toUInt16 ∧ hexUnit k.val.toUInt16 ≤ 102) := by
  decide +kernel

theorem pieceText_units {piece : Nat} (small : piece < 0x10000) :
    ∀ c ∈ pieceText piece, 48 ≤ c ∧ c ≤ 57 ∨ 97 ≤ c ∧ c ≤ 102 := by
  intro c member
  obtain ⟨digit, inside, rfl⟩ := List.mem_map.mp member
  exact (hexUnit_spec ⟨digit, pieceDigits_lt small digit inside⟩).2

theorem colon_not_mem {piece : Nat} (small : piece < 0x10000) : 58 ∉ pieceText piece := by
  intro colon
  have digit := pieceText_units small 58 colon
  revert digit
  decide

theorem piecesText_units {pieces : List Nat} (small : ∀ piece ∈ pieces, piece < 0x10000) :
    ∀ c ∈ piecesText pieces, c = 58 ∨ 48 ≤ c ∧ c ≤ 57 ∨ 97 ≤ c ∧ c ≤ 102 := by
  induction pieces with
  | nil => exact fun c member => (List.not_mem_nil member).elim
  | cons piece pieces ih =>
    rw [List.forall_mem_cons] at small
    intro c member
    cases pieces with
    | nil =>
      rw [piecesText, List.map_singleton, List.intercalate_singleton] at member
      exact .inr (pieceText_units small.1 c member)
    | cons next pieces =>
      rw [piecesText, List.map_cons, List.map_cons, List.intercalate_cons_cons, List.append_assoc,
        List.mem_append, List.mem_append,
        List.mem_singleton] at member
      rcases member with first | colon | rest
      · exact .inr (pieceText_units small.1 c first)
      · exact .inl colon
      · exact ih small.2 c rest

structure ZeroRun (pieces : List Nat) (run : Nat × Nat) : Prop where
  many : 1 < run.2
  inside : run.1 + run.2 ≤ pieces.length
  zero : pieces = pieces.take run.1 ++ List.replicate run.2 0 ++ pieces.drop (run.1 + run.2)

theorem zeroRun_zerosAt {pieces : List Nat} {index : Nat} (many : 1 < zerosAt pieces index) :
    ZeroRun pieces (index, zerosAt pieces index) where
  many := many
  inside := by
    have run := (List.takeWhile_prefix (· == 0) (l := pieces.drop index)).length_le
    rw [List.length_drop] at run
    unfold zerosAt at many ⊢
    dsimp only
    omega
  zero := by
    have zeros : (pieces.drop index).takeWhile (· == 0) = List.replicate (zerosAt pieces index) 0 := by
      refine List.eq_replicate_iff.mpr ⟨rfl, fun piece member => ?_⟩
      exact beq_iff_eq.mp (List.all_eq_true.mp List.all_takeWhile piece member)
    have rest : (pieces.drop index).dropWhile (· == 0) = pieces.drop (index + zerosAt pieces index) := by
      have whole := List.takeWhile_append_dropWhile (p := (· == 0)) (l := pieces.drop index)
      have dropped := congrArg (List.drop (zerosAt pieces index)) whole
      rwa [zerosAt, List.drop_left, List.drop_drop] at dropped
    dsimp only
    rw [← zeros, ← rest, List.append_assoc, List.takeWhile_append_dropWhile, List.take_append_drop]

theorem compress_zeroRun {pieces : List Nat} {run : Nat × Nat} (found : compress pieces = some run) : ZeroRun pieces run := by
  unfold compress at found
  have kept (indices : List Nat) : ∀ {best : Option (Nat × Nat)}, (∀ run, best = some run → ZeroRun pieces run) →
      ∀ run, indices.foldl (fun best index => if (best.elim 1 Prod.snd) < zerosAt pieces index then
        some (index, zerosAt pieces index) else best) best = some run → ZeroRun pieces run := by
    induction indices with
    | nil => exact fun holds => holds
    | cons index indices ih =>
      intro best holds
      refine ih fun run better => ?_
      dsimp only at better
      split at better
      · rename_i longer
        cases better
        refine zeroRun_zerosAt ?_
        cases best with
        | none => exact longer
        | some best => exact (holds best rfl).many.trans longer
      · exact holds run better
  exact kept _ (fun run none => by cases none) run found

theorem serializeIpv6_units (address : Ipv6) : ∀ c ∈ (serializeIpv6 address).units,
    c = 91 ∨ c = 93 ∨ c = 58 ∨ 48 ≤ c ∧ c ≤ 57 ∨ 97 ≤ c ∧ c ≤ 102 := by
  intro c member
  obtain ⟨pieces, length, small⟩ := address
  have inner : ∀ d ∈ compressedText pieces (compress pieces), d = 58 ∨ 48 ≤ d ∧ d ≤ 57 ∨ 97 ≤ d ∧ d ≤ 102 := by
    intro d inside
    cases run : compress pieces with
    | none =>
      rw [run] at inside
      exact piecesText_units small d inside
    | some run' =>
      rw [run, compressedText, List.mem_append, List.mem_append] at inside
      rcases inside with (left | colons) | right
      · exact piecesText_units (fun piece taken => small piece (List.mem_of_mem_take taken)) d left
      · simp only [List.mem_cons, List.not_mem_nil, or_false, or_self] at colons
        exact .inl colons
      · exact piecesText_units (fun piece kept => small piece (List.mem_of_mem_drop kept)) d right
  simp only [serializeIpv6, List.mem_append, List.mem_singleton] at member
  rcases member with (left | inside) | right
  · exact .inl left
  · exact .inr (.inr (inner c inside))
  · exact .inr (.inl right)

/-! ### Hosts -/

section
variable [HostPlatform] [HostStandard]

theorem parseHost_of_ascii (mapped : HostPlatform.domainToAscii text = some text) :
    parseHost text = if endsInANumber text then (parseIpv4 text).map .ipv4 else some (.domain text) := by
  unfold parseHost
  rw [if_neg, mapped]
  intro bracket
  exact (HostStandard.plain text text mapped 91 (List.mem_of_head? bracket)).2.2.2.1 rfl

theorem domain_of_parseHost {text domain : JsString} (parsed : parseHost text = some (.domain domain)) :
    HostPlatform.domainToAscii domain = some domain ∧ endsInANumber domain = false := by
  unfold parseHost at parsed
  split at parsed
  · cases literal : HostPlatform.parseIpv6 text with
    | none => rw [literal] at parsed; cases parsed
    | some address => rw [literal] at parsed; cases parsed
  · cases mapped : HostPlatform.domainToAscii text with
    | none => rw [mapped] at parsed; cases parsed
    | some ascii =>
      rw [mapped] at parsed
      dsimp only at parsed
      split at parsed
      · cases number : parseIpv4 ascii with
        | none => rw [number] at parsed; cases parsed
        | some address => rw [number] at parsed; cases parsed
      · rename_i name
        obtain rfl := Host.domain.inj (Option.some.inj parsed)
        exact ⟨HostStandard.again text ascii mapped, (Bool.not_eq_true _).mp name⟩

theorem parseHost_serializeIpv4 (address : Ipv4) : parseHost (serializeIpv4 address) = some (.ipv4 address) := by
  have parts := splitOn_serializeIpv4 address
  have given : serializeIpv4 address ≠ JsString.empty := by
    intro empty
    rw [empty] at parts
    have length := congrArg List.length parts
    simp [JsString.empty, octets] at length
  rw [parseHost_of_ascii (HostStandard.digits _ given (serializeIpv4_units address)),
    if_pos (endsInANumber_serializeIpv4 address),
    parseIpv4_serializeIpv4]
  rfl

theorem parseHost_text {host : Host} (parsed : parseHost text = some host) : parseHost host.text = some host := by
  cases host with
  | domain domain =>
    obtain ⟨mapped, name⟩ := domain_of_parseHost parsed
    rw [Host.text, parseHost_of_ascii mapped, name]
    rfl
  | ipv4 address => exact parseHost_serializeIpv4 address
  | ipv6 address =>
    have bracket : (serializeIpv6 address).units.head? = some 91 := rfl
    rw [Host.text, parseHost, if_pos bracket, HostStandard.literal address]
    rfl

end

end Whatwg
