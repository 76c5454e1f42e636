import Handrail.Search.CanonicalHosts

/-!
# Hosts that stay as they are

When the host that `canonicalUrl` sets is let through again and set to itself, case by case in the dots after a name.
-/

namespace Handrail.Search
open Js
open Whatwg (Host HostPlatform HostStandard Ipv4 Ipv6 parseHost endsInANumber stem dots dotted)

section
variable [HostPlatform]

def rehost (host : Host) : Host :=
  if hostName host = JsString.empty then host else (parseHost (hostName host)).getD host

/-- What `canonicalUrl` makes of a URL with this host is let through, stays as it is, and is no private address. -/
def Settled (host : Host) : Prop := PublicName (hostName host) ∧ rehost host = host ∧ PublicHost host

/-- At most one dot follows the name; or two, where nothing but dots is there, or a public IPv4 address before them; or up to
three, after what ends in a number and is no IPv4 address. A 6to4 literal embeds a public address. -/
def Stable : Host → Prop
  | .domain text =>
    dots text ≤ 1 ∨ stem text = JsString.empty ∧ dots text = 2 ∨
      endsInANumber (stem text) = true ∧
        ((Whatwg.parseIpv4 (stem text) = none ∧ dots text ≤ 3) ∨
          dots text = 2 ∧ ∃ address, Whatwg.parseIpv4 (stem text) = some address ∧
            isNonPublicIpv4 (Whatwg.octets address) = false)
  | .ipv4 _ => True
  | .ipv6 address => ∀ high low rest, address.pieces = 0x2002 :: high :: low :: rest →
      isNonPublicIpv4 (Whatwg.octets (high * 0x10000 + low)) = false

/-! ### The name that is set -/

omit [HostPlatform] in
theorem normalizedHostname_lower {text : JsString} (lower : ∀ c ∈ text.units, ¬(65 ≤ c ∧ c ≤ 90)) :
    normalizedHostname text = ⟨if text.units.getLast? = some 46 then text.units.dropLast else text.units⟩ := by
  have same : text.units.map Pattern.lowerAscii = text.units := by
    rw [List.map_congr_left fun c member => ?_, List.map_id]
    rw [Pattern.lowerAscii, if_neg]
    · rfl
    · rw [Bool.and_eq_true, decide_eq_true_eq, decide_eq_true_eq]
      exact lower c member
  rw [normalizedHostname, same]

omit [HostPlatform] in
theorem hostName_ipv4 (address : Ipv4) : hostName (.ipv4 address) = Whatwg.serializeIpv4 address := by
  rw [hostName, Host.text, normalizedHostname_lower, if_neg (Whatwg.serializeIpv4_bare address)]
  intro c member upper
  rcases Whatwg.serializeIpv4_units address c member with rfl | digit
  · revert upper
    decide
  · simp only [UInt16.le_iff_toNat_le, UInt16.reduceToNat] at digit upper
    omega

omit [HostPlatform] in
theorem hostName_ipv6 (address : Ipv6) : hostName (.ipv6 address) = Whatwg.serializeIpv6 address := by
  have last : (Whatwg.serializeIpv6 address).units.getLast? = some 93 := by
    rw [Whatwg.serializeIpv6, List.getLast?_append, List.getLast?_singleton, Option.some_or]
  rw [hostName, Host.text, normalizedHostname_lower, last, if_neg (by decide)]
  intro c member upper
  have unit := Whatwg.serializeIpv6_units address c member
  simp only [UInt16.le_iff_toNat_le, ← UInt16.toNat_inj, UInt16.reduceToNat] at unit upper
  omega

variable [HostStandard]

section
variable {name : JsString} {count : Nat} (bare : name.units.getLast? ≠ some 46)

theorem plain_of_mapped {text : JsString} (mapped : HostPlatform.domainToAscii text = some text) : 58 ∉ text.units :=
  fun colon => (HostStandard.plain text text mapped 58 colon).2.2.1 rfl

theorem hostName_dotted (mapped : HostPlatform.domainToAscii (dotted name (count + 1)) = some (dotted name (count + 1))) :
    hostName (.domain (dotted name (count + 1))) = dotted name count := by
  have lower := fun c member => (HostStandard.plain _ _ mapped c member).2.2.2.2
  rw [hostName, Host.text, normalizedHostname_lower lower, Whatwg.dotted_succ, List.getLast?_append,
    List.getLast?_singleton, Option.some_or,
    if_pos rfl, List.dropLast_concat]

include bare in
theorem hostName_bare (mapped : HostPlatform.domainToAscii name = some name) : hostName (.domain name) = name := by
  have lower := fun c member => (HostStandard.plain _ _ mapped c member).2.2.2.2
  rw [hostName, Host.text, normalizedHostname_lower lower, if_neg bare]

theorem mapped_of_dotted {fewer : Nat} (mapped : HostPlatform.domainToAscii (dotted name count) = some (dotted name count))
    (le : fewer ≤ count) (given : name ≠ JsString.empty ∨ fewer ≠ 0) :
    HostPlatform.domainToAscii (dotted name fewer) = some (dotted name fewer) := by
  induction count with
  | zero =>
    rw [Nat.le_zero.mp le]
    exact mapped
  | succ count ih =>
    rcases Nat.lt_or_eq_of_le le with less | rfl
    · refine ih ?_ (by omega)
      have longer : name ≠ JsString.empty ∨ count ≠ 0 := given.imp_right fun _ => by omega
      have shorter := mapped
      rw [Whatwg.dotted_succ] at shorter
      exact HostStandard.dot _ _ shorter (Whatwg.dotted_ne_empty longer)
    · exact mapped

theorem parseHost_dots (mapped : HostPlatform.domainToAscii (dotted name (count + 2)) = some (dotted name (count + 2))) :
    parseHost (dotted name (count + 2)) = some (.domain (dotted name (count + 2))) := by
  have units : dotted name (count + 2) = ⟨(dotted name count).units ++ [46, 46]⟩ := by
    rw [Whatwg.dotted_succ, Whatwg.dotted_succ]
    simp
  rw [Whatwg.parseHost_of_ascii mapped, units, Whatwg.endsInANumber_dots]
  rfl

theorem parseHost_dot : HostPlatform.domainToAscii (dotted JsString.empty 1) = some (dotted JsString.empty 1) →
    parseHost (dotted JsString.empty 1) = some (.domain (dotted JsString.empty 1)) := by
  intro mapped
  rw [Whatwg.parseHost_of_ascii mapped, if_neg (by decide)]

include bare in
theorem parseHost_name_dot (given : name ≠ JsString.empty)
    (mapped : HostPlatform.domainToAscii (dotted name 1) = some (dotted name 1)) :
    parseHost (dotted name 1) =
      if endsInANumber name = true then (Whatwg.parseIpv4 name).map .ipv4 else some (.domain (dotted name 1)) := by
  have units : name.units ≠ [] := fun none => given (JsString.ext none)
  have dot : dotted name 1 = ⟨name.units ++ [46]⟩ := rfl
  rw [Whatwg.parseHost_of_ascii mapped, dot, Whatwg.endsInANumber_dot units bare, Whatwg.parseIpv4_dot units bare]

/-! ### Domains -/

theorem rehost_dotted (mapped : HostPlatform.domainToAscii (dotted name (count + 1)) = some (dotted name (count + 1)))
    (given : name ≠ JsString.empty ∨ count ≠ 0) :
    rehost (.domain (dotted name (count + 1))) = (parseHost (dotted name count)).getD (.domain (dotted name (count + 1))) := by
  rw [rehost, hostName_dotted mapped, if_neg (Whatwg.dotted_ne_empty given)]

theorem settled_name (given : name ≠ JsString.empty) (mapped : HostPlatform.domainToAscii name = some name)
    (word : endsInANumber name = false)
    (bare : name.units.getLast? ≠ some 46) (passes : PublicName name) : Settled (.domain name) := by
  have parsed : parseHost name = some (.domain name) := by
    rw [Whatwg.parseHost_of_ascii mapped, word]
    rfl
  have stem_ := Whatwg.stem_dotted bare 0
  rw [Whatwg.dotted_zero] at stem_
  refine ⟨?_, ?_, ?_⟩
  · rwa [hostName_bare bare mapped]
  · rw [rehost, hostName_bare bare mapped, if_neg given, parsed]
    rfl
  · rw [PublicHost, stem_]
    exact ⟨passes.1, passes.2.1⟩

theorem not_settled_dotted (mapped : HostPlatform.domainToAscii (dotted name (count + 1)) = some (dotted name (count + 1)))
    (given : name ≠ JsString.empty ∨ count ≠ 0) (shorter : parseHost (dotted name count) = some (.domain (dotted name count))) :
    ¬Settled (.domain (dotted name (count + 1))) := by
  rintro ⟨-, stays, -⟩
  rw [rehost_dotted mapped given, shorter, Option.getD_some] at stays
  have same := Whatwg.dotted_inj (Host.domain.inj stays)
  omega

theorem settled_number (mapped : HostPlatform.domainToAscii (dotted name (count + 2)) = some (dotted name (count + 2)))
    (bare : name.units.getLast? ≠ some 46) (number : endsInANumber name = true)
    (refused : parseHost (dotted name (count + 1)) = none) : Settled (.domain (dotted name (count + 2))) := by
  have given : name ≠ JsString.empty ∨ count + 1 ≠ 0 := .inr (by omega)
  refine ⟨?_, ?_, ?_⟩
  · rw [hostName_dotted mapped, Whatwg.dotted_succ]
    have less := plain_of_mapped (mapped_of_dotted mapped (Nat.le_succ (count + 1)) given)
    rw [Whatwg.dotted_succ] at less
    exact publicName_dot fun colon => less (List.mem_append_left _ colon)
  · rw [rehost_dotted mapped given, refused]
    rfl
  · rw [PublicHost, Whatwg.stem_dotted bare]
    exact public_of_number number

end

theorem settled_ipv4 (address : Ipv4) : Settled (.ipv4 address) ↔ isNonPublicIpv4 (Whatwg.octets address) = false := by
  have stays : rehost (.ipv4 address) = .ipv4 address := by
    rw [rehost, hostName_ipv4, Whatwg.parseHost_serializeIpv4]
    simp
  rw [Settled, hostName_ipv4, publicName_ipv4, stays]
  exact ⟨fun settled => settled.1, fun public_ => ⟨public_, rfl, public_⟩⟩

section
variable {name : JsString} (bare : name.units.getLast? ≠ some 46)
include bare

omit [HostPlatform] [HostStandard] in
theorem stable_dotted (count : Nat) : Stable (.domain (dotted name count)) ↔
    count ≤ 1 ∨ name = JsString.empty ∧ count = 2 ∨
      endsInANumber name = true ∧ ((Whatwg.parseIpv4 name = none ∧ count ≤ 3) ∨
        count = 2 ∧ ∃ address, Whatwg.parseIpv4 name = some address ∧ isNonPublicIpv4 (Whatwg.octets address) = false) := by
  rw [Stable, Whatwg.stem_dotted bare, Whatwg.dots_dotted bare]

theorem settled_one_dot (mapped : HostPlatform.domainToAscii (dotted name 1) = some (dotted name 1))
    (word : endsInANumber (dotted name 1) = false) (passes : PublicName name) : Settled (rehost (.domain (dotted name 1))) := by
  by_cases given : name = JsString.empty
  · subst given
    have stays : rehost (.domain (dotted JsString.empty 1)) = .domain (dotted JsString.empty 1) := by
      rw [rehost, hostName_dotted mapped, if_pos (by decide)]
    rw [stays]
    refine ⟨by rwa [hostName_dotted mapped, Whatwg.dotted_zero], stays, ?_⟩
    rw [PublicHost, Whatwg.stem_dotted bare]
    exact ⟨by decide, by decide⟩
  · have shorter := mapped_of_dotted mapped (Nat.zero_le 1) (.inl given)
    rw [Whatwg.dotted_zero] at shorter
    have units : name.units ≠ [] := fun none => given (JsString.ext none)
    have name_ : endsInANumber name = false := by
      rw [← Whatwg.endsInANumber_dot units bare]
      exact word
    have parsed : parseHost name = some (.domain name) := by
      rw [Whatwg.parseHost_of_ascii shorter, name_]
      rfl
    rw [rehost_dotted mapped (.inl given), Whatwg.dotted_zero, parsed]
    exact settled_name given shorter name_ bare passes

theorem settled_two_dots (given : name ≠ JsString.empty)
    (mapped : HostPlatform.domainToAscii (dotted name 2) = some (dotted name 2)) :
    Settled (rehost (.domain (dotted name 2))) ↔ endsInANumber name = true ∧
      ∀ address, Whatwg.parseIpv4 name = some address → isNonPublicIpv4 (Whatwg.octets address) = false := by
  have shorter := mapped_of_dotted mapped (Nat.le_succ 1) (.inl given)
  have parsed := parseHost_name_dot bare given shorter
  have once := rehost_dotted mapped (.inl given)
  by_cases number : endsInANumber name = true
  · rw [if_pos number] at parsed
    simp only [number, true_and]
    cases read : Whatwg.parseIpv4 name with
    | none =>
      rw [read, Option.map_none] at parsed
      have settled := settled_number mapped bare number parsed
      rw [settled.2.1]
      exact iff_of_true settled fun _ some_ => by cases some_
    | some address =>
      rw [read, Option.map_some] at parsed
      rw [once, parsed, Option.getD_some, settled_ipv4]
      exact ⟨fun public_ _ same => Option.some.inj same ▸ public_, fun public_ => public_ address rfl⟩
  · rw [if_neg number] at parsed
    refine iff_of_false ?_ fun both => number both.1
    rw [once, parsed, Option.getD_some]
    have least := mapped_of_dotted mapped (Nat.zero_le 2) (.inl given)
    refine not_settled_dotted shorter (.inl given) ?_
    rw [Whatwg.dotted_zero] at least ⊢
    rw [Whatwg.parseHost_of_ascii least, if_neg number]

/-- The name and three dots: one goes, and the next time a number can keep its dots. -/
theorem settled_three_dots (mapped : HostPlatform.domainToAscii (dotted name 3) = some (dotted name 3)) :
    Settled (rehost (.domain (dotted name 3))) ↔ endsInANumber name = true ∧ Whatwg.parseIpv4 name = none := by
  have two := mapped_of_dotted mapped (Nat.le_succ 2) (.inr (by decide))
  have one := mapped_of_dotted mapped (show 1 ≤ 3 by decide) (.inr (by decide))
  rw [rehost_dotted mapped (.inr (by decide)), parseHost_dots two, Option.getD_some]
  by_cases given : name = JsString.empty
  · subst given
    refine iff_of_false (not_settled_dotted two (.inr (by decide)) (parseHost_dot one)) fun number => ?_
    have none_ : endsInANumber JsString.empty = false := by decide
    rw [none_] at number
    cases number.1
  · have parsed := parseHost_name_dot bare given one
    by_cases number : endsInANumber name = true
    · rw [if_pos number] at parsed
      simp only [number, true_and]
      cases read : Whatwg.parseIpv4 name with
      | none =>
        rw [read, Option.map_none] at parsed
        exact iff_of_true (settled_number two bare number parsed) rfl
      | some address =>
        rw [read, Option.map_some] at parsed
        refine iff_of_false (fun settled => ?_) (by simp)
        have stays := settled.2.1
        rw [rehost_dotted two (.inl given), parsed] at stays
        cases stays
    · rw [if_neg number] at parsed
      exact iff_of_false (not_settled_dotted two (.inl given) parsed) fun both => number both.1

end

/-- A domain that was let through leads to a host that settles exactly when it is stable. -/
theorem settled_domain {text : JsString} (mapped : HostPlatform.domainToAscii text = some text)
    (word : endsInANumber text = false)
    (passes : PublicName (hostName (.domain text))) : Settled (rehost (.domain text)) ↔ Stable (.domain text) := by
  obtain ⟨bare, shape⟩ := Whatwg.eq_dotted text
  generalize stem text = name at bare shape
  generalize dots text = count at shape
  subst shape
  rw [stable_dotted bare]
  obtain rfl | rfl | rfl | rfl | ⟨more, rfl⟩ : count = 0 ∨ count = 1 ∨ count = 2 ∨ count = 3 ∨ ∃ more, count = more + 4 := by
    rcases Nat.lt_or_ge count 4 with few | many
    · omega
    · exact .inr (.inr (.inr (.inr ⟨count - 4, by omega⟩)))
  · rw [Whatwg.dotted_zero] at mapped word passes ⊢
    rw [hostName_bare bare mapped] at passes
    have given : name ≠ JsString.empty := by
      rintro rfl
      exact HostStandard.given _ mapped
    have settled := settled_name given mapped word bare passes
    rw [settled.2.1]
    exact iff_of_true settled (.inl (by omega))
  · rw [hostName_dotted mapped, Whatwg.dotted_zero] at passes
    exact iff_of_true (settled_one_dot bare mapped word passes) (.inl (le_refl 1))
  · by_cases given : name = JsString.empty
    · subst given
      have one := mapped_of_dotted mapped (Nat.le_succ 1) (.inr (by decide))
      refine iff_of_true ?_ (.inr (.inl ⟨rfl, rfl⟩))
      have stays : rehost (.domain (dotted JsString.empty 1)) = .domain (dotted JsString.empty 1) := by
        rw [rehost, hostName_dotted one, if_pos (by decide)]
      have settled := settled_one_dot bare one (by decide) (by unfold PublicName; decide +kernel)
      rw [stays] at settled
      rw [rehost_dotted mapped (.inr (by decide)), parseHost_dot one]
      exact settled
    · rw [settled_two_dots bare given mapped]
      cases read : Whatwg.parseIpv4 name with
      | none => simp [given]
      | some address => simp [given]
  · rw [settled_three_dots bare mapped]
    simp
  · have less := mapped_of_dotted mapped (Nat.le_succ (more + 3)) (.inr (by omega))
    have least := mapped_of_dotted mapped (show more + 2 ≤ more + 4 by omega) (.inr (by omega))
    refine iff_of_false ?_ (by omega)
    rw [rehost_dotted mapped (.inr (by omega)), parseHost_dots less]
    exact not_settled_dotted less (.inr (by omega)) (parseHost_dots least)

/-- A host that was let through leads to one that settles exactly when it is stable. -/
theorem settled_rehost {text : JsString} {host : Host} (parsed : parseHost text = some host)
    (passes : PublicName (hostName host)) :
    Settled (rehost host) ↔ Stable host := by
  cases host with
  | domain domain =>
    obtain ⟨mapped, word⟩ := Whatwg.domain_of_parseHost parsed
    exact settled_domain mapped word passes
  | ipv4 address =>
    rw [hostName_ipv4, publicName_ipv4] at passes
    have settled := (settled_ipv4 address).mpr passes
    rw [settled.2.1]
    exact iff_of_true settled trivial
  | ipv6 address =>
    have same := Whatwg.parseHost_text parsed
    rw [Host.text] at same
    have stays : rehost (.ipv6 address) = .ipv6 address := by
      rw [rehost, hostName_ipv6, same]
      simp
    rw [hostName_ipv6] at passes
    rw [stays, Settled, hostName_ipv6, publicName_ipv6 passes, stays]
    exact ⟨fun settled => settled.2.2, fun stable => ⟨passes, rfl, stable⟩⟩

end

end Handrail.Search
