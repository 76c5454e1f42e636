import Handrail.Presence.Collections
import Handrail.Concurrent.Latest

/-!
# Presence does not depend on the order of delivery

Of each session the records are in a linear order, merging keeps the greatest, and what is shown at a time is a view of
the greatest record. Pruning leaves out what is not shown later anyhow.
-/

namespace Handrail.Presence
open Js Concurrent

/-! ### The order of records -/

theorem roundTrip_orNull_inj {α : Type} {text : α → JsString} (injective : ∀ a b, text a = text b → a = b)
    {a b : Option α} (same : (orNull (a.map fun x => .str (text x))).roundTrip =
      (orNull (b.map fun x => .str (text x))).roundTrip) :
    a = b := by
  cases a with
  | none =>
    cases b with
    | none => rfl
    | some b => cases same
  | some a =>
    cases b with
    | none => cases same
    | some b =>
      simp only [orNull, Option.map_some, Json.roundTrip_str, Json.str.injEq] at same
      rw [injective a b same]

theorem literal_text_inj {α : Type} [Enumeration α] (a b : α) (same : js (Enumeration.text a) = js (Enumeration.text b)) :
    a = b := Enumeration.text_injective (js_inj.mp same)

variable {a b : PresenceRecord}

theorem fingerprintHead_inj
    (same : (fingerprintHead a).map Json.roundTrip = (fingerprintHead b).map Json.roundTrip) :
    a.participantId = b.participantId ∧ a.deviceId = b.deviceId ∧ a.sessionId = b.sessionId ∧
      a.participantKind = b.participantKind ∧ a.state = b.state ∧ a.assistantActivity = b.assistantActivity := by
  simp only [fingerprintHead, List.map_cons, List.map_nil, List.cons.injEq, and_true, Json.roundTrip_str, literal,
    Json.str.injEq] at same
  obtain ⟨participant, device, session, kind, state, activity⟩ := same
  exact ⟨PresenceIdentifier.ext_text participant, roundTrip_orNull_inj (fun _ _ => PresenceIdentifier.ext_text) device,
    PresenceIdentifier.ext_text session, literal_text_inj _ _ kind, literal_text_inj _ _ state,
    roundTrip_orNull_inj literal_text_inj activity⟩

theorem PresenceRecord.ext_fields
    (head : a.participantId = b.participantId ∧ a.deviceId = b.deviceId ∧ a.sessionId = b.sessionId ∧
      a.participantKind = b.participantKind ∧ a.state = b.state ∧ a.assistantActivity = b.assistantActivity)
    (typing : a.typing = b.typing) (updated : a.updatedAt = b.updatedAt) (expires : a.expiresAt = b.expiresAt)
    (ends : a.typingExpiresAt = b.typingExpiresAt) : a = b := by
  obtain ⟨_, _, _, _, _, _, _, _, _, _, _, _, _, _, _⟩ := a
  obtain ⟨_, _, _, _, _, _, _, _, _, _, _, _, _, _, _⟩ := b
  obtain ⟨rfl, rfl, rfl, rfl, rfl, rfl⟩ := head
  obtain rfl := typing
  obtain rfl := updated
  obtain rfl := expires
  obtain rfl := ends
  rfl

theorem recordFingerprint_inj (same : recordFingerprint a = recordFingerprint b) : a = b := by
  have items := stringify_inj.mp same
  rw [Json.roundTrip_arr, Json.roundTrip_arr, Json.arr.injEq, List.map_append, List.map_append] at items
  obtain ⟨head, tail⟩ := List.append_inj items (by simp [fingerprintHead])
  simp only [List.map_cons, List.map_nil, List.cons.injEq, and_true, Json.roundTrip_str, Json.roundTrip_bool,
    Json.str.injEq, Json.bool.injEq] at tail
  obtain ⟨typing, updated, expires, ends⟩ := tail
  exact PresenceRecord.ext_fields (fingerprintHead_inj head) typing (PresenceTimestamp.ext_text updated)
    (PresenceTimestamp.ext_text expires) (roundTrip_orNull_inj (fun _ _ => PresenceTimestamp.ext_text) ends)

/-- What `compareRecords` compares: the time, whether the session is offline, the fingerprint. -/
def rank (r : PresenceRecord) : ℤ ×ₗ (Bool ×ₗ JsString) :=
  toLex (r.updatedAt.milliseconds, toLex (decide (r.state = .offline), recordFingerprint r))

theorem rank_injective : Function.Injective rank := by
  intro a b same
  have parts := toLex.injective same
  exact recordFingerprint_inj (Prod.mk.inj (toLex.injective (Prod.mk.inj parts).2)).2

instance : LinearOrder PresenceRecord := LinearOrder.lift' rank rank_injective

theorem record_lt_iff : a < b ↔ a.updatedAt.milliseconds < b.updatedAt.milliseconds ∨
    a.updatedAt.milliseconds = b.updatedAt.milliseconds ∧
      (a.state ≠ .offline ∧ b.state = .offline ∨
        (a.state = .offline ↔ b.state = .offline) ∧ recordFingerprint a < recordFingerprint b) := by
  have lifted : a < b ↔ rank a < rank b := Iff.rfl
  rw [lifted, rank, rank, Prod.Lex.toLex_lt_toLex, Prod.Lex.toLex_lt_toLex]
  simp [Bool.lt_iff]

theorem updated_le_of_le (le : a ≤ b) : a.updatedAt.milliseconds ≤ b.updatedAt.milliseconds := by
  rcases le.eq_or_lt with rfl | less
  · exact le_refl _
  · rcases record_lt_iff.mp less with earlier | ⟨time, -⟩
    · exact earlier.le
    · exact time.le

theorem compareRecords_pos : 0 < compareRecords a b ↔ b < a := by
  rw [record_lt_iff]
  unfold compareRecords lexicalCompare
  have lexical : (0 : Int) < (if recordFingerprint a < recordFingerprint b then -1 else
      if recordFingerprint b < recordFingerprint a then 1 else 0) ↔ recordFingerprint b < recordFingerprint a := by
    by_cases less : recordFingerprint a < recordFingerprint b
    · simp [less, lt_asymm less]
    · by_cases more : recordFingerprint b < recordFingerprint a <;> simp [less, more]
  by_cases time : a.updatedAt.milliseconds = b.updatedAt.milliseconds
  · simp only [time, Int.sub_self, ne_eq, not_true_eq_false, ↓reduceIte, lt_self_iff_false, true_and, false_or]
    by_cases offA : a.state = .offline <;> by_cases offB : b.state = .offline <;> simp [offA, offB, lexical]
  · simp only [ne_eq, sub_eq_zero, time, not_false_eq_true, ↓reduceIte, Ne.symm time, false_and, or_false]
    exact Int.sub_pos

/-! ### What is shown at a time -/

theorem resolveTypingAt_eq (r : PresenceRecord) (now : ℚ) :
    resolveTypingAt r now = r ∨
      (∃ ends, r.typingExpiresAt = some ends ∧ ends.milliseconds ≤ now) ∧ (resolveTypingAt r now).typing = false := by
  unfold resolveTypingAt
  split
  · exact .inl rfl
  · rename_i elapsed
    rw [not_or] at elapsed
    refine .inr ⟨?_, rfl⟩
    cases ends : r.typingExpiresAt with
    | none =>
      have typed := r.typed
      rw [ends] at typed
      exact (elapsed.1 typed.symm).elim
    | some ends' => exact ⟨ends', rfl, by simpa [ends] using elapsed.2⟩

theorem resolveTypingAt_same (r : PresenceRecord) (now : ℚ) :
    (resolveTypingAt r now).updatedAt = r.updatedAt ∧ (resolveTypingAt r now).expiresAt = r.expiresAt ∧
      (resolveTypingAt r now).state = r.state ∧ fingerprintHead (resolveTypingAt r now) = fingerprintHead r ∧
      getPresenceRecordKey (resolveTypingAt r now) = getPresenceRecordKey r := by
  unfold resolveTypingAt
  split <;> exact ⟨rfl, rfl, rfl, rfl, rfl⟩

def activeAt (now : ℚ) (r : PresenceRecord) : Option PresenceRecord :=
  if now < r.expiresAt.milliseconds then some (resolveTypingAt r now) else none

theorem activeAt_eq_some {now : ℚ} {r v : PresenceRecord} :
    activeAt now r = some v ↔ now < r.expiresAt.milliseconds ∧ resolveTypingAt r now = v := by
  unfold activeAt
  split <;> simp_all

/-- How long the records of a session stand after `updated_at`, and how long their typing does. -/
structure PresenceLifetimes where
  expiry : Int
  typing : Int

def KeepsTo (lifetimes : JsString → PresenceLifetimes) (r : PresenceRecord) : Prop :=
  r.expiresAt.milliseconds - r.updatedAt.milliseconds = (lifetimes (getPresenceRecordKey r)).expiry ∧
    ∀ t ∈ r.typingExpiresAt, t.milliseconds - r.updatedAt.milliseconds = (lifetimes (getPresenceRecordKey r)).typing

section
variable {lifetimes : JsString → PresenceLifetimes} {a b : PresenceRecord}

theorem keepsTo_resolveTypingAt (keeps : KeepsTo lifetimes a) (now : ℚ) : KeepsTo lifetimes (resolveTypingAt a now) := by
  unfold resolveTypingAt
  split
  · exact keeps
  · exact ⟨keeps.1, fun t named => absurd named (Option.not_mem_none t)⟩

theorem fingerprintHead_eq (head : (fingerprintHead a).map Json.roundTrip = (fingerprintHead b).map Json.roundTrip) :
    fingerprintHead a = fingerprintHead b := by
  obtain ⟨participant, device, session, kind, state, activity⟩ := fingerprintHead_inj head
  simp only [fingerprintHead, participant, device, session, kind, state, activity]

theorem same_of_head (keepsA : KeepsTo lifetimes a) (keepsB : KeepsTo lifetimes b)
    (key : getPresenceRecordKey a = getPresenceRecordKey b) (updated : a.updatedAt = b.updatedAt)
    (head : (fingerprintHead a).map Json.roundTrip = (fingerprintHead b).map Json.roundTrip) (typing : a.typing = b.typing) :
    a = b := by
  obtain ⟨expiryA, typingA⟩ := keepsA
  obtain ⟨expiryB, typingB⟩ := keepsB
  rw [key, updated] at expiryA typingA
  have expires : a.expiresAt = b.expiresAt := PresenceTimestamp.ext_milliseconds (by omega)
  have ends : a.typingExpiresAt = b.typingExpiresAt := by
    have typed : a.typingExpiresAt.isSome = b.typingExpiresAt.isSome := by rw [a.typed, b.typed, typing]
    cases endsA : a.typingExpiresAt with
    | none =>
      rw [endsA] at typed
      exact (Option.isNone_iff_eq_none.mp (by simpa using typed)).symm
    | some t =>
      rw [endsA] at typed
      obtain ⟨u, endsB⟩ := Option.isSome_iff_exists.mp typed.symm
      have first := typingA t endsA
      have second := typingB u endsB
      rw [endsB, PresenceTimestamp.ext_milliseconds (s := t) (t := u) (by omega)]
  exact PresenceRecord.ext_fields (fingerprintHead_inj head) typing updated expires ends

theorem recordFingerprint_lt (now : ℚ) (less : recordFingerprint a < recordFingerprint b)
    (head : (fingerprintHead a).map Json.roundTrip ≠ (fingerprintHead b).map Json.roundTrip) :
    recordFingerprint (resolveTypingAt a now) < recordFingerprint (resolveTypingAt b now) := by
  rw [← not_le] at less ⊢
  rw [recordFingerprint, recordFingerprint, stringify_arr_le] at less ⊢
  rw [(resolveTypingAt_same a now).2.2.2.1, (resolveTypingAt_same b now).2.2.2.1]
  have length : (fingerprintHead b).length = (fingerprintHead a).length := rfl
  intro more
  exact less ((itemUnits_le_iff length head.symm true _ _ _ _ _ _ _ _).mp more)

theorem not_recordFingerprint_lt (head : (fingerprintHead a).map Json.roundTrip = (fingerprintHead b).map Json.roundTrip)
    (typingA : a.typing = true) (typingB : b.typing = false) : ¬recordFingerprint a < recordFingerprint b := by
  intro less
  have le := less.le
  rw [recordFingerprint, recordFingerprint, stringify_arr_le, fingerprintHead_eq head, typingA, typingB] at le
  exact itemUnits_bool _ _ _ _ le

theorem resolveTypingAt_mono (keepsA : KeepsTo lifetimes a) (keepsB : KeepsTo lifetimes b)
    (key : getPresenceRecordKey a = getPresenceRecordKey b) (le : a ≤ b) (now : ℚ) :
    resolveTypingAt a now ≤ resolveTypingAt b now := by
  rcases le.eq_or_lt with rfl | less
  · exact le_refl _
  obtain ⟨updatedA, -, stateA, -, -⟩ := resolveTypingAt_same a now
  obtain ⟨updatedB, -, stateB, headB, keyB⟩ := resolveTypingAt_same b now
  have resolved := @record_lt_iff (resolveTypingAt a now) (resolveTypingAt b now)
  rw [updatedA, updatedB, stateA, stateB] at resolved
  rcases record_lt_iff.mp less with earlier | ⟨time, offline | ⟨both, fingerprint⟩⟩
  · exact (resolved.mpr (.inl earlier)).le
  · exact (resolved.mpr (.inr ⟨time, .inl offline⟩)).le
  by_cases head : (fingerprintHead a).map Json.roundTrip = (fingerprintHead b).map Json.roundTrip
  · have updated := PresenceTimestamp.ext_milliseconds time
    cases typingA : a.typing with
    | true =>
      cases typingB : b.typing with
      | true =>
        rw [same_of_head keepsA keepsB key updated head (typingA.trans typingB.symm)]
      | false => exact (not_recordFingerprint_lt head typingA typingB fingerprint).elim
    | false =>
      have idle : resolveTypingAt a now = a := if_pos (.inl typingA)
      rcases resolveTypingAt_eq b now with kept | ⟨-, cleared⟩
      · rw [idle, kept]
        exact le
      · -- Without its typing the greater record is the lesser one.
        rw [idle, ← same_of_head keepsA (keepsTo_resolveTypingAt keepsB now) (key.trans keyB.symm)
          (updated.trans updatedB.symm) (by rw [headB, head]) (typingA.trans cleared.symm)]
  · exact (resolved.mpr (.inr ⟨time, .inr ⟨both, recordFingerprint_lt now fingerprint head⟩⟩)).le

theorem view_activeAt (now : ℚ) : View getPresenceRecordKey (KeepsTo lifetimes) (activeAt now) where
  keeps {r v} shown := by
    obtain ⟨-, rfl⟩ := activeAt_eq_some.mp shown
    exact (resolveTypingAt_same r now).2.2.2.2
  inside {r v} keeps shown := by
    obtain ⟨-, rfl⟩ := activeAt_eq_some.mp shown
    exact keepsTo_resolveTypingAt keeps now
  mono {r s v} keepsR keepsS key less shown := by
    obtain ⟨lives, rfl⟩ := activeAt_eq_some.mp shown
    refine ⟨_, activeAt_eq_some.mpr ⟨lt_of_lt_of_le lives ?_, rfl⟩, resolveTypingAt_mono keepsR keepsS key less now⟩
    have later := updated_le_of_le less
    have expiry := keepsR.1
    rw [key, ← keepsS.1] at expiry
    exact_mod_cast (by omega : r.expiresAt.milliseconds ≤ s.expiresAt.milliseconds)

end

/-! ### Merging keeps the latest record of a key -/

def Keeps (m : OrderedMap JsString PresenceRecord) (xs : List PresenceRecord) : Prop :=
  ∀ key r, m.get key = some r ↔ Latest getPresenceRecordKey xs r ∧ getPresenceRecordKey r = key

theorem keeps_mergeRecord {m : OrderedMap JsString PresenceRecord} {xs : List PresenceRecord} (keeps : Keeps m xs)
    (candidate : PresenceRecord) : Keeps (mergeRecord m candidate) (xs ++ [candidate]) := by
  have replaced (greatest : ∀ e, Latest getPresenceRecordKey xs e → getPresenceRecordKey e = getPresenceRecordKey candidate →
      e ≤ candidate) : Keeps (m.set (getPresenceRecordKey candidate) candidate) (xs ++ [candidate]) := by
    intro key r
    by_cases here : key = getPresenceRecordKey candidate
    · subst here
      rw [OrderedMap.get_set_self, Option.some.injEq]
      constructor
      · rintro rfl
        exact ⟨latest_concat_greatest greatest, rfl⟩
      · rintro ⟨latest, same⟩
        exact (latest.eq (latest_concat_greatest greatest) same).symm
    · rw [OrderedMap.get_set_other m candidate here, keeps]
      constructor
      · rintro ⟨latest, rfl⟩
        exact ⟨latest_concat_kept (fun same => (here same.symm).elim) latest, rfl⟩
      · rintro ⟨latest, rfl⟩
        exact ⟨latest_of_concat latest here, rfl⟩
  simp only [mergeRecord]
  split
  · rename_i absent
    refine replaced fun e latest same => ?_
    rw [(keeps _ e).mpr ⟨latest, same⟩] at absent
    cases absent
  · rename_i existing held
    obtain ⟨latest, sameKey⟩ := (keeps _ existing).mp held
    split
    · rename_i newer
      refine replaced fun e other same => ?_
      rw [other.eq latest (same.trans sameKey.symm)]
      exact (compareRecords_pos.mp newer).le
    · rename_i notNewer
      have kept : candidate ≤ existing := not_lt.mp fun less => notNewer (compareRecords_pos.mpr less)
      intro key r
      rw [keeps]
      constructor
      · rintro ⟨top, rfl⟩
        refine ⟨latest_concat_kept (fun same => ?_) top, rfl⟩
        rw [top.eq latest (same.symm.trans sameKey.symm)]
        exact kept
      · rintro ⟨top, rfl⟩
        refine ⟨?_, rfl⟩
        by_cases here : getPresenceRecordKey r = getPresenceRecordKey candidate
        · have again : Latest getPresenceRecordKey (xs ++ [candidate]) existing := latest_concat_kept (fun _ => kept) latest
          rw [top.eq again (here.trans sameKey.symm)]
          exact latest
        · exact latest_of_concat top here

def mergeAll (rs : List PresenceRecord) : List PresenceRecord :=
  ((rs.foldl mergeRecord OrderedMap.empty).entries.insertionSort fun left right => left.1 ≤ right.1).map Prod.snd

theorem keeps_foldl (rs : List PresenceRecord) : Keeps (rs.foldl mergeRecord OrderedMap.empty) rs := by
  induction rs using List.reverseRecOn with
  | nil =>
    intro key r
    simp [Latest]
  | append_singleton rs r ih =>
    rw [List.foldl_append]
    exact keeps_mergeRecord ih r

theorem mem_mergeAll {rs : List PresenceRecord} {r : PresenceRecord} :
    r ∈ mergeAll rs ↔ Latest getPresenceRecordKey rs r := by
  have keeps := keeps_foldl rs
  rw [mergeAll, List.mem_map]
  constructor
  · rintro ⟨⟨key, r⟩, member, rfl⟩
    exact ((keeps key r).mp (OrderedMap.mem_entries_iff.mp ((List.mem_insertionSort _).mp member))).1
  · intro latest
    refine ⟨(getPresenceRecordKey r, r), (List.mem_insertionSort _).mpr (OrderedMap.mem_entries_iff.mpr ?_), rfl⟩
    exact (keeps _ r).mpr ⟨latest, rfl⟩

theorem sorted_mergeAll (rs : List PresenceRecord) : ((mergeAll rs).map getPresenceRecordKey).Pairwise (· < ·) := by
  have keeps := keeps_foldl rs
  generalize map : rs.foldl mergeRecord OrderedMap.empty = m at keeps
  have perm := List.perm_insertionSort (fun left right : JsString × PresenceRecord => left.1 ≤ right.1) m.entries
  have keys : (mergeAll rs).map getPresenceRecordKey =
      (m.entries.insertionSort fun left right => left.1 ≤ right.1).map Prod.fst := by
    rw [mergeAll, map, List.map_map]
    refine List.map_congr_left fun entry member => ?_
    exact ((keeps entry.1 entry.2).mp (OrderedMap.mem_entries_iff.mp (perm.subset member))).2
  have _ : Std.Total fun left right : JsString × PresenceRecord => left.1 ≤ right.1 := ⟨fun _ _ => le_total _ _⟩
  have _ : IsTrans (JsString × PresenceRecord) fun left right => left.1 ≤ right.1 := ⟨fun _ _ _ => le_trans⟩
  rw [keys]
  have sorted := List.pairwise_map.mpr (List.pairwise_insertionSort (fun left right => left.1 ≤ right.1) m.entries)
  have distinct := (perm.map Prod.fst).nodup_iff.mpr m.distinct
  exact sorted.imp₂ (fun _ _ le ne => lt_of_le_of_ne le ne) distinct

end Handrail.Presence
