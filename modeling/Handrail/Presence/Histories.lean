import Handrail.Presence.Independence

/-!
# What a client shows of the records it received

A client receives records in some order and grouping, again and again, and prunes what it holds now and then. What it
shows is what it would show had it merged all of them at once.
-/

namespace Handrail.Presence
open Js Concurrent

def isPresenceRecord (input : Json) : Bool :=
  match normalizePresenceRecord input with
  | .ok _ => true
  | .error _ => false

inductive History where
  /-- An array of records as they were published. -/
  | received (records : List Json)
  /-- `mergePresenceRecords(current, updates)` -/
  | merged (current updates : History)
  /-- `pruneExpiredPresenceRecords(current, { clock: () => now })` -/
  | pruned (current : History) (now : ℚ)

namespace History

def result : History → Checked (List Json)
  | received records => .ok records
  | merged current updates => do
    let held ← current.result
    let others ← updates.result
    let records ← mergePresenceRecords held others
    .ok (records.map PresenceRecord.toJson)
  | pruned current now => do
    let held ← current.result
    let records ← pruneExpiredPresenceRecords held (some now)
    .ok (records.map PresenceRecord.toJson)

def records : History → List Json
  | received records => records
  | merged current updates => current.records ++ updates.records
  | pruned current _ => current.records

def prunes : History → List ℚ
  | received _ => []
  | merged current updates => current.prunes ++ updates.prunes
  | pruned current now => current.prunes ++ [now]

def Merges : History → Prop
  | received _ => False
  | merged _ _ => True
  | pruned current _ => current.Merges

end History

/-! ### Checked records -/

theorem normalizeMany_toJson (rs : List PresenceRecord) : normalizeMany (rs.map PresenceRecord.toJson) = .ok rs := by
  induction rs with
  | nil => rfl
  | cons r rest ih =>
    unfold normalizeMany at ih ⊢
    rw [List.map_cons, List.mapM_cons, normalizePresenceRecord_toJson, ih]
    rfl

theorem normalizeMany_append {left right : List Json} {rs ss : List PresenceRecord} (first : normalizeMany left = .ok rs)
    (second : normalizeMany right = .ok ss) : normalizeMany (left ++ right) = .ok (rs ++ ss) := by
  unfold normalizeMany at *
  rw [List.mapM_append, first, second]
  rfl

/-- Valid records pass their checks, and what comes out are their canonical forms. -/
theorem normalizeMany_valid {inputs : List Json} (valid : ∀ input ∈ inputs, isPresenceRecord input = true) :
    ∃ rs, normalizeMany inputs = .ok rs ∧ ∀ r, r ∈ rs ↔ ∃ input ∈ inputs, normalizePresenceRecord input = .ok r := by
  induction inputs with
  | nil => exact ⟨[], rfl, by simp⟩
  | cons input rest ih =>
    rw [List.forall_mem_cons] at valid
    obtain ⟨rs, accepted, members⟩ := ih valid.2
    cases normalized : normalizePresenceRecord input with
    | error e => simp [isPresenceRecord, normalized] at valid
    | ok r =>
      refine ⟨r :: rs, ?_, fun s => ?_⟩
      · unfold normalizeMany at accepted ⊢
        rw [List.mapM_cons, normalized, accepted]
        rfl
      · rw [List.mem_cons, members]
        simp [normalized, eq_comm]

variable {rs : List PresenceRecord}

theorem mergePresenceRecords_ok {current updates : List Json}
    (accepted : normalizeMany (current ++ updates) = .ok rs) : mergePresenceRecords current updates = .ok (mergeAll rs) := by
  have loop (m : OrderedMap JsString PresenceRecord) (inputs : List Json) (rs : List PresenceRecord)
      (accepted : normalizeMany inputs = .ok rs) :
      inputs.foldlM (fun merged input => do
        let candidate ← normalizePresenceRecord input
        .ok (mergeRecord merged candidate)) m = (.ok (rs.foldl mergeRecord m) : Checked _) := by
    induction inputs generalizing m rs with
    | nil =>
      cases accepted
      rfl
    | cons input rest ih =>
      unfold normalizeMany at accepted
      rw [List.mapM_cons] at accepted
      obtain ⟨r, normalized, accepted⟩ := bind_eq_ok.mp accepted
      obtain ⟨others, later, accepted⟩ := bind_eq_ok.mp accepted
      cases accepted
      rw [List.foldlM_cons, normalized]
      exact ih (mergeRecord m r) others later
  unfold mergePresenceRecords
  rw [loop _ _ _ accepted]
  rfl

theorem filterMap_activeAt (rs : List PresenceRecord) (now : ℚ) :
    rs.filterMap (activeAt now) = (rs.filter fun r => now < r.expiresAt.milliseconds).map (resolveTypingAt · now) := by
  induction rs with
  | nil => rfl
  | cons r rest ih =>
    by_cases lives : now < r.expiresAt.milliseconds
    · simp [activeAt, lives, ih]
    · simp [activeAt, lives, ih]

theorem filter_activeAt (rs : List PresenceRecord) (now : ℚ) :
    (rs.filterMap (activeAt now)).filter (fun r => r.state ≠ .offline) =
      (rs.filter fun r => r.state ≠ .offline && now < r.expiresAt.milliseconds).map (resolveTypingAt · now) := by
  have state (r : PresenceRecord) := (resolveTypingAt_same r now).2.2.1
  rw [filterMap_activeAt, List.filter_map, List.filter_filter]
  simp [state]

theorem prune_ok {records : List Json} (accepted : normalizeMany records = .ok rs) (now : ℚ) :
    pruneExpiredPresenceRecords records (some now) = .ok (sortByRecordKey (rs.filterMap (activeAt now))) := by
  rw [filterMap_activeAt]
  simp [pruneExpiredPresenceRecords, readNow, accepted, bind, Except.bind]

theorem select_ok {records : List Json} (accepted : normalizeMany records = .ok rs) (now : ℚ) :
    selectActiveAt records now =
      .ok (sortByRecordKey ((rs.filterMap (activeAt now)).filter fun r => r.state ≠ .offline)) := by
  rw [filter_activeAt]
  simp [selectActiveAt, accepted, bind, Except.bind]

/-! ### What a client holds -/

theorem mem_sortByRecordKey {r : PresenceRecord} : r ∈ sortByRecordKey rs ↔ r ∈ rs :=
  List.mem_insertionSort _

theorem sorted_filterMap (sorted : (rs.map getPresenceRecordKey).Pairwise (· < ·)) (now : ℚ) :
    ((rs.filterMap (activeAt now)).map getPresenceRecordKey).Pairwise (· < ·) := by
  have keys : (rs.filterMap (activeAt now)).map getPresenceRecordKey =
      (rs.filter fun r => now < r.expiresAt.milliseconds).map getPresenceRecordKey := by
    rw [filterMap_activeAt, List.map_map]
    exact List.map_congr_left fun r _ => (resolveTypingAt_same r now).2.2.2.2
  rw [keys]
  exact sorted.sublist (List.filter_sublist.map _)

theorem sorted_sortByRecordKey (sorted : (rs.map getPresenceRecordKey).Pairwise (· < ·)) :
    sortByRecordKey rs = rs :=
  ((List.pairwise_map.mp sorted).imp fun less => less.le).insertionSort_eq

theorem resolveTypingAt_resolveTypingAt {earlier now : ℚ} (order : earlier ≤ now) (r : PresenceRecord) :
    resolveTypingAt (resolveTypingAt r earlier) now = resolveTypingAt r now := by
  rcases resolveTypingAt_eq r earlier with kept | ⟨⟨ends, named, elapsed⟩, cleared⟩
  · rw [kept]
  · -- What is cleared once is cleared at every later time.
    have idle : resolveTypingAt (resolveTypingAt r earlier) now = resolveTypingAt r earlier := if_pos (.inl cleared)
    have typing : r.typing ≠ false := by
      rw [← r.typed, named]
      simp
    have spent (time : ℚ) (passed : earlier ≤ time) :
        ¬(r.typing = false ∨ r.typingExpiresAt.any (fun t => time < t.milliseconds) = true) := by
      rw [not_or, named]
      exact ⟨typing, by simpa using elapsed.trans passed⟩
    rw [idle, resolveTypingAt, resolveTypingAt, if_neg (spent earlier (le_refl _)), if_neg (spent now order)]

theorem activeAt_activeAt {earlier now : ℚ} (order : earlier ≤ now) (r : PresenceRecord) :
    (activeAt earlier r).bind (activeAt now) = activeAt now r := by
  by_cases lives : earlier < r.expiresAt.milliseconds
  · rw [activeAt, if_pos lives, Option.bind_some, activeAt, (resolveTypingAt_same r earlier).2.1,
      resolveTypingAt_resolveTypingAt order]
    rfl
  · have spent : ¬now < r.expiresAt.milliseconds := fun later => lives (lt_of_le_of_lt order later)
    rw [activeAt, if_neg lives, activeAt, if_neg spent]
    rfl

variable {lifetimes : JsString → PresenceLifetimes}

/-- The client holds `rs`, and has received `xs`. -/
structure Holds (lifetimes : JsString → PresenceLifetimes) (history : History) (now : ℚ) (rs xs : List PresenceRecord) :
    Prop where
  result : ∃ inputs, history.result = .ok inputs ∧ normalizeMany inputs = .ok rs
  received : normalizeMany history.records = .ok xs
  keeps : ∀ r ∈ rs, KeepsTo lifetimes r
  same : SameLatest getPresenceRecordKey (rs.filterMap (activeAt now)) (xs.filterMap (activeAt now))
  sorted : history.Merges → (rs.map getPresenceRecordKey).Pairwise (· < ·)

theorem exists_holds {history : History} {now : ℚ} (valid : ∀ input ∈ history.records, isPresenceRecord input = true)
    (keeps : ∀ input ∈ history.records, ∀ r, normalizePresenceRecord input = .ok r → KeepsTo lifetimes r)
    (pruned : ∀ time ∈ history.prunes, time ≤ now) : ∃ rs xs, Holds lifetimes history now rs xs := by
  induction history with
  | received records =>
    obtain ⟨rs, accepted, members⟩ := normalizeMany_valid valid
    refine ⟨rs, rs, ⟨records, rfl, accepted⟩, accepted, fun r member => ?_, SameLatest.refl _, False.elim⟩
    obtain ⟨input, listed, normalized⟩ := (members r).mp member
    exact keeps input listed r normalized
  | merged current updates ihCurrent ihUpdates =>
    simp only [History.records, History.prunes, List.forall_mem_append] at valid keeps pruned
    obtain ⟨rs, xs, ⟨held, resultL, acceptedL⟩, receivedL, keepsL, sameL, -⟩ := ihCurrent valid.1 keeps.1 pruned.1
    obtain ⟨ss, ys, ⟨others, resultR, acceptedR⟩, receivedR, keepsR, sameR, -⟩ := ihUpdates valid.2 keeps.2 pruned.2
    have both : ∀ r ∈ rs ++ ss, KeepsTo lifetimes r := List.forall_mem_append.mpr ⟨keepsL, keepsR⟩
    have kept : ∀ r ∈ mergeAll (rs ++ ss), KeepsTo lifetimes r := fun r member => both r (mem_mergeAll.mp member).1
    refine ⟨mergeAll (rs ++ ss), xs ++ ys, ⟨_, ?_, normalizeMany_toJson _⟩, normalizeMany_append receivedL receivedR,
      kept, ?_, fun _ => sorted_mergeAll _⟩
    · simp only [History.result, resultL, resultR, bind, Except.bind,
        mergePresenceRecords_ok (normalizeMany_append acceptedL acceptedR)]
    · refine ((view_activeAt now).same kept both (SameLatest.of_latest fun r => mem_mergeAll)).trans ?_
      rw [List.filterMap_append, List.filterMap_append]
      exact sameL.append sameR
  | pruned current time ih =>
    simp only [History.records, History.prunes, List.forall_mem_append, List.forall_mem_singleton] at valid keeps pruned
    obtain ⟨rs, xs, ⟨held, result, accepted⟩, received, kept, same, sorted⟩ := ih valid keeps pruned.1
    refine ⟨sortByRecordKey (rs.filterMap (activeAt time)), xs, ⟨_, ?_, normalizeMany_toJson _⟩, received, ?_, ?_, ?_⟩
    · simp only [History.result, result, bind, Except.bind, prune_ok accepted]
    · intro r member
      obtain ⟨s, inside, shown⟩ := List.mem_filterMap.mp (mem_sortByRecordKey.mp member)
      exact (view_activeAt time).inside (kept s inside) shown
    · refine SameLatest.trans (SameLatest.of_members fun r => ?_) same
      simp only [List.mem_filterMap, mem_sortByRecordKey]
      constructor
      · rintro ⟨v, ⟨s, inside, first⟩, second⟩
        exact ⟨s, inside, by rw [← activeAt_activeAt pruned.2, first]; exact second⟩
      · rintro ⟨s, inside, shown⟩
        rw [← activeAt_activeAt pruned.2] at shown
        obtain ⟨v, first, second⟩ := Option.bind_eq_some_iff.mp shown
        exact ⟨v, ⟨s, inside, first⟩, second⟩
    · intro merges
      have shown := sorted_filterMap (sorted merges) time
      rwa [sorted_sortByRecordKey shown]

/-! ### Laws of merging -/

theorem mergeAll_congr {xs ys : List PresenceRecord} (same : SameLatest getPresenceRecordKey xs ys) :
    mergeAll xs = mergeAll ys := by
  refine SameLatest.eq (sorted_mergeAll xs) (sorted_mergeAll ys) ?_
  exact (SameLatest.of_latest fun r => mem_mergeAll).trans (same.trans (SameLatest.of_latest fun r => mem_mergeAll).symm)

structure MergeLaws (a b c : List Json) : Prop where
  comm : mergePresenceRecords a b = mergePresenceRecords b a
  assoc : (mergePresenceRecords a b >>= fun ab => mergePresenceRecords (ab.map PresenceRecord.toJson) c) =
    mergePresenceRecords b c >>= fun bc => mergePresenceRecords a (bc.map PresenceRecord.toJson)
  idem : mergePresenceRecords a a = mergePresenceRecords [] a
  again : (mergePresenceRecords a b >>= fun ab => mergePresenceRecords (ab.map PresenceRecord.toJson) b) =
    mergePresenceRecords a b

theorem mergeLaws {a b c : List Json} (valid : ∀ input ∈ a ++ b ++ c, isPresenceRecord input = true) : MergeLaws a b c := by
  simp only [List.forall_mem_append] at valid
  obtain ⟨rs, acceptedA, -⟩ := normalizeMany_valid valid.1.1
  obtain ⟨ss, acceptedB, -⟩ := normalizeMany_valid valid.1.2
  obtain ⟨ts, acceptedC, -⟩ := normalizeMany_valid valid.2
  have tops (xs : List PresenceRecord) : SameLatest getPresenceRecordKey (mergeAll xs) xs :=
    SameLatest.of_latest fun r => mem_mergeAll
  have mergeAB := mergePresenceRecords_ok (normalizeMany_append acceptedA acceptedB)
  constructor
  · rw [mergeAB, mergePresenceRecords_ok (normalizeMany_append acceptedB acceptedA)]
    exact congrArg Except.ok (mergeAll_congr (SameLatest.of_members fun r => by simp [or_comm]))
  · rw [mergeAB, mergePresenceRecords_ok (normalizeMany_append acceptedB acceptedC)]
    simp only [bind, Except.bind]
    rw [mergePresenceRecords_ok (normalizeMany_append (normalizeMany_toJson _) acceptedC),
      mergePresenceRecords_ok (normalizeMany_append acceptedA (normalizeMany_toJson _))]
    refine congrArg Except.ok (mergeAll_congr ?_)
    refine ((tops _).append (SameLatest.refl ts)).trans ?_
    rw [List.append_assoc]
    exact (SameLatest.refl rs).append (tops _).symm
  · rw [mergePresenceRecords_ok (normalizeMany_append acceptedA acceptedA),
      mergePresenceRecords_ok (show normalizeMany ([] ++ _) = _ from acceptedA)]
    exact congrArg Except.ok (mergeAll_congr (SameLatest.of_members fun r => by simp))
  · rw [mergeAB]
    simp only [bind, Except.bind]
    rw [mergePresenceRecords_ok (normalizeMany_append (normalizeMany_toJson _) acceptedB)]
    refine congrArg Except.ok (mergeAll_congr ?_)
    refine ((tops _).append (SameLatest.refl ss)).trans (SameLatest.of_members fun r => ?_)
    simp

/-! ### The result -/

theorem later_than_offline {xs : List PresenceRecord} {now : ℚ} {v : PresenceRecord}
    (shown : v ∈ (mergeAll xs).filterMap (activeAt now)) (online : v.state ≠ .offline) {offline : PresenceRecord}
    (member : offline ∈ xs) (gone : offline.state = .offline) (key : getPresenceRecordKey offline = getPresenceRecordKey v) :
    offline.updatedAt.milliseconds < v.updatedAt.milliseconds := by
  obtain ⟨r, held, left⟩ := List.mem_filterMap.mp shown
  obtain ⟨-, rfl⟩ := activeAt_eq_some.mp left
  obtain ⟨updated, -, state, -, sameKey⟩ := resolveTypingAt_same r now
  have le : offline ≤ r := (mem_mergeAll.mp held).2 offline member (key.trans sameKey)
  rw [state] at online
  rw [updated]
  refine lt_of_le_of_ne (updated_le_of_le le) fun time => ?_
  exact absurd (record_lt_iff.mpr (.inr ⟨time.symm, .inl ⟨online, gone⟩⟩)) (not_lt.mpr le)

/-- Presence does not depend on the order, the grouping and the repetition of deliveries, nor on pruning. -/
theorem presence_independent {lifetimes : JsString → PresenceLifetimes} {records : List Json}
    (valid : ∀ input ∈ records, isPresenceRecord input = true)
    (keeps : ∀ input ∈ records, ∀ r, normalizePresenceRecord input = .ok r → KeepsTo lifetimes r) :
    (∀ (history : History) (now : ℚ), history.Merges → (∀ input, input ∈ history.records ↔ input ∈ records) →
      (∀ time ∈ history.prunes, time ≤ now) →
      ∃ held merged shown, history.result = .ok held ∧ mergePresenceRecords [] records = .ok merged ∧
        selectActivePresenceRecords held (some now) = .ok shown ∧
        selectActivePresenceRecords (merged.map PresenceRecord.toJson) (some now) = .ok shown ∧
        (∀ r ∈ shown, ∀ input ∈ records, ∀ offline, normalizePresenceRecord input = .ok offline → offline.state = .offline →
          getPresenceRecordKey offline = getPresenceRecordKey r →
          offline.updatedAt.milliseconds < r.updatedAt.milliseconds) ∧
        summarizePresence held (some now) = summarizePresence (merged.map PresenceRecord.toJson) (some now)) ∧
    ∀ a b c : List Json, (∀ input ∈ a ++ b ++ c, isPresenceRecord input = true) → MergeLaws a b c := by
  refine ⟨fun history now merges same pruned => ?_, fun a b c => mergeLaws⟩
  have validAll (input : Json) (member : input ∈ history.records) := valid input ((same input).mp member)
  obtain ⟨rs, xs, holds⟩ := exists_holds validAll (fun input member => keeps input ((same input).mp member)) pruned
  obtain ⟨held, result, accepted⟩ := holds.result
  obtain ⟨ys, acceptedAll, members⟩ := normalizeMany_valid valid
  have received (r : PresenceRecord) : r ∈ xs ↔ r ∈ ys := by
    obtain ⟨zs, again, receivedMembers⟩ := normalizeMany_valid validAll
    obtain rfl : xs = zs := Except.ok.inj (holds.received.symm.trans again)
    rw [receivedMembers, members]
    simp only [same]
  have keepsAll : ∀ r ∈ ys, KeepsTo lifetimes r := by
    intro r member
    obtain ⟨input, listed, normalized⟩ := (members r).mp member
    exact keeps input listed r normalized
  -- Both sides show the latest of what is left of the records.
  have merged : mergePresenceRecords [] records = .ok (mergeAll ys) := mergePresenceRecords_ok acceptedAll
  have shown : rs.filterMap (activeAt now) = (mergeAll ys).filterMap (activeAt now) := by
    refine SameLatest.eq (sorted_filterMap (holds.sorted merges) now) (sorted_filterMap (sorted_mergeAll ys) now) ?_
    have reordered : SameLatest getPresenceRecordKey (xs.filterMap (activeAt now)) (ys.filterMap (activeAt now)) :=
      SameLatest.of_members fun r => by simp only [List.mem_filterMap, received]
    have tops : SameLatest getPresenceRecordKey (mergeAll ys) ys := SameLatest.of_latest fun r => mem_mergeAll
    refine holds.same.trans (reordered.trans (SameLatest.symm ?_))
    exact (view_activeAt now).same (fun r member => keepsAll r (mem_mergeAll.mp member).1) keepsAll tops
  have select := select_ok accepted now
  have selectAll := select_ok (normalizeMany_toJson (mergeAll ys)) now
  rw [shown] at select
  refine ⟨held, mergeAll ys, _, result, merged, select, selectAll, ?_, ?_⟩
  · intro r member input listed offline normalized gone key
    obtain ⟨inside, online⟩ := List.mem_filter.mp (mem_sortByRecordKey.mp member)
    exact later_than_offline inside (by simpa using online) ((members offline).mpr ⟨input, listed, normalized⟩) gone key
  · simp only [summarizePresence, readNow, bind, Except.bind, select, selectAll]

/-! ### A sample -/

def sampleSession : PresenceIdentifier where
  text := js "a"
  trimmed := by decide +kernel
  nonempty := by decide +kernel
  short := by decide +kernel
  matched := by decide +kernel

def sampleStart : PresenceTimestamp where
  text := js "2026-01-01T00:00:00.000Z"
  moment := ⟨2026, 1, 1, 0, 0, 0, 0⟩
  reads := by rfl
  canonical := by decide +kernel
  full := by decide +kernel

def sampleTypingEnd : PresenceTimestamp where
  text := js "2026-01-01T00:00:01.000Z"
  moment := ⟨2026, 1, 1, 0, 0, 1, 0⟩
  reads := by rfl
  canonical := by decide +kernel
  full := by decide +kernel

def sampleEnd : PresenceTimestamp where
  text := js "2026-01-01T00:00:03.000Z"
  moment := ⟨2026, 1, 1, 0, 0, 3, 0⟩
  reads := by rfl
  canonical := by decide +kernel
  full := by decide +kernel

def sampleTyping : PresenceRecord where
  participantId := sampleSession
  deviceId := none
  sessionId := sampleSession
  participantKind := .human
  state := .active
  assistantActivity := none
  typing := true
  updatedAt := sampleStart
  expiresAt := sampleEnd
  typingExpiresAt := some sampleTypingEnd
  lives := by decide +kernel
  assistant := by decide
  typed := rfl
  typingLives := by decide +kernel
  silent := by decide

instance (lifetimes : JsString → PresenceLifetimes) (r : PresenceRecord) : Decidable (KeepsTo lifetimes r) :=
  inferInstanceAs (Decidable (_ ∧ _))

def sampleOther : PresenceRecord :=
  { sampleTyping with sessionId := ⟨js "b", by decide +kernel, by decide +kernel, by decide +kernel, by decide +kernel⟩ }

def sampleGone : PresenceRecord :=
  { sampleOther with
    state := .offline
    typing := false
    typingExpiresAt := none
    typed := Option.isSome_none
    typingLives := fun t named => absurd named (Option.not_mem_none t)
    silent := fun _ => ⟨rfl, rfl⟩ }

def sampleRecords : List PresenceRecord := [sampleTyping, sampleOther, sampleGone]

/-- The record of the second session arrives after the one that says that it is gone. -/
def sampleHistory : History :=
  .merged (.pruned (.merged (.received [sampleGone.toJson]) (.received [sampleTyping.toJson]))
    (sampleTypingEnd.milliseconds + 1)) (.received [sampleOther.toJson, sampleTyping.toJson])

theorem presence_independent_redelivered :
    ∃ held merged shown, sampleHistory.result = .ok held ∧
      mergePresenceRecords [] (sampleRecords.map PresenceRecord.toJson) = .ok merged ∧
      selectActivePresenceRecords held (some (sampleTypingEnd.milliseconds + 1)) = .ok shown ∧
      selectActivePresenceRecords (merged.map PresenceRecord.toJson) (some (sampleTypingEnd.milliseconds + 1)) = .ok shown ∧
      ∀ r ∈ shown, getPresenceRecordKey sampleGone = getPresenceRecordKey r →
        sampleGone.updatedAt.milliseconds < r.updatedAt.milliseconds := by
  have valid : ∀ input ∈ sampleRecords.map PresenceRecord.toJson, isPresenceRecord input = true := by
    intro input member
    obtain ⟨r, -, rfl⟩ := List.mem_map.mp member
    rw [isPresenceRecord, normalizePresenceRecord_toJson]
  have keeps : ∀ input ∈ sampleRecords.map PresenceRecord.toJson, ∀ r, normalizePresenceRecord input = .ok r →
      KeepsTo (fun _ => ⟨3000, 1000⟩) r := by
    intro input member r accepted
    obtain ⟨r, listed, rfl⟩ := List.mem_map.mp member
    obtain rfl := Except.ok.inj ((normalizePresenceRecord_toJson r).symm.trans accepted)
    have each : ∀ r ∈ sampleRecords, KeepsTo (fun _ => ⟨3000, 1000⟩) r := by decide +kernel
    exact each r listed
  have same (input : Json) : input ∈ sampleHistory.records ↔ input ∈ sampleRecords.map PresenceRecord.toJson := by
    simp only [sampleHistory, sampleRecords, History.records, List.map_cons, List.map_nil, List.mem_append, List.mem_cons,
      List.not_mem_nil, or_false]
    tauto
  have independent := (presence_independent valid keeps).1 sampleHistory (sampleTypingEnd.milliseconds + 1) trivial same
    (by simp [sampleHistory, History.prunes])
  obtain ⟨held, merged, shown, result, all, select, selectAll, gone, -⟩ := independent
  exact ⟨held, merged, shown, result, all, select, selectAll, fun r member =>
    gone r member _ (List.mem_map.mpr ⟨sampleGone, by simp [sampleRecords], rfl⟩) sampleGone
      (normalizePresenceRecord_toJson sampleGone) rfl⟩

end Handrail.Presence
