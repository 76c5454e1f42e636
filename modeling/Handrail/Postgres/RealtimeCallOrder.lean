import Handrail.Postgres.DispatchOnce
import Handrail.Postgres.RealtimeCallSafety

/-!
# The order in which a realtime call is read

A workspace monitor takes a status that goes back for a regression. A lease is judged when a call is read, and a renewal
is written by the version of the call alone.
-/

namespace Handrail.Postgres
open Js Concurrent

/-- `statuses` of the workspace monitor. -/
def workspaceStatuses : List RealtimeCallStatus := [.admitted, .starting, .active, .uncertain, .ending, .ended]

def RealtimeCallStatus.rank (status : RealtimeCallStatus) : Nat := workspaceStatuses.idxOf status

def ReadsOrdered (reads : List RealtimeCallRead) : Prop :=
  ∀ (i j : Nat) (a b : RealtimeCallRead), reads[i]? = some a → reads[j]? = some b → a.key = b.key → i < b.earlier →
    a.status.rank ≤ b.status.rank

/-- The steps under consideration: the clock does not go back, no lease is renewed when it has expired, and no read takes a
lease for expired that was renewed since. -/
def keepsLeases : RealtimeCallOp → RealtimeCallState → Bool
  | .setClock now, s => decide (s.clock ≤ now)
  | .judge key _ record, s =>
    !(decide (record.leaseExpiresAt ≤ s.clock.toNat) && record.status.isLeased) ||
      (s.calls key).all fun d =>
        decide (RealtimeCallStatus.uncertain.rank ≤ (observedStatus s.clock.toNat d.record).rank)
  | .write (.renewLease _) key expectedVersion value, s =>
    (s.calls key).all fun d => decide (expectedVersion ≠ some d.version) ||
      (decide (s.clock.toNat < d.record.leaseExpiresAt) || decide (value.leaseExpiresAt ≤ s.clock.toNat))
  | _, _ => true

/-! ### Ranks -/

theorem rank_ended (status : RealtimeCallStatus) : status.rank ≤ RealtimeCallStatus.ended.rank := by
  cases status <;> decide

theorem rank_leased {status : RealtimeCallStatus} (leased : status.isLeased = true) :
    status.rank ≤ RealtimeCallStatus.uncertain.rank := by
  cases status <;> first | decide | cases leased

theorem rank_observed (now : Nat) (record : RealtimeCallRecord) : record.status.rank ≤ (observedStatus now record).rank := by
  rcases observedStatus_cases now record with same | ⟨uncertain, leased, -⟩
  · rw [same]
  · rw [uncertain]
    exact rank_leased leased

theorem observed_expired {now : Nat} {record : RealtimeCallRecord} (expired : record.leaseExpiresAt ≤ now)
    (leased : record.status.isLeased = true) : observedStatus now record = .uncertain := if_pos ⟨expired, leased⟩

theorem observed_held {now : Nat} {record : RealtimeCallRecord} (held : now < record.leaseExpiresAt) :
    observedStatus now record = record.status := if_neg fun expired => by omega

theorem rank_later {now later : Nat} (record : RealtimeCallRecord) (forward : now ≤ later) :
    (observedStatus now record).rank ≤ (observedStatus later record).rank := by
  rcases observedStatus_cases now record with same | ⟨uncertain, leased, expired⟩
  · rw [same]
    exact rank_observed later record
  · rw [uncertain, observed_expired (Nat.le_trans expired forward) leased]

theorem readNow_toNat {clock : Int} {now : Nat} (read : readNow clock = some now) : now = clock.toNat := by
  unfold readNow at read
  split at read
  · exact (Option.some.inj read).symm
  · cases read

theorem rank_unleased {status : RealtimeCallStatus} (unleased : status.isLeased = false) :
    RealtimeCallStatus.uncertain.rank ≤ status.rank := by
  cases status <;> first | decide | cases unleased

theorem rank_same_lease {a b : RealtimeCallRecord} (now : Nat) (lease : b.leaseExpiresAt = a.leaseExpiresAt)
    (status : a.status.rank ≤ b.status.rank) : (observedStatus now a).rank ≤ (observedStatus now b).rank := by
  rcases observedStatus_cases now a with same | ⟨uncertain, -, expired⟩
  · rw [same]
    exact Nat.le_trans status (rank_observed now b)
  · rw [uncertain]
    cases leased : b.status.isLeased with
    | true => rw [observed_expired (lease ▸ expired) leased]
    | false => exact Nat.le_trans (rank_unleased leased) (rank_observed now b)

theorem rank_changes {record changed : RealtimeCallRecord} {callId : JsString} {request : RealtimeCallRequest} {now clock : Nat}
    (valid : validRecord record callId = true) (changes : Changes (observed now record) request changed)
    (different : observed now record ≠ changed) (updatedAt : Nat)
    (keeps : ∀ workerId, request = .renewLease workerId → clock < record.leaseExpiresAt ∨ changed.leaseExpiresAt ≤ clock) :
    record.status.rank ≤ changed.status.rank ∧
    (observedStatus clock record).rank ≤ (observedStatus clock { changed with updatedAt }).rank := by
  have lawful := changes_lawful valid changes different updatedAt
  cases changes with
  | begun own admitted =>
    have status : record.status.rank ≤ RealtimeCallStatus.starting.rank := by
      rw [status_of_observed admitted (by simp)]
      decide
    exact ⟨status, rank_same_lease clock rfl status⟩
  | attached own started fits =>
    have status : record.status.rank ≤ (if (observed now record).status = .starting then RealtimeCallStatus.active
        else (observed now record).status).rank := by
      split
      · rename_i starting
        rw [status_of_observed starting (by simp)]
        decide
      · exact rank_observed now record
    exact ⟨status, rank_same_lease clock rfl status⟩
  | @renewed workerId own leased leaseExpiresAt =>
    refine ⟨rank_observed now record, ?_⟩
    rcases keeps workerId rfl with held | expired
    · have above := rank_observed clock ({ observed now record with leaseExpiresAt, updatedAt } : RealtimeCallRecord)
      rw [observed_held held]
      exact Nat.le_trans (rank_observed now record) above
    · have lapsed : observedStatus clock ({ observed now record with leaseExpiresAt, updatedAt } : RealtimeCallRecord) =
          .uncertain := observed_expired expired leased
      refine Nat.le_trans ?_ (Nat.le_of_eq (congrArg RealtimeCallStatus.rank lapsed.symm))
      rcases observedStatus_cases clock record with same | ⟨uncertain, -, -⟩
      · rw [same]
        exact Nat.le_trans (rank_observed now record) (rank_leased leased)
      · rw [uncertain]
  | ending =>
    have status : record.status.rank ≤ (if (observed now record).status = .ended ∨ !(observed now record).creationStarted then
        RealtimeCallStatus.ended else .ending).rank := by
      split
      · exact rank_ended _
      · have unended := lawful.unended
        cases found : record.status <;> first | decide | exact (unended found).elim
    exact ⟨status, rank_same_lease clock rfl status⟩
  | confirmed closing named => exact ⟨rank_ended _, rank_same_lease clock rfl (rank_ended _)⟩

/-! ### What was read -/

def RealtimeCallState.Shows (s : RealtimeCallState) (read : RealtimeCallRead) : Prop :=
  ∃ d, s.calls read.key = some d ∧ read.status.rank ≤ (observedStatus s.clock.toNat d.record).rank

structure CallReads (s : RealtimeCallState) : Prop where
  shows : ∀ read ∈ s.reads, s.Shows read
  earlier : ∀ (j : Nat) (read : RealtimeCallRead), s.reads[j]? = some read → read.earlier ≤ j
  ordered : ReadsOrdered s.reads

structure ReadsEvolve (s t : RealtimeCallState) : Prop where
  clock : s.clock ≤ t.clock
  calls : ∀ key d, s.calls key = some d → ∃ e, t.calls key = some e ∧ d.record.status.rank ≤ e.record.status.rank ∧
    (observedStatus s.clock.toNat d.record).rank ≤ (observedStatus t.clock.toNat e.record).rank
  reads : s.reads <+: t.reads

theorem ReadsEvolve.refl (s : RealtimeCallState) : ReadsEvolve s s where
  clock := Int.le_refl _
  calls _ d found := ⟨d, found, Nat.le_refl _, Nat.le_refl _⟩
  reads := List.prefix_refl _

theorem ReadsEvolve.trans {s t u : RealtimeCallState} (st : ReadsEvolve s t) (tu : ReadsEvolve t u) : ReadsEvolve s u where
  clock := Int.le_trans st.clock tu.clock
  calls key d found := by
    obtain ⟨e, here, status, observed⟩ := st.calls key d found
    obtain ⟨f, there, status', observed'⟩ := tu.calls key e here
    exact ⟨f, there, Nat.le_trans status status', Nat.le_trans observed observed'⟩
  reads := st.reads.trans tu.reads

theorem ReadsEvolve.shows {s t : RealtimeCallState} {read : RealtimeCallRead} (evolves : ReadsEvolve s t)
    (shows : s.Shows read) : t.Shows read := by
  obtain ⟨d, found, below⟩ := shows
  obtain ⟨e, here, -, observed⟩ := evolves.calls read.key d found
  exact ⟨e, here, Nat.le_trans below observed⟩

theorem CallReads.later {s t : RealtimeCallState} (held : CallReads s) (evolves : ReadsEvolve s t) (same : t.reads = s.reads) :
    CallReads t where
  shows read member := evolves.shows (held.shows read (same ▸ member))
  earlier j read at_ := held.earlier j read (same ▸ at_)
  ordered := same ▸ held.ordered

theorem CallReads.answered {s t : RealtimeCallState} {key : DocumentKey} {document : Versioned RealtimeCallRecord} {now : Nat}
    (found : s.calls key = some document) (before : CallReads s) (evolves : ReadsEvolve s t) (held : CallReads t)
    (keeps : keepsLeases (.judge key s.reads.length document.record) t = true) (read : readNow t.clock = some now) :
    CallReads (t.answered ⟨key, s.reads.length, observedStatus now document.record⟩) := by
  obtain rfl := readNow_toNat read
  have shown : t.Shows ⟨key, s.reads.length, observedStatus t.clock.toNat document.record⟩ := by
    obtain ⟨e, here, status, -⟩ := evolves.calls key document found
    refine ⟨e, here, ?_⟩
    rcases observedStatus_cases t.clock.toNat document.record with same | ⟨uncertain, leased, expired⟩
    · simp only [same]
      exact Nat.le_trans status (rank_observed _ e.record)
    · simp only [uncertain]
      simpa [keepsLeases, expired, leased, here] using keeps
  have split (j : Nat) (b : RealtimeCallRead)
      (at_ : (t.answered ⟨key, s.reads.length, observedStatus t.clock.toNat document.record⟩).reads[j]? = some b) :
      t.reads[j]? = some b ∨ (j = t.reads.length ∧ b = ⟨key, s.reads.length, observedStatus t.clock.toNat document.record⟩) := by
    rw [RealtimeCallState.answered, List.getElem?_append] at at_
    split at at_
    · exact .inl at_
    · rename_i beyond
      cases place : j - t.reads.length with
      | zero =>
        rw [place] at at_
        exact .inr ⟨by omega, (Option.some.inj at_).symm⟩
      | succ k => simp [place] at at_
  refine ⟨fun r member => ?_, fun j b at_ => ?_, fun i j a b atA atB same before_ => ?_⟩
  · rcases List.mem_append.mp member with old | new
    · exact held.shows r old
    · rw [List.mem_singleton.mp new]
      exact shown
  · rcases split j b at_ with old | ⟨rfl, rfl⟩
    · exact held.earlier j b old
    · exact evolves.reads.length_le
  · rcases split j b atB with old | ⟨rfl, rfl⟩
    · rcases split i a atA with older | ⟨rfl, -⟩
      · exact held.ordered i j a b older old same before_
      · -- A read comes after those that had answered before it.
        have inside := (List.getElem?_eq_some_iff.mp old).1
        have bound := held.earlier j b old
        omega
    · have older : s.reads[i]? = some a := by
        rcases split i a atA with older | ⟨rfl, -⟩
        · obtain ⟨rest, whole⟩ := evolves.reads
          rwa [← whole, List.getElem?_append_left before_] at older
        · exact absurd before_ (Nat.not_lt.mpr evolves.reads.length_le)
      obtain ⟨d, here, below⟩ := before.shows a (List.mem_of_getElem? older)
      rw [same, found] at here
      obtain rfl := Option.some.inj here
      exact Nat.le_trans below (rank_later _ (Int.toNat_le_toNat evolves.clock))

/-! ### Schedules that keep leases -/

section
variable {s : RealtimeCallState} {key : DocumentKey} {request : RealtimeCallRequest} {expectedVersion : Option Nat}
  {value : RealtimeCallRecord}

theorem reads_write (above : ∀ d, s.calls key = some d → d.record.status.rank ≤ value.status.rank ∧
      (observedStatus s.clock.toNat d.record).rank ≤ (observedStatus s.clock.toNat value).rank) :
    ReadsEvolve s (s.commit request key expectedVersion value) where
  clock := Int.le_refl _
  calls k d found := by
    by_cases same : k = key
    · subst same
      obtain ⟨status, seen⟩ := above d found
      exact ⟨_, Documents.put_self .., status, seen⟩
    · exact ⟨d, (Documents.put_other s.calls _ same).trans found, Nat.le_refl _, Nat.le_refl _⟩
  reads := List.prefix_refl _

theorem reads_create (absent : s.calls key = none) : ReadsEvolve s (s.commit request key expectedVersion value) :=
  reads_write fun d found => (Option.some_ne_none d (found.symm.trans absent)).elim

theorem reads_update {d : Versioned RealtimeCallRecord} (found : s.calls key = some d)
    (above : d.record.status.rank ≤ value.status.rank ∧
      (observedStatus s.clock.toNat d.record).rank ≤ (observedStatus s.clock.toNat value).rank) :
    ReadsEvolve s (s.commit request key expectedVersion value) := reads_write fun e here => by
  obtain rfl := Option.some.inj (here.symm.trans found)
  exact above

end

def callOrder : RealtimeCallClaim where
  invariant := CallReads
  evolves := ReadsEvolve
  meets op s := keepsLeases op s = true
  told _ _ := True
  refl := .refl
  trans := .trans
  stable _ _ := trivial
  rejected _ _ _ := trivial
  found _ _ _ := trivial
  existing _ _ _ := trivial
  unchanged _ _ _ _ _ := trivial
  clock now s held keeps := by
    have forward : s.clock ≤ now := by simpa [keepsLeases] using keeps
    have evolves : ReadsEvolve s { s with clock := now } := {
      clock := forward
      calls := fun key d found => ⟨d, found, Nat.le_refl _, rank_later _ (Int.toNat_le_toNat forward)⟩
      reads := List.prefix_refl _ }
    exact ⟨held.later evolves rfl, evolves⟩
  answers found before evolves held keeps read := by
    refine ⟨CallReads.answered found before evolves held keeps read, ?_⟩
    exact {
      clock := Int.le_refl _
      calls := (ReadsEvolve.refl _).calls
      reads := List.prefix_append _ _ }
  admits _ _ absent held _ _ _ := ⟨held.later (reads_create absent) rfl, reads_create absent, fun _ => trivial⟩
  writes found held valid _ _ changes different updated _ keeps := by
    obtain ⟨updatedAt, rfl⟩ := updated
    have above := rank_changes valid changes different updatedAt fun workerId asked => by
      rw [asked] at keeps
      simpa [keepsLeases, found] using keeps
    exact ⟨held.later (reads_update found above) rfl, reads_update found above, fun _ => trivial⟩

def sampleJob (request : RealtimeCallRequest) : RealtimeCallJob :=
  ⟨⟨js "tenant", js "scope", js "call"⟩, ⟨1000, by decide⟩, request⟩

def callTurns (process count : Nat) : List (Action Fault RealtimeCallLabel) := List.replicate count (.advance process .none)

def sampleClock (process : Nat) (now : Int) : List (Action Fault RealtimeCallLabel) :=
  [.start (.clock now), .advance process .none]

/-- A worker admits a call at the time 0 and renews its lease of a second at 500. The call is read at 1000 and at 1500. -/
def renewedLease : List (Action Fault RealtimeCallLabel) :=
  .start (.request (sampleJob (.admit_ (js "conversation") (js "worker") (js "input")))) :: callTurns 0 6 ++
    sampleClock 1 500 ++ .start (.request (sampleJob (.renewLease (js "worker")))) :: callTurns 2 9 ++
    sampleClock 3 1000 ++ .start (.request (sampleJob .get)) :: callTurns 4 4 ++
    sampleClock 5 1500 ++ .start (.request (sampleJob .get)) :: callTurns 6 4

section
variable (sha256 : JsString → JsString)

instance : DecidablePred (callOrder.contract sha256).starts := fun _ => .isTrue trivial

instance (kind : Unit) (fault : Fault) : Decidable ((callOrder.contract sha256).fair kind fault) := .isTrue trivial

instance (op : RealtimeCallOp) (s : RealtimeCallState) : Decidable ((callOrder.contract sha256).meets op s) :=
  inferInstanceAs (Decidable (keepsLeases op s = true))

end

def ClockForward (sha256 : JsString → JsString) : RealtimeCalls → List (Action Fault RealtimeCallLabel) → Prop
  | _, [] => True
  | s, action :: rest =>
    s.shared.clock ≤ ((realtimeCallCode sha256).step s action).shared.clock ∧
      ClockForward sha256 ((realtimeCallCode sha256).step s action) rest

instance decidableClockForward (sha256 : JsString → JsString) :
    (s : RealtimeCalls) → (actions : List (Action Fault RealtimeCallLabel)) → Decidable (ClockForward sha256 s actions)
  | _, [] => .isTrue trivial
  | s, action :: rest =>
    let _ := decidableClockForward sha256 ((realtimeCallCode sha256).step s action) rest
    inferInstanceAs (Decidable (_ ∧ _))

/-- A worker reads the call at 999, and renews its lease after the call was read as uncertain at 1000. -/
def lateRenewal : List (Action Fault RealtimeCallLabel) :=
  .start (.request (sampleJob (.admit_ (js "conversation") (js "worker") (js "input")))) :: callTurns 0 6 ++
    sampleClock 1 999 ++ .start (.request (sampleJob (.renewLease (js "worker")))) :: callTurns 2 4 ++ sampleClock 3 1000 ++
    .start (.request (sampleJob .get)) :: callTurns 4 4 ++ callTurns 2 5 ++
    .start (.request (sampleJob .get)) :: callTurns 5 4

end Handrail.Postgres
