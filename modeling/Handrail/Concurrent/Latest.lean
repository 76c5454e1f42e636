import Mathlib.Order.Defs.LinearOrder
import Mathlib.Order.Basic
import Mathlib.Data.List.Sort

/-!
# The latest record of a key

Replicas that keep of each key the greatest record they were given. What a replica shows of its records is a view: it
leaves some records out and reduces others, and it respects the order. Two replicas with the same latest records then
show the same, and it makes no difference whether a record is reduced before or after the others arrive.
-/

namespace Concurrent
variable {κ ρ : Type} [LinearOrder ρ] {key : ρ → κ} {xs ys zs : List ρ} {r s v : ρ}

def Latest (key : ρ → κ) (xs : List ρ) (r : ρ) : Prop := r ∈ xs ∧ ∀ s ∈ xs, key s = key r → s ≤ r

def SameLatest (key : ρ → κ) (xs ys : List ρ) : Prop := ∀ r, Latest key xs r ↔ Latest key ys r

theorem Latest.eq (first : Latest key xs r) (second : Latest key xs s) (same : key r = key s) : r = s :=
  le_antisymm (second.2 r first.1 same) (first.2 s second.1 same.symm)

theorem exists_latest (key : ρ → κ) (member : s ∈ xs) : ∃ r, Latest key xs r ∧ key r = key s ∧ s ≤ r := by
  induction xs generalizing s with
  | nil => cases member
  | cons x rest ih =>
    -- The latest of the rest, or the head where that is greater.
    have head (r : ρ) (latest : Latest key rest r) (same : key r = key x) (less : ¬x ≤ r) :
        Latest key (x :: rest) x := by
      refine ⟨List.mem_cons_self, fun s member sameKey => ?_⟩
      rcases List.mem_cons.mp member with rfl | later
      · exact le_refl _
      · exact (latest.2 s later (sameKey.trans same.symm)).trans (le_of_not_ge less)
    have tail (r : ρ) (latest : Latest key rest r) (fits : key x = key r → x ≤ r) : Latest key (x :: rest) r := by
      refine ⟨List.mem_cons_of_mem _ latest.1, fun s member sameKey => ?_⟩
      rcases List.mem_cons.mp member with rfl | later
      · exact fits sameKey
      · exact latest.2 s later sameKey
    rcases List.mem_cons.mp member with rfl | later
    · by_cases other : ∃ r, Latest key rest r ∧ key r = key s
      · obtain ⟨r, latest, same⟩ := other
        by_cases less : s ≤ r
        · exact ⟨r, tail r latest fun _ => less, same, less⟩
        · exact ⟨s, head r latest same less, rfl, le_refl s⟩
      · refine ⟨s, ⟨List.mem_cons_self, fun t member sameKey => ?_⟩, rfl, le_refl s⟩
        rcases List.mem_cons.mp member with rfl | later
        · exact le_refl _
        · obtain ⟨r, latest, same, -⟩ := ih later
          exact (other ⟨r, latest, same.trans sameKey⟩).elim
    · obtain ⟨r, latest, same, bound⟩ := ih later
      by_cases fits : key x = key r → x ≤ r
      · exact ⟨r, tail r latest fits, same, bound⟩
      · obtain ⟨sameKey, less⟩ := Classical.not_imp.mp fits
        exact ⟨x, head r latest sameKey.symm less, sameKey.trans same, bound.trans (le_of_not_ge less)⟩

namespace SameLatest

theorem refl (xs : List ρ) : SameLatest key xs xs := fun _ => Iff.rfl

theorem symm (same : SameLatest key xs ys) : SameLatest key ys xs := fun r => (same r).symm

theorem trans (first : SameLatest key xs ys) (second : SameLatest key ys zs) : SameLatest key xs zs :=
  fun r => (first r).trans (second r)

theorem of_members (same : ∀ r, r ∈ xs ↔ r ∈ ys) : SameLatest key xs ys := by
  intro r
  simp only [Latest, same]

theorem of_latest (tops : ∀ r, r ∈ xs ↔ Latest key ys r) : SameLatest key xs ys := by
  intro r
  constructor
  · intro latest
    exact (tops r).mp latest.1
  · intro latest
    refine ⟨(tops r).mpr latest, fun s member same => ?_⟩
    exact latest.2 s ((tops s).mp member).1 same

end SameLatest

theorem latest_append : Latest key (xs ++ ys) r ↔ (Latest key xs r ∨ Latest key ys r) ∧
    (∀ s, Latest key xs s → key s = key r → s ≤ r) ∧ ∀ s, Latest key ys s → key s = key r → s ≤ r := by
  constructor
  · rintro ⟨member, bound⟩
    have left (s : ρ) (inside : s ∈ xs) (same : key s = key r) : s ≤ r := bound s (List.mem_append_left _ inside) same
    have right (s : ρ) (inside : s ∈ ys) (same : key s = key r) : s ≤ r := bound s (List.mem_append_right _ inside) same
    refine ⟨?_, fun s latest => left s latest.1, fun s latest => right s latest.1⟩
    rcases List.mem_append.mp member with inside | inside
    · exact .inl ⟨inside, left⟩
    · exact .inr ⟨inside, right⟩
  · rintro ⟨either, left, right⟩
    refine ⟨?_, fun s member same => ?_⟩
    · rcases either with latest | latest
      · exact List.mem_append_left _ latest.1
      · exact List.mem_append_right _ latest.1
    · rcases List.mem_append.mp member with inside | inside
      · obtain ⟨t, latest, sameKey, bound⟩ := exists_latest key inside
        exact bound.trans (left t latest (sameKey.trans same))
      · obtain ⟨t, latest, sameKey, bound⟩ := exists_latest key inside
        exact bound.trans (right t latest (sameKey.trans same))

theorem latest_concat_greatest {c : ρ} (greatest : ∀ e, Latest key xs e → key e = key c → e ≤ c) :
    Latest key (xs ++ [c]) c := by
  refine ⟨List.mem_append_right _ (List.mem_singleton_self c), fun s member same => ?_⟩
  rcases List.mem_append.mp member with inside | last
  · obtain ⟨e, latest, sameKey, bound⟩ := exists_latest key inside
    exact bound.trans (greatest e latest (sameKey.trans same))
  · exact le_of_eq (List.mem_singleton.mp last)

theorem latest_concat_kept {c : ρ} (kept : key c = key r → c ≤ r) (latest : Latest key xs r) : Latest key (xs ++ [c]) r := by
  refine ⟨List.mem_append_left _ latest.1, fun s member same => ?_⟩
  rcases List.mem_append.mp member with inside | last
  · exact latest.2 s inside same
  · obtain rfl := List.mem_singleton.mp last
    exact kept same

theorem latest_of_concat {c : ρ} (latest : Latest key (xs ++ [c]) r) (other : key r ≠ key c) : Latest key xs r := by
  refine ⟨?_, fun s member same => latest.2 s (List.mem_append_left _ member) same⟩
  rcases List.mem_append.mp latest.1 with inside | last
  · exact inside
  · exact (other (congrArg key (List.mem_singleton.mp last))).elim

theorem SameLatest.append {us vs : List ρ} (left : SameLatest key xs us) (right : SameLatest key ys vs) :
    SameLatest key (xs ++ ys) (us ++ vs) := by
  intro r
  simp only [latest_append, left _, right _]

/-! ### Views -/

structure View (key : ρ → κ) (domain : ρ → Prop) (view : ρ → Option ρ) : Prop where
  keeps : ∀ {r v}, view r = some v → key v = key r
  inside : ∀ {r v}, domain r → view r = some v → domain v
  mono : ∀ {r s v}, domain r → domain s → key r = key s → r ≤ s → view r = some v → ∃ w, view s = some w ∧ v ≤ w

variable {domain : ρ → Prop} {view : ρ → Option ρ}

theorem View.latest (viewed : View key domain view) (within : ∀ r ∈ xs, domain r) :
    Latest key (xs.filterMap view) v ↔ ∃ r, Latest key xs r ∧ view r = some v := by
  constructor
  · rintro ⟨member, bound⟩
    obtain ⟨s, inside, shown⟩ := List.mem_filterMap.mp member
    obtain ⟨r, latest, same, less⟩ := exists_latest key inside
    obtain ⟨w, left, more⟩ := viewed.mono (within s inside) (within r latest.1) same.symm less shown
    have back : w ≤ v := by
      refine bound w (List.mem_filterMap.mpr ⟨r, latest.1, left⟩) ?_
      rw [viewed.keeps left, viewed.keeps shown, same]
    exact ⟨r, latest, by rw [left, le_antisymm back more]⟩
  · rintro ⟨r, latest, shown⟩
    refine ⟨List.mem_filterMap.mpr ⟨r, latest.1, shown⟩, fun w member same => ?_⟩
    obtain ⟨s, inside, left⟩ := List.mem_filterMap.mp member
    have sameKey : key s = key r := by rw [← viewed.keeps left, ← viewed.keeps shown, same]
    obtain ⟨u, again, more⟩ := viewed.mono (within s inside) (within r latest.1) sameKey (latest.2 s inside sameKey) left
    rwa [Option.some.inj (again.symm.trans shown)] at more

theorem View.same (viewed : View key domain view) (left : ∀ r ∈ xs, domain r) (right : ∀ r ∈ ys, domain r)
    (same : SameLatest key xs ys) : SameLatest key (xs.filterMap view) (ys.filterMap view) := by
  intro v
  rw [viewed.latest left, viewed.latest right]
  simp only [same _]

/-! ### One record for each key -/

theorem latest_of_distinct (distinct : (xs.map key).Nodup) : Latest key xs r ↔ r ∈ xs := by
  constructor
  · exact fun latest => latest.1
  · intro member
    refine ⟨member, fun s inside same => ?_⟩
    rw [List.inj_on_of_nodup_map distinct inside member same]

theorem SameLatest.eq [LinearOrder κ] (left : (xs.map key).Pairwise (· < ·)) (right : (ys.map key).Pairwise (· < ·))
    (same : SameLatest key xs ys) : xs = ys := by
  have members (r : ρ) : r ∈ xs ↔ r ∈ ys := by
    have nodup {keys : List κ} (sorted : keys.Pairwise (· < ·)) : keys.Nodup := sorted.imp fun less => ne_of_lt less
    rw [← latest_of_distinct (nodup left), ← latest_of_distinct (nodup right)]
    exact same r
  rw [List.pairwise_map] at left right
  have _ : Std.Antisymm fun a b => key a < key b := ⟨fun _ _ less more => (lt_asymm less more).elim⟩
  have _ : Std.Irrefl fun a b => key a < key b := ⟨fun _ => lt_irrefl _⟩
  exact left.eq_of_mem_iff right members

end Concurrent
