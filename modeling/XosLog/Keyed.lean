import Mathlib.Data.List.Induction

/-!
# Lists keyed by a projection

An association list whose entries carry their own key.  Inserting an entry
replaces the one with the same key in place, or appends it.  Keys stay pairwise
distinct, and a lookup after a sequence of insertions finds the last one made
under the key.
-/

namespace Keyed

universe u v

variable {α : Type u} {κ : Type v} [DecidableEq κ] (key : α → κ)

/-- Replace the entry with the same key in place, or append a new one. -/
def upsert : List α → α → List α
  | [], entry => [entry]
  | existing :: rest, entry =>
      if key existing = key entry then entry :: rest
      else existing :: upsert rest entry

theorem mem_map_upsert (entries : List α) (entry : α) (k : κ) :
    k ∈ (upsert key entries entry).map key ↔ k ∈ entries.map key ∨ k = key entry := by
  induction entries with
  | nil => simp [upsert]
  | cons existing rest ih =>
      unfold upsert
      split
      · rename_i same
        simp only [List.map_cons, List.mem_cons, same]
        tauto
      · simp only [List.map_cons, List.mem_cons, ih]
        tauto

/-- Insertion keeps the keys pairwise distinct. -/
theorem nodup_upsert {entries : List α} (distinct : (entries.map key).Nodup) (entry : α) :
    ((upsert key entries entry).map key).Nodup := by
  induction entries with
  | nil => simp [upsert]
  | cons existing rest ih =>
      rw [List.map_cons, List.nodup_cons] at distinct
      unfold upsert
      split
      · rename_i same
        rw [List.map_cons, List.nodup_cons, ← same]
        exact distinct
      · rename_i different
        rw [List.map_cons, List.nodup_cons, mem_map_upsert]
        constructor
        · rintro (member | same)
          · exact distinct.1 member
          · exact different same
        · exact ih distinct.2

/-- A lookup sees the new entry under its key and the old ones elsewhere. -/
theorem find?_upsert (entries : List α) (entry : α) (k : κ) :
    (upsert key entries entry).find? (fun e => decide (key e = k)) =
      if key entry = k then some entry
      else entries.find? (fun e => decide (key e = k)) := by
  induction entries with
  | nil => by_cases same : key entry = k <;> simp [upsert, same]
  | cons existing rest ih =>
      unfold upsert
      split
      · rename_i same
        simp only [List.find?_cons, same]
        split <;> simp_all
      · rename_i different
        simp only [List.find?_cons, ih]
        split <;> split <;> simp_all

/-- A lookup after a sequence of insertions finds the last one under the key. -/
theorem find?_foldl_upsert (entries : List α) (k : κ) :
    (entries.foldl (upsert key) []).find? (fun e => decide (key e = k)) =
      (entries.filter fun e => decide (key e = k)).getLast? := by
  induction entries using List.reverseRecOn with
  | nil => rfl
  | append_singleton entries entry ih =>
      rw [List.foldl_append, List.foldl_cons, List.foldl_nil, find?_upsert, ih, List.filter_append]
      split
      · simp [*]
      · simp [*]

/-- With distinct keys an entry is what a lookup of its key finds. -/
theorem find?_of_mem {entries : List α} (distinct : (entries.map key).Nodup) {entry : α}
    (member : entry ∈ entries) :
    entries.find? (fun e => decide (key e = key entry)) = some entry := by
  induction entries with
  | nil => simp at member
  | cons existing rest ih =>
      rw [List.map_cons, List.nodup_cons] at distinct
      rcases List.mem_cons.mp member with rfl | later
      · simp
      · have different : key existing ≠ key entry := fun same =>
          distinct.1 (same ▸ List.mem_map_of_mem later)
        rw [List.find?_cons, decide_eq_false different]
        exact ih distinct.2 later

/-- Insertion restricts to the entries that a property of keys selects. -/
theorem filter_upsert {p : α → Bool} (ofKey : ∀ first second, key first = key second →
      p first = p second) (entries : List α) (entry : α) :
    (upsert key entries entry).filter p =
      if p entry then upsert key (entries.filter p) entry else entries.filter p := by
  induction entries with
  | nil => by_cases selected : p entry = true <;> simp [upsert, selected]
  | cons existing rest ih =>
      by_cases same : key existing = key entry
      · have alike := ofKey existing entry same
        by_cases selected : p entry = true <;> simp [upsert, same, alike, selected]
      · by_cases selected : p existing = true
        · rw [upsert, if_neg same, List.filter_cons_of_pos selected,
            List.filter_cons_of_pos selected, ih, upsert, if_neg same]
          split <;> rfl
        · rw [upsert, if_neg same, List.filter_cons_of_neg selected,
            List.filter_cons_of_neg selected, ih]

theorem filter_foldl_upsert {p : α → Bool} (ofKey : ∀ first second, key first = key second →
      p first = p second) (entries base : List α) :
    (entries.foldl (upsert key) base).filter p =
      (entries.filter p).foldl (upsert key) (base.filter p) := by
  induction entries generalizing base with
  | nil => rfl
  | cons entry entries ih =>
      rw [List.foldl_cons, ih, filter_upsert key ofKey]
      by_cases selected : p entry = true
      · rw [List.filter_cons_of_pos selected, List.foldl_cons, if_pos selected]
      · rw [List.filter_cons_of_neg selected, if_neg selected]

/-! ## Order and composition of insertions -/

theorem map_upsert_of_mem {entries : List α} {entry : α} (present : key entry ∈ entries.map key) :
    (upsert key entries entry).map key = entries.map key := by
  induction entries with
  | nil => contradiction
  | cons existing rest ih =>
      unfold upsert
      split
      · rename_i same
        rw [List.map_cons, List.map_cons, same]
      · rename_i different
        rw [List.map_cons, List.mem_cons] at present
        have later := present.resolve_left (Ne.symm different)
        rw [List.map_cons, List.map_cons, ih later]

theorem upsert_of_not_mem {entries : List α} {entry : α} (absent : key entry ∉ entries.map key) :
    upsert key entries entry = entries ++ [entry] := by
  induction entries with
  | nil => rfl
  | cons existing rest ih =>
      rw [List.map_cons, List.mem_cons, not_or] at absent
      rw [upsert, if_neg (Ne.symm absent.1), ih absent.2, List.cons_append]

theorem mem_map_foldl_upsert (entries base : List α) (k : κ) :
    k ∈ (entries.foldl (upsert key) base).map key ↔ k ∈ base.map key ∨ k ∈ entries.map key := by
  induction entries generalizing base with
  | nil => simp
  | cons entry entries ih =>
      rw [List.foldl_cons, ih, mem_map_upsert, List.map_cons, List.mem_cons, or_assoc]

theorem nodup_foldl_upsert (entries : List α) {base : List α}
    (distinct : (base.map key).Nodup) : ((entries.foldl (upsert key) base).map key).Nodup := by
  induction entries generalizing base with
  | nil => exact distinct
  | cons entry entries ih => exact ih (nodup_upsert key distinct entry)

/-- Keys stand in the order of their first insertion. -/
theorem pairwise_idxOf_foldl_upsert [BEq κ] [LawfulBEq κ] (entries : List α) :
    ((entries.foldl (upsert key) []).map key).Pairwise fun first second =>
      (entries.map key).idxOf first < (entries.map key).idxOf second := by
  induction entries using List.reverseRecOn with
  | nil => exact List.Pairwise.nil
  | append_singleton entries entry ih =>
      have inserted : ∀ k ∈ (entries.foldl (upsert key) []).map key, k ∈ entries.map key := by
        intro k member
        simpa [-List.mem_map] using (mem_map_foldl_upsert key entries [] k).mp member
      have kept : ((entries.foldl (upsert key) []).map key).Pairwise fun first second =>
          (entries.map key ++ [key entry]).idxOf first <
            (entries.map key ++ [key entry]).idxOf second := by
        apply ih.imp_of_mem
        intro first second firstMember secondMember before
        rw [List.idxOf_append, List.idxOf_append, if_pos (inserted first firstMember),
          if_pos (inserted second secondMember)]
        exact before
      rw [List.foldl_append, List.foldl_cons, List.foldl_nil, List.map_append, List.map_singleton]
      by_cases present : key entry ∈ (entries.foldl (upsert key) []).map key
      · rw [map_upsert_of_mem key present]
        exact kept
      · have fresh : key entry ∉ entries.map key := by
          intro member
          exact present ((mem_map_foldl_upsert key entries [] _).mpr (Or.inr member))
        rw [upsert_of_not_mem key present, List.map_append, List.map_singleton,
          List.pairwise_append]
        refine ⟨kept, List.pairwise_singleton _ _, ?_⟩
        intro first member second last
        obtain rfl := List.mem_singleton.mp last
        have early := inserted first member
        rw [List.idxOf_append, List.idxOf_append, if_pos early, if_neg fresh]
        have position := List.idxOf_lt_length_iff.mpr early
        exact Nat.lt_of_lt_of_le position (Nat.le_add_left _ _)

/-- Inserting an entry that is there changes nothing. -/
theorem upsert_of_mem {entries : List α} (distinct : (entries.map key).Nodup) {entry : α}
    (member : entry ∈ entries) : upsert key entries entry = entries := by
  induction entries with
  | nil => contradiction
  | cons existing rest ih =>
      rw [List.map_cons, List.nodup_cons] at distinct
      rcases List.mem_cons.mp member with rfl | later
      · rw [upsert, if_pos rfl]
      · have different : key existing ≠ key entry := fun same =>
          distinct.1 (same ▸ List.mem_map_of_mem later)
        rw [upsert, if_neg different, ih distinct.2 later]

theorem foldl_upsert_of_subset {entries base : List α} (distinct : (base.map key).Nodup)
    (subset : entries ⊆ base) : entries.foldl (upsert key) base = base := by
  induction entries with
  | nil => rfl
  | cons entry entries ih =>
      rw [List.cons_subset] at subset
      rw [List.foldl_cons, upsert_of_mem key distinct subset.1, ih subset.2]

/-- Of two insertions under one key only the second counts. -/
theorem upsert_upsert_self (entries : List α) {first second : α} (same : key first = key second) :
    upsert key (upsert key entries first) second = upsert key entries second := by
  induction entries with
  | nil => simp [upsert, same]
  | cons existing rest ih =>
      by_cases hit : key existing = key second
      · simp [upsert, same, hit]
      · simp [upsert, same, hit, ih]

/-- Replacing an entry commutes with inserting another key. -/
theorem upsert_comm {entries : List α} {entry other : α}
    (present : key entry ∈ entries.map key) (different : key other ≠ key entry) :
    upsert key (upsert key entries other) entry = upsert key (upsert key entries entry) other := by
  induction entries with
  | nil => contradiction
  | cons existing rest ih =>
      by_cases hit : key existing = key entry
      · have miss : key existing ≠ key other := fun same => different (same.symm.trans hit)
        simp [upsert, hit, Ne.symm different]
      · rw [List.map_cons, List.mem_cons] at present
        have later := present.resolve_left (Ne.symm hit)
        by_cases taken : key existing = key other
        · simp [upsert, taken, different]
        · simp [upsert, taken, hit, ih later]

theorem foldl_upsert_comm (entries : List α) {base : List α} {entry : α}
    (present : key entry ∈ base.map key) (absent : key entry ∉ entries.map key) :
    upsert key (entries.foldl (upsert key) base) entry =
      entries.foldl (upsert key) (upsert key base entry) := by
  induction entries generalizing base with
  | nil => rfl
  | cons first entries ih =>
      rw [List.map_cons, List.mem_cons, not_or] at absent
      rw [List.foldl_cons, List.foldl_cons, ← upsert_comm key present (Ne.symm absent.1)]
      exact ih ((mem_map_upsert key base first _).mpr (Or.inl present)) absent.2

/-- Inserting a list to which an entry was added adds the entry last. -/
theorem foldl_upsert_upsert {entries : List α} (distinct : (entries.map key).Nodup)
    (base : List α) (entry : α) :
    (upsert key entries entry).foldl (upsert key) base =
      upsert key (entries.foldl (upsert key) base) entry := by
  induction entries generalizing base with
  | nil => rfl
  | cons existing rest ih =>
      rw [List.map_cons, List.nodup_cons] at distinct
      by_cases hit : key existing = key entry
      · have present : key entry ∈ (upsert key base existing).map key :=
          (mem_map_upsert key base existing _).mpr (Or.inr hit.symm)
        rw [upsert, if_pos hit, List.foldl_cons, List.foldl_cons,
          foldl_upsert_comm key rest present (hit ▸ distinct.1), upsert_upsert_self key base hit]
      · rw [upsert, if_neg hit, List.foldl_cons, List.foldl_cons, ih distinct.2]

/-- Inserting the result of a sequence of insertions is making them. -/
theorem foldl_upsert_foldl (entries base : List α) :
    (entries.foldl (upsert key) []).foldl (upsert key) base =
      entries.foldl (upsert key) base := by
  induction entries using List.reverseRecOn with
  | nil => rfl
  | append_singleton entries entry ih =>
      have distinct : ((entries.foldl (upsert key) []).map key).Nodup :=
        nodup_foldl_upsert key entries List.nodup_nil
      rw [List.foldl_append, List.foldl_append, List.foldl_cons, List.foldl_nil, List.foldl_cons,
        List.foldl_nil, foldl_upsert_upsert key distinct, ih]

end Keyed
