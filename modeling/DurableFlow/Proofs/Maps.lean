import Mathlib.Data.List.Induction
import Mathlib.Data.List.Nodup
import DurableFlow.SortedMap

/-! # What a map holds after each operation

`get?` describes a map completely, so every operation has one equation here that says what is found
afterwards. Entries are related to `get?` once, for statements that list a map.
-/

namespace DurableFlow.SortedMap

variable {κ α : Type} [Ord κ]

section Entries

variable [Std.LawfulEqOrd κ]

theorem mem_of_lookupEntry {key : κ} {value : α} {entries : List (κ × α)}
    (h : lookupEntry key entries = some value) : (key, value) ∈ entries := by
  induction entries with
  | nil => cases h
  | cons head rest ih =>
      simp only [lookupEntry] at h
      split at h
      next heq =>
        cases h
        have : key = head.1 := Std.LawfulEqCmp.eq_of_compare heq
        subst this
        exact List.mem_cons_self
      next => exact List.mem_cons_of_mem _ (ih h)

theorem lookupEntry_of_mem {key : κ} {value : α} {entries : List (κ × α)}
    (sorted : entries.Pairwise (fun a b => compare a.1 b.1 = .lt))
    (h : (key, value) ∈ entries) : lookupEntry key entries = some value := by
  induction entries with
  | nil => cases h
  | cons head rest ih =>
      obtain ⟨below, sorted⟩ := List.pairwise_cons.1 sorted
      rcases List.mem_cons.1 h with rfl | h
      · simp [lookupEntry]
      · have : compare key head.1 ≠ .eq := by
          intro heq
          have : key = head.1 := Std.LawfulEqCmp.eq_of_compare heq
          subst this
          have hlt := below _ h
          simp at hlt
        simp only [lookupEntry, this, if_false]
        exact ih sorted h

theorem mem_entries {map : SortedMap κ α} {key : κ} {value : α} :
    (key, value) ∈ map.entries ↔ map.get? key = some value :=
  ⟨lookupEntry_of_mem map.sorted, mem_of_lookupEntry⟩

theorem get?_filter (map : SortedMap κ α) (keep : κ → α → Bool) (key : κ) :
    (map.filter keep).get? key = (map.get? key).filter (keep key) := by
  cases found : map.get? key with
  | none =>
      cases kept : (map.filter keep).get? key with
      | none => rfl
      | some value =>
          have : (key, value) ∈ map.entries := (List.mem_filter.1 (mem_entries.2 kept)).1
          rw [mem_entries, found] at this
          cases this
  | some value =>
      by_cases h : keep key value
      · have : (key, value) ∈ (map.filter keep).entries :=
          List.mem_filter.2 ⟨mem_entries.2 found, h⟩
        rw [mem_entries.1 this, Option.filter, if_pos h]
      · cases kept : (map.filter keep).get? key with
        | none => rw [Option.filter, if_neg h]
        | some other =>
            have := List.mem_filter.1 (mem_entries.2 kept)
            have same : other = value := by
              have := mem_entries.1 this.1
              rw [found] at this
              exact (Option.some.inj this).symm
            subst same
            exact absurd this.2 h

theorem mem_keys_filter {map : SortedMap κ α} {keep : κ → α → Bool} {key : κ} :
    key ∈ (map.filter keep).keys ↔ ∃ value, map.get? key = some value ∧ keep key value := by
  constructor
  · intro h
    obtain ⟨⟨_, value⟩, member, rfl⟩ := List.mem_map.1 h
    obtain ⟨member, kept⟩ := List.mem_filter.1 member
    exact ⟨value, mem_entries.1 member, kept⟩
  · rintro ⟨value, found, kept⟩
    exact List.mem_map.2 ⟨(key, value), List.mem_filter.2 ⟨mem_entries.2 found, kept⟩, rfl⟩

theorem mem_keys {map : SortedMap κ α} {key : κ} : key ∈ map.keys ↔ map.contains key := by
  rw [contains, Option.isSome_iff_exists]
  constructor
  · intro listed
    obtain ⟨⟨_, value⟩, member, rfl⟩ := List.mem_map.1 listed
    exact ⟨value, mem_entries.1 member⟩
  · rintro ⟨value, found⟩
    exact List.mem_map.2 ⟨(key, value), mem_entries.2 found, rfl⟩

theorem nodup_keys (map : SortedMap κ α) : map.keys.Nodup := by
  refine List.pairwise_map.2 (map.sorted.imp ?_)
  intro a b below same
  have equal : compare b.1 b.1 = .eq := Std.ReflCmp.compare_self
  rw [same, equal] at below
  cases below

theorem nodup_entries (map : SortedMap κ α) : map.entries.Nodup := (nodup_keys map).of_map

theorem size_le {β : Type} {a : SortedMap κ α} {b : SortedMap κ β}
    (has : ∀ key, a.contains key → b.contains key) : a.size ≤ b.size := by
  have listed : a.keys ⊆ b.keys := fun key member => mem_keys.2 (has key (mem_keys.1 member))
  have shorter := (nodup_keys a).length_le_of_subset listed
  simpa [keys, size] using shorter

end Entries

theorem get?_mapValues {β : Type} (map : SortedMap κ α) (f : κ → α → β) (key : κ) [Std.LawfulEqOrd κ] :
    (map.mapValues f).get? key = (map.get? key).map (f key) := by
  rcases map with ⟨entries, sorted⟩
  simp only [get?, mapValues]
  induction entries with
  | nil => rfl
  | cons head rest ih =>
      simp only [List.map_cons, lookupEntry]
      by_cases here : compare key head.1 = .eq
      · rw [if_pos here, if_pos here, Std.LawfulEqCmp.eq_of_compare here]
        rfl
      · rw [if_neg here, if_neg here]
        exact ih (List.pairwise_cons.1 sorted).2

section Updates

variable [Std.TransOrd κ] [Std.LawfulEqOrd κ]

theorem get?_insert_self (map : SortedMap κ α) (key : κ) (value : α) :
    (map.insert key value).get? key = some value := by
  simp [get?_insert]

theorem get?_insert_of_ne (map : SortedMap κ α) {key other : κ} (value : α) (h : other ≠ key) :
    (map.insert key value).get? other = map.get? other := by
  simp [get?_insert, h]

theorem contains_insert [DecidableEq κ] (map : SortedMap κ α) (key other : κ) (value : α) :
    (map.insert key value).contains other = (decide (other = key) || map.contains other) := by
  by_cases here : other = key
  · subst here
    simp [contains, get?_insert_self]
  · simp [contains, get?_insert_of_ne _ _ here, here]

theorem forall_get?_insert {map : SortedMap κ α} {key : κ} {value : α} {P : κ → α → Prop}
    (old : ∀ other v, map.get? other = some v → P other v) (new : P key value) :
    ∀ other v, (map.insert key value).get? other = some v → P other v := by
  intro other v found
  by_cases here : other = key
  · subst here
    rw [get?_insert_self] at found
    cases found
    exact new
  · rw [get?_insert_of_ne _ _ here] at found
    exact old other v found

omit [Std.TransOrd κ] [Std.LawfulEqOrd κ] in
theorem length_insertEntry {key : κ} (value : α) {entries : List (κ × α)}
    (missing : lookupEntry key entries = none) :
    (insertEntry key value entries).length = entries.length + 1 := by
  induction entries with
  | nil => rfl
  | cons head rest ih =>
      simp only [lookupEntry] at missing
      split at missing
      · cases missing
      next differs =>
        simp only [insertEntry]
        split
        next => rfl
        next here => exact absurd here differs
        next => simp [ih missing]

theorem size_insert {map : SortedMap κ α} {key : κ} (value : α) (missing : map.contains key = false) :
    (map.insert key value).size = map.size + 1 :=
  length_insertEntry value (by simpa [contains, get?] using missing)

theorem contains_insert_of_contains [DecidableEq κ] {map : SortedMap κ α} {key : κ}
    (known : map.contains key) (value : α) (other : κ) :
    (map.insert key value).contains other = map.contains other := by
  rw [contains_insert]
  by_cases here : other = key
  · simp [here, known]
  · simp [here]

theorem eq_of_single {key other : κ} {value found : α}
    (h : (ofList [(key, value)]).get? other = some found) : found = value :=
  forall_get?_insert (P := fun _ found => found = value) (fun _ _ none => by cases none) rfl other
    found h

theorem get?_erase_self (map : SortedMap κ α) (key : κ) : (map.erase key).get? key = none := by
  simp [get?_erase]

theorem get?_erase_of_ne (map : SortedMap κ α) {key other : κ} (h : other ≠ key) :
    (map.erase key).get? other = map.get? other := by
  simp [get?_erase, h]

theorem get?_of_erase {map : SortedMap κ α} {key other : κ} {value : α}
    (h : (map.erase key).get? other = some value) : map.get? other = some value := by
  rw [get?_erase] at h
  split at h
  · cases h
  · exact h

/-- A map lists its least key first and then what is left without it. -/
theorem entries_eq_cons {map : SortedMap κ α} {key : κ} {value : α} (found : map.get? key = some value)
    (least : ∀ other v, map.get? other = some v → (compare key other).isLE) :
    map.entries = (key, value) :: (map.erase key).entries := by
  have above : ∀ entry ∈ (map.erase key).entries, compare key entry.1 = .lt := by
    intro entry member
    have held : (map.erase key).get? entry.1 = some entry.2 := mem_entries.1 member
    rw [get?_erase] at held
    split at held
    · cases held
    next differs =>
      have := least entry.1 entry.2 held
      cases order : compare key entry.1 with
      | lt => rfl
      | eq => exact absurd (Std.LawfulEqCmp.eq_of_compare order ▸ Std.ReflCmp.compare_self) differs
      | gt => rw [order] at this; cases this
  let whole : SortedMap κ α :=
    ⟨(key, value) :: (map.erase key).entries, List.pairwise_cons.2 ⟨above, (map.erase key).sorted⟩⟩
  have same : map = whole := by
    refine ext_get? fun other => ?_
    have whole_get : whole.get? other =
        if compare other key = .eq then some value else (map.erase key).get? other := rfl
    rw [whole_get, get?_erase]
    split
    next here => rw [Std.LawfulEqCmp.eq_of_compare here, found]
    next => rfl
  exact congrArg entries same

theorem ofList_concat (entries : List (κ × α)) (entry : κ × α) :
    ofList (entries ++ [entry]) = (ofList entries).insert entry.1 entry.2 := by
  rw [ofList, List.foldl_append]
  rfl

/-- The map of a list in which no key repeats holds the entries of the list. -/
theorem get?_ofList {entries : List (κ × α)} (distinct : (entries.map (·.1)).Nodup) {key : κ} {value : α} :
    (ofList entries).get? key = some value ↔ (key, value) ∈ entries := by
  induction entries using List.reverseRecOn with
  | nil => simp [ofList]
  | append_singleton earlier entry ih =>
      rw [List.map_append, List.nodup_append] at distinct
      obtain ⟨distinct, -, apart⟩ := distinct
      have fresh {v : α} : (entry.1, v) ∉ earlier := fun member =>
        apart _ (List.mem_map_of_mem member) _ List.mem_cons_self rfl
      rw [ofList_concat, get?_insert, List.mem_append, List.mem_singleton]
      split
      next here =>
        obtain rfl : key = entry.1 := Std.LawfulEqCmp.eq_of_compare here
        simp [fresh, Prod.ext_iff, eq_comm]
      next differs =>
        have other : key ≠ entry.1 := fun same => differs (same ▸ Std.ReflCmp.compare_self)
        simp [ih distinct, Prod.ext_iff, other]

theorem ofList_of_perm {map : SortedMap κ α} {entries : List (κ × α)}
    (listed : entries.Perm map.entries) : ofList entries = map := by
  have distinct : (entries.map (·.1)).Nodup := (listed.map _).nodup_iff.mpr (nodup_keys map)
  refine ext_get? fun key => Option.ext fun value => ?_
  rw [get?_ofList distinct, listed.mem_iff, mem_entries]

theorem perm_insert (map : SortedMap κ α) (key : κ) (value : α) :
    (map.insert key value).entries.Perm ((key, value) :: (map.erase key).entries) := by
  have apart : (key, value) ∉ (map.erase key).entries := by
    rw [mem_entries, get?_erase_self]
    exact nofun
  rw [List.perm_ext_iff_of_nodup (nodup_entries _) (List.nodup_cons.mpr ⟨apart, nodup_entries _⟩)]
  intro ⟨other, found⟩
  rw [mem_entries, get?_insert, List.mem_cons, mem_entries, get?_erase, Prod.mk.injEq]
  split
  next here =>
    obtain rfl : other = key := Std.LawfulEqCmp.eq_of_compare here
    simp [eq_comm]
  next differs =>
    have unlike : other ≠ key := fun same => differs (same ▸ Std.ReflCmp.compare_self)
    simp [unlike]

theorem size_insert_eq (map : SortedMap κ α) (key : κ) (value : α) :
    (map.insert key value).size = (map.erase key).size + 1 :=
  (perm_insert map key value).length_eq

theorem insert_of_get? {map : SortedMap κ α} {key : κ} {value : α} (found : map.get? key = some value) :
    map.insert key value = map := by
  refine ext_get? fun other => ?_
  rw [get?_insert]
  split
  next here => rw [Std.LawfulEqCmp.eq_of_compare here, found]
  next => rfl

theorem erase_of_get? {map : SortedMap κ α} {key : κ} (missing : map.get? key = none) :
    map.erase key = map := by
  refine ext_get? fun other => ?_
  rw [get?_erase]
  split
  next here => rw [Std.LawfulEqCmp.eq_of_compare here, missing]
  next => rfl

theorem size_erase {map : SortedMap κ α} {key : κ} {value : α} (found : map.get? key = some value) :
    (map.erase key).size + 1 = map.size := by
  rw [← size_insert_eq map key value, insert_of_get? found]

end Updates

end DurableFlow.SortedMap
