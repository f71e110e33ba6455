/-! # Maps sorted by key

A finite map is the list of its entries with strictly increasing keys, so two maps with the same
entries are equal and listing a map needs no further sorting. `get?` is the view through which
every operation is described: see `get?_insert`, `get?_erase` and `ext_get?`.
-/

namespace DurableFlow

/-- A finite map kept as its entries in strictly increasing key order. -/
structure SortedMap (κ α : Type) [Ord κ] where
  entries : List (κ × α)
  sorted : entries.Pairwise (fun a b => compare a.1 b.1 = .lt)

namespace SortedMap

variable {κ α : Type} [Ord κ]

/-- The entry list with `value` stored under `key`, before or in place of the entries it meets. -/
def insertEntry (key : κ) (value : α) : List (κ × α) → List (κ × α)
  | [] => [(key, value)]
  | (k, v) :: rest =>
    match compare key k with
    | .lt => (key, value) :: (k, v) :: rest
    | .eq => (key, value) :: rest
    | .gt => (k, v) :: insertEntry key value rest

/-- The value an entry list holds under `key`. -/
def lookupEntry (key : κ) : List (κ × α) → Option α
  | [] => none
  | (k, v) :: rest => if compare key k = .eq then some v else lookupEntry key rest

theorem mem_insertEntry {key : κ} {value : α} {entry : κ × α} {entries : List (κ × α)}
    (h : entry ∈ insertEntry key value entries) : entry = (key, value) ∨ entry ∈ entries := by
  induction entries with
  | nil => simpa [insertEntry] using h
  | cons head rest ih =>
    simp only [insertEntry] at h
    split at h
    · simpa using h
    · rcases List.mem_cons.1 h with h | h
      · exact .inl h
      · exact .inr (List.mem_cons_of_mem _ h)
    · rcases List.mem_cons.1 h with h | h
      · exact .inr (h ▸ List.mem_cons_self)
      · exact (ih h).imp_right (List.mem_cons_of_mem _)

theorem sorted_insertEntry [Std.TransOrd κ] [Std.LawfulEqOrd κ] (key : κ) (value : α)
    {entries : List (κ × α)} (h : entries.Pairwise (fun a b => compare a.1 b.1 = .lt)) :
    (insertEntry key value entries).Pairwise (fun a b => compare a.1 b.1 = .lt) := by
  induction entries with
  | nil => simp [insertEntry]
  | cons head rest ih =>
    obtain ⟨hhead, hrest⟩ := List.pairwise_cons.1 h
    simp only [insertEntry]
    split
    next hlt =>
      refine List.pairwise_cons.2 ⟨fun entry hmem => ?_, h⟩
      rcases List.mem_cons.1 hmem with rfl | hmem
      · exact hlt
      · exact Std.TransCmp.lt_trans hlt (hhead entry hmem)
    next heq =>
      refine List.pairwise_cons.2 ⟨fun entry hmem => ?_, hrest⟩
      have : key = head.1 := Std.LawfulEqCmp.eq_of_compare heq
      exact this ▸ hhead entry hmem
    next hgt =>
      refine List.pairwise_cons.2 ⟨fun entry hmem => ?_, ih hrest⟩
      rcases mem_insertEntry hmem with rfl | hmem
      · exact Std.OrientedCmp.lt_of_gt hgt
      · exact hhead entry hmem

def empty : SortedMap κ α := ⟨[], .nil⟩

instance : EmptyCollection (SortedMap κ α) := ⟨empty⟩

instance : Inhabited (SortedMap κ α) := ⟨empty⟩

def get? (map : SortedMap κ α) (key : κ) : Option α := lookupEntry key map.entries

def contains (map : SortedMap κ α) (key : κ) : Bool := (map.get? key).isSome

def insert [Std.TransOrd κ] [Std.LawfulEqOrd κ] (map : SortedMap κ α) (key : κ) (value : α) :
    SortedMap κ α :=
  ⟨insertEntry key value map.entries, sorted_insertEntry key value map.sorted⟩

def filter (keep : κ → α → Bool) (map : SortedMap κ α) : SortedMap κ α :=
  ⟨map.entries.filter (fun entry => keep entry.1 entry.2), map.sorted.filter _⟩

def erase (map : SortedMap κ α) (key : κ) : SortedMap κ α :=
  map.filter (fun k _ => compare key k != .eq)

def mapValues {β : Type} (f : κ → α → β) (map : SortedMap κ α) : SortedMap κ β :=
  ⟨map.entries.map (fun entry => (entry.1, f entry.1 entry.2)), List.pairwise_map.2 map.sorted⟩

def keys (map : SortedMap κ α) : List κ := map.entries.map (·.1)

def size (map : SortedMap κ α) : Nat := map.entries.length

def isEmpty (map : SortedMap κ α) : Bool := map.entries.isEmpty

/-- The map of a list of entries; of two entries with one key the later wins. -/
def ofList [Std.TransOrd κ] [Std.LawfulEqOrd κ] (entries : List (κ × α)) : SortedMap κ α :=
  entries.foldl (fun map entry => map.insert entry.1 entry.2) empty

instance [BEq κ] [BEq α] : BEq (SortedMap κ α) := ⟨fun a b => a.entries == b.entries⟩

instance [DecidableEq κ] [DecidableEq α] : DecidableEq (SortedMap κ α) := fun a b =>
  decidable_of_iff (a.entries = b.entries)
    ⟨fun h => by cases a; cases b; cases h; rfl, fun h => h ▸ rfl⟩

theorem lookupEntry_insertEntry [Std.TransOrd κ] [Std.LawfulEqOrd κ] (key other : κ) (value : α)
    (entries : List (κ × α)) :
    lookupEntry other (insertEntry key value entries) =
      if compare other key = .eq then some value else lookupEntry other entries := by
  induction entries with
  | nil => simp [insertEntry, lookupEntry]
  | cons head rest ih =>
    simp only [insertEntry]
    split
    next => simp [lookupEntry]
    next heq =>
      have hk : key = head.1 := Std.LawfulEqCmp.eq_of_compare heq
      simp only [lookupEntry, ← hk]
      split <;> simp_all
    next hgt =>
      simp only [lookupEntry, ih]
      by_cases ho : compare other head.1 = .eq
      · have : other = head.1 := Std.LawfulEqCmp.eq_of_compare ho
        have : compare other key ≠ .eq := by
          intro hc
          have : other = key := Std.LawfulEqCmp.eq_of_compare hc
          simp_all
        simp_all
      · simp [ho]

@[simp]
theorem get?_empty (key : κ) : (empty : SortedMap κ α).get? key = none := rfl

/-- An inserted key holds its new value and every other key what it held before. -/
theorem get?_insert [Std.TransOrd κ] [Std.LawfulEqOrd κ] (map : SortedMap κ α) (key other : κ)
    (value : α) :
    (map.insert key value).get? other =
      if compare other key = .eq then some value else map.get? other :=
  lookupEntry_insertEntry key other value map.entries

theorem lookupEntry_filter_ne [Std.TransOrd κ] [Std.LawfulEqOrd κ] (key other : κ)
    (entries : List (κ × α)) :
    lookupEntry other (entries.filter (fun entry => compare key entry.1 != .eq)) =
      if compare other key = .eq then none else lookupEntry other entries := by
  induction entries with
  | nil => simp [lookupEntry]
  | cons head rest ih =>
    by_cases hk : compare key head.1 = .eq
    · have : key = head.1 := Std.LawfulEqCmp.eq_of_compare hk
      subst this
      simp only [List.filter_cons, hk, bne_self_eq_false, Bool.false_eq_true, if_false, ih,
        lookupEntry]
      split <;> simp_all
    · simp only [List.filter_cons, lookupEntry]
      have : (compare key head.1 != .eq) = true := by simpa using hk
      simp only [this, if_true, lookupEntry, ih]
      by_cases ho : compare other head.1 = .eq
      · have : other = head.1 := Std.LawfulEqCmp.eq_of_compare ho
        have : compare other key ≠ .eq := by
          intro hc
          have : other = key := Std.LawfulEqCmp.eq_of_compare hc
          simp_all
        simp_all
      · simp [ho]

/-- An erased key holds nothing and every other key what it held before. -/
theorem get?_erase [Std.TransOrd κ] [Std.LawfulEqOrd κ] (map : SortedMap κ α) (key other : κ) :
    (map.erase key).get? other = if compare other key = .eq then none else map.get? other :=
  lookupEntry_filter_ne key other map.entries

theorem lookupEntry_eq_none_of_lt [Std.TransOrd κ] [Std.LawfulEqOrd κ] {key : κ}
    {entries : List (κ × α)} (h : ∀ entry ∈ entries, compare key entry.1 = .lt) :
    lookupEntry key entries = none := by
  induction entries with
  | nil => rfl
  | cons head rest ih =>
    have hhead := h head List.mem_cons_self
    simp [lookupEntry, hhead, ih fun entry hmem => h entry (List.mem_cons_of_mem _ hmem)]

theorem lookupEntry_cons_of_lt [Std.TransOrd κ] [Std.LawfulEqOrd κ] {key : κ} {head : κ × α}
    {rest : List (κ × α)} (sorted : (head :: rest).Pairwise (fun x y => compare x.1 y.1 = .lt))
    (lt : compare key head.1 = .lt) : lookupEntry key (head :: rest) = none := by
  obtain ⟨below, _⟩ := List.pairwise_cons.1 sorted
  refine lookupEntry_eq_none_of_lt fun entry member => ?_
  rcases List.mem_cons.1 member with rfl | later
  · exact lt
  · exact Std.TransCmp.lt_trans lt (below entry later)

theorem eq_of_lookupEntry_eq [Std.TransOrd κ] [Std.LawfulEqOrd κ] {a b : List (κ × α)}
    (ha : a.Pairwise (fun x y => compare x.1 y.1 = .lt))
    (hb : b.Pairwise (fun x y => compare x.1 y.1 = .lt))
    (h : ∀ key, lookupEntry key a = lookupEntry key b) : a = b := by
  induction a generalizing b with
  | nil =>
    cases b with
    | nil => rfl
    | cons y ys => have := h y.1; simp [lookupEntry] at this
  | cons x xs ih =>
    cases b with
    | nil => have := h x.1; simp [lookupEntry] at this
    | cons y ys =>
      obtain ⟨hx, hxs⟩ := List.pairwise_cons.1 ha
      obtain ⟨hy, hys⟩ := List.pairwise_cons.1 hb
      -- The lesser of two heads would be missing from the other list.
      cases hc : compare x.1 y.1 with
      | lt =>
        have same := h x.1
        rw [lookupEntry_cons_of_lt hb hc] at same
        simp [lookupEntry] at same
      | gt =>
        have same := h y.1
        rw [lookupEntry_cons_of_lt ha (Std.OrientedCmp.lt_of_gt hc)] at same
        simp [lookupEntry] at same
      | eq =>
        have hk : x.1 = y.1 := Std.LawfulEqCmp.eq_of_compare hc
        have hv : x.2 = y.2 := by have := h x.1; simpa [lookupEntry, hk] using this
        have hxy : x = y := Prod.ext hk hv
        subst hxy
        congr 1
        refine ih hxs hys fun key => ?_
        by_cases hkey : compare key x.1 = .eq
        · have : key = x.1 := Std.LawfulEqCmp.eq_of_compare hkey
          subst this
          rw [lookupEntry_eq_none_of_lt hx, lookupEntry_eq_none_of_lt hy]
        · simpa [lookupEntry, hkey] using h key

theorem ext_get? [Std.TransOrd κ] [Std.LawfulEqOrd κ] {a b : SortedMap κ α}
    (h : ∀ key, a.get? key = b.get? key) : a = b := by
  have := eq_of_lookupEntry_eq a.sorted b.sorted h
  cases a
  cases b
  cases this
  rfl

end SortedMap

end DurableFlow
