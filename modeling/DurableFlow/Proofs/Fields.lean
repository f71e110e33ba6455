import DurableFlow.Json.Fields
import DurableFlow.Proofs.Continuations
import DurableFlow.Proofs.Maps

/-! # Records and variants that are taken apart

What is written as an object with all its names is found field by field, with or without a tag in front.
The lemmas about lists, options and maps take a reader and a writer of their parts.
-/

namespace DurableFlow

namespace Json

section Readability

@[simp]
theorem readable_text (s : String) : (text s).readable := rfl

@[simp]
theorem readable_nat (n : Nat) : (nat n).readable := rfl

@[simp]
theorem readable_array {items : List Json} :
    (array items).readable ↔ ∀ item ∈ items, item.readable := by
  rw [readable]
  induction items with
  | nil => simp [readableItems]
  | cons item rest ih => simp [readableItems, ih]

@[simp]
theorem readable_object {members : Members} :
    (object members).readable ↔ ∀ m ∈ members, m.2.readable := by
  rw [readable]
  induction members with
  | nil => simp [readableMembers]
  | cons m rest ih => simp [readableMembers, ih]

@[simp]
theorem readable_ofBytes (bytes : Bytes) : (ofBytes bytes).readable := by
  simp [ofBytes]

theorem readable_ofOption {α : Type} {write : α → Json} (written : ∀ a, (write a).readable)
    (part : Option α) : (ofOption write part).readable := by
  cases part with
  | none => rfl
  | some a => exact written a

end Readability

section Fields

variable {members : Members}

theorem member?_of_mem (distinct : (members.map (·.1.text)).Nodup) {m : Name × Json}
    (member : m ∈ members) : member? members m.1.text = some (.given m.2) := by
  obtain ⟨before, after, rfl⟩ := List.append_of_mem member
  rw [List.map_append, List.map_cons, List.nodup_middle] at distinct
  have others := (List.nodup_cons.mp distinct).1
  have only : (before ++ m :: after).filter (·.1.text = m.1.text) = [m] := by
    have none {part : Members} (apart : m.1.text ∉ part.map (·.1.text)) :
        part.filter (·.1.text = m.1.text) = [] := by
      rw [List.filter_eq_nil_iff]
      intro other among same
      exact apart (List.mem_map.mpr ⟨other, among, by simpa using same⟩)
    simp only [List.mem_append, not_or] at others
    simp [List.filter_append, none others.1, none others.2]
  simp [member?, only]

/-- The fields of a record that is written with all its names are found in their order. -/
theorem fields?_object (names : List String) (named : members.map (·.1.text) = names)
    (distinct : names.Nodup) :
    (object members).fields? names = some (members.map fun m => .given m.2) := by
  subst named
  have known : members.all (fun m => (members.map (·.1.text)).contains m.1.text || m.2.passable) := by
    simp only [List.all_eq_true, Bool.or_eq_true, List.contains_iff_mem]
    exact fun m member => .inl (List.mem_map_of_mem member)
  have found (part : Members) (among : ∀ m ∈ part, m ∈ members) :
      (part.map (·.1.text)).mapM (member? members) = some (part.map fun m => .given m.2) := by
    induction part with
    | nil => rfl
    | cons m rest ih =>
        rw [List.map_cons, List.mapM_cons, member?_of_mem distinct (among m List.mem_cons_self),
          ih fun other later => among other (List.mem_cons_of_mem m later)]
        rfl
  rw [fields?, if_pos known, found members fun _ member => member]

theorem tagged?_object {tag : Json} (readable : (object (("type", tag) :: members)).readable)
    (apart : "type" ∉ members.map (·.1.text)) :
    (object (("type", tag) :: members)).tagged? = some (tag, .object members) := by
  have others : ∀ m ∈ members, m.1.text ≠ "type" := fun m member same =>
    apart (List.mem_map.mpr ⟨m, member, same⟩)
  have none : members.filter (·.1.text = "type") = [] := by
    simpa [List.filter_eq_nil_iff] using others
  have all : members.filter (·.1.text ≠ "type") = members := by
    simpa [List.filter_eq_self] using others
  simp only [tagged?, readable, Bool.not_true, Bool.false_eq_true, if_false, List.filter_cons,
    decide_true, if_true, none, ne_eq, not_true_eq_false, decide_false, all]

theorem variant_object (tag : String) (names : List String) (members : Members)
    (named : members.map (·.1.text) = names) (distinct : ("type" :: names).Nodup)
    (readable : ∀ m ∈ members, m.2.readable) :
    (object (("type", .text tag) :: members)).tagged? = some (.text tag, .object members) ∧
      (object members).fields? names = some (members.map fun m => .given m.2) := by
  obtain ⟨apart, distinct⟩ := List.nodup_cons.mp distinct
  refine ⟨tagged?_object ?_ (named ▸ apart), fields?_object names named distinct⟩
  rw [readable_object, List.forall_mem_cons]
  exact ⟨rfl, readable⟩

end Fields

section Parts

@[simp]
theorem text?_text (s : String) : (text s).text? = some s := rfl

attribute [simp] bytes?_ofBytes

variable {α : Type} {read : Json → Option α} {write : α → Json}

@[simp]
theorem required_given (read : Json → Option α) (doc : Json) :
    Slot.required read (.given doc) = read doc := rfl

theorem list?_array {items : List α} (reads : ∀ a ∈ items, read (write a) = some a) :
    (array (items.map write)).list? read = some items := by
  rw [list?]
  induction items with
  | nil => rfl
  | cons a rest ih =>
      rw [List.map_cons, List.mapM_cons, reads a List.mem_cons_self,
        ih fun other member => reads other (List.mem_cons_of_mem a member)]
      rfl

theorem optional_ofOption {part : Option α} (reads : ∀ a ∈ part, read (write a) = some a)
    (shown : ∀ a, write a ≠ .null) :
    Slot.optional read (.given (ofOption write part)) = some part := by
  cases part with
  | none => rfl
  | some a =>
      have read := reads a rfl
      cases written : write a <;> simp_all [Slot.optional, ofOption]

/-- The entries of a map may be written in any order. -/
theorem map?_object {κ : Type} [Ord κ] [Std.TransOrd κ] [Std.LawfulEqOrd κ]
    {readKey : Name → Option κ} (writeKey : κ → Name) {map : SortedMap κ α} {entries : List (κ × α)}
    (listed : entries.Perm map.entries)
    (readsKey : ∀ e ∈ entries, readKey (writeKey e.1) = some e.1)
    (reads : ∀ e ∈ entries, read (write e.2) = some e.2) :
    (object (entries.map fun e => (writeKey e.1, write e.2))).map? readKey read = some map := by
  have read : (entries.map fun e => (writeKey e.1, write e.2)).mapM
      (fun e => do return (← readKey e.1, ← read e.2)) = some entries := by
    clear listed
    induction entries with
    | nil => rfl
    | cons e rest ih =>
        have others := ih (fun other member => readsKey other (List.mem_cons_of_mem e member))
          fun other member => reads other (List.mem_cons_of_mem e member)
        rw [List.map_cons, List.mapM_cons, others]
        simp [readsKey e List.mem_cons_self, reads e List.mem_cons_self]
  apply Option.bind_eq_some_iff.mpr ⟨entries, read, _⟩
  rw [SortedMap.ofList_of_perm listed]
  rfl

end Parts

end Json

end DurableFlow
