/-! # Identities

Flows are owned by, and sessions lead to, identities: an X.500 name within a group.
-/

namespace DurableFlow

/-- The holder of an identity within a group. -/
structure Identity where
  x500Name : String
  groupId : String
  deriving DecidableEq, Repr, Inhabited

namespace Identity

instance : Ord Identity := ⟨compareLex (compareOn (·.x500Name)) (compareOn (·.groupId))⟩

instance : Std.TransOrd Identity :=
  inferInstanceAs (Std.TransCmp
    (compareLex (compareOn (fun i : Identity => i.x500Name)) (compareOn (·.groupId))))

instance : Std.LawfulEqOrd Identity where
  compare_self {a} := by
    have hname : compare a.x500Name a.x500Name = .eq := Std.ReflCmp.compare_self
    have hgroup : compare a.groupId a.groupId = .eq := Std.ReflCmp.compare_self
    change (compare a.x500Name a.x500Name).then (compare a.groupId a.groupId) = .eq
    rw [hname, hgroup]
    rfl
  eq_of_compare {a b} h := by
    change (compare a.x500Name b.x500Name).then (compare a.groupId b.groupId) = .eq at h
    rw [Ordering.then_eq_eq] at h
    have hname : a.x500Name = b.x500Name := Std.LawfulEqCmp.eq_of_compare h.1
    have hgroup : a.groupId = b.groupId := Std.LawfulEqCmp.eq_of_compare h.2
    cases a
    cases b
    simp_all

def text (identity : Identity) : String := identity.x500Name ++ "@" ++ identity.groupId

end Identity

end DurableFlow
