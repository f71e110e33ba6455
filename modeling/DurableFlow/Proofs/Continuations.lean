import DurableFlow.Fiber.Image
import DurableFlow.Proofs.Documents
import DurableFlow.Proofs.Fibers
import DurableFlow.Proofs.FlowIds

/-! # Continuations that are read back

The serializer that writes fibers as JSON behind a header reads back whatever it has written.
-/

namespace DurableFlow

namespace Json

theorem nat?_nat {n bound : Nat} (within : n ≤ bound) : (nat n).nat? bound = some n := by
  have between : 0 ≤ (n : Int) ∧ (n : Int) ≤ bound := by omega
  rw [nat, nat?, if_pos between, Int.toNat_natCast]

theorem bytes?_ofBytes (bytes : Bytes) : (ofBytes bytes).bytes? = some bytes := by
  rw [ofBytes, bytes?, List.mapM_map]
  induction bytes with
  | nil => rfl
  | cons b rest ih =>
      have octet : b.toNat ≤ 255 := Nat.le_of_lt_succ b.toNat_lt
      rw [List.mapM_cons, ih]
      simp [nat?_nat octet]

theorem reads_ofBytes {depth : Nat} (bytes : Bytes) : Reads (depth + 1) (ofBytes bytes) := by
  refine reads_array fun item member => ?_
  obtain ⟨b, _, rfl⟩ := List.mem_map.1 member
  have octet := b.toNat_lt
  have word : 2 ^ 8 ≤ Decimal.Numeral.maxWord := by decide
  exact reads_nat (by omega)

end Json

theorem SuspensionKind.ofJson?_text (kind : SuspensionKind) : ofJson? (.text kind.text) = some kind := by
  cases kind <;> rfl

namespace FiberImage

theorem ofJson?_toJson (image : FiberImage) : ofJson? image.toJson = some image := by
  have fields : image.toJson.fields? ["flow_id", "flow_name", "suspended_on", "state"] =
      some [.given (.text image.flowId.text), .given (.text image.flowName),
        .given (.text image.suspendedOn.text), .given (.ofBytes image.state)] := rfl
  simp only [ofJson?, fields, Json.Slot.required, Json.text?, Option.bind_eq_bind, Option.bind_some,
    FlowId.ofText?_text, SuspensionKind.ofJson?_text, Json.bytes?_ofBytes]
  rfl

theorem parse?_print (image : FiberImage) : Json.parse? image.toJson.print = some image.toJson := by
  have read : ∀ member ∈ [(("flow_id" : Json.Name), Json.text image.flowId.text),
      ("flow_name", .text image.flowName), ("suspended_on", .text image.suspendedOn.text),
      ("state", .ofBytes image.state)], Json.ReadsMember 1 member := by
    intro member among
    simp only [List.mem_cons, List.not_mem_nil, or_false] at among
    rcases among with rfl | rfl | rfl | rfl
    · exact ⟨rfl, Json.reads_text _⟩
    · exact ⟨rfl, Json.reads_text _⟩
    · exact ⟨rfl, Json.reads_text _⟩
    · exact ⟨rfl, Json.reads_ofBytes _⟩
  exact Json.parse?_object read (by decide)

end FiberImage

/-- Fibers that are written as JSON are read back. -/
theorem FiberSerializer.json_faithful : json.Faithful := by
  intro image continuation written
  cases written
  have head : (header ++ image.toJson.print).take header.length = header := List.take_left
  have tail : (header ++ image.toJson.print).drop header.length = image.toJson.print := List.drop_left
  simp only [json, head, tail, if_true, image.parse?_print, Option.bind_some, image.ofJson?_toJson]

end DurableFlow
