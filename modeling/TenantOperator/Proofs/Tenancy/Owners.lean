import TenantOperator.Proofs.Naming

/-! Who a derived object belongs to can be told from its key. The name alone does not tell it where
two ids are joined by a hyphen that ids may hold themselves: there the namespace has to fix one of
them. -/
namespace TenantOperator

namespace Naming
variable {i t j u : String}

/-- The second pair of ids is the first one with the hyphen between them moved to a later one. -/
def Shifted (i t j u : String) : Prop := ∃ m, j = i ++ "-" ++ m ∧ t = m ++ "-" ++ u

theorem append_hyphen_eq {a b c d : List Char} (h : a ++ '-' :: b = c ++ '-' :: d) :
    a = c ∧ b = d ∨ (∃ m, c = a ++ '-' :: m ∧ b = m ++ '-' :: d) ∨
      ∃ m, a = c ++ '-' :: m ∧ d = m ++ '-' :: b := by
  rcases List.append_eq_append_iff.1 h with ⟨m, rfl, hm⟩ | ⟨m, rfl, hm⟩ <;> cases m with
  | nil => simp_all
  | cons x m =>
    obtain ⟨rfl, rfl⟩ := List.cons.inj hm
    simp

theorem Shifted.joined_eq (h : Shifted i t j u) : i ++ "-" ++ t = j ++ "-" ++ u := by
  obtain ⟨m, rfl, rfl⟩ := h
  simp only [String.append_assoc]

/-- Two joined ids are told apart up to the place of the hyphen. -/
theorem joined_eq_iff :
    i ++ "-" ++ t = j ++ "-" ++ u ↔ i = j ∧ t = u ∨ Shifted i t j u ∨ Shifted j u i t := by
  constructor
  · intro h
    have hl : i.toList ++ '-' :: t.toList = j.toList ++ '-' :: u.toList := by
      simpa [String.toList_append] using congrArg String.toList h
    have shifted {a b c d : String} {m : List Char} (hc : c.toList = a.toList ++ '-' :: m)
        (hb : b.toList = m ++ '-' :: d.toList) : Shifted a b c d :=
      ⟨String.ofList m, String.ext (by simp [hc]), String.ext (by simp [hb])⟩
    rcases append_hyphen_eq hl with ⟨hi, ht⟩ | ⟨m, hj, ht⟩ | ⟨m, hi, hu⟩
    · exact Or.inl ⟨String.ext hi, String.ext ht⟩
    · exact Or.inr (Or.inl (shifted hj ht))
    · exact Or.inr (Or.inr (shifted hi hu))
  · rintro (⟨rfl, rfl⟩ | h | h)
    · rfl
    · exact h.joined_eq
    · exact h.joined_eq.symm

theorem routingTable_eq_iff : routingTable i t = routingTable j u ↔
    i = j ∧ t = u ∨ Shifted i t j u ∨ Shifted j u i t := by
  rw [routingTable, routingTable, String.append_left_inj, joined_eq_iff]

end Naming

namespace Bundle

theorem key_ofInstance (inst : String) (c : Configuration) :
    (ofInstance inst c).key = instanceKey inst := rfl

theorem tenantKey_ne_instanceKey {ns tenant inst : String} :
    tenantKey ns tenant ≠ instanceKey inst := by
  intro h
  exact Naming.tenantBundle_ne_instanceBundle (Key.inSpace_inj.1 h).2

end Bundle

/-- Keys of tenant bundles and of routing tables tell the instance and the tenant, although the name
of a table tells them up to the place of the hyphen only, and a tenant's bundle is never taken for
an instance's. -/
theorem keys_tell_owners (i t j u : String) (c : Configuration) :
    (Bundle.tenantKey i t = Bundle.tenantKey j u ↔ i = j ∧ t = u) ∧
      (Routing.tableKey i t = Routing.tableKey j u ↔ i = j ∧ t = u) ∧
      (Naming.routingTable i t = Naming.routingTable j u ↔
        i = j ∧ t = u ∨ Naming.Shifted i t j u ∨ Naming.Shifted j u i t) ∧
      Bundle.tenantKey i t ≠ (Bundle.ofInstance j c).key := by
  refine ⟨Bundle.tenantKey_inj, Routing.tableKey_inj, Naming.routingTable_eq_iff, ?_⟩
  rw [Bundle.key_ofInstance]
  exact Bundle.tenantKey_ne_instanceKey

/-- Tables of two tenants under one name, in two namespaces. -/
example : Naming.routingTable "dc" "a-b" = Naming.routingTable "dc-a" "b" ∧
    Routing.tableKey "dc" "a-b" ≠ Routing.tableKey "dc-a" "b" := by decide

end TenantOperator
