import TenantOperator.Tenancy.Teardown

/-! Names and labels keep their owners apart. A name that joins two ids does so for one of them at a
time only: pairings of different tenants may share a name. -/
namespace TenantOperator

namespace Naming
variable {t u m n i : String}

theorem tenantBundle_inj : tenantBundle t = tenantBundle u ↔ t = u := by
  simp [tenantBundle, String.append_left_inj, String.append_right_inj]

theorem routingTable_inj : routingTable i t = routingTable i u ↔ t = u := by
  simp [routingTable, String.append_left_inj, String.append_right_inj]

theorem pairing_inj : pairing t m = pairing t n ↔ m = n := by
  simp [pairing, String.append_right_inj]

theorem routingPath_inj : routingPath i t m = routingPath i t n ↔ m = n := by
  simp [routingPath, String.append_left_inj, String.append_right_inj]

theorem tenantBundle_ne_instanceBundle : tenantBundle t ≠ instanceBundle i := by
  intro h
  have hl := congrArg (fun s => s.toList[2]?) h
  simp [tenantBundle, instanceBundle, String.toList_append] at hl

theorem find?_pairingLabels_tenant : (pairingLabels t m).find? tenantLabel = some t := by
  rw [pairingLabels, SortedMap.find?_insert_of_ne _ (by decide)]
  exact SortedMap.find?_insert_self ..

theorem find?_pairingLabels_microservice : (pairingLabels t m).find? microserviceLabel = some m :=
  SortedMap.find?_insert_self ..

theorem find?_managedLabels_tenant :
    (managedLabels t m).find? tenantLabel = some t := by
  rw [managedLabels, SortedMap.find?_insert_of_ne _ (by decide), find?_pairingLabels_tenant]

theorem find?_managedLabels_microservice :
    (managedLabels t m).find? microserviceLabel = some m := by
  rw [managedLabels, SortedMap.find?_insert_of_ne _ (by decide), find?_pairingLabels_microservice]

end Naming

namespace Metadata

theorem satisfies_singleton {md : Metadata} {label value : String} :
    md.satisfies (.singleton label value) = true ↔ md.labelMap.find? label = some value := by
  have he : (SortedMap.singleton label value).entries = [(label, value)] := rfl
  simp [satisfies, he]

theorem satisfies_tenantSelector {md : Metadata} {tenant : String} :
    md.satisfies (Naming.tenantSelector tenant) = true ↔
      md.labelMap.find? Naming.tenantLabel = some tenant :=
  satisfies_singleton

theorem satisfies_microserviceSelector {md : Metadata} {microservice : String} :
    md.satisfies (Naming.microserviceSelector microservice) = true ↔
      md.labelMap.find? Naming.microserviceLabel = some microservice :=
  satisfies_singleton

theorem satisfies_iff {md : Metadata} {selector : Labels} :
    md.satisfies selector = true ↔ ∀ label value, selector.find? label = some value →
      md.labelMap.find? label = some value := by
  simp [satisfies, SortedMap.find?_eq_some_iff]

theorem satisfies_insert {md : Metadata} {selector : Labels} {label : String}
    (h : selector.find? label = none) (value : String) :
    md.satisfies (selector.insert label value) = true ↔
      md.labelMap.find? label = some value ∧ md.satisfies selector = true := by
  simp only [satisfies_iff]
  constructor
  · refine fun hall => ⟨hall label value (SortedMap.find?_insert_self ..), fun l v hl => ?_⟩
    have hne : l ≠ label := by
      rintro rfl
      cases h.symm.trans hl
    exact hall l v (by rwa [SortedMap.find?_insert_of_ne _ hne])
  · rintro ⟨hvalue, hall⟩ l v hl
    by_cases hlabel : l = label
    · subst hlabel
      rw [SortedMap.find?_insert_self] at hl
      rwa [← hl]
    · rw [SortedMap.find?_insert_of_ne _ hlabel] at hl
      exact hall l v hl

theorem satisfies_pairingLabels {md : Metadata} {tenant microservice : String} :
    md.satisfies (Naming.pairingLabels tenant microservice) = true ↔
      md.labelMap.find? Naming.tenantLabel = some tenant ∧
        md.labelMap.find? Naming.microserviceLabel = some microservice := by
  have habsent : (Naming.tenantSelector tenant).find? Naming.microserviceLabel = none :=
    SortedMap.find?_insert_of_ne _ (by decide) _
  rw [Naming.pairingLabels, satisfies_insert habsent, satisfies_tenantSelector, and_comm]

end Metadata

theorem Key.inSpace_inj {ns ns' a b : String} :
    Key.inSpace ns a = Key.inSpace ns' b ↔ ns = ns' ∧ a = b := by
  simp [Key.inSpace, and_comm]

theorem Bundle.tenantKey_inj {ns ns' t u : String} :
    tenantKey ns t = tenantKey ns' u ↔ ns = ns' ∧ t = u := by
  rw [tenantKey, tenantKey, Key.inSpace_inj, Naming.tenantBundle_inj]

theorem Routing.tableKey_inj {ns ns' t u : String} :
    tableKey ns t = tableKey ns' u ↔ ns = ns' ∧ t = u := by
  rw [tableKey, tableKey, Key.inSpace_inj]
  constructor
  · rintro ⟨rfl, h⟩
    exact ⟨rfl, Naming.routingTable_inj.1 h⟩
  · rintro ⟨rfl, rfl⟩
    exact ⟨rfl, rfl⟩

end TenantOperator
