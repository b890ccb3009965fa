import TileDepot.Eviction.Accountant
import TileDepot.Proofs.Table

/-!
# Quotas that can be enforced

An accountant made from valid settings knows the policy of every quota, and every quota of a layer has a size. This stays so
when a layer is renamed and takes its quota along.
-/

namespace TileDepot

/-- A quota of a size that is not negative, with a policy from a table if it has one of its own. -/
structure LayerQuota.Sane (policies : PolicyTable) (quota : LayerQuota) : Prop where
  allowed : ∃ allowed, quota.allowed = some allowed ∧ 0 ≤ allowed.bytes
  policy : ∀ {name}, quota.policy = some name → policies.contains name = true

/-- An accountant that can enforce all its quotas, none of which is negative. -/
structure Accountant.Sane (accountant : Accountant) : Prop where
  globalQuota : 0 ≤ accountant.settings.globalQuota.bytes
  policy : accountant.policies.contains accountant.settings.policy = true
  quotas : ∀ {layer : String} {quota : LayerQuota}, accountant.quotas[layer]? = some quota → quota.Sane accountant.policies

/-- A policy that is registered is found. -/
theorem PolicyTable.find_of_contains {policies : PolicyTable} {name : String} (h : policies.contains name = true) :
    ∃ policy, policies.find name = .ok policy := by
  obtain ⟨policy, hpolicy⟩ := Table.mem_iff_exists.mp h
  exact ⟨policy, by rw [find, hpolicy]⟩

namespace Settings

variable {settings : Settings} {policies : PolicyTable}

/-- A quota that is valid, and not below zero, is sane. -/
theorem sane_of_validateLayer {quota : LayerQuota} (h : validateLayer policies quota = .ok ())
    (hallowed : ∀ allowed, quota.allowed = some allowed → 0 ≤ allowed.bytes) : quota.Sane policies := by
  unfold validateLayer at h
  cases heq : quota.allowed with
  | none => rw [heq, if_pos (by rfl)] at h; cases h
  | some allowed =>
    rw [heq, if_neg (by simp)] at h
    refine ⟨⟨allowed, heq, hallowed allowed heq⟩, fun {name} hname => ?_⟩
    rw [hname] at h
    dsimp only at h
    split at h
    · assumption
    · cases h

/-- If all quotas are valid each of them is. -/
theorem validateLayer_of_forM : ∀ {quotas : List LayerQuota}, quotas.forM (validateLayer policies) = .ok () →
    ∀ quota ∈ quotas, validateLayer policies quota = .ok () := by
  intro quotas
  induction quotas with
  | nil => intro _ quota hquota; cases hquota
  | cons first quotas ih =>
    intro h quota hquota
    change (validateLayer policies first >>= fun _ => quotas.forM (validateLayer policies)) = .ok () at h
    cases hfirst : validateLayer policies first with
    | error error =>
      rw [hfirst] at h
      cases h
    | ok _ =>
      rw [hfirst] at h
      rcases List.mem_cons.mp hquota with rfl | hquota
      · exact hfirst
      · exact ih h quota hquota

/-- The policy of valid settings is known, and so are those of their layers. -/
theorem of_validate (h : settings.validate policies = .ok ()) : policies.contains settings.policy = true ∧
    ∀ quota ∈ settings.layerQuotas, validateLayer policies quota = .ok () := by
  unfold validate at h
  split at h
  · cases h
  split at h
  · cases h
  split at h
  · cases h
  split at h
  · cases h
  split at h
  · cases h
  · rename_i hpolicy
    refine ⟨by simpa using hpolicy, validateLayer_of_forM h⟩

end Settings

namespace Accountant

/-- The accountant of valid settings whose quotas are not negative. -/
theorem sane_ofSettings {settings : Settings} {policies : PolicyTable} {accountant : Accountant}
    (h : ofSettings settings policies = .ok accountant) (hglobal : 0 ≤ settings.globalQuota.bytes)
    (hquotas : ∀ quota ∈ settings.layerQuotas, ∀ allowed, quota.allowed = some allowed → 0 ≤ allowed.bytes) :
    accountant.Sane := by
  unfold ofSettings at h
  cases hvalid : settings.validate policies with
  | error error => rw [hvalid] at h; cases h
  | ok _ =>
    rw [hvalid] at h
    obtain rfl := Except.ok.inj h
    obtain ⟨hpolicy, hlayers⟩ := Settings.of_validate hvalid
    refine ⟨hglobal, hpolicy, fun {layer quota} hquota => ?_⟩
    obtain ⟨quota', hmem, heq⟩ := List.mem_map.mp (Table.mem_of_getElem?_ofList hquota)
    obtain ⟨-, rfl⟩ := Prod.mk.inj heq
    exact Settings.sane_of_validateLayer (hlayers _ hmem) (hquotas _ hmem)

/-- Quotas moved with their layers stay quotas that can be enforced. -/
theorem Sane.hear {accountant : Accountant} (h : accountant.Sane) (event : Event) (now : Int) (books : Books) :
    (accountant.hear event now books).1.Sane := by
  cases event with
  | layerRenamed layer target =>
    refine ⟨h.globalQuota, h.policy, fun {other quota} hquota => ?_⟩
    change (moveQuota accountant.quotas layer target)[other]? = some quota at hquota
    unfold moveQuota at hquota
    cases hmoved : accountant.quotas[layer]? with
    | none =>
      rw [hmoved] at hquota
      exact h.quotas hquota
    | some moved =>
      rw [hmoved] at hquota
      dsimp only at hquota
      rw [Table.getElem?_insert, Table.getElem?_erase] at hquota
      split at hquota
      · obtain rfl := Option.some.inj hquota
        exact ⟨(h.quotas hmoved).allowed, (h.quotas hmoved).policy⟩
      · split at hquota
        · cases hquota
        · exact h.quotas hquota
  | stored | updated | deleted | layerDeleted | gridsetDeleted | parametersDeleted => exact h

/-- The policy of a layer is known. -/
theorem Sane.policyFor {accountant : Accountant} (h : accountant.Sane) (layer : String) :
    ∃ policy, accountant.policyFor layer = .ok policy := by
  refine PolicyTable.find_of_contains ?_
  cases hquota : accountant.quotas[layer]? with
  | none => exact h.policy
  | some quota =>
    cases hpolicy : quota.policy with
    | none => simpa [hpolicy] using h.policy
    | some name => simpa [hpolicy] using (h.quotas hquota).policy hpolicy

/-- A sane accountant has a policy for the global quota. -/
theorem Sane.globalPolicy {accountant : Accountant} (h : accountant.Sane) : ∃ policy, accountant.globalPolicy = .ok policy :=
  PolicyTable.find_of_contains h.policy

end Accountant

end TileDepot
