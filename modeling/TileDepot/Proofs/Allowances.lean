import TileDepot.Proofs.Quotas

/-!
# Which quota of a layer counts

Settings may give several quotas for one layer. They report the first, and an accountant goes by the last. So the two agree on
a layer exactly if its first quota and its last allow the same bytes and name the same policy, and on every layer if none is
given two quotas.
-/

namespace TileDepot

/-- The table in which some policies were registered. -/
def PolicyTable.ofPolicies (policies : List Policy) : PolicyTable := policies.foldl register ∅

namespace Settings

variable {settings : Settings} {layer : String}

/-- The quotas that are given for a layer, in their order. -/
def quotasOf (settings : Settings) (layer : String) : List LayerQuota := settings.layerQuotas.filter (·.layer == layer)

/-- The name of the policy that a layer follows by its quota, if it has one. -/
def policyBy (settings : Settings) (quota : Option LayerQuota) : String := (quota.bind (·.policy)).getD settings.policy

/-- An accountant lets a layer use the bytes that the settings report for it, and sweeps it by the policy that they name. -/
structure Describes (settings : Settings) (accountant : Accountant) (layer : String) : Prop where
  allowed : (accountant.allowed layer).map (·.bytes) = ((settings.layerQuota layer).bind (·.allowed)).map (·.bytes)
  policy : (accountant.policyFor layer).map Policy.name = .ok (settings.policyFor layer)

/-- The first and the last quota of a layer allow the same bytes and name the same policy. -/
structure SpeaksOnce (settings : Settings) (layer : String) : Prop where
  allowed : ((settings.quotasOf layer).head?.bind (·.allowed)).map (·.bytes) =
    ((settings.quotasOf layer).getLast?.bind (·.allowed)).map (·.bytes)
  policy : settings.policyBy (settings.quotasOf layer).head? = settings.policyBy (settings.quotasOf layer).getLast?

/-- The settings report the first entry of a layer. -/
theorem layerQuota_eq_head? (settings : Settings) (layer : String) :
    settings.layerQuota layer = (settings.quotasOf layer).head? := by
  rw [quotasOf, List.head?_filter]
  rfl

/-- The settings report the policy of the first entry of a layer, or else the global one. -/
theorem policyFor_eq (settings : Settings) (layer : String) :
    settings.policyFor layer = settings.policyBy (settings.quotasOf layer).head? := by
  rw [← layerQuota_eq_head?]
  rfl

/-- Where no layer is given two quotas, the first quota of a layer is its last. -/
theorem head?_quotasOf_of_nodup (h : (settings.layerQuotas.map (·.layer)).Nodup) (layer : String) :
    (settings.quotasOf layer).head? = (settings.quotasOf layer).getLast? := by
  have hnodup : ((settings.quotasOf layer).map (·.layer)).Nodup := h.sublist (List.filter_sublist.map _)
  have hlayer : ∀ quota ∈ settings.quotasOf layer, quota.layer = layer := fun quota hquota =>
    beq_iff_eq.mp (List.mem_filter.mp hquota).2
  match hquotas : settings.quotasOf layer with
  | [] | [_] => rfl
  | first :: second :: rest =>
    rw [hquotas] at hnodup hlayer
    have hsame : first.layer = second.layer := (hlayer first (by simp)).trans (hlayer second (by simp)).symm
    simp [hsame] at hnodup

end Settings

/-! ## Policies by name -/

namespace PolicyTable

variable {table : PolicyTable} {known : List Policy} {name : String} {policy : Policy}

/-- Registering keeps every policy under its own name. -/
theorem name_of_getElem?_foldl_register (h : ∀ (name : String) (policy : Policy), table[name]? = some policy → policy.name = name)
    (hname : (known.foldl register table)[name]? = some policy) : policy.name = name := by
  induction known generalizing table with
  | nil => exact h name policy hname
  | cons first known ih =>
    refine ih (fun other found hfound => ?_) hname
    rw [register, Table.getElem?_insert] at hfound
    split at hfound
    · rename_i hfirst
      rw [← Option.some.inj hfound, hfirst]
    · exact h other found hfound

/-- A policy that is found bears the name that was looked up. -/
theorem find_map_name (h : (ofPolicies known).contains name = true) : ((ofPolicies known).find name).map Policy.name = .ok name := by
  obtain ⟨policy, hpolicy⟩ := Table.mem_iff_exists.mp h
  have hname : policy.name = name := name_of_getElem?_foldl_register (by simp) hpolicy
  rw [find, hpolicy, ← hname]
  rfl

end PolicyTable

/-! ## Accountants of settings -/

namespace Settings

variable {settings : Settings} {policies : PolicyTable}

/-- An accountant made of valid settings keeps the last entry of each layer. -/
theorem ofSettings_of_validate (h : settings.validate policies = .ok ()) : Accountant.ofSettings settings policies =
    .ok ⟨settings, policies, .ofList (settings.layerQuotas.map fun quota => (quota.layer, quota))⟩ := by
  rw [Accountant.ofSettings, h]
  rfl

/-- Whatever quota of a layer counts, its policy is known. -/
theorem contains_policyBy (h : settings.validate policies = .ok ()) {quota : Option LayerQuota}
    (hquota : ∀ given ∈ quota, given ∈ settings.layerQuotas) : policies.contains (settings.policyBy quota) = true := by
  obtain ⟨hglobal, hlayers⟩ := of_validate h
  cases quota with
  | none => exact hglobal
  | some given =>
    cases hpolicy : given.policy with
    | none => simpa [policyBy, hpolicy] using hglobal
    | some name =>
      have hvalid := hlayers given (hquota given rfl)
      unfold validateLayer at hvalid
      rw [hpolicy] at hvalid
      simp only [policyBy, Option.bind_some, hpolicy, Option.getD_some]
      split at hvalid
      · cases hvalid
      · dsimp only at hvalid
        split at hvalid
        · assumption
        · cases hvalid

/-- An accountant of valid settings goes by the last quota of a layer, and the settings report the first. So they agree on a
layer exactly if its first and its last quota say the same, and on all layers where none is given two. -/
theorem describes_iff_speaksOnce (settings : Settings) (known : List Policy)
    (h : settings.validate (.ofPolicies known) = .ok ()) :
    ∃ accountant, Accountant.ofSettings settings (.ofPolicies known) = .ok accountant ∧
      (∀ layer : String, accountant.allowed layer = (settings.quotasOf layer).getLast?.bind (·.allowed) ∧
        (accountant.policyFor layer).map Policy.name = .ok (settings.policyBy (settings.quotasOf layer).getLast?)) ∧
      (∀ layer : String, settings.Describes accountant layer ↔ settings.SpeaksOnce layer) ∧
      ((settings.layerQuotas.map (·.layer)).Nodup → ∀ layer : String,
        accountant.allowed layer = (settings.layerQuota layer).bind (·.allowed) ∧
          (accountant.policyFor layer).map Policy.name = .ok (settings.policyFor layer)) := by
  refine ⟨_, ofSettings_of_validate h, ?_⟩
  generalize haccountant : Accountant.mk settings (.ofPolicies known) _ = accountant
  have hlast : ∀ layer : String, accountant.allowed layer = (settings.quotasOf layer).getLast?.bind (·.allowed) ∧
      (accountant.policyFor layer).map Policy.name = .ok (settings.policyBy (settings.quotasOf layer).getLast?) := by
    intro layer
    have hquota : accountant.quotas[layer]? = (settings.quotasOf layer).getLast? := by
      rw [← haccountant]
      exact Table.getElem?_ofList_map LayerQuota.layer settings.layerQuotas layer
    have hknown : (PolicyTable.ofPolicies known).contains (settings.policyBy (settings.quotasOf layer).getLast?) = true :=
      contains_policyBy h fun given hgiven => (List.mem_filter.mp (List.mem_of_getLast? hgiven)).1
    refine ⟨by rw [Accountant.allowed, hquota], ?_⟩
    rw [Accountant.policyFor, hquota, ← haccountant]
    exact PolicyTable.find_map_name hknown
  refine ⟨hlast, fun layer => ?_, fun hnodup layer => ?_⟩
  · obtain ⟨hallowed, hpolicy⟩ := hlast layer
    constructor
    · rintro ⟨hsame, hname⟩
      rw [hallowed, layerQuota_eq_head?] at hsame
      rw [hpolicy, policyFor_eq] at hname
      exact ⟨hsame.symm, (Except.ok.inj hname).symm⟩
    · rintro ⟨hsame, hname⟩
      refine ⟨?_, ?_⟩
      · rw [hallowed, layerQuota_eq_head?, hsame]
      · rw [hpolicy, policyFor_eq, hname]
  · obtain ⟨hallowed, hpolicy⟩ := hlast layer
    rw [hallowed, hpolicy, policyFor_eq, layerQuota_eq_head?, head?_quotasOf_of_nodup hnodup layer]
    exact ⟨rfl, rfl⟩

/-- Settings that give one layer two quotas which differ, and another two which do not. -/
def overlapping : Settings := { Settings.standard with
  layerQuotas := [.ofPolicy "roads" "LRU" (.ofBytes 100), .ofPolicy "rivers" "LRU" (.ofBytes 300),
    .ofPolicy "roads" "LFU" (.ofBytes 200), .ofPolicy "rivers" "LRU" (.ofBytes 300)] }

/-- Their accountant agrees with them on the one layer and not on the other. -/
theorem describes_rivers_not_roads :
    overlapping.validate (.ofPolicies [.leastRecent, .leastFrequent]) = .ok () ∧
      ∃ accountant, Accountant.ofSettings overlapping (.ofPolicies [.leastRecent, .leastFrequent]) = .ok accountant ∧
        overlapping.Describes accountant "rivers" ∧ ¬overlapping.Describes accountant "roads" := by
  have hvalid : overlapping.validate (.ofPolicies [.leastRecent, .leastFrequent]) = .ok () := by decide +kernel
  obtain ⟨accountant, haccountant, -, hagree, -⟩ := describes_iff_speaksOnce _ _ hvalid
  refine ⟨hvalid, accountant, haccountant, (hagree "rivers").mpr ⟨by decide, by decide⟩, fun hroads => ?_⟩
  exact absurd ((hagree "roads").mp hroads).allowed (by decide)

/-- The settings report 100 bytes by LRU for the layer, and the accountant enforces 200 bytes by LFU. -/
theorem second_quota_enforced :
    (overlapping.layerQuota "roads").bind (·.allowed) = some (.ofBytes 100) ∧ overlapping.policyFor "roads" = "LRU" ∧
      ∃ accountant, Accountant.ofSettings overlapping .default = .ok accountant ∧
        accountant.allowed "roads" = some (.ofBytes 200) ∧ accountant.policyFor "roads" = .ok .leastFrequent := by
  refine ⟨by decide, by decide, _, ofSettings_of_validate (by decide +kernel), ?_, ?_⟩
  · decide +kernel
  · decide +kernel

end Settings

end TileDepot
