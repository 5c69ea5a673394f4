import BoingObserver.Deploy.Lookup
import BoingObserver.Js.Map
import BoingObserver.Payload.Kind

/-!
# The heights of an account's deploys

`deployHeightsFromRows` of `account-deploy-heights.ts`, beside the deploy rows of
`lookupContractCode`.  A row of an account's history names its payload by the
snake_case of the variant; three variants deploy a contract.

* `deployHeight_eq_some_iff`: `lookupContractCode` takes the rows of all three.
* `mem_deployHeightsFromRows`: the heights are those of the plain deploys only.
* `deployHeights_agree_iff`: the lists agree iff every deploy with a purpose shares
  its height with a plain deploy.
-/

namespace BoingObserver.Deploy

open Js Payload

/-! ## Heights -/

def outHeight (r : TxRow) : Option ℤ :=
  match r.direction, r.blockHeight with
  | .string dir, .number h => if dir = "out" then h.toInt? else none
  | _, _ => none

def plainDeployHeight (r : TxRow) : Option ℤ :=
  match r.kind with
  | .string kind => if kind = "contract_deploy" then outHeight r else none
  | _ => none

def deployHeightsFromRows (rows : List TxRow) : List ℤ :=
  (rows.filterMap plainDeployHeight).eraseDups.insertionSort (· ≤ ·)

/-! ## Deploy rows -/

/-- A row of the catalog: its kind is the snake_case of a payload variant. -/
def CatalogRow (r : TxRow) : Prop := ∃ e ∈ payloadVariants, r.kind = .string (snakeCase e.1)

def IsDeploy (r : TxRow) (h : ℤ) : Prop :=
  outHeight r = some h ∧ ∃ kind k, r.kind = .string kind ∧
    resolveTaggedPayloadKind kind = some k ∧ isContractDeployPayloadKind k = true

def purposeKinds : List Text :=
  ["contract_deploy_with_purpose", "contract_deploy_with_purpose_and_metadata"]

/-- A prefix of the snake_case, and a deploy kind of the catalog, are the same thing. -/
theorem deployKinds : ∀ e ∈ payloadVariants,
    (("contract_deploy" : Text).isPrefixOf (snakeCase e.1) =
      isContractDeployPayloadKind (.known (displayKindForVariant e.2))) ∧
    (isContractDeployPayloadKind (.known (displayKindForVariant e.2)) = true →
      snakeCase e.1 = "contract_deploy" ∨ snakeCase e.1 ∈ purposeKinds) := by
  decide +kernel

theorem isPrefixOf_plain :
    ("contract_deploy" : Text).isPrefixOf ("contract_deploy" : Text) = true := by decide

theorem isPrefixOf_purposeKinds :
    ∀ kind ∈ purposeKinds, ("contract_deploy" : Text).isPrefixOf kind = true := by decide

/-- Every deploy with a purpose is at the height of a plain deploy. -/
def PurposeCovered (rows : List TxRow) : Prop :=
  ∀ r ∈ rows, ∀ h kind, r.kind = .string kind → kind ∈ purposeKinds → outHeight r = some h →
    ∃ r' ∈ rows, r'.kind = .string "contract_deploy" ∧ outHeight r' = some h

section

variable {r : TxRow} {rows : List TxRow} {h : ℤ}

/-- **A row of the catalog is a deploy** iff its kind has the prefix. -/
theorem isDeploy_iff (hr : CatalogRow r) :
    IsDeploy r h ↔ outHeight r = some h ∧
      ∃ kind, r.kind = .string kind ∧ ("contract_deploy" : Text).isPrefixOf kind = true := by
  obtain ⟨e, he, hkind⟩ := hr
  have hresolve := (resolve_payloadVariants e he).2
  have hkinds := (deployKinds e he).1
  refine and_congr_right fun _ => ?_
  constructor
  · rintro ⟨kind, k, hk, hres, hdeploy⟩
    obtain rfl := Value.string.inj (hkind.symm.trans hk)
    obtain rfl := Option.some.inj (hresolve.symm.trans hres)
    exact ⟨_, hkind, hkinds.trans hdeploy⟩
  · rintro ⟨kind, hk, hpre⟩
    obtain rfl := Value.string.inj (hkind.symm.trans hk)
    exact ⟨_, _, hkind, hresolve, hkinds.symm.trans hpre⟩

theorem deployHeight_eq (nt : NumberText) (r : TxRow) :
    deployHeight nt r =
      if ("contract_deploy" : Text).isPrefixOf (nt.stringOf (r.kind.orElse (.string [])))
        then outHeight r else none := by
  rw [deployHeight, outHeight]
  -- without a text and a number both sides are `none`
  cases r.direction with
  | string dir =>
    cases r.blockHeight with
    | number x =>
      by_cases hpre :
          ("contract_deploy" : Text).isPrefixOf (nt.stringOf (r.kind.orElse (.string []))) = true
      · rw [if_pos hpre]
        simp only [hpre, and_true]
      · rw [if_neg hpre]
        exact if_neg fun h => hpre h.2
    | _ => exact (ite_self _).symm
  | _ => exact (ite_self _).symm

/-- **`lookupContractCode` takes a row of the catalog** iff it is a deploy. -/
theorem deployHeight_eq_some_iff (nt : NumberText) (hr : CatalogRow r) :
    deployHeight nt r = some h ↔ IsDeploy r h := by
  rw [isDeploy_iff hr]
  obtain ⟨e, -, hkind⟩ := hr
  have htext : nt.stringOf (r.kind.orElse (.string [])) = snakeCase e.1 := by
    rw [hkind]
    rfl
  rw [deployHeight_eq, htext]
  by_cases hpre : ("contract_deploy" : Text).isPrefixOf (snakeCase e.1) = true
  · rw [if_pos hpre]
    exact (and_iff_left ⟨_, hkind, hpre⟩).symm
  · rw [if_neg hpre]
    refine iff_of_false (fun hnone => by cases hnone) ?_
    rintro ⟨-, kind, hk, hkindPre⟩
    obtain rfl := Value.string.inj (hkind.symm.trans hk)
    exact hpre hkindPre

theorem plainDeployHeight_eq_some_iff :
    plainDeployHeight r = some h ↔ r.kind = .string "contract_deploy" ∧ outHeight r = some h := by
  rw [plainDeployHeight]
  split
  next kind hkind =>
    by_cases heq : kind = "contract_deploy"
    · rw [if_pos heq, hkind, heq]
      exact (and_iff_right rfl).symm
    · rw [if_neg heq, hkind]
      exact iff_of_false (fun h => by cases h) fun h => heq (Value.string.inj h.1)
  next hnot => exact iff_of_false (fun h => by cases h) fun h => hnot _ h.1

/-- **The heights are those of the plain deploys.** -/
theorem mem_deployHeightsFromRows : h ∈ deployHeightsFromRows rows ↔
    ∃ r ∈ rows, r.kind = .string "contract_deploy" ∧ outHeight r = some h := by
  rw [deployHeightsFromRows, mem_distinct, List.mem_filterMap]
  simp only [plainDeployHeight_eq_some_iff]

theorem isDeploy_kind (hr : CatalogRow r) (hd : IsDeploy r h) :
    r.kind = .string "contract_deploy" ∨ ∃ kind ∈ purposeKinds, r.kind = .string kind := by
  obtain ⟨e, he, hkind⟩ := hr
  obtain ⟨-, kind, k, hk, hres, hdeploy⟩ := hd
  obtain rfl := Value.string.inj (hkind.symm.trans hk)
  obtain rfl := Option.some.inj ((resolve_payloadVariants e he).2.symm.trans hres)
  rcases (deployKinds e he).2 hdeploy with hplain | hpurpose
  · exact Or.inl (hkind.trans (congrArg Value.string hplain))
  · exact Or.inr ⟨_, hpurpose, hkind⟩

end

/-- **The deploy lists agree** iff every deploy with a purpose is at the height of a plain one. -/
theorem deployHeights_agree_iff (nt : NumberText) (rows : List TxRow)
    (hrows : ∀ r ∈ rows, CatalogRow r) :
    ((deployHeightsFromRows rows).Pairwise (· < ·) ∧
        (∀ h, h ∈ deployHeightsFromRows rows ↔ ∃ r ∈ rows, IsDeploy r h) ∧
        ∀ r ∈ rows, ∀ h, deployHeight nt r = some h ↔ IsDeploy r h) ↔
      PurposeCovered rows := by
  constructor
  · rintro ⟨-, hmem, -⟩ r hr h kind hkind hpurpose hout
    have hdeploy : IsDeploy r h :=
      (isDeploy_iff (hrows r hr)).mpr ⟨hout, kind, hkind, isPrefixOf_purposeKinds kind hpurpose⟩
    exact mem_deployHeightsFromRows.mp ((hmem h).mpr ⟨r, hr, hdeploy⟩)
  · intro hcovered
    refine ⟨pairwise_lt_distinct _, ?_, fun r hr h => deployHeight_eq_some_iff nt (hrows r hr)⟩
    intro h
    rw [mem_deployHeightsFromRows]
    constructor
    · rintro ⟨r, hr, hkind, hout⟩
      exact ⟨r, hr, (isDeploy_iff (hrows r hr)).mpr ⟨hout, _, hkind, isPrefixOf_plain⟩⟩
    · rintro ⟨r, hr, hdeploy⟩
      rcases isDeploy_kind (hrows r hr) hdeploy with hplain | ⟨kind, hpurpose, hkind⟩
      · exact ⟨r, hr, hplain, hdeploy.1⟩
      · exact hcovered r hr h kind hkind hpurpose hdeploy.1

/-! ## A history with two deploys -/

def outRow (height : ℕ) (kind : Text) : TxRow where
  blockHeight := .number (.ofNat height)
  txIndex := .undefined
  direction := .string "out"
  sender := .undefined
  kind := .string kind
  contract := .undefined

def twoDeploys : List TxRow :=
  [outRow 7 "contract_deploy_with_purpose", outRow 7 "contract_deploy"]

theorem catalogRow_contractDeploy (height : ℕ) : CatalogRow (outRow height "contract_deploy") :=
  ⟨(PayloadVariant.contractDeploy.name, .contractDeploy), by decide, rfl⟩

theorem catalogRow_contractDeployWithPurpose (height : ℕ) :
    CatalogRow (outRow height "contract_deploy_with_purpose") :=
  ⟨(PayloadVariant.contractDeployWithPurpose.name, .contractDeployWithPurpose), by decide, rfl⟩

theorem catalogRow_twoDeploys : ∀ r ∈ twoDeploys, CatalogRow r := by
  intro r hr
  rcases List.mem_cons.mp hr with rfl | hr
  · exact catalogRow_contractDeployWithPurpose 7
  · rw [List.mem_singleton.mp hr]
    exact catalogRow_contractDeploy 7

theorem deployHeights_agree_two :
    ((deployHeightsFromRows twoDeploys).Pairwise (· < ·) ∧
        (∀ h, h ∈ deployHeightsFromRows twoDeploys ↔ ∃ r ∈ twoDeploys, IsDeploy r h) ∧
        ∀ r ∈ twoDeploys, ∀ h, deployHeight integersOnly r = some h ↔ IsDeploy r h) ↔
      PurposeCovered twoDeploys :=
  deployHeights_agree_iff integersOnly twoDeploys catalogRow_twoDeploys

/-- **A deploy with a purpose is missed**: `lookupContractCode` takes it, and its height is not
listed. -/
theorem purpose_deploy_missed :
    (∀ r ∈ [outRow 7 "contract_deploy_with_purpose"], CatalogRow r) ∧
      deployHeight integersOnly (outRow 7 "contract_deploy_with_purpose") = some 7 ∧
      deployHeightsFromRows [outRow 7 "contract_deploy_with_purpose"] = [] ∧
      ¬ ∀ h, h ∈ deployHeightsFromRows [outRow 7 "contract_deploy_with_purpose"] ↔
        ∃ r ∈ [outRow 7 "contract_deploy_with_purpose"], IsDeploy r h := by
  have hrow := catalogRow_contractDeployWithPurpose 7
  have hheight : deployHeight integersOnly (outRow 7 "contract_deploy_with_purpose") = some 7 := rfl
  refine ⟨fun r hr => List.mem_singleton.mp hr ▸ hrow, hheight, rfl, ?_⟩
  intro hmem
  have hdeploy := (deployHeight_eq_some_iff integersOnly hrow).mp hheight
  cases (hmem 7).mpr ⟨_, List.mem_cons_self, hdeploy⟩

end BoingObserver.Deploy
