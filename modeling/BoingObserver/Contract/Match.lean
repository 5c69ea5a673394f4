import BoingObserver.Contract.Interfaces
import BoingObserver.Js.Double
import BoingObserver.Js.Map
import BoingObserver.RunningBest
import Mathlib.Data.Finset.Basic
import Mathlib.Data.Finset.Card
import Mathlib.Data.Rat.Defs

/-!
# Matching decoded selectors

`interfaceSelectors` and `matchInterfaceBySelectors` of `contract-interfaces.ts`: the
interface of the catalog that fits some selectors best.

* `interfaceScore_eq`: the score in terms of the two sets of selectors; a share of
  60% in doubles is a share of 60%.
* `matchInterfaceBySelectors_spec`: what the match is.
-/

namespace BoingObserver.Contract

open Js RunningBest

/-! ## The match -/

/-- Selector set of an interface (sorted); an inherited property has no functions. -/
def interfaceSelectors (id : Text) : List ℕ :=
  match recordGet contractInterfaces id with
  | .own iface => (iface.functions.map (·.selector)).insertionSort (· ≤ ·)
  | _ => []

/-- The double `0.6`, as a number of `2 ^ -53`s. -/
def sixTenths : ℕ := 5404319552844595

/-- `Math.ceil(size * 0.6)` -/
def minShared (size : ℕ) : ℕ := ceilDouble (roundDouble (size * sixTenths))

def sharedCount (given : List ℕ) (id : Text) : ℕ :=
  (given.filter (· ∈ interfaceSelectors id)).length

def mismatches (given : List ℕ) (id : Text) : ℕ :=
  given.length - sharedCount given id +
    ((interfaceSelectors id).eraseDups.length - sharedCount given id)

def interfaceScore (given : List ℕ) (id : Text) : Option ℚ :=
  let shared := sharedCount given id
  if shared = 0 ∨ shared < minShared given.length then none
  else some (shared - (mismatches given id : ℚ) / 2)

/-- Best interface for a decoded selector set, and whether the sets are identical. -/
def matchInterfaceBySelectors (selectors : List ℕ) : Option (Text × Bool) :=
  let given := selectors.eraseDups
  if given.length = 0 then none
  else
    (runningBest (fun e => interfaceScore given e.1) contractInterfaces).map fun best =>
      (best.1.1, mismatches given best.1.1 = 0)

/-! ## The specification -/

/-- The selectors of an interface of the catalog. -/
def selectorSet (iface : ContractInterface) : Finset ℕ :=
  (iface.functions.map (·.selector)).toFinset

/-- At least one selector is shared, and 60% of the given ones. -/
def Eligible (given known : Finset ℕ) : Prop :=
  1 ≤ (given ∩ known).card ∧ 3 * given.card ≤ 5 * (given ∩ known).card

instance (given known : Finset ℕ) : Decidable (Eligible given known) :=
  inferInstanceAs (Decidable (_ ∧ _))

def fitScore (given known : Finset ℕ) : ℚ :=
  (given ∩ known).card - (((given \ known).card : ℚ) + (known \ given).card) / 2

def catalogScore (given : Finset ℕ) (e : Text × ContractInterface) : Option ℚ :=
  if Eligible given (selectorSet e.2) then some (fitScore given (selectorSet e.2)) else none

/-! ## Sizes -/

theorem nodup_ids : (contractInterfaces.map Prod.fst).Nodup := by decide

theorem functions_length_le : ∀ e ∈ contractInterfaces, e.2.functions.length ≤ 20 := by decide

theorem functions_ne_nil : ∀ e ∈ contractInterfaces, 0 < e.2.functions.length := by decide

/-- Up to a hundred selectors the share of 60% is exact. -/
theorem minShared_eq : ∀ n < 101, minShared n = (3 * n + 4) / 5 := by decide +kernel

/-- For more selectors it is out of reach. -/
theorem lt_minShared {n : ℕ} (h : 101 ≤ n) : 20 < minShared n := by
  have hround := le_two_mul_roundDouble (n * sixTenths)
  rw [minShared, ceilDouble, sixTenths] at *
  omega

/-- **A share of 60% in doubles is a share of 60%**, for as many selectors as an interface may
share. -/
theorem minShared_le_iff {n k : ℕ} (hk : k ≤ 20) : minShared n ≤ k ↔ 3 * n ≤ 5 * k := by
  by_cases hn : n < 101
  · rw [minShared_eq n hn]
    omega
  · have hlt := lt_minShared (n := n) (by omega)
    omega

/-! ## The score of an interface -/

section

variable {e : Text × ContractInterface} {selectors : List ℕ}

theorem interfaceSelectors_eq (he : e ∈ contractInterfaces) :
    interfaceSelectors e.1 = (e.2.functions.map (·.selector)).insertionSort (· ≤ ·) := by
  have hlookup : contractInterfaces.lookup e.1 = some e.2 := by
    rw [← Map.lookup_eq_lookup]
    exact Map.lookup_of_mem nodup_ids he
  rw [interfaceSelectors, recordGet_eq_own.mpr hlookup]

theorem mem_interfaceSelectors (he : e ∈ contractInterfaces) {s : ℕ} :
    s ∈ interfaceSelectors e.1 ↔ s ∈ selectorSet e.2 := by
  rw [interfaceSelectors_eq he, List.mem_insertionSort, selectorSet, List.mem_toFinset]

theorem length_eraseDups (l : List ℕ) : l.eraseDups.length = l.toFinset.card := by
  have hset : l.eraseDups.toFinset = l.toFinset := by
    ext s
    rw [List.mem_toFinset, List.mem_toFinset, List.mem_eraseDups]
  rw [← hset, List.toFinset_card_of_nodup (nodup_eraseDups l)]

theorem length_eraseDups_interfaceSelectors (he : e ∈ contractInterfaces) :
    (interfaceSelectors e.1).eraseDups.length = (selectorSet e.2).card := by
  rw [length_eraseDups]
  refine congrArg Finset.card (Finset.ext fun s => ?_)
  rw [List.mem_toFinset, mem_interfaceSelectors he]

theorem sharedCount_eq (he : e ∈ contractInterfaces) :
    sharedCount selectors.eraseDups e.1 = (selectors.toFinset ∩ selectorSet e.2).card := by
  have hnodup : (selectors.eraseDups.filter (· ∈ interfaceSelectors e.1)).Nodup :=
    (nodup_eraseDups selectors).filter _
  rw [sharedCount, ← List.toFinset_card_of_nodup hnodup]
  refine congrArg Finset.card (Finset.ext fun s => ?_)
  rw [List.mem_toFinset, List.mem_filter, List.mem_eraseDups, decide_eq_true_eq,
    mem_interfaceSelectors he, Finset.mem_inter, List.mem_toFinset]

theorem mismatches_eq (he : e ∈ contractInterfaces) :
    mismatches selectors.eraseDups e.1 =
      (selectors.toFinset \ selectorSet e.2).card + (selectorSet e.2 \ selectors.toFinset).card := by
  rw [mismatches, sharedCount_eq he, length_eraseDups, length_eraseDups_interfaceSelectors he,
    Finset.card_sdiff, Finset.card_sdiff, Finset.inter_comm (selectorSet e.2)]

theorem card_selectorSet_le (he : e ∈ contractInterfaces) : (selectorSet e.2).card ≤ 20 := by
  refine (List.toFinset_card_le _).trans ?_
  rw [List.length_map]
  exact functions_length_le e he

/-- **The score in terms of the two sets.** -/
theorem interfaceScore_eq (he : e ∈ contractInterfaces) :
    interfaceScore selectors.eraseDups e.1 = catalogScore selectors.toFinset e := by
  have hle : (selectors.toFinset ∩ selectorSet e.2).card ≤ 20 :=
    (Finset.card_le_card Finset.inter_subset_right).trans (card_selectorSet_le he)
  have hshare := minShared_le_iff (n := selectors.toFinset.card) hle
  rw [interfaceScore, sharedCount_eq he, mismatches_eq he, length_eraseDups, catalogScore]
  by_cases helig : Eligible selectors.toFinset (selectorSet e.2)
  · obtain ⟨hone, hsixty⟩ := id helig
    rw [if_pos helig, if_neg (by omega), fitScore, Nat.cast_add]
  · have hnot : ¬ (1 ≤ (selectors.toFinset ∩ selectorSet e.2).card ∧
        3 * selectors.toFinset.card ≤ 5 * (selectors.toFinset ∩ selectorSet e.2).card) := helig
    rw [if_neg helig, if_pos (by omega)]

/-! ## The best interface -/

theorem mismatches_eq_zero_iff (he : e ∈ contractInterfaces) :
    mismatches selectors.eraseDups e.1 = 0 ↔ selectors.toFinset = selectorSet e.2 := by
  rw [mismatches_eq he, Nat.add_eq_zero_iff, Finset.card_eq_zero, Finset.card_eq_zero,
    Finset.sdiff_eq_empty_iff_subset, Finset.sdiff_eq_empty_iff_subset]
  exact Finset.Subset.antisymm_iff.symm

theorem catalogScore_eq_some_iff {given : Finset ℕ} {s : ℚ} :
    catalogScore given e = some s ↔
      Eligible given (selectorSet e.2) ∧ fitScore given (selectorSet e.2) = s := by
  rw [catalogScore]
  by_cases helig : Eligible given (selectorSet e.2)
  · rw [if_pos helig, Option.some_inj, and_iff_right helig]
  · rw [if_neg helig]
    exact iff_of_false (fun h => by cases h) fun h => helig h.1

theorem catalogScore_eq_none_iff {given : Finset ℕ} :
    catalogScore given e = none ↔ ¬ Eligible given (selectorSet e.2) := by
  rw [catalogScore, ite_eq_right_iff]
  exact forall_congr' fun _ => iff_of_false (fun h => by cases h) id

/-- **The match depends on the set of the selectors only.** -/
theorem matchInterfaceBySelectors_eq (selectors : List ℕ) :
    matchInterfaceBySelectors selectors =
      (runningBest (catalogScore selectors.toFinset) contractInterfaces).map fun best =>
        (best.1.1, decide (selectors.toFinset = selectorSet best.1.2)) := by
  have hbest : runningBest (fun e => interfaceScore selectors.eraseDups e.1) contractInterfaces =
      runningBest (catalogScore selectors.toFinset) contractInterfaces :=
    runningBest_congr fun e he => interfaceScore_eq he
  rw [matchInterfaceBySelectors, hbest]
  by_cases hempty : selectors.eraseDups.length = 0
  · have hnone : runningBest (catalogScore selectors.toFinset) contractInterfaces = none := by
      refine runningBest_eq_none_iff.mpr fun e _ => catalogScore_eq_none_iff.mpr fun helig => ?_
      rw [length_eraseDups, Finset.card_eq_zero] at hempty
      have hone := helig.1
      rw [hempty, Finset.empty_inter] at hone
      exact absurd hone (by decide)
    rw [if_pos hempty, hnone]
    rfl
  · rw [if_neg hempty]
    cases h : runningBest (catalogScore selectors.toFinset) contractInterfaces with
    | none => rfl
    | some best =>
      have hmem : best.1 ∈ contractInterfaces := (firstBest_of_eq_some h).mem
      simp only [Option.map_some, mismatches_eq_zero_iff hmem]

/-- **The score of a superset or subset is lower** than the number of selectors given. -/
theorem card_le_fitScore_iff {given known : Finset ℕ} :
    (given.card : ℚ) ≤ fitScore given known ↔ given = known := by
  have hsplit : (given ∩ known).card + (given \ known).card = given.card :=
    Finset.card_inter_add_card_sdiff given known
  have hsplit' : ((given ∩ known).card : ℚ) + (given \ known).card = given.card := by
    exact_mod_cast hsplit
  have hextra : (0 : ℚ) ≤ (known \ given).card := Nat.cast_nonneg _
  have hmissing : (0 : ℚ) ≤ (given \ known).card := Nat.cast_nonneg _
  rw [fitScore]
  constructor
  · intro h
    have hmissing0 : ((given \ known).card : ℚ) = 0 := by linarith
    have hextra0 : ((known \ given).card : ℚ) = 0 := by linarith
    rw [Nat.cast_eq_zero, Finset.card_eq_zero, Finset.sdiff_eq_empty_iff_subset]
      at hmissing0 hextra0
    exact Finset.Subset.antisymm hmissing0 hextra0
  · rintro rfl
    rw [Finset.inter_self, Finset.sdiff_self, Finset.card_empty]
    simp

theorem eligible_self (he : e ∈ contractInterfaces) :
    Eligible (selectorSet e.2) (selectorSet e.2) := by
  have hpos : 0 < (selectorSet e.2).card := by
    rw [Finset.card_pos, selectorSet, List.toFinset_nonempty_iff, ne_eq, List.map_eq_nil_iff]
    exact List.length_pos_iff.mp (functions_ne_nil e he)
  rw [Eligible, Finset.inter_self]
  omega

/-- **An exact set is never beaten.** -/
theorem exact_of_firstBest {given : Finset ℕ} {s : ℚ} {best : Text × ContractInterface}
    (he : e ∈ contractInterfaces) (hset : selectorSet e.2 = given)
    (h : FirstBest (catalogScore given) contractInterfaces best s) :
    given = selectorSet best.2 := by
  subst hset
  have hscore : catalogScore (selectorSet e.2) e =
      some (fitScore (selectorSet e.2) (selectorSet e.2)) :=
    catalogScore_eq_some_iff.mpr ⟨eligible_self he, rfl⟩
  have hbest := (catalogScore_eq_some_iff.mp h.score_eq).2
  refine card_le_fitScore_iff.mp ?_
  rw [hbest]
  exact (card_le_fitScore_iff.mpr rfl).trans (h.le he hscore)

/-- **The match follows its specification**: it depends on the set of the selectors only; there is
none iff no interface is eligible; else it is the first eligible interface of the highest score,
exact iff the sets are equal; and an exact set gives an exact match. -/
theorem matchInterfaceBySelectors_spec (selectors : List ℕ) :
    (∀ selectors' : List ℕ, (∀ s, s ∈ selectors' ↔ s ∈ selectors) →
        matchInterfaceBySelectors selectors' = matchInterfaceBySelectors selectors) ∧
      (matchInterfaceBySelectors selectors = none ↔
        ∀ e ∈ contractInterfaces, ¬ Eligible selectors.toFinset (selectorSet e.2)) ∧
      (∀ id isExact, matchInterfaceBySelectors selectors = some (id, isExact) →
        ∃ e, e.1 = id ∧
          FirstBest (catalogScore selectors.toFinset) contractInterfaces e
            (fitScore selectors.toFinset (selectorSet e.2)) ∧
          (isExact = true ↔ selectors.toFinset = selectorSet e.2)) ∧
      ((∃ e ∈ contractInterfaces, selectorSet e.2 = selectors.toFinset) →
        ∃ id, matchInterfaceBySelectors selectors = some (id, true)) := by
  refine ⟨?_, ?_, ?_, ?_⟩
  · intro selectors' hmem
    have hset : selectors'.toFinset = selectors.toFinset := by
      ext s
      rw [List.mem_toFinset, List.mem_toFinset, hmem]
    rw [matchInterfaceBySelectors_eq, matchInterfaceBySelectors_eq, hset]
  · rw [matchInterfaceBySelectors_eq, Option.map_eq_none_iff, runningBest_eq_none_iff]
    exact forall₂_congr fun e _ => catalogScore_eq_none_iff
  · intro id isExact h
    rw [matchInterfaceBySelectors_eq, Option.map_eq_some_iff] at h
    obtain ⟨⟨e, s⟩, hbest, hpair⟩ := h
    obtain ⟨rfl, rfl⟩ := Prod.mk.inj hpair
    have hfirst := firstBest_of_eq_some hbest
    have hs := (catalogScore_eq_some_iff.mp hfirst.score_eq).2
    refine ⟨e, rfl, ?_, decide_eq_true_iff⟩
    rw [hs]
    exact hfirst
  · rintro ⟨e, he, hset⟩
    have hscore : catalogScore selectors.toFinset e ≠ none := by
      rw [ne_eq, catalogScore_eq_none_iff, not_not, ← hset]
      exact eligible_self he
    cases hbest : runningBest (catalogScore selectors.toFinset) contractInterfaces with
    | none => exact absurd (runningBest_eq_none_iff.mp hbest e he) hscore
    | some best =>
      have hexact := exact_of_firstBest he hset (firstBest_of_eq_some hbest)
      refine ⟨best.1.1, ?_⟩
      rw [matchInterfaceBySelectors_eq, hbest, Option.map_some, decide_eq_true hexact]

end

example : matchInterfaceBySelectors [0x01, 0x06, 0x07] =
    some (("lp-share-token" : Text), true) := by
  decide +kernel

end BoingObserver.Contract
