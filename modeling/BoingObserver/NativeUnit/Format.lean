import BoingObserver.NativeUnit.Amount

/-!
# Amounts as texts

`format-amount.ts` and the formatting half of `native-unit.ts`: amounts in base
units as BOING, exact (`full`) and shortened for cards (`short`).

* `filter_groupDigits`: grouping only puts commas between the digits.
-/

namespace BoingObserver.NativeUnit

open Js

structure CompactAmount where
  short : Text
  full : Text

def suffixes : List Text := ["", "K", "M", "B", "T"]

/-- Commas between groups of three digits, from the right. -/
def groupDigits : Text → Text
  | [] => []
  | c :: s => if s ≠ [] ∧ s.length % 3 = 0 then c :: ',' :: groupDigits s else c :: groupDigits s

/-- `s.replace(/^0+(?=\d)/, "")` for a text of digits. -/
def stripZeros (s : Text) : Text :=
  let t := s.dropWhile (· = '0')
  if t = [] then s.drop (s.length - 1) else t

/-- Up to 6 digits grouped, up to 15 with a suffix, else scientific; what is no integer is
returned as it is. -/
def compactAmount (raw : Text) : CompactAmount :=
  let s := trim raw
  if ¬ IsDigits s then ⟨s, s⟩
  else
    let digits := stripZeros s
    let full := groupDigits digits
    let n := digits.length
    if n ≤ 6 then ⟨full, full⟩
    else if n ≤ 15 then
      let k := (n - 1) / 3
      let intLen := n - k * 3
      let dec := slice digits intLen (intLen + 1)
      ⟨digits.take intLen ++ (if dec = "0" then [] else '.' :: dec) ++ suffixes.getD k [], full⟩
    else ⟨slice digits 0 1 ++ "." ++ slice digits 1 2 ++ "e" ++ decimal (n - 1), full⟩

def fraction (base maxFractionDigits : ℕ) : Text :=
  (((decimal (base % baseUnitsPerBoing)).leftpad boingDecimals '0').take
    maxFractionDigits).rdropWhile (· = '0')

/-- BOING of a base-unit amount: grouped whole part, trailing zeros trimmed. -/
def formatBoingBase (base maxFractionDigits : ℕ) : Text :=
  let whole := base / baseUnitsPerBoing
  let frac := fraction base maxFractionDigits
  let w := groupDigits (decimal whole)
  if frac = [] ∧ 0 < base ∧ whole = 0 then
    "<0." ++ List.replicate (maxFractionDigits - 1) '0' ++ "1"
  else if frac = [] then w else w ++ "." ++ frac

/-- Compact BOING for cards (`short`) with the exact value for tooltips (`full`). -/
def compactBoing (base : ℕ) : CompactAmount :=
  let full := formatBoingBase base boingDecimals
  let whole := decimal (base / baseUnitsPerBoing)
  if 6 < whole.length then ⟨(compactAmount whole).short, full⟩
  else ⟨formatBoingBase base 4, full⟩

/-- Compact BOING for a ledger amount committed at a height. -/
def compactBoingAt (nt : NumberText) (registry : Registry) (raw : Value) (height : Option Number)
    (network : Option Text) : CompactAmount :=
  match toBaseUnits nt registry raw height network with
  | none => let s := nt.stringOf (raw.orElse (.string "—")); ⟨s, s⟩
  | some base => compactBoing base

/-- **Grouping only puts commas in.** -/
theorem filter_groupDigits {s : Text} (h : ∀ c ∈ s, c ≠ ',') :
    (groupDigits s).filter (· ≠ ',') = s := by
  induction s with
  | nil => rfl
  | cons c s ih =>
    obtain ⟨hc, hs⟩ := List.forall_mem_cons.mp h
    rw [groupDigits]
    split
    · rw [List.filter_cons_of_pos (by simpa using hc), List.filter_cons_of_neg (by simp), ih hs]
    · rw [List.filter_cons_of_pos (by simpa using hc), ih hs]

example : formatBoingBase 1500000000000000000 18 = "1.5" := by decide +kernel

end BoingObserver.NativeUnit
