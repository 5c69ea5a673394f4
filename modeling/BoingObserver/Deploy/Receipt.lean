import BoingObserver.Payload.Kind
import BoingObserver.Rpc.Hex

/-!
# Receipts of deploys

`deploy-receipt.ts`: the account a deploy created, out of the data its receipt
returns.

* `tryParseCreatedAccountId_word`: an account that is returned is found.
-/

namespace BoingObserver.Deploy

open Js Rpc Payload

def receiptReturnDataHex (receipt : Value) : Value :=
  match receipt with
  | .object r =>
    if Fields.has r "return_data" then Fields.get r "return_data" else Fields.get r "returnData"
  | _ => .undefined

structure HexData where
  prefixed : Text
  bytes : ℕ

/-- Normalize RPC hex or byte array to lowercase `0x…` and byte length. -/
def normalizeHexData (nt : NumberText) (value : Value) : HexData :=
  let s := toSafeHexString nt value
  let h := (if s.take 2 = "0x" then s.drop 2 else s).filter isAnyHexDigit
  if h = [] then ⟨[], 0⟩ else ⟨"0x" ++ toLowerCase h, h.length / 2⟩

/-- `s || null` -/
def orNull (s : Text) : Option Text := if s = [] then none else some s

/-- The account a deploy created: the last 32 bytes of what its receipt returns. -/
def tryParseCreatedAccountIdFromDeployReturnData (nt : NumberText) (returnData : Value) :
    Option Text :=
  let data := normalizeHexData nt returnData
  if data.prefixed = [] ∨ data.bytes = 0 then none
  else
    let h := strip0x data.prefixed
    if ¬ h.all isAnyHexDigit ∨ h.length % 2 ≠ 0 then none
    else if h.length = 64 then orNull (normalizeHex64 h)
    else if 64 < h.length then orNull (normalizeHex64 (sliceEnd h 64))
    else none

/-! ## Accounts that are returned -/

theorem filter_isAnyHexDigit {a : Text} (h : IsHex a) : a.filter isAnyHexDigit = a := by
  rw [List.filter_eq_self]
  intro c hc
  rw [isAnyHexDigit, h c hc, Bool.true_or]

theorem normalizeHex64_word {a : Text} (h : IsHex a) (hlen : a.length = 64) :
    normalizeHex64 a = a := by
  have hword : isAnyWord a = true := by
    have hall := List.filter_eq_self.mp (filter_isAnyHexDigit h)
    rw [isAnyWord, decide_eq_true hlen, Bool.true_and, List.all_eq_true]
    exact hall
  rw [normalizeHex64_of_isAnyWord hword, h.toLowerCase_eq]

/-- **An account that is returned is found.** -/
theorem tryParseCreatedAccountId_word (nt : NumberText) {a : Text} (h : IsHex a)
    (hlen : a.length = 64) :
    tryParseCreatedAccountIdFromDeployReturnData nt (.string ("0x" ++ a)) = some a := by
  have hne : a ≠ [] := by
    intro e
    rw [e] at hlen
    cases hlen
  have htrim : trim ('0' :: 'x' :: a) = '0' :: 'x' :: a := by
    refine trim_eq_self ?_
    intro c hc
    rcases List.mem_cons.mp hc with rfl | hc
    · rfl
    · rcases List.mem_cons.mp hc with rfl | hc
      · rfl
      · exact isSpace_of_isHexDigit (h c hc)
  have hdata : normalizeHexData nt (.string ("0x" ++ a)) = ⟨'0' :: 'x' :: a, 32⟩ := by
    change normalizeHexData nt (.string ('0' :: 'x' :: a)) = _
    rw [normalizeHexData, toSafeHexString, htrim]
    have hdrop : (if ('0' :: 'x' :: a).take 2 = "0x" then ('0' :: 'x' :: a).drop 2
        else '0' :: 'x' :: a) = a := if_pos (by rfl)
    rw [hdrop, filter_isAnyHexDigit h, if_neg hne, h.toLowerCase_eq, hlen]
    rfl
  have hall : a.all isAnyHexDigit = true :=
    List.all_eq_true.mpr (List.filter_eq_self.mp (filter_isAnyHexDigit h))
  rw [tryParseCreatedAccountIdFromDeployReturnData, hdata]
  dsimp only
  rw [strip0x_cons_x, if_neg (by simp), if_neg (by simp [hall, hlen]), if_pos hlen,
    normalizeHex64_word h hlen, orNull, if_neg hne]

end BoingObserver.Deploy
