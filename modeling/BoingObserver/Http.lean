import BoingObserver.Js.Value
import BoingObserver.NativeUnit.Config

/-!
# Route handlers

What the handlers under `app/api` share: refusing a request, and comparing the length
that a header declares.
-/

namespace BoingObserver.Http

open Js NativeUnit

/-- A thrown value: whether it is an `Error`, and its `name` and `message`. -/
structure Thrown where
  isError : Bool
  name : Text
  message : Text

/-! ## Refusing a request -/

structure Refusal where
  status : ℕ
  body : Value

/-- `{ error }` -/
def errorJson (status : ℕ) (error : Text) : Refusal :=
  ⟨status, .object [("error", .string error)]⟩

def orRefuse {α : Type} (v : Option α) (r : Refusal) : Except Refusal α :=
  match v with
  | some a => .ok a
  | none => .error r

def refuseIf (c : Bool) (r : Refusal) : Except Refusal Unit := if c then .error r else .ok ()

theorem orRefuse_eq_ok {α : Type} {v : Option α} {r : Refusal} {a : α}
    (h : orRefuse v r = .ok a) : v = some a := by
  cases v with
  | none => cases h
  | some b =>
    obtain rfl := Except.ok.inj h
    rfl

theorem refuseIf_eq_ok {c : Bool} {r : Refusal} {u : Unit} (h : refuseIf c r = .ok u) :
    c = false := by
  cases c with
  | false => rfl
  | true => cases h

def networkOf (v : Option Text) : Option NetworkId :=
  if v = some "testnet" then some .testnet else if v = some "mainnet" then some .mainnet else none

/-! ## Lengths -/

/-- `x > n` -/
def exceeds (x : Number) (n : ℕ) : Bool :=
  match x with
  | .finite q => (n : ℚ) < q
  | .nan => false
  | .infinite negative => !negative

/-- `Number.isFinite(x) && x > n` -/
def isMoreThan (x : Number) (n : ℕ) : Bool :=
  match x with
  | .finite q => (n : ℚ) < q
  | _ => false

end BoingObserver.Http
