import BoingObserver.Js.Text
import Mathlib.Data.Rat.Defs
import Mathlib.Data.Rat.Floor

/-!
# Values

JavaScript values as they come out of `JSON.parse` (with `undefined` for what is
missing), the numbers among them, and property reads.

A finite number is kept as the rational it denotes; what floating-point arithmetic
gives is a parameter of the modules that need it.

A record literal inherits the properties of `Object.prototype`, so a read with a
foreign key has three outcomes (`Slot`): an own property, an inherited one, or
`undefined`.
-/

namespace BoingObserver.Js

inductive JsError
  | typeError
  | rangeError
  | error (message : Text)
  deriving DecidableEq

theorem bind_eq_ok {ε α β : Type} {x : Except ε α} {f : α → Except ε β} {b : β}
    (h : x >>= f = .ok b) : ∃ a, x = .ok a ∧ f a = .ok b := by
  cases x with
  | error e => cases h
  | ok a => exact ⟨a, rfl, h⟩

theorem bind_eq_error {ε α β : Type} {x : Except ε α} {f : α → Except ε β} {e : ε}
    (h : x >>= f = .error e) : x = .error e ∨ ∃ a, x = .ok a ∧ f a = .error e := by
  cases x with
  | error e' => exact Or.inl (congrArg Except.error (Except.error.inj h))
  | ok a => exact Or.inr ⟨a, rfl, h⟩

theorem mapM_eq_some_iff {α β : Type} {f : α → Option β} :
    ∀ {l : List α} {bs : List β}, l.mapM f = some bs ↔ l.map f = bs.map some
  | [], bs => by
    cases bs with
    | nil => exact iff_of_true rfl rfl
    | cons b bs => exact iff_of_false (fun h => by cases h) (fun h => by cases h)
  | a :: l, bs => by
    rw [List.mapM_cons, List.map_cons]
    cases hf : f a with
    | none => cases bs <;> simp
    | some b =>
      have ih (bs : List β) : l.mapM f = some bs ↔ l.map f = bs.map some := mapM_eq_some_iff
      cases hl : l.mapM f with
      | none => cases bs <;> simp [← ih, hl]
      | some bs' => cases bs <;> simp [← ih, hl]

theorem mapM_eq_ok_iff {ε α β : Type} {f : α → Except ε β} :
    ∀ {l : List α} {bs : List β}, l.mapM f = .ok bs ↔ l.map f = bs.map Except.ok
  | [], bs => by
    cases bs with
    | nil => exact iff_of_true rfl rfl
    | cons b bs => exact iff_of_false (fun h => by cases h) (fun h => by cases h)
  | a :: l, bs => by
    rw [List.mapM_cons, List.map_cons]
    constructor
    · intro h
      obtain ⟨b, hb, h⟩ := bind_eq_ok h
      obtain ⟨bs', hbs, h⟩ := bind_eq_ok h
      obtain rfl := Except.ok.inj h
      rw [hb, mapM_eq_ok_iff.mp hbs]
      rfl
    · intro h
      cases bs with
      | nil => cases h
      | cons b bs =>
        obtain ⟨hb, hbs⟩ := List.cons.inj h
        rw [hb, mapM_eq_ok_iff.mpr hbs]
        rfl

theorem exists_mapM_eq_ok_iff {ε α β : Type} {f : α → Except ε β} {l : List α} :
    (∃ bs, l.mapM f = .ok bs) ↔ ∀ a ∈ l, ∃ b, f a = .ok b := by
  constructor
  · rintro ⟨bs, h⟩ a ha
    have hmem : f a ∈ bs.map Except.ok := by
      rw [← mapM_eq_ok_iff.mp h]
      exact List.mem_map_of_mem ha
    obtain ⟨b, -, hb⟩ := List.mem_map.mp hmem
    exact ⟨b, hb.symm⟩
  · intro h
    induction l with
    | nil => exact ⟨[], rfl⟩
    | cons a l ih =>
      obtain ⟨⟨b, hb⟩, hl⟩ := List.forall_mem_cons.mp h
      obtain ⟨bs, hbs⟩ := ih hl
      refine ⟨b :: bs, ?_⟩
      rw [mapM_eq_ok_iff, List.map_cons, hb, mapM_eq_ok_iff.mp hbs]
      rfl

/-- A loop whose rounds read first and update then: all reads, then all updates. -/
theorem foldlM_map {ε α β σ : Type} (f : α → Except ε β) (g : σ → β → σ) (s : σ) (l : List α) :
    l.foldlM (fun s a => (f a).map (g s)) s = (l.mapM f).map fun bs => bs.foldl g s := by
  induction l generalizing s with
  | nil => rfl
  | cons a l ih =>
    rw [List.foldlM_cons, List.mapM_cons]
    cases f a with
    | error e => rfl
    | ok b =>
      refine (ih (g s b)).trans ?_
      change _ = Except.map _ (l.mapM f >>= fun bs => pure (b :: bs))
      cases l.mapM f with
      | error e => rfl
      | ok bs => rfl

/-! ## Numbers -/

/-- A number: the rational a finite double denotes, or one of the others. -/
inductive Number
  | finite (q : ℚ)
  | nan
  | infinite (negative : Bool)
  deriving DecidableEq

namespace Number

def ofNat (n : ℕ) : Number := .finite n

/-- The integer a number is, if it is one (`Number.isInteger`). -/
def toInt? : Number → Option ℤ
  | .finite q => if q.den = 1 then some q.num else none
  | _ => none

/-- The natural number a number is, if it is a safe integer that is not negative:
`Number.isSafeInteger(x) && x >= 0`. -/
def toSafeNat? (x : Number) : Option ℕ :=
  match x.toInt? with
  | some (.ofNat n) => if n < 2 ^ 53 then some n else none
  | _ => none

theorem toSafeNat?_ofNat (n : ℕ) :
    (Number.ofNat n).toSafeNat? = if n < 2 ^ 53 then some n else none := by
  have hint : (Number.ofNat n).toInt? = some (n : ℤ) := rfl
  rw [Number.toSafeNat?, hint]

end Number

/-! ## Values -/

/-- A value of the JSON kind, or `undefined`. -/
inductive Value
  | undefined
  | null
  | bool (b : Bool)
  | number (x : Number)
  | string (s : Text)
  | array (items : List Value)
  | object (fields : List (Text × Value))

namespace Value

/-- `v == null` -/
def isNullish : Value → Bool
  | .undefined => true
  | .null => true
  | _ => false

/-- `v ?? w` -/
def orElse (v w : Value) : Value := if v.isNullish then w else v

def truthy : Value → Bool
  | .undefined => false
  | .null => false
  | .bool b => b
  | .number (.finite q) => q ≠ 0
  | .number .nan => false
  | .number (.infinite _) => true
  | .string s => s ≠ []
  | .array _ => true
  | .object _ => true

/-- `v?.[k]` for a key that no prototype has: the own field, else `undefined`. -/
def get (v : Value) (k : Text) : Value :=
  match v with
  | .object fields => (fields.lookup k).getD .undefined
  | _ => .undefined

/-- `typeof v === "string"`, with the string. -/
def asString? : Value → Option Text
  | .string s => some s
  | _ => none

/-- `Array.isArray(v)`, with the items. -/
def asArray? : Value → Option (List Value)
  | .array l => some l
  | _ => none

/-- `v.every((n) => typeof n === "number")`, with the numbers. -/
def asNumbers? (l : List Value) : Option (List Number) :=
  l.mapM fun v => match v with
    | .number x => some x
    | _ => none

mutual

/-- No object that `String(v)` converts has a `toString` of its own, which for a value of JSON is no
function. -/
def printable : Value → Bool
  | .array items => allPrintable items
  | .object fields => (fields.lookup ("toString" : Text)).isNone
  | _ => true

def allPrintable : List Value → Bool
  | [] => true
  | v :: vs => v.printable && allPrintable vs

end

end Value

/-! ## Records -/

/-- The keys every object literal inherits. -/
def objectPrototype : List Text :=
  ["constructor", "__defineGetter__", "__defineSetter__", "hasOwnProperty", "__lookupGetter__",
    "__lookupSetter__", "isPrototypeOf", "propertyIsEnumerable", "toString", "valueOf",
    "__proto__", "toLocaleString"]

inductive Slot (α : Type*)
  | own (a : α)
  | inherited
  | absent

/-- `r[k]` for an object literal `r` with the given own properties. -/
def recordGet {α : Type*} (r : List (Text × α)) (k : Text) : Slot α :=
  match r.lookup k with
  | some a => .own a
  | none => if k ∈ objectPrototype then .inherited else .absent

theorem mem_of_lookup_eq_some {α β : Type*} [BEq α] [LawfulBEq α] {r : List (α × β)} {k : α}
    {b : β} (h : r.lookup k = some b) : (k, b) ∈ r := by
  obtain ⟨l₁, l₂, heq, -⟩ := List.lookup_eq_some_iff.mp h
  rw [heq]
  exact List.mem_append_right l₁ List.mem_cons_self

theorem recordGet_eq_own {α : Type*} {r : List (Text × α)} {k : Text} {a : α} :
    recordGet r k = .own a ↔ r.lookup k = some a := by
  rw [recordGet]
  cases h : r.lookup k with
  | some b => simp
  | none => by_cases hk : k ∈ objectPrototype <;> simp [hk]

end BoingObserver.Js
