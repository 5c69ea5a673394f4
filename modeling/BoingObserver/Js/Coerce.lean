import BoingObserver.Js.Numeral
import BoingObserver.Js.Value

/-!
# Conversions

`String(v)`, `x.toString(16)`, `parseInt(s, 16)` and the other conversions of
values the explorer relies on.

The texts of numbers are exact for the integers a double holds exactly; what the
engine prints for other numbers, and how it reads a number from a value that is
not one, is a parameter (`NumberText`).  `stringOf` and `number` are what the
conversions give; `toText` and `toNumeric` throw where they throw.
-/

namespace BoingObserver.Js

/-! ## Integers -/

/-- `z.toString()` -/
def intText (z : ℤ) : Text :=
  if z < 0 then '-' :: decimal z.natAbs else decimal z.natAbs

theorem intText_natCast (n : ℕ) : intText n = decimal n := by
  rw [intText, if_neg (by omega), Int.natAbs_natCast]

theorem decimal_injective : Function.Injective decimal := by
  intro m n h
  have hread := congrArg (numeral 10) h
  rwa [numeral_decimal, numeral_decimal] at hread

theorem intText_injective : Function.Injective intText := by
  have hminus (n : ℕ) : ∀ s : Text, '-' :: s ≠ decimal n := by
    intro s h
    have hmem : '-' ∈ decimal n := h ▸ List.mem_cons_self
    exact absurd (Nat.isDigit_of_mem_toDigits (by omega) (le_refl 10) hmem) (by decide)
  intro a b h
  simp only [intText] at h
  split_ifs at h with ha hb hb
  · have := decimal_injective (List.cons.inj h).2
    omega
  · exact absurd h (hminus _ _)
  · exact absurd h.symm (hminus _ _)
  · have := decimal_injective h
    omega

/-! ## Numbers and texts -/

/-- What the engine does with numbers and texts beyond the safe integers. -/
structure NumberText where
  /-- `String(x)` of a number that is no safe integer. -/
  other : Number → Text
  /-- `x.toString(16)` of a number that is no safe natural number. -/
  otherHex : Number → Text
  /-- `Number(v)` of a value that is no number. -/
  parse : Value → Number
  /-- The stack does not hold the conversion of an array of these items. -/
  overflows : List Value → Bool := fun _ => false

namespace NumberText

variable (nt : NumberText)

/-- `String(x)` -/
def text (x : Number) : Text :=
  match x.toInt? with
  | some z => if z.natAbs < 2 ^ 53 then intText z else nt.other x
  | none => nt.other x

/-- `x.toString(16)` -/
def hex (x : Number) : Text :=
  match x.toSafeNat? with
  | some n => Nat.toDigits 16 n
  | none => nt.otherHex x

/-- `x.toString(16).padStart(2, "0")` -/
def hexByte (x : Number) : Text := (nt.hex x).leftpad 2 '0'

/-- `Number(v)` of a value that converts. -/
def number : Value → Number
  | .number x => x
  | v => nt.parse v

mutual

/-- `String(v)` of a value that converts. -/
def stringOf : Value → Text
  | .undefined => "undefined"
  | .null => "null"
  | .bool b => if b then "true" else "false"
  | .number x => nt.text x
  | .string s => s
  | .array items => joinItems items
  | .object _ => "[object Object]"

/-- The items of an array, joined by commas; `null` and `undefined` are empty. -/
def joinItems : List Value → Text
  | [] => []
  | [v] => if v.isNullish then [] else stringOf v
  | v :: w :: vs => (if v.isNullish then [] else stringOf v) ++ ',' :: joinItems (w :: vs)

end

/-- `String(v)` and `Number(v)` do not throw. -/
def converts : Value → Bool
  | .array items => Value.allPrintable items && !nt.overflows items
  | v => v.printable

theorem converts_orElse_string (v : Value) (s : Text) :
    nt.converts (v.orElse (.string s)) = nt.converts v := by
  cases v <;> rfl

def conversionError (v : Value) : JsError := if v.printable then .rangeError else .typeError

/-- `String(v)` -/
def toText (v : Value) : Except JsError Text :=
  if nt.converts v then .ok (nt.stringOf v) else .error (conversionError v)

/-- `Number(v)` -/
def toNumeric (v : Value) : Except JsError Number :=
  if nt.converts v then .ok (nt.number v) else .error (conversionError v)

theorem toText_eq_ok_iff {v : Value} {s : Text} :
    nt.toText v = .ok s ↔ nt.converts v = true ∧ nt.stringOf v = s := by
  rw [toText]
  cases nt.converts v with
  | true => exact ⟨fun h => ⟨rfl, Except.ok.inj h⟩, fun h => congrArg Except.ok h.2⟩
  | false => exact iff_of_false (fun h => nomatch h) fun h => nomatch h.1

theorem toNumeric_eq_ok_iff {v : Value} {x : Number} :
    nt.toNumeric v = .ok x ↔ nt.converts v = true ∧ nt.number v = x := by
  rw [toNumeric]
  cases nt.converts v with
  | true => exact ⟨fun h => ⟨rfl, Except.ok.inj h⟩, fun h => congrArg Except.ok h.2⟩
  | false => exact iff_of_false (fun h => nomatch h) fun h => nomatch h.1

end NumberText

/-- For inputs without numbers that are not integers. -/
def integersOnly : NumberText where
  other _ := []
  otherHex _ := []
  parse _ := .nan

/-! ## Bytes -/

def isAnyHexDigit (c : Char) : Bool := isHexDigit c || ('A' ≤ c && c ≤ 'F')

/-- `parseInt(s, 16)` -/
def parseInt16 (s : Text) : Option ℤ :=
  let s := s.dropWhile isSpace
  let negative : Bool := s.head? = some '-'
  let s := if s.head? = some '-' ∨ s.head? = some '+' then s.tail else s
  let ds := (strip0x s).takeWhile isAnyHexDigit
  if ds = [] then none
  else some (if negative then - (numeral 16 ds : ℤ) else numeral 16 ds)

/-- A number stored in a `Uint8Array`. -/
def toUint8 (z : ℤ) : ℕ := (z % 256).toNat

/-- `Uint8Array.from(xs)` -/
def uint8From (xs : List Number) : List ℕ :=
  xs.map fun x =>
    match x with
    | .finite q => toUint8 (if 0 ≤ q then ⌊q⌋ else ⌈q⌉)
    | _ => 0

/-- `Array.from(b, (x) => x.toString(16).padStart(2, "0")).join("")` -/
def bytesToHex (bytes : List ℕ) : Text := bytes.flatMap (padHex 2)

theorem isHex_bytesToHex (bytes : List ℕ) : IsHex (bytesToHex bytes) := by
  intro c hc
  obtain ⟨b, -, hc⟩ := List.mem_flatMap.mp hc
  exact isHex_padHex 2 b c hc

theorem length_bytesToHex : ∀ {bytes : List ℕ}, (∀ b ∈ bytes, b < 256) →
    (bytesToHex bytes).length = 2 * bytes.length
  | [], _ => rfl
  | b :: bytes, h => by
    have hb := length_padHex (k := 2) (by omega) (h b (by simp))
    have ih := length_bytesToHex fun c hc => h c (List.mem_cons_of_mem _ hc)
    rw [bytesToHex, List.flatMap_cons, List.length_append, hb, ← bytesToHex, ih, List.length_cons]
    ring

end BoingObserver.Js
