import BoingObserver.Js.ToNumber
import BoingObserver.Published.Doc

/-!
# Selectors of published documents

Where the selectors of a parsed document come from.

* `exists_parseFunction_iff`: which entries are parsed.
* `statesSelectors_iff`: a parsed selector is stated by its entry, unless `Number` makes
  one of something else.
-/

namespace BoingObserver.Published

open Js Contract

/-- The engine's `Number` is the documented one. -/
def ReadsNumbers (engine : Engine) : Prop :=
  ∀ v, engine.numberText.converts v = true → engine.numberText.number v = toNumber engine.numberText v

section

variable {engine : Engine} (hnumber : ReadsNumbers engine)

/-! ## Entries -/

/-- A run over numbered items throws on no item iff it gives results. -/
theorem exists_mapM_zipIdx_iff {α β : Type} {f : α → ℕ → Except JsError β} {P : α → Prop}
    (h : ∀ a i, (∃ b, f a i = .ok b) ↔ P a) {l : List α} :
    (∃ bs, l.zipIdx.mapM (fun p => f p.1 p.2) = .ok bs) ↔ ∀ a ∈ l, P a := by
  rw [exists_mapM_eq_ok_iff]
  constructor
  · intro hall a ha
    obtain ⟨i, hi⟩ := List.mem_iff_getElem?.mp ha
    exact (h a i).mp (hall (a, i) (List.mem_zipIdx_iff_getElem?.mpr hi))
  · intro hall p hp
    exact (h p.1 p.2).mpr (hall p.1 (List.mem_of_getElem? (List.mem_zipIdx_iff_getElem?.mp hp)))

theorem parseSelector_eq_ok_iff {i n : ℕ} {x : Number} :
    parseSelector i x = .ok n ↔ x = .ofNat n ∧ n ≤ 255 := by
  constructor
  · intro h
    rw [parseSelector] at h
    split at h
    next m hm =>
      split at h
      next hle =>
        obtain rfl := Except.ok.inj h
        exact ⟨toInt?_eq_natCast.mp hm, hle⟩
      next => cases h
    next => cases h
  · rintro ⟨rfl, hle⟩
    have hint : (Number.ofNat n).toInt? = some (.ofNat n) := toInt?_eq_natCast.mpr rfl
    rw [parseSelector, hint]
    exact if_pos hle

theorem prop_eq_ok_iff {v w : Value} {k : Text} :
    prop v k = .ok w ↔ v.isNullish = false ∧ v.get k = w := by
  rw [prop]
  cases v.isNullish with
  | true => exact iff_of_false (fun h => by cases h) (fun h => by cases h.1)
  | false =>
    constructor
    · intro h
      exact ⟨rfl, Except.ok.inj h⟩
    · rintro ⟨-, rfl⟩
      rfl

theorem exists_parseName_iff {i : ℕ} {v : Value} :
    (∃ name, parseName i v = .ok name) ↔ ∃ name ≠ [], v = .string name := by
  constructor
  · rintro ⟨name, h⟩
    unfold parseName at h
    split at h
    next c cs => exact ⟨c :: cs, List.cons_ne_nil c cs, rfl⟩
    next => cases h
  · rintro ⟨name, hne, rfl⟩
    cases name with
    | nil => exact absurd rfl hne
    | cons c cs => exact ⟨c :: cs, rfl⟩

/-- The parameter has a type, and a name that converts to a text. -/
structure TypedParam (engine : Engine) (p : Value) : Prop where
  type_converts : engine.numberText.converts (p.get "type") = true
  type : paramTypes.lookup (engine.numberText.stringOf (p.get "type")) ≠ none
  name_converts : engine.numberText.converts (p.get "name") = true

theorem exists_parseParam_iff {i j : ℕ} {p : Value} :
    (∃ param, parseParam engine i p j = .ok param) ↔ TypedParam engine p := by
  constructor
  · rintro ⟨param, h⟩
    rw [parseParam] at h
    obtain ⟨v, hv, h⟩ := bind_eq_ok h
    obtain ⟨-, rfl⟩ := prop_eq_ok_iff.mp hv
    obtain ⟨type, htype, h⟩ := bind_eq_ok h
    obtain ⟨hconverts, rfl⟩ := (NumberText.toText_eq_ok_iff _).mp htype
    cases hlookup : paramTypes.lookup (engine.numberText.stringOf (p.get "type")) with
    | none =>
      rw [hlookup] at h
      cases h
    | some type =>
      rw [hlookup] at h
      obtain ⟨name, hname, -⟩ := bind_eq_ok h
      have hnamed := ((NumberText.toText_eq_ok_iff _).mp hname).1
      rw [NumberText.converts_orElse_string] at hnamed
      exact ⟨hconverts, hlookup ▸ Option.some_ne_none type, hnamed⟩
  · intro h
    have hv : prop p "type" = .ok (p.get "type") := by
      refine prop_eq_ok_iff.mpr ⟨?_, rfl⟩
      cases p with
      | undefined => exact absurd rfl h.type
      | null => exact absurd rfl h.type
      | _ => rfl
    have htype : engine.numberText.toText (p.get "type") =
        .ok (engine.numberText.stringOf (p.get "type")) :=
      (NumberText.toText_eq_ok_iff _).mpr ⟨h.type_converts, rfl⟩
    have hname : engine.numberText.toText ((p.get "name").orElse (.string ("arg" ++ decimal j))) =
        .ok (engine.numberText.stringOf ((p.get "name").orElse (.string ("arg" ++ decimal j)))) := by
      rw [NumberText.toText_eq_ok_iff, NumberText.converts_orElse_string]
      exact ⟨h.name_converts, rfl⟩
    obtain ⟨type, hlookup⟩ := Option.ne_none_iff_exists'.mp h.type
    cases hres : parseParam engine i p j with
    | ok param => exact ⟨param, rfl⟩
    | error e =>
      rw [parseParam] at hres
      rcases bind_eq_error hres with herror | ⟨v, hread, hres⟩
      · cases herror.symm.trans hv
      obtain rfl := Except.ok.inj (hv.symm.trans hread)
      rcases bind_eq_error hres with herror | ⟨t, ht, hres⟩
      · cases herror.symm.trans htype
      obtain rfl := Except.ok.inj (htype.symm.trans ht)
      rw [hlookup] at hres
      rcases bind_eq_error hres with herror | ⟨name, -, hres⟩
      · cases herror.symm.trans hname
      · cases hres

structure WellShaped (engine : Engine) (f : Value) : Prop where
  converts : engine.numberText.converts (f.get "selector") = true
  selector : ∃ n ≤ 255, States (f.get "selector") n ∨ Coerces engine.numberText (f.get "selector") n
  name : ∃ name ≠ [], f.get "name" = .string name
  params : ∀ p ∈ (f.get "params").asArray?.getD [], TypedParam engine p

include hnumber in
/-- The selector of a parsed entry is what `Number` makes of the entry's. -/
theorem selector_of_parseFunction {f : Value} {i : ℕ} {fn : ContractFunction}
    (h : parseFunction engine f i = .ok fn) :
    engine.numberText.converts (f.get "selector") = true ∧ fn.selector ≤ 255 ∧
      (States (f.get "selector") fn.selector ∨
        Coerces engine.numberText (f.get "selector") fn.selector) := by
  rw [parseFunction] at h
  obtain ⟨v, hv, h⟩ := bind_eq_ok h
  obtain ⟨x, hx, h⟩ := bind_eq_ok h
  obtain ⟨selector, hselector, h⟩ := bind_eq_ok h
  obtain ⟨name, -, h⟩ := bind_eq_ok h
  obtain ⟨params, -, h⟩ := bind_eq_ok h
  obtain rfl := Except.ok.inj h
  obtain ⟨-, rfl⟩ := prop_eq_ok_iff.mp hv
  obtain ⟨hconverts, rfl⟩ := (NumberText.toNumeric_eq_ok_iff _).mp hx
  obtain ⟨hread, hle⟩ := parseSelector_eq_ok_iff.mp hselector
  rw [hnumber _ hconverts, toNumber_eq_iff (by omega)] at hread
  exact ⟨hconverts, hle, hread⟩

include hnumber in
/-- **Which entries are parsed.** -/
theorem exists_parseFunction_iff {f : Value} {i : ℕ} :
    (∃ fn, parseFunction engine f i = .ok fn) ↔ WellShaped engine f := by
  have hparams : (∃ params, ((f.get "params").asArray?.getD []).zipIdx.mapM
      (fun p => parseParam engine i p.1 p.2) = .ok params) ↔
        ∀ p ∈ (f.get "params").asArray?.getD [], TypedParam engine p :=
    exists_mapM_zipIdx_iff (f := parseParam engine i) fun p j => exists_parseParam_iff
  constructor
  · rintro ⟨fn, h⟩
    obtain ⟨hconverts, hle, hread⟩ := selector_of_parseFunction hnumber h
    rw [parseFunction] at h
    obtain ⟨v, hv, h⟩ := bind_eq_ok h
    obtain ⟨x, hx, h⟩ := bind_eq_ok h
    obtain ⟨selector, hselector, h⟩ := bind_eq_ok h
    obtain ⟨name, hname, h⟩ := bind_eq_ok h
    obtain ⟨params, hps, h⟩ := bind_eq_ok h
    exact ⟨hconverts, ⟨_, hle, hread⟩, exists_parseName_iff.mp ⟨name, hname⟩,
      hparams.mp ⟨params, hps⟩⟩
  · intro h
    obtain ⟨n, hle, hread⟩ := h.selector
    obtain ⟨name, hname⟩ := (exists_parseName_iff (i := i)).mpr h.name
    obtain ⟨params, hps⟩ := hparams.mpr h.params
    have hv : prop f "selector" = .ok (f.get "selector") := by
      refine prop_eq_ok_iff.mpr ⟨?_, rfl⟩
      obtain ⟨_, -, hfield⟩ := h.name
      cases f with
      | undefined => cases hfield
      | null => cases hfield
      | _ => rfl
    have hx : engine.numberText.toNumeric (f.get "selector") =
        .ok (engine.numberText.number (f.get "selector")) :=
      (NumberText.toNumeric_eq_ok_iff _).mpr ⟨h.converts, rfl⟩
    have hselector : parseSelector i (engine.numberText.number (f.get "selector")) = .ok n := by
      rw [parseSelector_eq_ok_iff, hnumber _ h.converts, toNumber_eq_iff (by omega)]
      exact ⟨hread, hle⟩
    cases hres : parseFunction engine f i with
    | ok fn => exact ⟨fn, rfl⟩
    | error e =>
      rw [parseFunction] at hres
      rcases bind_eq_error hres with herror | ⟨v, hv', hres⟩
      · cases herror.symm.trans hv
      obtain rfl := Except.ok.inj (hv.symm.trans hv')
      rcases bind_eq_error hres with herror | ⟨x', hx', hres⟩
      · cases herror.symm.trans hx
      obtain rfl := Except.ok.inj (hx.symm.trans hx')
      rcases bind_eq_error hres with herror | ⟨n', -, hres⟩
      · cases herror.symm.trans hselector
      rcases bind_eq_error hres with herror | ⟨name', -, hres⟩
      · cases herror.symm.trans hname
      rcases bind_eq_error hres with herror | ⟨params', -, hres⟩
      · cases herror.symm.trans hps
      · cases hres

/-! ## Documents -/

/-- Every selector of the parsed document is stated by its entry. -/
def StatesSelectors (engine : Engine) (text : Text) : Prop :=
  ∀ doc, parsePublishedDoc engine text = .ok doc → ∃ v fs, engine.parse text = .ok v ∧
    v.get "functions" = .array fs ∧ fs.length = doc.functions.length ∧
      ∀ (i : ℕ) (f : Value) (fn : ContractFunction), fs[i]? = some f → doc.functions[i]? = some fn →
        States (f.get "selector") fn.selector ∧ fn.selector ≤ 255

/-- A document that is parsed although some entry does not state the selector that `Number` makes
of it. -/
def Misread (engine : Engine) (text : Text) : Prop :=
  ∃ v fs, engine.parse text = .ok v ∧ v.get "functions" = .array fs ∧
    (∀ f ∈ fs, WellShaped engine f) ∧
      ∃ f ∈ fs, ∃ n ≤ 255, Coerces engine.numberText (f.get "selector") n

theorem asArray?_eq_some {v : Value} {fs : List Value} (h : v.asArray? = some fs) : v = .array fs := by
  cases v with
  | array l => exact congrArg Value.array (Option.some.inj h)
  | _ => cases h

/-- **What a parsed document is made of.** -/
theorem parsePublishedDoc_eq_ok {text : Text} {doc : PublishedDoc}
    (h : parsePublishedDoc engine text = .ok doc) : ∃ v fs, engine.parse text = .ok v ∧
      v.get "functions" = .array fs ∧ fs.length = doc.functions.length ∧
        ∀ (i : ℕ) (f : Value) (fn : ContractFunction), fs[i]? = some f →
          doc.functions[i]? = some fn → parseFunction engine f i = .ok fn := by
  rw [parsePublishedDoc] at h
  obtain ⟨v, hparse, h⟩ := bind_eq_ok h
  obtain ⟨w, hv, h⟩ := bind_eq_ok h
  obtain ⟨-, rfl⟩ := prop_eq_ok_iff.mp hv
  cases hfs : (v.get "functions").asArray? with
  | none =>
    rw [hfs] at h
    cases h
  | some fs =>
    rw [hfs] at h
    obtain ⟨functions, hfunctions, h⟩ := bind_eq_ok h
    obtain rfl := Except.ok.inj h
    have hmap := mapM_eq_ok_iff.mp hfunctions
    refine ⟨v, fs, hparse, asArray?_eq_some hfs, ?_, fun i f fn hf hfn => ?_⟩
    · have hlen := congrArg List.length hmap
      rwa [List.length_map, List.length_map, List.length_zipIdx] at hlen
    · have hentry := congrArg (fun l => l[i]?) hmap
      dsimp only at hentry hfn
      rw [List.getElem?_map, List.getElem?_map, List.getElem?_zipIdx, hf, hfn] at hentry
      have hi := Option.some.inj hentry
      dsimp only at hi
      rwa [Nat.zero_add] at hi

include hnumber in
/-- **When a document is parsed.** -/
theorem exists_parsePublishedDoc {text : Text} {v : Value} {fs : List Value}
    (hparse : engine.parse text = .ok v) (hfs : v.get "functions" = .array fs)
    (h : ∀ f ∈ fs, WellShaped engine f) : ∃ doc, parsePublishedDoc engine text = .ok doc := by
  have hv : prop v "functions" = .ok (.array fs) := by
    refine prop_eq_ok_iff.mpr ⟨?_, hfs⟩
    cases v with
    | undefined => cases hfs
    | null => cases hfs
    | _ => rfl
  obtain ⟨functions, hfunctions⟩ := (exists_mapM_zipIdx_iff (f := parseFunction engine)
    fun f i => exists_parseFunction_iff hnumber).mpr h
  cases hres : parsePublishedDoc engine text with
  | ok doc => exact ⟨doc, rfl⟩
  | error e =>
    rw [parsePublishedDoc] at hres
    rcases bind_eq_error hres with herror | ⟨v', hparse', hres⟩
    · cases herror.symm.trans hparse
    obtain rfl := Except.ok.inj (hparse.symm.trans hparse')
    rcases bind_eq_error hres with herror | ⟨w, hv', hres⟩
    · cases herror.symm.trans hv
    obtain rfl := Except.ok.inj (hv.symm.trans hv')
    rcases bind_eq_error hres with herror | ⟨functions', -, hres⟩
    · cases herror.symm.trans hfunctions
    · cases hres

include hnumber in
/-- **A parsed selector is stated by its entry** unless `Number` makes one of something else. -/
theorem statesSelectors_iff (text : Text) : StatesSelectors engine text ↔ ¬ Misread engine text := by
  constructor
  · rintro h ⟨v, fs, hparse, hfs, hshaped, f, hf, n, hn, hcoerces⟩
    obtain ⟨doc, hdoc⟩ := exists_parsePublishedDoc hnumber hparse hfs hshaped
    obtain ⟨v', fs', hparse', hfs', hlen, hall⟩ := h doc hdoc
    obtain rfl := Except.ok.inj (hparse.symm.trans hparse')
    obtain rfl := Value.array.inj (hfs.symm.trans hfs')
    obtain ⟨i, hi⟩ := List.mem_iff_getElem?.mp hf
    obtain ⟨hlt, -⟩ := List.getElem?_eq_some_iff.mp hi
    obtain ⟨hstates, hle⟩ := hall i f _ hi (List.getElem?_eq_getElem (hlen ▸ hlt))
    exact hstates.not_coerces (by omega) n hcoerces
  · intro hno doc hdoc
    obtain ⟨v, fs, hparse, hfs, hlen, hentry⟩ := parsePublishedDoc_eq_ok hdoc
    refine ⟨v, fs, hparse, hfs, hlen, fun i f fn hf hfn => ?_⟩
    obtain ⟨-, hle, hread⟩ := selector_of_parseFunction hnumber (hentry i f fn hf hfn)
    refine ⟨hread.resolve_right fun hcoerces => hno ⟨v, fs, hparse, hfs, fun g hg => ?_,
      f, List.mem_of_getElem? hf, _, hle, hcoerces⟩, hle⟩
    obtain ⟨j, hj⟩ := List.mem_iff_getElem?.mp hg
    obtain ⟨hlt, -⟩ := List.getElem?_eq_some_iff.mp hj
    exact (exists_parseFunction_iff hnumber).mp
      ⟨_, hentry j g _ hj (List.getElem?_eq_getElem (hlen ▸ hlt))⟩

end

/-! ## A selector that is null -/

def nullSelectorText : Text :=
  "\x7b\"functions\":[\x7b\"selector\":null,\"name\":\"mint\"\x7d]\x7d"

def nullSelectorEntry : Value := .object [("selector", .null), ("name", .string "mint")]

def nullSelectorEngine : Engine where
  numberText := withNumber integersOnly
  blake3 _ := []
  decode _ := []
  parse t :=
    if t = nullSelectorText then .ok (.object [("functions", .array [nullSelectorEntry])])
    else .error .typeError
  inflateRaw _ := .error .typeError
  engineMessage _ := []

theorem readsNumbers_nullSelector : ReadsNumbers nullSelectorEngine :=
  fun v _ => number_withNumber v

theorem statesSelectors_nullSelector :
    StatesSelectors nullSelectorEngine nullSelectorText ↔
      ¬ Misread nullSelectorEngine nullSelectorText :=
  statesSelectors_iff readsNumbers_nullSelector nullSelectorText

/-- **A null selector is parsed as selector 0.** -/
theorem nullSelector_misread : (∃ doc, parsePublishedDoc nullSelectorEngine nullSelectorText = .ok doc ∧
    doc.functions.map (·.selector) = [0]) ∧ ¬ StatesSelectors nullSelectorEngine nullSelectorText := by
  have hparse : parsePublishedDoc nullSelectorEngine nullSelectorText =
      .ok ⟨none, none, [⟨0, "mint", [], .write, [], [], none, none⟩]⟩ := by
    rfl
  refine ⟨⟨_, hparse, rfl⟩, fun h => ?_⟩
  obtain ⟨v, fs, hv, hfs, -, hall⟩ := h _ hparse
  have hvalue : nullSelectorEngine.parse nullSelectorText =
      .ok (.object [("functions", .array [nullSelectorEntry])]) := by rfl
  obtain rfl := Except.ok.inj (hvalue.symm.trans hv)
  obtain rfl : [nullSelectorEntry] = fs := Value.array.inj hfs
  have hnull : nullSelectorEntry.get "selector" = .null := rfl
  obtain ⟨hstates, -⟩ := hall 0 nullSelectorEntry _ rfl rfl
  rw [hnull] at hstates
  cases hstates

end BoingObserver.Published
