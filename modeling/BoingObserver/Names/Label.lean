import BoingObserver.Rpc.Hex
import BoingObserver.Runs

/-!
# Name labels

`normalizeBoingName` and `looksLikeBoingName` of `boing-names.ts`, and the `search` of
`search-bar.tsx` that routes with them.

* `normalizeBoingName_eq_ok_iff`: which texts are names, and their labels.
* `IsName.normalize`, `IsName.normalize_suffixed`: a label stays itself, with or without its
  suffix.
* `looksLikeBoingName_iff`: no height and no id is a name, so that the first checks of the
  recogniser exclude nothing else.
-/

namespace BoingObserver.Names

open Js Rpc Runs

/-! ## Labels -/

/-- `NAME_SUFFIX` -/
def nameSuffix : Text := ".boing"

/-- The class `[a-z0-9]`. -/
def isNameChar (c : Char) : Bool := ('a' ≤ c && c ≤ 'z') || ('0' ≤ c && c ≤ '9')

/-- The class `[a-z0-9-]`. -/
def isLabelChar (c : Char) : Bool := isNameChar c || c = '-'

def dropNameSuffix (s : Text) : Text :=
  if nameSuffix.isSuffixOf s then s.take (s.length - nameSuffix.length) else s

/-- The UTF-16 length of `s.toLowerCase()`: only `İ` has a lower case of another length. -/
def lowerLength (s : Text) : ℕ := utf16Length s + s.count 'İ'

/-- Trim, lowercase, drop `.boing`; 3-32 of a-z 0-9 '-', no edge/double hyphen, not
address-like. -/
def normalizeBoingName (input : Text) : Except Text Text :=
  let s := dropNameSuffix (toLowerCase (trim input))
  if lowerLength s < 3 ∨ 32 < lowerLength s then .error "Names are 3-32 characters"
  else if s = [] ∨ ¬ s.all isLabelChar then .error "Names use only a-z, 0-9 and '-'"
  else if ("-" : Text).isPrefixOf s ∨ ("-" : Text).isSuffixOf s ∨ includes s "--" then
    .error "A name can't start or end with '-' or contain '--'"
  else if ("0x" : Text).isPrefixOf s ∨ IsDigits s ∨ (32 ≤ s.length ∧ IsHex s) then
    .error "A name can't look like an address or be only digits"
  else .ok s

/-- `/^(0x)?[0-9a-fA-F]{64}$/` -/
def isHexId (s : Text) : Bool :=
  isAnyWord s || (("0x" : Text).isPrefixOf s && isAnyWord (s.drop 2))

/-- Search input that should open a name page (not a height or a 64-hex id). -/
def looksLikeBoingName (input : Text) : Bool :=
  let s := trim input
  if s = [] ∨ IsDigits s ∨ isHexId s then false else (normalizeBoingName s).isOk

/-! ## The search -/

/-- Where a search leads: to a page, or to an error under the field. -/
inductive SearchResult
  | none
  | name (label : Text)
  | block (height : Text)
  | tx (hex : Text)
  | blockHash (hex : Text)
  | asset (hex : Text)
  | error (message : Text)
  deriving DecidableEq

/-- Whether the lookups of an id are fulfilled with something. -/
structure Found where
  tx : Bool
  block : Bool

def search (lookup : Text → Found) (value : Text) : SearchResult :=
  let q := trim value
  if q = [] then .none
  else
    match if looksLikeBoingName q then (normalizeBoingName q).toOption else none with
    | some label => .name label
    | none =>
      if IsDigits q then .block q
      else if isHex64 q then
        let hex := normalizeHex64 q
        if (lookup hex).tx then .tx hex
        else if (lookup hex).block then .blockHash hex
        else .asset hex
      else .error (("Enter a block height (number), 64 hex (transaction id, block hash, or " : Text)
        ++ ("address), or a name like alice.boing." : Text))

/-! ## The grammar -/

/-- A letter `a` to `z` or a digit. -/
def NameChar (c : Char) : Prop := isNameChar c = true

structure IsName (s : Text) : Prop where
  length : 3 ≤ s.length ∧ s.length ≤ 32
  runs : ∃ runs, AreRuns NameChar runs ∧ s = ['-'].intercalate runs
  not_prefixed : ¬ ("0x" : Text) <+: s
  not_digits : ¬ IsDigits s
  not_hex : ¬ (s.length = 32 ∧ IsHex s)

/-- At most one trailing `.boing` is gone. -/
def Stripped (t label : Text) : Prop :=
  t = label ++ nameSuffix ∨ (¬ nameSuffix <:+ t ∧ label = t)

theorem stripped_dropNameSuffix (t : Text) : Stripped t (dropNameSuffix t) := by
  rw [dropNameSuffix]
  split
  next h =>
    obtain ⟨u, rfl⟩ := List.isSuffixOf_iff_suffix.mp h
    refine Or.inl ?_
    rw [List.length_append, Nat.add_sub_cancel, List.take_left]
  next h => exact Or.inr ⟨fun hs => h (List.isSuffixOf_iff_suffix.mpr hs), rfl⟩

theorem stripped_iff {t label : Text} : Stripped t label ↔ label = dropNameSuffix t := by
  constructor
  · rintro (rfl | ⟨h, rfl⟩)
    · have hs : nameSuffix.isSuffixOf (label ++ nameSuffix) = true :=
        List.isSuffixOf_iff_suffix.mpr (List.suffix_append _ _)
      rw [dropNameSuffix, if_pos hs, List.length_append, Nat.add_sub_cancel, List.take_left]
    · rw [dropNameSuffix, if_neg fun hs => h (List.isSuffixOf_iff_suffix.mp hs)]
  · rintro rfl
    exact stripped_dropNameSuffix t

section

variable {c : Char} {s : Text}

theorem isLabelChar_iff : isLabelChar c = true ↔
    (97 ≤ c.toNat ∧ c.toNat ≤ 122) ∨ (48 ≤ c.toNat ∧ c.toNat ≤ 57) ∨ c.toNat = 45 := by
  have hhyphen : c = '-' ↔ c.toNat = 45 :=
    ⟨fun h => congrArg Char.toNat h, fun h => Char.toNat_inj.mp h⟩
  rw [isLabelChar, isNameChar, Bool.or_eq_true, Bool.or_eq_true, Bool.and_eq_true,
    Bool.and_eq_true, decide_eq_true_iff, decide_eq_true_iff, decide_eq_true_iff,
    decide_eq_true_iff, decide_eq_true_iff, or_assoc, hhyphen]
  exact Iff.rfl

/-- A text of the class `[a-z0-9-]*`. -/
def IsLabelText (s : Text) : Prop := ∀ c ∈ s, isLabelChar c = true

theorem IsLabelText.lowerLength_eq (h : IsLabelText s) : lowerLength s = s.length := by
  have hascii : ∀ c ∈ s, c.toNat < 0x10000 := fun c hc => by
    have := isLabelChar_iff.mp (h c hc)
    omega
  have hdotted : s.count 'İ' = 0 := by
    refine List.count_eq_zero.mpr fun hc => ?_
    exact absurd (h _ hc) (by decide)
  rw [lowerLength, utf16Length_eq_length hascii, hdotted, Nat.add_zero]

theorem lowerChar_of_isLabelChar (h : isLabelChar c = true) : lowerChar c = c := by
  rw [isLabelChar_iff] at h
  exact lowerChar_eq_self (by omega) (by omega)

theorem isSpace_of_isLabelChar (h : isLabelChar c = true) : isSpace c = false := by
  rw [isLabelChar_iff] at h
  exact isSpace_of_printable (by omega) (by omega)

theorem not_nameChar_hyphen : ¬ NameChar '-' := by
  rw [NameChar]
  decide

theorem IsName.isLabelText (h : IsName s) : IsLabelText s := by
  have hjoined := (joined_iff not_nameChar_hyphen).mp (joined_iff_runs.mpr h.runs)
  intro c hc
  rw [isLabelChar, Bool.or_eq_true, decide_eq_true_iff]
  exact hjoined.2.mem c hc

theorem runs_iff : (∃ runs, AreRuns NameChar runs ∧ s = ['-'].intercalate runs) ↔
    ¬ (s = [] ∨ ¬ s.all isLabelChar = true) ∧
      ¬ (("-" : Text).isPrefixOf s = true ∨ ("-" : Text).isSuffixOf s = true ∨
        includes s "--" = true) := by
  have hhead : ("-" : Text).isPrefixOf s = true ↔ s.head? = some '-' := by
    rw [List.isPrefixOf_iff_prefix]
    exact List.singleton_prefix_iff_head?_eq_some
  have hlast : ("-" : Text).isSuffixOf s = true ↔ s.getLast? = some '-' := by
    rw [List.isSuffixOf_iff_suffix]
    exact List.singleton_suffix_iff_getLast?_eq_some
  have hall : s.all isLabelChar = true ↔ ∀ c ∈ s, NameChar c ∨ c = '-' := by
    simp only [List.all_eq_true, isLabelChar, Bool.or_eq_true, decide_eq_true_iff, NameChar]
  rw [← joined_iff_runs, joined_iff not_nameChar_hyphen, hhead, hlast, hall, includes_iff, not_or,
    not_or, not_or, not_not]
  exact ⟨fun ⟨hne, h⟩ => ⟨⟨hne, h.mem⟩, h.head, h.last, h.single⟩,
    fun ⟨⟨hne, hmem⟩, hhead, hlast, hsingle⟩ => ⟨hne, ⟨hmem, hhead, hlast, hsingle⟩⟩⟩

variable {label : Text}

/-- **The grammar of names**: which texts are accepted, and with what label. -/
theorem normalizeBoingName_eq_ok_iff :
    normalizeBoingName s = .ok label ↔ IsName label ∧ Stripped (toLowerCase (trim s)) label := by
  rw [stripped_iff, normalizeBoingName]
  generalize dropNameSuffix (toLowerCase (trim s)) = t
  constructor
  · intro h
    split_ifs at h with hlength hchars hhyphens haddress
    obtain rfl := Except.ok.inj h
    have htext : IsLabelText t := by
      rw [not_or, not_not, List.all_eq_true] at hchars
      exact hchars.2
    rw [htext.lowerLength_eq] at hlength
    refine ⟨⟨by omega, runs_iff.mpr ⟨hchars, hhyphens⟩, ?_, ?_, ?_⟩, rfl⟩
    · exact fun hx => haddress (Or.inl (List.isPrefixOf_iff_prefix.mpr hx))
    · exact fun hdigits => haddress (Or.inr (Or.inl hdigits))
    · exact fun ⟨hlen, hhex⟩ => haddress (Or.inr (Or.inr ⟨hlen.ge, hhex⟩))
  · rintro ⟨hname, rfl⟩
    obtain ⟨hchars, hhyphens⟩ := runs_iff.mp hname.runs
    obtain ⟨hmin, hmax⟩ := hname.length
    have hlength : ¬ (lowerLength label < 3 ∨ 32 < lowerLength label) := by
      rw [hname.isLabelText.lowerLength_eq]
      omega
    have haddress : ¬ (("0x" : Text).isPrefixOf label = true ∨ IsDigits label ∨
        (32 ≤ label.length ∧ IsHex label)) := by
      rintro (hx | hdigits | ⟨hlen, hhex⟩)
      · exact hname.not_prefixed (List.isPrefixOf_iff_prefix.mp hx)
      · exact hname.not_digits hdigits
      · exact hname.not_hex ⟨by omega, hhex⟩
    rw [if_neg hlength, if_neg hchars, if_neg hhyphens, if_neg haddress]

example : normalizeBoingName " Alice-1.Boing " = .ok "alice-1" := by decide

/-! ## Labels again -/

theorem IsLabelText.trim_eq (h : IsLabelText s) : trim s = s :=
  trim_eq_self fun c hc => isSpace_of_isLabelChar (h c hc)

theorem IsLabelText.toLowerCase_eq (h : IsLabelText s) : toLowerCase s = s :=
  toLowerCase_eq_self fun c hc => lowerChar_of_isLabelChar (h c hc)

theorem IsLabelText.not_suffix (h : IsLabelText s) : ¬ nameSuffix <:+ s := by
  intro hsuffix
  have hdot : '.' ∈ s := hsuffix.subset (by decide)
  exact absurd (h '.' hdot) (by decide)

/-- **A label is its own name.** -/
theorem IsName.normalize (h : IsName label) : normalizeBoingName label = .ok label := by
  have htext := h.isLabelText
  rw [normalizeBoingName_eq_ok_iff, htext.trim_eq, htext.toLowerCase_eq]
  exact ⟨h, Or.inr ⟨htext.not_suffix, rfl⟩⟩

/-- **A label with its suffix names the same.** -/
theorem IsName.normalize_suffixed (h : IsName label) :
    normalizeBoingName (label ++ nameSuffix) = .ok label := by
  have htext := h.isLabelText
  have htrim : trim (label ++ nameSuffix) = label ++ nameSuffix := by
    refine trim_eq_self fun c hc => ?_
    rcases List.mem_append.mp hc with hc | hc
    · exact isSpace_of_isLabelChar (htext c hc)
    · have hsuffix : nameSuffix.all (!isSpace ·) = true := by decide
      exact (Bool.not_eq_true' _).mp (List.all_eq_true.mp hsuffix c hc)
  have hlower : toLowerCase (label ++ nameSuffix) = label ++ nameSuffix := by
    rw [toLowerCase_append, htext.toLowerCase_eq]
    rfl
  rw [normalizeBoingName_eq_ok_iff, htrim, hlower]
  exact ⟨h, Or.inl rfl⟩

/-! ## Heights and ids -/

/-- Longer texts than a label with its suffix are no names. -/
theorem length_of_normalizeBoingName (h : normalizeBoingName s = .ok label) :
    (trim s).length ≤ 38 := by
  obtain ⟨hname, hstripped⟩ := normalizeBoingName_eq_ok_iff.mp h
  have hmax := hname.length.2
  have hlower : (toLowerCase (trim s)).length = (trim s).length := length_toLowerCase _
  rcases hstripped with heq | ⟨-, rfl⟩
  · have hlen : (toLowerCase (trim s)).length = label.length + 6 := by
      rw [heq, List.length_append]
      rfl
    omega
  · omega

theorem not_name_of_isDigits (h : IsDigits (trim s)) : normalizeBoingName s ≠ .ok label := by
  intro hok
  obtain ⟨hname, hstripped⟩ := normalizeBoingName_eq_ok_iff.mp hok
  rw [h.isHex.toLowerCase_eq] at hstripped
  rcases hstripped with heq | ⟨-, rfl⟩
  · have hdot : '.' ∈ trim s := by
      rw [heq]
      exact List.mem_append_right _ (by decide)
    exact absurd (h.2 '.' hdot) (by decide)
  · exact hname.not_digits h

theorem length_of_isAnyWord (h : isAnyWord s = true) : s.length = 64 :=
  of_decide_eq_true (Bool.and_eq_true_iff.mp h).1

theorem not_name_of_isHex64 (h : isHex64 s = true) : normalizeBoingName s ≠ .ok label := by
  intro hok
  have hlen : (strip0x (trim s)).length = 64 := length_of_isAnyWord h
  have hle : (strip0x (trim s)).length ≤ (trim s).length := by
    rw [strip0x]
    split
    · exact (List.drop_sublist 2 _).length_le
    · exact le_rfl
  have hmax := length_of_normalizeBoingName hok
  omega

theorem le_length_of_isHexId (h : isHexId (trim s) = true) : 64 ≤ (trim s).length := by
  rw [isHexId, Bool.or_eq_true, Bool.and_eq_true] at h
  rcases h with h | ⟨-, h⟩
  · exact (length_of_isAnyWord h).ge
  · have hlen := length_of_isAnyWord h
    rw [List.length_drop] at hlen
    omega

theorem normalizeBoingName_trim (s : Text) : normalizeBoingName (trim s) = normalizeBoingName s := by
  rw [normalizeBoingName, trim_trim]
  rfl

theorem not_name_of_blank (h : trim s = []) : normalizeBoingName s ≠ .ok label := by
  intro hok
  obtain ⟨hname, hstripped⟩ := normalizeBoingName_eq_ok_iff.mp hok
  have hmin := hname.length.1
  rw [h, stripped_iff] at hstripped
  rw [hstripped] at hmin
  exact absurd hmin (by decide)

/-- **The recogniser of names**: what it looks at first is no name anyway. -/
theorem looksLikeBoingName_iff :
    looksLikeBoingName s = true ↔ ∃ label, normalizeBoingName s = .ok label := by
  have hok : (normalizeBoingName s).isOk = true ↔ ∃ label, normalizeBoingName s = .ok label := by
    cases normalizeBoingName s with
    | error e => exact iff_of_false (fun h => by cases h) fun ⟨_, h⟩ => by cases h
    | ok label => exact iff_of_true rfl ⟨label, rfl⟩
  rw [looksLikeBoingName, normalizeBoingName_trim]
  split
  next h =>
    refine iff_of_false (fun hfalse => by cases hfalse) ?_
    rintro ⟨label, hlabel⟩
    rcases h with hblank | hdigits | hid
    · exact not_name_of_blank hblank hlabel
    · exact not_name_of_isDigits hdigits hlabel
    · have hlong := le_length_of_isHexId hid
      have hmax := length_of_normalizeBoingName hlabel
      omega
  next => exact hok

/-- **The search opens a name page** iff the text is a name, whatever the lookups give. -/
theorem search_eq_name_iff {lookup : Text → Found} :
    search lookup s = .name label ↔ normalizeBoingName s = .ok label := by
  have hlooks := looksLikeBoingName_iff (s := trim s)
  rw [normalizeBoingName_trim] at hlooks
  rw [search, normalizeBoingName_trim]
  cases hname : normalizeBoingName s with
  | ok l =>
    have hblank : trim s ≠ [] := fun h => not_name_of_blank h hname
    rw [if_neg hblank, if_pos (hlooks.mpr ⟨l, hname⟩)]
    change SearchResult.name l = .name label ↔ _
    rw [SearchResult.name.injEq, Except.ok.injEq]
  | error e =>
    have hnot : ¬ looksLikeBoingName (trim s) = true := fun h => by
      obtain ⟨l, hl⟩ := hlooks.mp h
      cases hname.symm.trans hl
    rw [if_neg hnot]
    refine iff_of_false (fun h => ?_) (fun h => by cases h)
    dsimp only at h
    split_ifs at h

/-- **Names.**  A text is accepted iff, trimmed, lower-cased and without its suffix, it is a name,
which is then its label; a label is kept, with and without suffix; heights and ids are not taken
for names, and no search for them leads to a name page. -/
theorem names_law (s : Text) :
    (∀ label, normalizeBoingName s = .ok label ↔
        IsName label ∧ Stripped (toLowerCase (trim s)) label) ∧
      (∀ label, normalizeBoingName s = .ok label → normalizeBoingName label = .ok label ∧
        normalizeBoingName (label ++ nameSuffix) = .ok label) ∧
      (IsDigits (trim s) ∨ isHex64 s = true → looksLikeBoingName s = false ∧
        ∀ lookup label, search lookup s ≠ .name label) := by
  refine ⟨fun label => normalizeBoingName_eq_ok_iff, fun label h => ?_, fun h => ?_⟩
  · obtain ⟨hname, -⟩ := normalizeBoingName_eq_ok_iff.mp h
    exact ⟨hname.normalize, hname.normalize_suffixed⟩
  · have hnone : ∀ label, normalizeBoingName s ≠ .ok label := by
      rcases h with h | h
      · exact fun label => not_name_of_isDigits h
      · exact fun label => not_name_of_isHex64 h
    refine ⟨Bool.eq_false_iff.mpr fun hlooks => ?_, fun lookup label hsearch => ?_⟩
    · obtain ⟨label, hlabel⟩ := looksLikeBoingName_iff.mp hlooks
      exact hnone label hlabel
    · exact hnone label (search_eq_name_iff.mp hsearch)

end

end BoingObserver.Names
