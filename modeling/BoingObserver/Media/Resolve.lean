import BoingObserver.Media.Url

/-!
# Images of an asset

`resolveImageUrlFromSources` of `extract-media-url.ts`: the image that deploy metadata names,
as a URL in a field or in the JSON text of a field, nested to any depth.

* `resolve_eq_findSome`: the sources list candidates, and the first that gives a URL is taken.
* `url_safe_iff`: only an image field that is taken as it is can be unsafe.
* `resolve_safe_iff`: when what is resolved is safe.
-/

namespace BoingObserver.Media

open Js Payload

/-! ## Fields -/

/-- `IMAGE_KEYS` -/
def imageKeys : List Text :=
  ["image", "image_url", "imageUrl", "imageURI", "imageUri", "logo", "logoURI", "logoUri",
    "logo_url", "icon", "icon_url", "animation_url", "picture"]

def readMetadataImageField (value : Value) : Option Text :=
  match value with
  | .string s => if trim s = [] then none else some ((extractHttpOrIpfsUrl (trim s)).getD (trim s))
  | _ => none

/-- The URL of an image field; a text without a URL in it is taken as it is. -/
def imageOfField (value : Value) : Option Text :=
  (readMetadataImageField value).bind fun u =>
    (extractHttpOrIpfsUrl u).or (if isHttpUrl u ∧ utf16Length u ≤ maxUrl then some u else none)

/-- `rec.uri ?? rec.url ?? rec.image`; what is no object has none of them. -/
def fileField (file : Value) : Value :=
  ((file.get "uri").orElse (file.get "url")).orElse (file.get "image")

def imageOfFile (file : Value) : Option Text :=
  (readMetadataImageField (fileField file)).bind extractHttpOrIpfsUrl

/-- `Array.isArray(properties.files)`, with the files. -/
def filesOf (properties : Value) : List Value := ((properties.get "files").asArray?).getD []

mutual

def imageUrlFromJsonObject : Value → Option Text
  | .object o =>
    (imageKeys.findSome? fun key => imageOfField (Fields.get o key)).or (imageUrlFromProperties o)
  | _ => none

/-- The image in the field `properties`, the first of the name. -/
def imageUrlFromProperties : List (Text × Value) → Option Text
  | [] => none
  | (key, value) :: rest =>
    if key = "properties" then
      (imageUrlFromJsonObject value).or ((filesOf value).findSome? imageOfFile)
    else imageUrlFromProperties rest

end

def imageOfText (parse : Text → Option Value) (text : Text) : Option Text :=
  let fromJson :=
    if text.head? = some '\x7b' ∨ text.head? = some '[' then (parse text).bind imageUrlFromJsonObject
    else none
  fromJson.or (if isStandaloneMediaUrl text then extractHttpOrIpfsUrl text else none)

/-- Parse inline JSON metadata and standard `image` / `logoURI` keys, by `JSON.parse` as `parse`. -/
def resolveImageUrlFromSources (parse : Text → Option Value) (sources : List (Option Text)) :
    Option Text :=
  sources.findSome? fun raw => raw.bind fun raw =>
    if trim raw = [] then none else imageOfText parse (trim raw)

/-! ## Candidates -/

/-- A text, trimmed, that may give the image: of an image field, of a file, or a source itself. -/
inductive Candidate
  | field (t : Text)
  | file (t : Text)
  | plain (t : Text)

def Candidate.Gives : Candidate → Prop
  | .field t =>
    (extractHttpOrIpfsUrl t).isSome = true ∨ (isHttpUrl t = true ∧ utf16Length t ≤ maxUrl)
  | .file t => (extractHttpOrIpfsUrl t).isSome = true
  | .plain t => (extractHttpOrIpfsUrl t).isSome = true

def textOf (value : Value) : Option Text :=
  match value with
  | .string s => if trim s = [] then none else some (trim s)
  | _ => none

def fileCandidates (value : Value) : List Candidate :=
  (filesOf value).filterMap fun file => (textOf (fileField file)).map .file

mutual

def jsonCandidates : Value → List Candidate
  | .object o =>
    (imageKeys.filterMap fun key => (textOf (Fields.get o key)).map .field) ++ propertyCandidates o
  | _ => []

def propertyCandidates : List (Text × Value) → List Candidate
  | [] => []
  | (key, value) :: rest =>
    if key = "properties" then jsonCandidates value ++ fileCandidates value
    else propertyCandidates rest

end

def textCandidates (parse : Text → Option Value) (text : Text) : List Candidate :=
  let fromJson :=
    if text.head? = some '\x7b' ∨ text.head? = some '[' then
      ((parse text).map jsonCandidates).getD []
    else []
  fromJson ++ if isStandaloneMediaUrl text then [.plain text] else []

def candidates (parse : Text → Option Value) (sources : List (Option Text)) : List Candidate :=
  sources.flatMap fun raw =>
    match raw.map trim with
    | some (c :: text) => textCandidates parse (c :: text)
    | _ => []

def mediaText (t : Text) : Text := (extractHttpOrIpfsUrl t).getD t

def Candidate.url : Candidate → Option Text
  | .field t => (extractHttpOrIpfsUrl (mediaText t)).or
      (if isHttpUrl (mediaText t) ∧ utf16Length (mediaText t) ≤ maxUrl then some (mediaText t)
      else none)
  | .file t => extractHttpOrIpfsUrl (mediaText t)
  | .plain t => extractHttpOrIpfsUrl t

/-- An image field that is taken as it is, with white space or markup in it. -/
def Candidate.Unchecked : Candidate → Prop
  | .field t => extractHttpOrIpfsUrl t = none ∧ isHttpUrl t = true ∧ utf16Length t ≤ maxUrl ∧
      ∃ c ∈ t, isSpace c = true ∨ c.toNat ∈ markup
  | _ => False

section

variable {parse : Text → Option Value} {sources : List (Option Text)}

theorem readMetadataImageField_eq (value : Value) :
    readMetadataImageField value = (textOf value).map mediaText := by
  cases value with
  | string s =>
    rw [readMetadataImageField, textOf]
    split <;> rfl
  | _ => rfl

theorem findSome?_filterMap {α β γ : Type} (g : α → Option β) (f : β → Option γ) (l : List α) :
    (l.filterMap g).findSome? f = l.findSome? fun a => (g a).bind f := by
  induction l with
  | nil => rfl
  | cons a l ih =>
    rw [List.findSome?_cons]
    cases hg : g a with
    | none =>
      rw [List.filterMap_cons_none hg, ih]
      rfl
    | some b =>
      rw [List.filterMap_cons_some hg, List.findSome?_cons, ih]
      rfl

theorem imageOfField_eq (value : Value) :
    imageOfField value = ((textOf value).map Candidate.field).bind Candidate.url := by
  rw [imageOfField, readMetadataImageField_eq]
  cases textOf value with
  | none => rfl
  | some t => rfl

theorem imageOfFile_eq (file : Value) :
    imageOfFile file = ((textOf (fileField file)).map Candidate.file).bind Candidate.url := by
  rw [imageOfFile, readMetadataImageField_eq]
  cases textOf (fileField file) with
  | none => rfl
  | some t => rfl

theorem findSome?_fileCandidates (value : Value) :
    (fileCandidates value).findSome? Candidate.url = (filesOf value).findSome? imageOfFile := by
  rw [fileCandidates, findSome?_filterMap]
  exact congrArg (filesOf value).findSome? (funext fun file => (imageOfFile_eq file).symm)

mutual

/-- **A JSON value lists its candidates**, to any depth. -/
theorem findSome?_jsonCandidates (value : Value) :
    (jsonCandidates value).findSome? Candidate.url = imageUrlFromJsonObject value := by
  cases value with
  | object o =>
    rw [jsonCandidates, imageUrlFromJsonObject, List.findSome?_append, findSome?_filterMap,
      findSome?_propertyCandidates o]
    simp only [imageOfField_eq]
  | undefined => rfl
  | null => rfl
  | bool => rfl
  | number => rfl
  | string => rfl
  | array => rfl

theorem findSome?_propertyCandidates (o : List (Text × Value)) :
    (propertyCandidates o).findSome? Candidate.url = imageUrlFromProperties o := by
  cases o with
  | nil => rw [propertyCandidates, imageUrlFromProperties]; rfl
  | cons field rest =>
    obtain ⟨key, value⟩ := field
    rw [propertyCandidates, imageUrlFromProperties]
    split
    · rw [List.findSome?_append, findSome?_jsonCandidates value, findSome?_fileCandidates]
    · exact findSome?_propertyCandidates rest

end

theorem findSome?_textCandidates (text : Text) :
    (textCandidates parse text).findSome? Candidate.url = imageOfText parse text := by
  rw [textCandidates, imageOfText, List.findSome?_append]
  congr 1
  · split
    · cases parse text with
      | none => rfl
      | some value => exact findSome?_jsonCandidates value
    · rfl
  · split
    · rw [List.findSome?_singleton]
      rfl
    · rfl

/-- **The first candidate that gives a URL is taken.** -/
theorem resolve_eq_findSome (parse : Text → Option Value) (sources : List (Option Text)) :
    resolveImageUrlFromSources parse sources =
      (candidates parse sources).findSome? Candidate.url := by
  induction sources with
  | nil => rfl
  | cons raw sources ih =>
    rw [candidates, List.flatMap_cons, ← candidates, List.findSome?_append, ← ih,
      resolveImageUrlFromSources, List.findSome?_cons, ← resolveImageUrlFromSources]
    have hraw : (raw.bind fun raw =>
        if trim raw = [] then none else imageOfText parse (trim raw)) =
        (match raw.map trim with
          | some (c :: text) => textCandidates parse (c :: text)
          | _ => []).findSome? Candidate.url := by
      cases raw with
      | none => rfl
      | some raw =>
        rw [Option.bind_some, Option.map_some]
        cases trim raw with
        | nil => rfl
        | cons c text => exact (findSome?_textCandidates (c :: text)).symm
    rw [← hraw]
    cases raw.bind fun raw => if trim raw = [] then none else imageOfText parse (trim raw) <;> rfl

/-! ## Safety -/

theorem mediaText_of_none {t : Text} (h : extractHttpOrIpfsUrl t = none) : mediaText t = t := by
  rw [mediaText, h]
  rfl

/-- Something is extracted again from what was extracted. -/
theorem exists_extract_mediaText {t e : Text} (h : extractHttpOrIpfsUrl t = some e) :
    ∃ u, extractHttpOrIpfsUrl (mediaText t) = some u := by
  rw [mediaText, h]
  exact extract_extract h

theorem url_field_of_none {t : Text} (h : extractHttpOrIpfsUrl t = none) :
    (Candidate.field t).url =
      if isHttpUrl t ∧ utf16Length t ≤ maxUrl then some t else none := by
  rw [Candidate.url, mediaText_of_none h, h]
  rfl

theorem url_field_of_some {t e : Text} (h : extractHttpOrIpfsUrl t = some e) :
    ∃ u, (Candidate.field t).url = some u ∧ extractHttpOrIpfsUrl (mediaText t) = some u := by
  obtain ⟨u, hu⟩ := exists_extract_mediaText h
  refine ⟨u, ?_, hu⟩
  rw [Candidate.url, hu]
  rfl

theorem gives_iff (c : Candidate) : c.Gives ↔ ∃ u, c.url = some u := by
  cases c with
  | field t =>
    rw [Candidate.Gives]
    cases ht : extractHttpOrIpfsUrl t with
    | none =>
      rw [url_field_of_none ht]
      simp
    | some e =>
      obtain ⟨u, hu, -⟩ := url_field_of_some ht
      exact iff_of_true (Or.inl rfl) ⟨u, hu⟩
  | file t =>
    rw [Candidate.Gives, Candidate.url]
    cases ht : extractHttpOrIpfsUrl t with
    | none =>
      rw [mediaText_of_none ht, ht]
      simp
    | some e => exact iff_of_true rfl (exists_extract_mediaText ht)
  | plain t => exact Option.isSome_iff_exists

/-- **Only an unchecked field gives an unsafe URL.** -/
theorem url_safe_iff {c : Candidate} {u : Text} (h : c.url = some u) :
    SafeUrl u ↔ ¬ c.Unchecked := by
  cases c with
  | field t =>
    cases ht : extractHttpOrIpfsUrl t with
    | some e =>
      obtain ⟨u', hu', hsafe⟩ := url_field_of_some ht
      obtain rfl := Option.some.inj (hu'.symm.trans h)
      exact iff_of_true (extract_safe hsafe) fun hc => by cases ht.symm.trans hc.1
    | none =>
      rw [url_field_of_none ht, Option.ite_none_right_eq_some] at h
      obtain ⟨⟨hscheme, hlength⟩, h⟩ := h
      obtain rfl := Option.some.inj h
      constructor
      · rintro hsafe ⟨-, -, -, d, hd, hbad⟩
        obtain ⟨hspace, hmarkup⟩ := hsafe.chars d hd
        rcases hbad with hbad | hbad
        · exact absurd (hspace.symm.trans hbad) (by decide)
        · exact hmarkup hbad
      · intro hc
        refine ⟨hscheme, hlength, fun d hd => ?_⟩
        have hd' : ¬ (isSpace d = true ∨ d.toNat ∈ markup) := fun hbad =>
          hc ⟨ht, hscheme, hlength, d, hd, hbad⟩
        rw [not_or, Bool.not_eq_true] at hd'
        exact hd'
  | file t => exact iff_of_true (extract_safe h) id
  | plain t => exact iff_of_true (extract_safe h) id

/-- **When the resolved URL is safe**: iff some candidate gives a URL in front of each unchecked
field. -/
theorem resolve_safe_iff (parse : Text → Option Value) (sources : List (Option Text)) :
    (∀ u, resolveImageUrlFromSources parse sources = some u → SafeUrl u) ↔
      ∀ before c after, candidates parse sources = before ++ c :: after → c.Unchecked →
        ∃ d ∈ before, d.Gives := by
  rw [resolve_eq_findSome]
  constructor
  · intro hsafe before c after hc hunchecked
    by_contra hnone
    have hbefore : ∀ d ∈ before, d.url = none := by
      intro d hd
      cases hurl : d.url with
      | none => rfl
      | some u => exact absurd ⟨d, hd, (gives_iff d).mpr ⟨u, hurl⟩⟩ hnone
    obtain ⟨u, hu⟩ := (gives_iff c).mp (by
      cases c with
      | field t => exact Or.inr ⟨hunchecked.2.1, hunchecked.2.2.1⟩
      | file t => exact hunchecked.elim
      | plain t => exact hunchecked.elim)
    have hfirst := List.findSome?_eq_some_iff.mpr ⟨before, c, after, hc, hu, hbefore⟩
    exact (url_safe_iff hu).mp (hsafe u hfirst) hunchecked
  · intro h u hu
    obtain ⟨before, c, after, hc, hurl, hbefore⟩ := List.findSome?_eq_some_iff.mp hu
    refine (url_safe_iff hurl).mpr fun hunchecked => ?_
    obtain ⟨d, hd, hgives⟩ := h before c after hc hunchecked
    obtain ⟨u', hu'⟩ := (gives_iff d).mp hgives
    cases (hbefore d hd).symm.trans hu'

/-! ## A field that is not checked -/

def openTag : Text := "http://\"><img>"

def openTagJson : Text := "\x7b\"image\":\"http://\\\"><img>\"\x7d"

/-- **An image field with markup is resolved as it is.** -/
theorem resolve_unsafe :
    let parse := fun s => if s = openTagJson then some (.object [("image", .string openTag)]) else none
    resolveImageUrlFromSources parse [some openTagJson] = some openTag ∧ ¬ SafeUrl openTag := by
  refine ⟨by decide, fun h => ?_⟩
  exact absurd (h.chars '>' (by decide)).2 (by decide)

end

end BoingObserver.Media
