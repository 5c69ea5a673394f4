import BoingObserver.Contract.Format
import BoingObserver.Payload.Summary

/-!
# Media URLs in texts

`ipfsUriToGateway` and `extractHttpOrIpfsUrl` of `extract-media-url.ts`: the first URL that
stands as a word in a text, with IPFS addresses rewritten for a gateway.

* `extract_safe`: what is extracted is an `http` or `https` URL without white space, quotes
  and angle brackets.
* `extract_extract`: what was extracted gives an URL again.
-/

namespace BoingObserver.Media

open Js Payload Contract

/-! ## Words -/

def markup : List ℕ := [0x22, 0x27, 0x3C, 0x3E]

/-- What may stand in a word: neither white space nor markup. -/
def isUrlChar (c : Char) : Bool := !isSpace c && !markup.contains c.toNat

/-- The scheme in any letter case, and at least so many units more, which stand at the start.
The expressions stop after 2048 units, where what they have is too long for a URL. -/
def matchWord (scheme : Text) (atLeast : ℕ) (s : Text) : Option Text :=
  let rest := (s.drop scheme.length).takeWhile isUrlChar
  if toLowerCase (s.take scheme.length) = scheme ∧ atLeast ≤ utf16Length rest then
    some (s.take scheme.length ++ rest)
  else none

/-- The first match in a text; a word begins after no word character. -/
def findWord (scheme : Text) (atLeast : ℕ) : Bool → Text → Option Text
  | _, [] => none
  | boundary, c :: s =>
    match if boundary then matchWord scheme atLeast (c :: s) else none with
    | some word => some word
    | none => findWord scheme atLeast (!isWordChar c) s

/-! ## Extraction -/

/-- A character that `.` of a regular expression stands for. -/
def isDot (c : Char) : Bool := !([0xA, 0xD, 0x2028, 0x2029].contains c.toNat)

def gateway : Text := "https://ipfs.io/ipfs/"

def ipfsUriToGateway (uri : Text) : Option Text :=
  let trimmed := trim uri
  let m := trimmed.drop 7
  if toLowerCase (trimmed.take 7) = "ipfs://" ∧ m ≠ [] ∧ m.all isDot then
    let path := m.dropWhile (· = '/')
    let path := if toLowerCase (path.take 5) = "ipfs/" then path.drop 5 else path
    if path = [] ∨ maxUrl < utf16Length path then none else some (gateway ++ path)
  else none

def fits (url : Text) : Bool := utf16Length url ≤ maxUrl

/-- `extractHttpOrIpfsUrl`, which is called with one source. -/
def extractHttpOrIpfsUrl (raw : Text) : Option Text :=
  let text := trim raw
  let ipfsWord := (findWord "ipfs://" 1 true text).bind ipfsUriToGateway
  let httpsWord := findWord "https://" 4 true text
  let httpWord := findWord "http://" 4 true text
  (ipfsWord.filter fits).or ((httpsWord.filter fits).or (httpWord.filter fits))

/-! ## Safe URLs -/

/-- `/^https?:\/\//i` -/
def isHttpUrl (u : Text) : Bool :=
  toLowerCase (u.take 7) = "http://" || toLowerCase (u.take 8) = "https://"

/-- An `http` or `https` URL that is not too long, without white space and markup. -/
structure SafeUrl (u : Text) : Prop where
  scheme : isHttpUrl u = true
  length : utf16Length u ≤ 2048
  chars : ∀ c ∈ u, isSpace c = false ∧ c.toNat ∉ markup

section

variable {scheme s w : Text} {n : ℕ} {c : Char}

theorem isUrlChar_iff : isUrlChar c = true ↔ isSpace c = false ∧ c.toNat ∉ markup := by
  rw [isUrlChar, Bool.and_eq_true, Bool.not_eq_true', Bool.not_eq_true', List.contains_eq_mem,
    decide_eq_false_iff_not]

/-- A letter of either case may stand in a word. -/
theorem isUrlChar_of_lowerChar (h : isUrlChar (lowerChar c) = true) : isUrlChar c = true := by
  rw [lowerChar] at h
  split_ifs at h with hupper hk
  · have ha : 65 ≤ c.toNat := hupper.1
    have hz : c.toNat ≤ 90 := hupper.2
    rw [isUrlChar_iff, markup]
    refine ⟨isSpace_of_printable (by omega) (by omega), ?_⟩
    simp only [List.mem_cons, List.not_mem_nil, or_false]
    omega
  · rw [isUrlChar, isSpace, hk]
    decide
  · exact h

theorem isUrlChar_of_toLowerCase (h : ∀ d ∈ toLowerCase s, isUrlChar d = true) :
    ∀ c ∈ s, isUrlChar c = true := fun _ hc =>
  isUrlChar_of_lowerChar (h _ (List.mem_map_of_mem hc))

/-- **What a match is**: the scheme and a run, of characters that may stand in a word. -/
theorem matchWord_eq_some (hscheme : scheme.all isUrlChar = true)
    (h : matchWord scheme n s = some w) : ∃ head rest, w = head ++ rest ∧
      toLowerCase head = scheme ∧ n ≤ utf16Length rest ∧ ∀ c ∈ w, isUrlChar c = true := by
  rw [matchWord] at h
  simp only [Option.ite_none_right_eq_some] at h
  obtain ⟨⟨hlower, hrest⟩, h⟩ := h
  obtain rfl := Option.some.inj h
  refine ⟨_, _, rfl, hlower, hrest, fun c hc => ?_⟩
  rcases List.mem_append.mp hc with hc | hc
  · refine isUrlChar_of_toLowerCase ?_ c hc
    rw [hlower]
    exact List.all_eq_true.mp hscheme
  · exact List.mem_takeWhile_imp hc

theorem exists_matchWord {boundary : Bool} (h : findWord scheme n boundary s = some w) :
    ∃ t, matchWord scheme n t = some w := by
  induction s generalizing boundary with
  | nil => cases h
  | cons c s ih =>
    rw [findWord] at h
    split at h
    next word hword =>
      obtain rfl := Option.some.inj h
      rw [Option.ite_none_right_eq_some] at hword
      exact ⟨_, hword.2⟩
    next => exact ih h

/-- **What a word is.** -/
theorem findWord_eq_some {boundary : Bool} (hscheme : scheme.all isUrlChar = true)
    (h : findWord scheme n boundary s = some w) : ∃ head rest, w = head ++ rest ∧
      toLowerCase head = scheme ∧ n ≤ utf16Length rest ∧ ∀ c ∈ w, isUrlChar c = true := by
  obtain ⟨t, ht⟩ := exists_matchWord h
  exact matchWord_eq_some hscheme ht

/-! ## What is extracted -/

structure IsUrlWord (url : Text) (head rest : Text) : Prop where
  eq : url = head ++ rest
  scheme : toLowerCase head = "http://" ∨ toLowerCase head = "https://"
  atLeast : 4 ≤ utf16Length rest
  chars : ∀ c ∈ url, isUrlChar c = true
  fits : fits url = true

theorem take_scheme {head : Text} (h : toLowerCase head = scheme) (rest : Text) :
    (head ++ rest).take scheme.length = head := by
  rw [← h, length_toLowerCase, List.take_left]

theorem isHttpUrl_append {head rest : Text}
    (h : toLowerCase head = "http://" ∨ toLowerCase head = "https://") :
    isHttpUrl (head ++ rest) = true := by
  rw [isHttpUrl, Bool.or_eq_true, decide_eq_true_iff, decide_eq_true_iff]
  rcases h with h | h
  · have htake : (head ++ rest).take 7 = head := take_scheme h rest
    rw [htake]
    exact Or.inl h
  · have htake : (head ++ rest).take 8 = head := take_scheme h rest
    rw [htake]
    exact Or.inr h

theorem IsUrlWord.safe {url head rest : Text} (h : IsUrlWord url head rest) : SafeUrl url where
  scheme := by
    rw [h.eq]
    exact isHttpUrl_append h.scheme
  length := of_decide_eq_true h.fits
  chars c hc := isUrlChar_iff.mp (h.chars c hc)

theorem ipfsUriToGateway_eq_some {uri url : Text} (h : ipfsUriToGateway uri = some url) :
    ∃ path, url = gateway ++ path ∧ ∀ c ∈ path, c ∈ trim uri := by
  simp only [ipfsUriToGateway, Option.ite_none_right_eq_some, Option.ite_none_left_eq_some] at h
  obtain ⟨-, -, h⟩ := h
  refine ⟨_, (Option.some.inj h).symm, fun c hc => ?_⟩
  have hpath : c ∈ (List.drop 7 (trim uri)).dropWhile (· = '/') := by
    split at hc
    · exact List.mem_of_mem_drop hc
    · exact hc
  exact List.mem_of_mem_drop ((List.dropWhile_sublist _).subset hpath)

/-- **What is extracted** is a word of the web. -/
theorem extract_eq_some {raw url : Text} (h : extractHttpOrIpfsUrl raw = some url) :
    ∃ head rest, IsUrlWord url head rest := by
  rw [extractHttpOrIpfsUrl, Option.or_eq_some_iff, Option.or_eq_some_iff] at h
  simp only [Option.filter_eq_some_iff, Option.bind_eq_some_iff] at h
  rcases h with ⟨⟨word, hword, hurl⟩, hfits⟩ | ⟨-, ⟨hurl, hfits⟩ | ⟨-, hurl, hfits⟩⟩
  · -- The gateway stands in front of characters of the word.
    obtain ⟨-, -, -, -, -, hchars⟩ := findWord_eq_some (by decide) hword
    obtain ⟨path, rfl, hpath⟩ := ipfsUriToGateway_eq_some hurl
    rw [trim_eq_self fun c hc => (isUrlChar_iff.mp (hchars c hc)).1] at hpath
    have hgateway : gateway.all isUrlChar = true := by decide
    refine ⟨"https://", "ipfs.io/ipfs/" ++ path, rfl, Or.inr (by decide), ?_, fun c hc => ?_, hfits⟩
    · refine le_trans ?_ (length_le_utf16Length _)
      rw [List.length_append]
      exact Nat.le_add_right_of_le (by decide)
    · rcases List.mem_append.mp hc with hc | hc
      · exact List.all_eq_true.mp hgateway c hc
      · exact hchars c (hpath c hc)
  · obtain ⟨head, rest, heq, hhead, hrest, hchars⟩ := findWord_eq_some (by decide) hurl
    exact ⟨head, rest, heq, Or.inr hhead, hrest, hchars, hfits⟩
  · obtain ⟨head, rest, heq, hhead, hrest, hchars⟩ := findWord_eq_some (by decide) hurl
    exact ⟨head, rest, heq, Or.inl hhead, hrest, hchars, hfits⟩

/-- **What is extracted is safe.** -/
theorem extract_safe {raw url : Text} (h : extractHttpOrIpfsUrl raw = some url) : SafeUrl url := by
  obtain ⟨head, rest, hword⟩ := extract_eq_some h
  exact hword.safe

/-! ## Extracting again -/

theorem findWord_self {head rest : Text} (hne : scheme ≠ []) (hhead : toLowerCase head = scheme)
    (hrest : n ≤ utf16Length rest) (hchars : ∀ c ∈ rest, isUrlChar c = true) :
    findWord scheme n true (head ++ rest) = some (head ++ rest) := by
  have hlength : head.length = scheme.length := by rw [← hhead, length_toLowerCase]
  have hmatch : matchWord scheme n (head ++ rest) = some (head ++ rest) := by
    have hrun : rest.takeWhile isUrlChar = rest := List.takeWhile_eq_self_iff.mpr hchars
    rw [matchWord, ← hlength, List.take_left, List.drop_left, hrun]
    exact if_pos ⟨hhead, hrest⟩
  obtain ⟨c, t, ht⟩ : ∃ c t, head ++ rest = c :: t := by
    refine List.exists_cons_of_ne_nil fun h => hne ?_
    rw [← hhead, (List.append_eq_nil_iff.mp h).1]
    rfl
  rw [ht] at hmatch ⊢
  rw [findWord, if_pos rfl, hmatch]

/-- **Something is extracted from what was extracted.** -/
theorem extract_extract {raw url : Text} (h : extractHttpOrIpfsUrl raw = some url) :
    ∃ url', extractHttpOrIpfsUrl url = some url' := by
  obtain ⟨head, rest, hword⟩ := extract_eq_some h
  have htrim : trim url = url :=
    trim_eq_self fun c hc => (isUrlChar_iff.mp (hword.chars c hc)).1
  have hrest : ∀ c ∈ rest, isUrlChar c = true := fun c hc =>
    hword.chars c (hword.eq ▸ List.mem_append_right head hc)
  have hfind (scheme : Text) (hne : scheme ≠ []) (hhead : toLowerCase head = scheme) :
      (findWord scheme 4 true url).filter fits = some url := by
    have hself := findWord_self hne hhead hword.atLeast hrest
    rw [← hword.eq] at hself
    rw [hself, Option.filter_some, if_pos hword.fits]
  refine Option.isSome_iff_exists.mp ?_
  rw [extractHttpOrIpfsUrl, htrim, Option.isSome_or, Option.isSome_or]
  rcases hword.scheme with hhttp | hhttps
  · rw [hfind _ (by decide) hhttp, Option.isSome_some, Bool.or_true, Bool.or_true]
  · rw [hfind _ (by decide) hhttps, Option.isSome_some, Bool.true_or, Bool.or_true]

end

end BoingObserver.Media
