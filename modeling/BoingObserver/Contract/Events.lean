import BoingObserver.Contract.Receipt

/-!
# Events of a receipt

What `parseAmmEvents` and `parseVaultEvents` of `tx-decode.ts` give, against the
format of the logs: a label in ASCII padded with zero bytes to a word, and three
words below `2 ^ 128`.

* `asciiLabel_eq_some_iff`: a topic reads as a label iff it is that label, padded.
* `eventWords_eq_some_iff`: the logs that pass the table test.
* `parseEvents_exact_iff`: the events are those of the format, in log order, iff
  no log is labelled with a key that every object has.
-/

namespace BoingObserver.Contract

open Js

/-! ## The format of a log -/

/-- The bytes of a label, then zero bytes up to 32. -/
def labelTopic (label : Text) : Text :=
  (label.map (fun c => padHex 2 c.toNat) ++
    List.replicate (32 - label.length) ("00" : Text)).flatten

def Labelled (log : LogEntry) (label : Text) : Prop :=
  ∃ topic, log.topics.bind (·.head?) = some topic ∧ toLowerCase (strip0x topic) = labelTopic label

def Carries (log : LogEntry) (a b c : ℕ) : Prop :=
  (a < 2 ^ 128 ∧ b < 2 ^ 128 ∧ c < 2 ^ 128) ∧
    toLowerCase (strip0x (trim (log.data.getD []))) = wordOf a ++ wordOf b ++ wordOf c

def Addressed (log : LogEntry) (dest : Text) : Prop :=
  ∃ topic, log.topics.bind (·[1]?) = some topic ∧ dest = toLowerCase (strip0x topic) ∧ IsWord dest

inductive IsAmmEvent (log : LogEntry) : AmmEvent → Prop
  | swap {a b c : ℕ} : Labelled log "BOING_NATIVEAMM_SWAP_V1" → Carries log a b c →
      IsAmmEvent log (.swap a b c)
  | addLiquidity {a b c : ℕ} : Labelled log "BOING_NATIVEAMM_ADDLP_V1" → Carries log a b c →
      IsAmmEvent log (.addLiquidity a b c)
  | removeLiquidity {a b c : ℕ} : Labelled log "BOING_NATIVEAMM_RMLP_V1" → Carries log a b c →
      IsAmmEvent log (.removeLiquidity a b c)

inductive IsVaultEvent (log : LogEntry) : VaultEvent → Prop
  | deposit {a b c : ℕ} : Labelled log "BOING_LP_VAULT_V2_DEPOSIT" → Carries log a b c →
      IsVaultEvent log (.deposit a b c)
  | withdraw {a b c : ℕ} : Labelled log "BOING_LP_VAULT_V2_WITHDRAW" → Carries log a b c →
      IsVaultEvent log (.withdraw a b c)
  | transfer {a b c : ℕ} {dest : Text} : Labelled log "BOING_LP_VAULT_V2_TRANSFER" →
      Carries log a b c → Addressed log dest → IsVaultEvent log (.transfer dest b)

/-- One event for each log that has one, in log order. -/
inductive EventsOf {ε : Type} (IsEvent : LogEntry → ε → Prop) : List LogEntry → List ε → Prop
  | nil : EventsOf IsEvent [] []
  | event {log : LogEntry} {logs : List LogEntry} {e : ε} {events : List ε} : IsEvent log e →
      EventsOf IsEvent logs events → EventsOf IsEvent (log :: logs) (e :: events)
  | skip {log : LogEntry} {logs : List LogEntry} {events : List ε} : (∀ e, ¬ IsEvent log e) →
      EventsOf IsEvent logs events → EventsOf IsEvent (log :: logs) events

/-- The kind of the event is one of those of `AmmEvent`. -/
def AmmEvent.IsDeclared : AmmEvent → Prop
  | .inherited .. => False
  | _ => True

/-- The kind of the event is one of those of `VaultEvent`. -/
def VaultEvent.IsDeclared : VaultEvent → Prop
  | .inherited .. => False
  | _ => True

/-- The log is labelled with a key that every object has, and carries three numbers. -/
def InheritedLabel (log : LogEntry) : Prop :=
  ∃ label ∈ objectPrototype, Labelled log label ∧ ∃ a b c, Carries log a b c

/-! ## Scans -/

section Scan

variable {ε : Type} {IsEvent : LogEntry → ε → Prop} {logs : List LogEntry} {events : List ε}

theorem EventsOf.exists_log (h : EventsOf IsEvent logs events) {e : ε} (he : e ∈ events) :
    ∃ log ∈ logs, IsEvent log e := by
  induction h with
  | nil => cases he
  | @event log logs e' events hlog _ ih =>
    rcases List.mem_cons.mp he with rfl | he
    · exact ⟨log, List.mem_cons_self, hlog⟩
    · obtain ⟨log', hmem, hlog'⟩ := ih he
      exact ⟨log', List.mem_cons_of_mem _ hmem, hlog'⟩
  | skip _ _ ih =>
    obtain ⟨log', hmem, hlog'⟩ := ih he
    exact ⟨log', List.mem_cons_of_mem _ hmem, hlog'⟩

theorem eventsOf_filterMap {parse : LogEntry → Option ε} :
    ∀ {logs : List LogEntry}, (∀ log ∈ logs, ∀ e, parse log = some e ↔ IsEvent log e) →
      EventsOf IsEvent logs (logs.filterMap parse)
  | [], _ => .nil
  | log :: logs, h => by
    obtain ⟨hlog, hlogs⟩ := List.forall_mem_cons.mp h
    cases hp : parse log with
    | some e =>
      rw [List.filterMap_cons_some hp]
      exact .event ((hlog e).mp hp) (eventsOf_filterMap hlogs)
    | none =>
      rw [List.filterMap_cons_none hp]
      refine .skip (fun e he => ?_) (eventsOf_filterMap hlogs)
      rw [(hlog e).mpr he] at hp
      cases hp

/-- A parser that is exact but for the logs of a kind gives the events of a list iff the list
has no such log. -/
theorem eventsOf_filterMap_iff {parse : LogEntry → Option ε} {bad : LogEntry → Prop}
    (hexact : ∀ log, ¬ bad log → ∀ e, parse log = some e ↔ IsEvent log e)
    (hbad : ∀ log, bad log → ∃ e, parse log = some e ∧ ∀ log', ¬ IsEvent log' e) :
    EventsOf IsEvent logs (logs.filterMap parse) ↔ ∀ log ∈ logs, ¬ bad log := by
  constructor
  · intro h log hmem hlog
    obtain ⟨e, hp, hno⟩ := hbad log hlog
    obtain ⟨log', -, hlog'⟩ := h.exists_log (List.mem_filterMap.mpr ⟨log, hmem, hp⟩)
    exact hno log' hlog'
  · intro h
    exact eventsOf_filterMap fun log hmem => hexact log (h log hmem)

theorem eventsOf_declared_iff {parse : LogEntry → Option ε} {bad : LogEntry → Prop}
    {Declared : ε → Prop} (hexact : ∀ log, ¬ bad log → ∀ e, parse log = some e ↔ IsEvent log e)
    (hdeclared : ∀ log e, IsEvent log e → Declared e)
    (hbad : ∀ log, bad log → ∃ e, parse log = some e ∧ ¬ Declared e) :
    (EventsOf IsEvent logs (logs.filterMap parse) ∧ ∀ e ∈ logs.filterMap parse, Declared e) ↔
      ∀ log ∈ logs, ¬ bad log := by
  have hno : ∀ log, bad log → ∃ e, parse log = some e ∧ ∀ log', ¬ IsEvent log' e := by
    intro log hlog
    obtain ⟨e, he, hnot⟩ := hbad log hlog
    exact ⟨e, he, fun log' h => hnot (hdeclared log' e h)⟩
  rw [← eventsOf_filterMap_iff hexact hno]
  refine ⟨And.left, fun h => ⟨h, fun e he => ?_⟩⟩
  obtain ⟨log, -, hlog⟩ := h.exists_log he
  exact hdeclared log e hlog

end Scan

/-! ## Labels -/

def IsLabel (label : Text) : Prop :=
  (∀ c ∈ label, 0x20 ≤ c.toNat ∧ c.toNat ≤ 0x7e) ∧ label.length ≤ 32

instance (label : Text) : Decidable (IsLabel label) :=
  haveI : Decidable (∀ c ∈ label, 0x20 ≤ c.toNat ∧ c.toNat ≤ 0x7e) := List.decidableBAll _ label
  inferInstanceAs (Decidable (_ ∧ _))

theorem byte_eq_iff {byte : Text} (hlen : byte.length = 2) (hhex : IsHex byte) {n : ℕ}
    (hn : n < 256) : byte = padHex 2 n ↔ numeral 16 byte = n := by
  constructor
  · rintro rfl
    exact numeral_padHex 2 n
  · intro h
    refine numeral_inj hhex (isHex_padHex 2 n) ?_ (by rw [h, numeral_padHex])
    rw [hlen, length_padHex (by omega) (by omega)]

/-- The bytes of the label's printable characters, then zeros. -/
structure IsPadded (label : Text) (bytes : List Text) : Prop where
  printable : ∀ c ∈ label, 0x20 ≤ c.toNat ∧ c.toNat ≤ 0x7e
  length_le : label.length ≤ bytes.length
  eq : bytes = label.map (fun c => padHex 2 c.toNat) ++
    List.replicate (bytes.length - label.length) ("00" : Text)

theorem isPadded_nil_iff {bytes : List Text}
    (hbytes : ∀ byte ∈ bytes, byte.length = 2 ∧ IsHex byte) :
    IsPadded [] bytes ↔ ∀ byte ∈ bytes, numeral 16 byte = 0 := by
  constructor
  · intro h byte hbyte
    have heq : bytes = List.replicate bytes.length ("00" : Text) := h.eq
    rw [heq] at hbyte
    rw [List.eq_of_mem_replicate hbyte]
    rfl
  · intro h
    refine ⟨fun c hc => absurd hc List.not_mem_nil, Nat.zero_le _, ?_⟩
    refine List.eq_replicate_iff.mpr ⟨rfl, fun byte hbyte => ?_⟩
    obtain ⟨hlen, hhex⟩ := hbytes byte hbyte
    exact (byte_eq_iff hlen hhex (by omega)).mpr (h byte hbyte)

theorem isPadded_cons_iff {byte : Text} {bytes : List Text} {c : Char} {l : Text}
    (hlen : byte.length = 2) (hhex : IsHex byte) : IsPadded (c :: l) (byte :: bytes) ↔
      (0x20 ≤ c.toNat ∧ c.toNat ≤ 0x7e ∧ numeral 16 byte = c.toNat) ∧ IsPadded l bytes := by
  have hsub : (byte :: bytes).length - (c :: l).length = bytes.length - l.length :=
    Nat.add_sub_add_right ..
  constructor
  · rintro ⟨hprint, hle, heq⟩
    rw [hsub, List.map_cons, List.cons_append, List.cons.injEq] at heq
    obtain ⟨hc, hrest⟩ := List.forall_mem_cons.mp hprint
    have hbyte := (byte_eq_iff hlen hhex (by omega)).mp heq.1
    exact ⟨⟨hc.1, hc.2, hbyte⟩, hrest, Nat.le_of_succ_le_succ hle, heq.2⟩
  · rintro ⟨⟨hlo, hhi, hbyte⟩, hrest, hle, heq⟩
    refine ⟨List.forall_mem_cons.mpr ⟨⟨hlo, hhi⟩, hrest⟩, Nat.succ_le_succ hle, ?_⟩
    rw [hsub, List.map_cons, List.cons_append, List.cons.injEq]
    exact ⟨(byte_eq_iff hlen hhex (by omega)).mpr hbyte, heq⟩

/-- **What is read from bytes**: printable characters, then zeros. -/
theorem labelFrom_eq_some_iff {bytes : List Text}
    (hbytes : ∀ byte ∈ bytes, byte.length = 2 ∧ IsHex byte) {label : Text} :
    labelFrom bytes = some label ↔ IsPadded label bytes := by
  induction bytes generalizing label with
  | nil =>
    rw [labelFrom, Option.some.injEq]
    constructor
    · rintro rfl
      exact (isPadded_nil_iff hbytes).mpr fun _ h => nomatch h
    · rintro ⟨-, hlen, -⟩
      exact (List.length_eq_zero_iff.mp (Nat.le_zero.mp hlen)).symm
  | cons byte bytes ih =>
    obtain ⟨⟨hlen, hhex⟩, hrest⟩ := List.forall_mem_cons.mp hbytes
    have hlt : numeral 16 byte < 256 := by
      have := numeral_lt hhex
      rwa [hlen] at this
    rw [labelFrom]
    cases label with
    | nil =>
      rw [isPadded_nil_iff hbytes, List.forall_mem_cons]
      split_ifs with h0 hzeros hrange
      · exact iff_of_true rfl ⟨h0, hzeros⟩
      · exact iff_of_false (by simp) fun h => hzeros h.2
      · exact iff_of_false (by simp) fun h => h0 h.1
      · exact iff_of_false (by simp) fun h => h0 h.1
    | cons c l =>
      rw [isPadded_cons_iff hlen hhex]
      split_ifs with h0 hzeros hrange
      · exact iff_of_false (by simp) fun h => by omega
      · exact iff_of_false (by simp) fun h => by omega
      · exact iff_of_false (by simp) fun h => by omega
      · rw [Option.map_eq_some_iff]
        constructor
        · rintro ⟨l', hl', heq⟩
          obtain ⟨rfl, rfl⟩ := List.cons.inj heq
          have hnat := toNat_ofNat_of_lt hlt
          exact ⟨⟨by omega, by omega, hnat.symm⟩, (ih hrest).mp hl'⟩
        · rintro ⟨⟨-, -, hbyte⟩, hl⟩
          exact ⟨l, (ih hrest).mpr hl, by rw [hbyte, Char.ofNat_toNat]⟩

theorem isWord_labelTopic {label : Text} (h : IsLabel label) :
    IsWord (labelTopic label) ∧ chunks 2 (labelTopic label) =
      label.map (fun c => padHex 2 c.toNat) ++
        List.replicate (32 - label.length) ("00" : Text) := by
  have hbytes : ∀ byte ∈ label.map (fun c => padHex 2 c.toNat) ++
      List.replicate (32 - label.length) ("00" : Text), byte.length = 2 ∧ IsHex byte := by
    intro byte hbyte
    rcases List.mem_append.mp hbyte with hbyte | hbyte
    · obtain ⟨c, hc, rfl⟩ := List.mem_map.mp hbyte
      have := h.1 c hc
      exact ⟨length_padHex (by omega) (by omega), isHex_padHex 2 _⟩
    · rw [(List.mem_replicate.mp hbyte).2]
      decide
  refine ⟨⟨?_, ?_⟩, chunks_flatten (by omega) fun byte hbyte => (hbytes byte hbyte).1⟩
  · have hle := h.2
    rw [labelTopic, List.length_flatten, List.map_congr_left fun byte hb => (hbytes byte hb).1,
      List.map_const', List.sum_replicate, List.length_append, List.length_map,
      List.length_replicate]
    simp only [nsmul_eq_mul, Nat.cast_id]
    omega
  · intro c hc
    obtain ⟨byte, hbyte, hc⟩ := List.mem_flatten.mp hc
    exact (hbytes byte hbyte).2 c hc

/-- **A topic reads as a label iff it is the label, padded with zero bytes.** -/
theorem asciiLabel_eq_some_iff {topic label : Text} :
    asciiLabel topic = some label ↔
      IsLabel label ∧ toLowerCase (strip0x topic) = labelTopic label := by
  simp only [asciiLabel]
  generalize toLowerCase (strip0x topic) = h
  by_cases hw : IsWord h
  · rw [if_pos hw]
    obtain ⟨hlen, hflat⟩ := chunks_length_eq (s := h) (show 0 < 2 by omega) (by rw [hw.1])
    have hcount : (chunks 2 h).length = 32 := by
      rw [chunks, List.length_map, List.length_range, hw.1]
    have hbytes : ∀ byte ∈ chunks 2 h, byte.length = 2 ∧ IsHex byte := fun byte hb =>
      ⟨hlen byte hb, fun c hc => hw.2 c (hflat ▸ List.mem_flatten.mpr ⟨byte, hb, hc⟩)⟩
    rw [labelFrom_eq_some_iff hbytes]
    constructor
    · rintro ⟨hprint, hle, heq⟩
      rw [hcount] at hle heq
      refine ⟨⟨hprint, hle⟩, ?_⟩
      rw [labelTopic, ← heq, hflat]
    · rintro ⟨hlabel, rfl⟩
      refine ⟨hlabel.1, hcount ▸ hlabel.2, ?_⟩
      rw [hcount]
      exact (isWord_labelTopic hlabel).2
  · rw [if_neg hw]
    refine iff_of_false (by simp) ?_
    rintro ⟨hlabel, rfl⟩
    exact hw (isWord_labelTopic hlabel).1

/-! ## Data words -/

theorem calldataWords_three_iff {s wa wb wc : Text} (hwords : ∀ w ∈ [wa, wb, wc], IsWord w) :
    calldataWords (.string s) = some [wa, wb, wc] ↔
      toLowerCase (strip0x (trim s)) = wa ++ wb ++ wc := by
  rw [calldataWords_string_eq_some_iff]
  have hflat : [wa, wb, wc].flatten = wa ++ wb ++ wc := by
    rw [List.flatten_cons, List.flatten_cons, List.flatten_singleton, List.append_assoc]
  rw [hflat]
  exact ⟨fun h => h.2.2, fun h => ⟨List.cons_ne_nil _ _, hwords, h⟩⟩

theorem words_eq_some_iff {log : LogEntry} {a b c : ℕ} :
    (calldataWords (.string (log.data.getD []))).bind (·.mapM wordU128) = some [a, b, c] ↔
      Carries log a b c := by
  rw [Option.bind_eq_some_iff]
  constructor
  · rintro ⟨ws, hws, hnums⟩
    have hmap := mapM_eq_some_iff.mp hnums
    have hlen : ws.length = 3 := by
      have := congrArg List.length hmap
      rwa [List.length_map] at this
    obtain ⟨wa, wb, wc, rfl⟩ := List.length_eq_three.mp hlen
    simp only [List.map_cons, List.map_nil, List.cons.injEq, and_true] at hmap
    obtain ⟨ha, hwa⟩ := eq_wordOf_of_wordU128 hmap.1
    obtain ⟨hb, hwb⟩ := eq_wordOf_of_wordU128 hmap.2.1
    obtain ⟨hc, hwc⟩ := eq_wordOf_of_wordU128 hmap.2.2
    refine ⟨⟨ha, hb, hc⟩, ?_⟩
    rw [← hwa, ← hwb, ← hwc]
    exact (calldataWords_three_iff (isWord_of_calldataWords hws)).mp hws
  · rintro ⟨⟨ha, hb, hc⟩, hdata⟩
    have hword {n : ℕ} (h : n < 2 ^ 128) : IsWord (wordOf n) :=
      isWord_wordOf (lt_trans h (by norm_num))
    have hwords : ∀ w ∈ [wordOf a, wordOf b, wordOf c], IsWord w := by
      simp only [List.forall_mem_cons]
      exact ⟨hword ha, hword hb, hword hc, fun w h => by cases h⟩
    refine ⟨_, (calldataWords_three_iff hwords).mpr hdata, mapM_eq_some_iff.mpr ?_⟩
    rw [List.map_cons, List.map_cons, List.map_cons, wordU128_wordOf ha, wordU128_wordOf hb,
      wordU128_wordOf hc]
    rfl

/-! ## The table test -/

theorem mem_of_recordGet_ne_absent {α : Type} {r : List (Text × α)} {k : Text}
    (h : recordGet r k ≠ .absent) : k ∈ r.map Prod.fst ∨ k ∈ objectPrototype := by
  rw [recordGet] at h
  cases hl : r.lookup k with
  | some a =>
    exact Or.inl (List.mem_map_of_mem (mem_of_lookup_eq_some hl))
  | none =>
    rw [hl] at h
    dsimp only at h
    split_ifs at h with hk
    · exact Or.inr hk
    · exact absurd rfl h

theorem isLabel_of_mem_objectPrototype : ∀ k ∈ objectPrototype, IsLabel k ∧ k ≠ [] := by
  decide +kernel

/-- A table of labels: every key is a label of one kind, and none is a key every object has. -/
structure LabelTable {κ : Type} (labels : List (Text × κ)) : Prop where
  isLabel : ∀ e ∈ labels, IsLabel e.1 ∧ e.1 ≠ []
  lookup : ∀ e ∈ labels, labels.lookup e.1 = some e.2
  inj : ∀ e ∈ labels, ∀ e' ∈ labels, e.2 = e'.2 → e.1 = e'.1
  own : ∀ e ∈ labels, e.1 ∉ objectPrototype

section Table

variable {κ : Type} {labels : List (Text × κ)} (htable : LabelTable labels)

include htable

theorem LabelTable.isLabel_of_recordGet {k : Text} (h : recordGet labels k ≠ .absent) :
    IsLabel k ∧ k ≠ [] := by
  rcases mem_of_recordGet_ne_absent h with hk | hk
  · obtain ⟨e, he, rfl⟩ := List.mem_map.mp hk
    exact htable.isLabel e he
  · exact isLabel_of_mem_objectPrototype k hk

theorem LabelTable.recordGet_eq_own_iff {e : Text × κ} (he : e ∈ labels) {k : Text} :
    recordGet labels k = .own e.2 ↔ k = e.1 := by
  rw [recordGet_eq_own]
  constructor
  · intro hk
    exact htable.inj _ (mem_of_lookup_eq_some hk) e he rfl
  · rintro rfl
    exact htable.lookup e he

theorem LabelTable.recordGet_eq_inherited_iff {k : Text} :
    recordGet labels k = .inherited ↔ k ∈ objectPrototype := by
  rw [recordGet]
  cases hl : labels.lookup k with
  | some a =>
    exact iff_of_false (fun h => by cases h) (htable.own _ (mem_of_lookup_eq_some hl))
  | none => by_cases hk : k ∈ objectPrototype <;> simp [hk]

theorem LabelTable.recordGet_asciiLabel_iff {topic : Text} {kind : Slot κ}
    (hkind : kind ≠ .absent) :
    recordGet labels ((asciiLabel topic).getD []) = kind ↔
      ∃ label, toLowerCase (strip0x topic) = labelTopic label ∧ recordGet labels label = kind := by
  constructor
  · intro h
    have hlabel := htable.isLabel_of_recordGet (h ▸ hkind)
    cases ha : asciiLabel topic with
    | none => rw [ha] at hlabel; exact absurd rfl hlabel.2
    | some label =>
      rw [ha] at h
      exact ⟨label, (asciiLabel_eq_some_iff.mp ha).2, h⟩
  · rintro ⟨label, htopic, h⟩
    have hlabel := htable.isLabel_of_recordGet (h ▸ hkind)
    rw [asciiLabel_eq_some_iff.mpr ⟨hlabel.1, htopic⟩]
    exact h

/-- **The logs that pass the table test.** -/
theorem LabelTable.eventWords_eq_some_iff {log : LogEntry} {kind : Slot κ} (hkind : kind ≠ .absent)
    {a b c : ℕ} :
    eventWords labels log = some (kind, a, b, c) ↔
      (∃ label, Labelled log label ∧ recordGet labels label = kind) ∧ Carries log a b c := by
  rw [eventWords, ← words_eq_some_iff]
  generalize (calldataWords (.string (log.data.getD []))).bind (·.mapM wordU128) = ws
  have hlabelled : (∃ label, Labelled log label ∧ recordGet labels label = kind) ↔
      ∃ topic, log.topics.bind (·.head?) = some topic ∧
        recordGet labels ((asciiLabel topic).getD []) = kind := by
    constructor
    · rintro ⟨label, ⟨topic, htopic, hlower⟩, h⟩
      exact ⟨topic, htopic, (htable.recordGet_asciiLabel_iff hkind).mpr ⟨label, hlower, h⟩⟩
    · rintro ⟨topic, htopic, h⟩
      obtain ⟨label, hlower, h⟩ := (htable.recordGet_asciiLabel_iff hkind).mp h
      exact ⟨label, ⟨topic, htopic, hlower⟩, h⟩
  rw [hlabelled]
  have hnil : recordGet labels [] ≠ kind := fun h =>
    (htable.isLabel_of_recordGet (h ▸ hkind)).2 rfl
  cases ht : log.topics.bind (·.head?) with
  | none => exact iff_of_false (fun h => by cases h) fun ⟨⟨t, h, _⟩, _⟩ => by cases h
  | some topic =>
    have hone : (∃ t, some topic = some t ∧
        recordGet labels ((asciiLabel t).getD []) = kind) ↔
        recordGet labels ((asciiLabel topic).getD []) = kind := by
      simp only [Option.some.injEq, exists_eq_left']
    rw [hone]
    cases topic with
    | nil => exact iff_of_false (fun h => by cases h) fun h => hnil h.1
    | cons ch t =>
      dsimp only
      generalize recordGet labels ((asciiLabel (ch :: t)).getD []) = slot
      cases slot with
      | absent => exact iff_of_false (fun h => by cases h) fun h => hkind h.1.symm
      | _ =>
        dsimp only
        split
        · simp only [Option.some.injEq, Prod.mk.injEq, List.cons.injEq, and_true]
        next hws =>
          exact iff_of_false (fun h => by cases h) fun h => hws _ _ _ h.2

theorem LabelTable.eventWords_own_iff {e : Text × κ} (he : e ∈ labels) {log : LogEntry}
    {a b c : ℕ} :
    eventWords labels log = some (.own e.2, a, b, c) ↔ Labelled log e.1 ∧ Carries log a b c := by
  have hkind : (Slot.own e.2 : Slot κ) ≠ .absent := fun h => by cases h
  rw [htable.eventWords_eq_some_iff hkind]
  simp only [htable.recordGet_eq_own_iff he, exists_eq_right]

theorem LabelTable.eventWords_inherited_iff {log : LogEntry} {a b c : ℕ} :
    eventWords labels log = some (.inherited, a, b, c) ↔
      (∃ label ∈ objectPrototype, Labelled log label) ∧ Carries log a b c := by
  have hkind : (Slot.inherited : Slot κ) ≠ .absent := fun h => by cases h
  rw [htable.eventWords_eq_some_iff hkind]
  simp only [htable.recordGet_eq_inherited_iff, and_comm]

end Table

/-! ## Native AMM events -/

theorem labelTable_logLabels : LabelTable logLabels where
  isLabel := by decide +kernel
  lookup := by simp only [logLabels, List.forall_mem_cons]; exact ⟨rfl, rfl, rfl, by simp⟩
  inj := by simp [logLabels]
  own := by decide +kernel

theorem swap_mem : (("BOING_NATIVEAMM_SWAP_V1" : Text), AmmKind.swap) ∈ logLabels := by
  simp [logLabels]

theorem addLiquidity_mem :
    (("BOING_NATIVEAMM_ADDLP_V1" : Text), AmmKind.addLiquidity) ∈ logLabels := by
  simp [logLabels]

theorem removeLiquidity_mem :
    (("BOING_NATIVEAMM_RMLP_V1" : Text), AmmKind.removeLiquidity) ∈ logLabels := by
  simp [logLabels]

def ammEventOf (kind : Slot AmmKind) (a b c : ℕ) : Option AmmEvent :=
  match kind with
  | .own .swap => some (.swap a b c)
  | .own .addLiquidity => some (.addLiquidity a b c)
  | .own .removeLiquidity => some (.removeLiquidity a b c)
  | .inherited => some (.inherited a b c)
  | .absent => none

theorem parseAmmLog_of_words {log : LogEntry} {kind : Slot AmmKind} {a b c : ℕ}
    (h : eventWords logLabels log = some (kind, a, b, c)) :
    parseAmmLog log = ammEventOf kind a b c := by
  rw [parseAmmLog, h]
  cases kind with
  | own k => cases k <;> rfl
  | _ => rfl

/-- A log that is labelled as no object is gives its event. -/
theorem parseAmmLog_eq_some_iff {log : LogEntry} (hlog : ¬ InheritedLabel log) {e : AmmEvent} :
    parseAmmLog log = some e ↔ IsAmmEvent log e := by
  have htable := labelTable_logLabels
  constructor
  · intro h
    cases hw : eventWords logLabels log with
    | none => rw [parseAmmLog, hw] at h; cases h
    | some words =>
      obtain ⟨kind, a, b, c⟩ := words
      rw [parseAmmLog_of_words hw] at h
      cases kind with
      | absent => cases h
      | inherited =>
        obtain ⟨⟨label, hmem, hlabel⟩, hcarries⟩ := htable.eventWords_inherited_iff.mp hw
        exact absurd ⟨label, hmem, hlabel, a, b, c, hcarries⟩ hlog
      | own kind =>
        cases kind with
        | swap =>
          obtain ⟨hlabel, hcarries⟩ := (htable.eventWords_own_iff swap_mem).mp hw
          cases h
          exact .swap hlabel hcarries
        | addLiquidity =>
          obtain ⟨hlabel, hcarries⟩ := (htable.eventWords_own_iff addLiquidity_mem).mp hw
          cases h
          exact .addLiquidity hlabel hcarries
        | removeLiquidity =>
          obtain ⟨hlabel, hcarries⟩ := (htable.eventWords_own_iff removeLiquidity_mem).mp hw
          cases h
          exact .removeLiquidity hlabel hcarries
  · intro h
    cases h with
    | swap hlabel hcarries =>
      exact parseAmmLog_of_words ((htable.eventWords_own_iff swap_mem).mpr ⟨hlabel, hcarries⟩)
    | addLiquidity hlabel hcarries =>
      exact parseAmmLog_of_words
        ((htable.eventWords_own_iff addLiquidity_mem).mpr ⟨hlabel, hcarries⟩)
    | removeLiquidity hlabel hcarries =>
      exact parseAmmLog_of_words
        ((htable.eventWords_own_iff removeLiquidity_mem).mpr ⟨hlabel, hcarries⟩)

theorem parseAmmLog_inherited {log : LogEntry} (hlog : InheritedLabel log) :
    ∃ e, parseAmmLog log = some e ∧ ¬ e.IsDeclared := by
  obtain ⟨label, hmem, hlabel, a, b, c, hcarries⟩ := hlog
  have hw := labelTable_logLabels.eventWords_inherited_iff.mpr ⟨⟨label, hmem, hlabel⟩, hcarries⟩
  exact ⟨_, parseAmmLog_of_words hw, not_false⟩

theorem IsAmmEvent.isDeclared {log : LogEntry} {e : AmmEvent} (h : IsAmmEvent log e) :
    e.IsDeclared := by
  cases h <;> trivial

/-! ## LP vault events -/

theorem labelTable_vaultLogLabels : LabelTable vaultLogLabels where
  isLabel := by decide +kernel
  lookup := by simp only [vaultLogLabels, List.forall_mem_cons]; exact ⟨rfl, rfl, rfl, by simp⟩
  inj := by simp [vaultLogLabels]
  own := by decide +kernel

theorem deposit_mem :
    (("BOING_LP_VAULT_V2_DEPOSIT" : Text), VaultKind.deposit) ∈ vaultLogLabels := by
  simp [vaultLogLabels]

theorem withdraw_mem :
    (("BOING_LP_VAULT_V2_WITHDRAW" : Text), VaultKind.withdraw) ∈ vaultLogLabels := by
  simp [vaultLogLabels]

theorem transfer_mem :
    (("BOING_LP_VAULT_V2_TRANSFER" : Text), VaultKind.transfer) ∈ vaultLogLabels := by
  simp [vaultLogLabels]

theorem addressed_iff {log : LogEntry} {dest : Text} :
    Addressed log dest ↔
      toLowerCase (strip0x ((log.topics.bind (·[1]?)).getD [])) = dest ∧ IsWord dest := by
  cases h : log.topics.bind (·[1]?) with
  | none =>
    refine iff_of_false (fun ⟨topic, ht, _⟩ => ?_) ?_
    · rw [h] at ht
      cases ht
    · rintro ⟨rfl, hw⟩
      exact hw.ne_nil rfl
  | some topic =>
    simp only [Addressed, h, Option.some.injEq, Option.getD_some, exists_eq_left']
    exact and_congr_left' eq_comm

def vaultEventOf (kind : Slot VaultKind) (a b c : ℕ) (dest : Text) : Option VaultEvent :=
  match kind with
  | .own .deposit => some (.deposit a b c)
  | .own .withdraw => some (.withdraw a b c)
  | .own .transfer => if IsWord dest then some (.transfer dest b) else none
  | .inherited => if IsWord dest then some (.inherited dest b) else none
  | .absent => none

theorem parseVaultLog_of_words {log : LogEntry} {kind : Slot VaultKind} {a b c : ℕ}
    (h : eventWords vaultLogLabels log = some (kind, a, b, c)) {dest : Text}
    (hdest : toLowerCase (strip0x ((log.topics.bind (·[1]?)).getD [])) = dest) :
    parseVaultLog log = vaultEventOf kind a b c dest := by
  rw [parseVaultLog, h, hdest]
  cases kind with
  | own k => cases k <;> rfl
  | _ => rfl

/-- The log is labelled with a key that every object has, carries three numbers and is
addressed to a word. -/
def InheritedVaultLabel (log : LogEntry) : Prop :=
  InheritedLabel log ∧ ∃ dest, Addressed log dest

theorem parseVaultLog_eq_some_iff {log : LogEntry} (hlog : ¬ InheritedVaultLabel log)
    {e : VaultEvent} : parseVaultLog log = some e ↔ IsVaultEvent log e := by
  have htable := labelTable_vaultLogLabels
  obtain ⟨dest, hdest⟩ :
    ∃ dest, toLowerCase (strip0x ((log.topics.bind (·[1]?)).getD [])) = dest := ⟨_, rfl⟩
  constructor
  · intro h
    cases hw : eventWords vaultLogLabels log with
    | none => rw [parseVaultLog, hw] at h; cases h
    | some words =>
      obtain ⟨kind, a, b, c⟩ := words
      rw [parseVaultLog_of_words hw hdest] at h
      cases kind with
      | absent => cases h
      | inherited =>
        rw [vaultEventOf] at h
        split_ifs at h with hword
        obtain ⟨⟨label, hmem, hlabel⟩, hcarries⟩ := htable.eventWords_inherited_iff.mp hw
        exact absurd ⟨⟨label, hmem, hlabel, a, b, c, hcarries⟩, dest,
          addressed_iff.mpr ⟨hdest, hword⟩⟩ hlog
      | own kind =>
        cases kind with
        | deposit =>
          obtain ⟨hlabel, hcarries⟩ := (htable.eventWords_own_iff deposit_mem).mp hw
          cases h
          exact .deposit hlabel hcarries
        | withdraw =>
          obtain ⟨hlabel, hcarries⟩ := (htable.eventWords_own_iff withdraw_mem).mp hw
          cases h
          exact .withdraw hlabel hcarries
        | transfer =>
          rw [vaultEventOf] at h
          split_ifs at h with hword
          obtain ⟨hlabel, hcarries⟩ := (htable.eventWords_own_iff transfer_mem).mp hw
          cases h
          exact .transfer hlabel hcarries (addressed_iff.mpr ⟨hdest, hword⟩)
  · intro h
    cases h with
    | deposit hlabel hcarries =>
      exact parseVaultLog_of_words
        ((htable.eventWords_own_iff deposit_mem).mpr ⟨hlabel, hcarries⟩) hdest
    | withdraw hlabel hcarries =>
      exact parseVaultLog_of_words
        ((htable.eventWords_own_iff withdraw_mem).mpr ⟨hlabel, hcarries⟩) hdest
    | transfer hlabel hcarries haddr =>
      obtain ⟨haddr, hword⟩ := addressed_iff.mp haddr
      rw [parseVaultLog_of_words
        ((htable.eventWords_own_iff transfer_mem).mpr ⟨hlabel, hcarries⟩) haddr]
      exact if_pos hword

theorem parseVaultLog_inherited {log : LogEntry} (hlog : InheritedVaultLabel log) :
    ∃ e, parseVaultLog log = some e ∧ ¬ e.IsDeclared := by
  obtain ⟨⟨label, hmem, hlabel, a, b, c, hcarries⟩, dest, haddr⟩ := hlog
  obtain ⟨hdest, hword⟩ := addressed_iff.mp haddr
  have hw :=
    labelTable_vaultLogLabels.eventWords_inherited_iff.mpr ⟨⟨label, hmem, hlabel⟩, hcarries⟩
  refine ⟨.inherited dest b, ?_, not_false⟩
  rw [parseVaultLog_of_words hw hdest]
  exact if_pos hword

theorem IsVaultEvent.isDeclared {log : LogEntry} {e : VaultEvent} (h : IsVaultEvent log e) :
    e.IsDeclared := by
  cases h <;> trivial

/-! ## Lists of logs -/

theorem parseAmmEvents_exact_iff (logs : Option (List LogEntry)) :
    (EventsOf IsAmmEvent (logs.getD []) (parseAmmEvents logs) ∧
      ∀ e ∈ parseAmmEvents logs, e.IsDeclared) ↔ ∀ log ∈ logs.getD [], ¬ InheritedLabel log :=
  eventsOf_declared_iff (fun _ hlog _ => parseAmmLog_eq_some_iff hlog)
    (fun _ _ h => h.isDeclared) fun _ hlog => parseAmmLog_inherited hlog

theorem parseVaultEvents_exact_iff (logs : Option (List LogEntry)) :
    (EventsOf IsVaultEvent (logs.getD []) (parseVaultEvents logs) ∧
      ∀ e ∈ parseVaultEvents logs, e.IsDeclared) ↔
        ∀ log ∈ logs.getD [], ¬ InheritedVaultLabel log :=
  eventsOf_declared_iff (fun _ hlog _ => parseVaultLog_eq_some_iff hlog)
    (fun _ _ h => h.isDeclared) fun _ hlog => parseVaultLog_inherited hlog

/-- **The events of a receipt are exactly those its logs spell**, with a declared kind, iff no
log is labelled with a key that every object has. -/
theorem parseEvents_exact_iff (logs : Option (List LogEntry)) :
    ((EventsOf IsAmmEvent (logs.getD []) (parseAmmEvents logs) ∧
        ∀ e ∈ parseAmmEvents logs, e.IsDeclared) ↔
      ∀ log ∈ logs.getD [], ¬ InheritedLabel log) ∧
    ((EventsOf IsVaultEvent (logs.getD []) (parseVaultEvents logs) ∧
        ∀ e ∈ parseVaultEvents logs, e.IsDeclared) ↔
      ∀ log ∈ logs.getD [], ¬ InheritedVaultLabel log) :=
  ⟨parseAmmEvents_exact_iff logs, parseVaultEvents_exact_iff logs⟩

/-- A log with the topic `constructor` and three numbers. -/
def constructorLog : LogEntry where
  topics := some [labelTopic "constructor"]
  data := some (wordOf 0 ++ wordOf 5 ++ wordOf 9)

theorem constructorLog_event :
    ¬ (EventsOf IsAmmEvent [constructorLog] (parseAmmEvents (some [constructorLog])) ∧
      ∀ e ∈ parseAmmEvents (some [constructorLog]), e.IsDeclared) := by
  intro h
  have hlabel : InheritedLabel constructorLog :=
    ⟨"constructor", by decide, ⟨_, rfl, by decide +kernel⟩, 0, 5, 9,
      ⟨by norm_num, by norm_num, by norm_num⟩, by decide +kernel⟩
  exact (parseAmmEvents_exact_iff (some [constructorLog])).mp h _ List.mem_cons_self hlabel

end BoingObserver.Contract
