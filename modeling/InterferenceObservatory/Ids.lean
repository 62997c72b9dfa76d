import InterferenceObservatory.Enums
import Std.Data.ExtTreeMap
import Std.Data.ExtTreeSet
import Mathlib.Data.Nat.Digits.Defs
import Mathlib.Data.List.Induction

/-! Strongly typed identities, the key of a directed matrix cell, and identities as decimal
text. -/

namespace Iobs
open Std

inductive IdTag where
  | coordinatorEpoch | observatoryId | observatoryGeneration | sourceId | sourceGeneration
  | workerId | workerBootId | deviceId | deviceGeneration | workloadId | workloadGeneration
  | experimentId | experimentGeneration | episodeId | episodeGeneration | baselineId
  | baselineGeneration | evidenceId | evidenceGeneration | observationId
  | observationGeneration | comparisonId | comparisonGeneration | topologyGeneration

structure Id (tag : IdTag) where
  value : UInt64
deriving DecidableEq

namespace Id

variable {tag : IdTag}

def isNil (i : Id tag) : Bool := i.value == 0

instance : Inhabited (Id tag) := ⟨⟨0⟩⟩

instance : Ord (Id tag) := ⟨compareOn value⟩

instance : TransOrd (Id tag) := inferInstanceAs (TransCmp (compareOn (@value tag)))

instance : LawfulEqOrd (Id tag) where
  eq_of_compare {a b} h := by
    cases a
    cases b
    exact congrArg mk (LawfulEqOrd.eq_of_compare h)

end Id

abbrev CoordinatorEpoch := Id .coordinatorEpoch
abbrev ObservatoryId := Id .observatoryId
abbrev ObservatoryGeneration := Id .observatoryGeneration
abbrev SourceId := Id .sourceId
abbrev SourceGeneration := Id .sourceGeneration
abbrev WorkerId := Id .workerId
abbrev WorkerBootId := Id .workerBootId
abbrev DeviceId := Id .deviceId
abbrev DeviceGeneration := Id .deviceGeneration
abbrev WorkloadId := Id .workloadId
abbrev WorkloadGeneration := Id .workloadGeneration
abbrev ExperimentId := Id .experimentId
abbrev ExperimentGeneration := Id .experimentGeneration
abbrev EpisodeId := Id .episodeId
abbrev EpisodeGeneration := Id .episodeGeneration
abbrev BaselineId := Id .baselineId
abbrev BaselineGeneration := Id .baselineGeneration
abbrev EvidenceId := Id .evidenceId
abbrev EvidenceGeneration := Id .evidenceGeneration
abbrev ObservationId := Id .observationId
abbrev ObservationGeneration := Id .observationGeneration
abbrev ComparisonId := Id .comparisonId
abbrev ComparisonGeneration := Id .comparisonGeneration
abbrev TopologyGeneration := Id .topologyGeneration

/-- A directed cell: `victim` degraded by `neighbor` in `domain`. The recorded
recoveries are tuples of the same components in the same order. -/
structure CellKey where
  victim : WorkloadId
  neighbor : WorkloadId
  domain : InterferenceDomain
deriving DecidableEq

namespace CellKey

instance : Ord CellKey := ⟨compareLex (compareOn victim)
  (compareLex (compareOn neighbor) (compareOn fun k => ByteEnum.toByte k.domain))⟩

instance : TransOrd CellKey := inferInstanceAs (TransCmp (compareLex (compareOn victim)
  (compareLex (compareOn neighbor) (compareOn fun k : CellKey => ByteEnum.toByte k.domain))))

instance : LawfulEqOrd CellKey where
  compare_self := ReflOrd.compare_self
  eq_of_compare {a b} h := by
    simp only [compare, compareLex_eq_eq, compareOn] at h
    obtain ⟨hv, hn, hd⟩ := h
    cases a
    cases b
    simp only [mk.injEq]
    exact ⟨LawfulEqOrd.eq_of_compare hv, LawfulEqOrd.eq_of_compare hn,
      ByteEnum.toByte_injective (LawfulEqOrd.eq_of_compare hd)⟩

end CellKey

def digitOf (c : UInt8) : UInt64 := (c - 0x30).toUInt64

def parseDigit (value : UInt64) (c : UInt8) : Option UInt64 :=
  if c < 0x30 ∨ c > 0x39 then none
  else if value > (0xFFFFFFFFFFFFFFFF - digitOf c) / 10 then none
  else some (value * 10 + digitOf c)

def parseIdValue (s : List UInt8) : Option UInt64 :=
  if s.isEmpty then none else s.foldlM parseDigit 0

def IsDigit (c : UInt8) : Prop := 48 ≤ c.toNat ∧ c.toNat ≤ 57

theorem outside_iff (c : UInt8) : c < 0x30 ∨ c > 0x39 ↔ ¬ IsDigit c := by
  rw [gt_iff_lt, UInt8.lt_iff_toNat_lt, UInt8.lt_iff_toNat_lt, IsDigit, not_and_or, Nat.not_le,
    Nat.not_le]
  rfl

def numeral (s : List UInt8) : ℕ := Nat.ofDigits 10 (s.map fun c => c.toNat - 48).reverse

theorem numeral_concat (s : List UInt8) (c : UInt8) :
    numeral (s ++ [c]) = numeral s * 10 + (c.toNat - 48) := by
  unfold numeral
  rw [List.map_append, List.reverse_append, List.map_singleton, List.reverse_singleton,
    List.singleton_append, Nat.ofDigits_cons, Nat.add_comm, Nat.mul_comm]

structure ExactRound (value : UInt64) (c : UInt8) : Prop where
  digit : (digitOf c).toNat + 48 = c.toNat
  headroom : (0xFFFFFFFFFFFFFFFF - digitOf c : UInt64).toNat + (digitOf c).toNat = 2 ^ 64 - 1
  product : (parseDigit value c).isSome → (value * 10).toNat = value.toNat * 10
  sum : (parseDigit value c).isSome →
    (value * 10 + digitOf c).toNat = (value * 10).toNat + (digitOf c).toNat

section Digit

variable {c : UInt8} (h : IsDigit c)
include h

theorem toNat_digitOf : (digitOf c).toNat = c.toNat - 48 := by
  have hle : (0x30 : UInt8) ≤ c := UInt8.le_iff_toNat_le.mpr h.1
  rw [digitOf, UInt8.toNat_toUInt64, UInt8.toNat_sub_of_le c _ hle]
  rfl

theorem toNat_headroom :
    (0xFFFFFFFFFFFFFFFF - digitOf c : UInt64).toNat = 2 ^ 64 - 1 - (digitOf c).toNat := by
  have hd := toNat_digitOf h
  have hc := c.toNat_lt
  have hle : digitOf c ≤ 0xFFFFFFFFFFFFFFFF := by
    rw [UInt64.le_iff_toNat_le, hd]
    change c.toNat - 48 ≤ 2 ^ 64 - 1
    omega
  rw [UInt64.toNat_sub_of_le _ _ hle]
  rfl

theorem headroom_iff (value : UInt64) :
    value > (0xFFFFFFFFFFFFFFFF - digitOf c) / 10 ↔
      2 ^ 64 ≤ value.toNat * 10 + (c.toNat - 48) := by
  have hd := toNat_digitOf h
  have hc := c.toNat_lt
  rw [gt_iff_lt, UInt64.lt_iff_toNat_lt, UInt64.toNat_div, toNat_headroom h, hd]
  change (2 ^ 64 - 1 - (c.toNat - 48)) / 10 < value.toNat ↔ _
  omega

theorem parseDigit_digit (value : UInt64) : parseDigit value c =
    if 2 ^ 64 ≤ value.toNat * 10 + (c.toNat - 48) then none else some (value * 10 + digitOf c) := by
  have hin : ¬ (c < 0x30 ∨ c > 0x39) := by
    rw [outside_iff, not_not]
    exact h
  rw [parseDigit, if_neg hin]
  simp only [headroom_iff h]

theorem exactRound (value : UInt64) : ExactRound value c := by
  have hd := toNat_digitOf h
  have h48 := h.1
  have hc := c.toNat_lt
  have hfit : (parseDigit value c).isSome → value.toNat * 10 + (c.toNat - 48) < 2 ^ 64 := by
    intro hsome
    rw [parseDigit_digit h] at hsome
    split_ifs at hsome with hlarge
    · cases hsome
    · exact Nat.not_le.mp hlarge
  have hproduct : (parseDigit value c).isSome → (value * 10).toNat = value.toNat * 10 := by
    intro hsome
    have hlt := hfit hsome
    have hten : value.toNat * 10 < 2 ^ 64 := by omega
    rw [UInt64.toNat_mul]
    exact Nat.mod_eq_of_lt hten
  refine ⟨?_, ?_, hproduct, ?_⟩
  · rw [hd]
    omega
  · rw [toNat_headroom h, hd]
    omega
  · intro hsome
    have hlt := hfit hsome
    rw [UInt64.toNat_add, hproduct hsome, hd, Nat.mod_eq_of_lt hlt]

end Digit

theorem parseDigit_iff (value : UInt64) (c : UInt8) (v : UInt64) :
    parseDigit value c = some v ↔ IsDigit c ∧ v.toNat = value.toNat * 10 + (c.toNat - 48) := by
  by_cases hc : IsDigit c
  · have hround := exactRound hc value
    have hd := toNat_digitOf hc
    constructor
    · intro h
      have hsome : (parseDigit value c).isSome := by rw [h]; rfl
      rw [parseDigit_digit hc] at h
      split_ifs at h
      obtain rfl := Option.some.inj h
      exact ⟨hc, by rw [hround.sum hsome, hround.product hsome, hd]⟩
    · rintro ⟨-, hv⟩
      have hlt := v.toNat_lt
      have hfit : ¬ 2 ^ 64 ≤ value.toNat * 10 + (c.toNat - 48) := by omega
      have heq : parseDigit value c = some (value * 10 + digitOf c) := by
        rw [parseDigit_digit hc, if_neg hfit]
      have hsome : (parseDigit value c).isSome := by rw [heq]; rfl
      rw [heq, Option.some.injEq, ← UInt64.toNat_inj, hround.sum hsome, hround.product hsome,
        hd, hv]
  · rw [parseDigit, if_pos ((outside_iff c).mpr hc)]
    constructor
    · intro h
      cases h
    · intro h
      exact absurd h.1 hc

theorem foldlM_parseDigit_iff (s : List UInt8) (v : UInt64) :
    s.foldlM parseDigit 0 = some v ↔ (∀ c ∈ s, IsDigit c) ∧ v.toNat = numeral s := by
  induction s using List.reverseRecOn generalizing v with
  | nil =>
    rw [List.foldlM_nil]
    constructor
    · intro h
      obtain rfl := Option.some.inj h
      exact ⟨by simp, rfl⟩
    · rintro ⟨-, hv⟩
      exact congrArg some (UInt64.toNat_inj.mp hv.symm)
  | append_singleton s c ih =>
    have hmem : (∀ d ∈ s ++ [c], IsDigit d) ↔ (∀ d ∈ s, IsDigit d) ∧ IsDigit c := by
      simp [or_imp, forall_and]
    rw [List.foldlM_append, hmem, numeral_concat]
    change (s.foldlM parseDigit 0).bind (fun value => [c].foldlM parseDigit value) = _ ↔ _
    simp only [List.foldlM_cons, List.foldlM_nil, Option.bind_eq_some_iff]
    constructor
    · rintro ⟨value, hvalue, hv⟩
      obtain ⟨hs, hnum⟩ := (ih value).mp hvalue
      have hstep : parseDigit value c = some v := by simpa using hv
      obtain ⟨hc, hv⟩ := (parseDigit_iff value c v).mp hstep
      exact ⟨⟨hs, hc⟩, by rw [hv, hnum]⟩
    · rintro ⟨⟨hs, hc⟩, hv⟩
      have hlt : numeral s < 2 ^ 64 := by
        have := v.toNat_lt
        omega
      have hnum : (UInt64.ofNat (numeral s)).toNat = numeral s := UInt64.toNat_ofNat_of_lt' hlt
      have hstep := (parseDigit_iff (UInt64.ofNat (numeral s)) c v).mpr ⟨hc, by rw [hv, hnum]⟩
      exact ⟨UInt64.ofNat (numeral s), (ih _).mpr ⟨hs, hnum⟩, by simpa using hstep⟩

/-- `parse_id_value` accepts the non-empty strings of digits that denote a 64-bit number and
returns that number; up to the round in which it returns, its value is the numeral of the
digits read so far and nothing wraps around. -/
theorem parseIdValue_iff (s : List UInt8) :
    ((parseIdValue s).isSome ↔ s ≠ [] ∧ (∀ c ∈ s, IsDigit c) ∧ numeral s < 2 ^ 64) ∧
    (∀ v, parseIdValue s = some v → v.toNat = numeral s) ∧
    ∀ pre c post value, s = pre ++ c :: post → pre.foldlM parseDigit 0 = some value →
      value.toNat = numeral pre ∧ (IsDigit c → ExactRound value c) := by
  refine ⟨?_, ?_, ?_⟩
  · rcases s with _ | ⟨c, s⟩
    · simp [parseIdValue]
    · rw [parseIdValue, List.isEmpty_cons, if_neg Bool.false_ne_true, Option.isSome_iff_exists]
      simp only [foldlM_parseDigit_iff]
      constructor
      · rintro ⟨v, hdigits, hv⟩
        exact ⟨List.cons_ne_nil c s, hdigits, by rw [← hv]; exact v.toNat_lt⟩
      · rintro ⟨-, hdigits, hlt⟩
        exact ⟨UInt64.ofNat (numeral (c :: s)), hdigits, UInt64.toNat_ofNat_of_lt' hlt⟩
  · intro v hv
    unfold parseIdValue at hv
    split_ifs at hv
    exact ((foldlM_parseDigit_iff s v).mp hv).2
  · intro pre c post value _ hvalue
    exact ⟨((foldlM_parseDigit_iff pre value).mp hvalue).2, fun hc => exactRound hc value⟩

end Iobs
