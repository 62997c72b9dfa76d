import InterferenceObservatory.Verdict
import InterferenceObservatory.Operations
import Mathlib.Algebra.BigOperators.Group.List.Basic
import Mathlib.Algebra.Order.Field.Basic
import Mathlib.Tactic.Positivity

/-! Interference verdicts over exact numbers: an interference outcome is backed by a
stored current baseline and enough overlapping samples and is the threshold class of
the measured worsening, and a workload with one such baseline and enough samples gets
that class. -/

namespace Iobs
open DoubleOps

def higherIsWorse : List MetricKind :=
  [.latency, .deviceTime, .transferTime, .collectiveTime, .stallTime, .tailLatency]

def lowerIsWorse : List MetricKind := [.throughput, .completionRate, .memoryBandwidth]

def Worsens (kind : MetricKind) (base mean : ℚ) : Prop :=
  kind ∈ higherIsWorse ∧ base < mean ∨ kind ∈ lowerIsWorse ∧ mean < base

instance (kind : MetricKind) (base mean : ℚ) : Decidable (Worsens kind base mean) :=
  inferInstanceAs (Decidable (_ ∨ _))

def worsening (kind : MetricKind) (base mean : ℚ) : ℚ :=
  if 0 < base ∧ Worsens kind base mean then |mean - base| / base else 0

def ThresholdClass (policy : Policy ℚ) (w : ℚ) : Outcome → Prop
  | .noInterferenceDetected => w < policy.potentialThreshold
  | .potentialInterference => policy.potentialThreshold ≤ w ∧ w < policy.detectedThreshold
  | .interferenceDetected => policy.detectedThreshold ≤ w ∧ w < policy.severeThreshold
  | .severeInterference => policy.severeThreshold ≤ w
  | _ => False

theorem classifyOutcome_class (policy : Policy ℚ) (w : ℚ) :
    ThresholdClass policy w (classifyOutcome w policy) := by
  unfold classifyOutcome
  simp only [ltb_rat, decide_eq_true_eq]
  split_ifs with h₁ h₂ h₃
  · exact h₁
  · exact ⟨not_lt.mp h₁, h₂⟩
  · exact ⟨not_lt.mp h₂, h₃⟩
  · exact not_lt.mp h₃

theorem metricIsWorse_iff (kind : MetricKind) (r : ℚ) :
    metricIsWorse kind r = true ↔
      kind ∈ higherIsWorse ∧ 0 < r ∨ kind ∈ lowerIsWorse ∧ r < 0 := by
  cases kind <;> simp [metricIsWorse, higherIsWorse, lowerIsWorse]

theorem metricIsWorse_zero (kind : MetricKind) : metricIsWorse kind (0 : ℚ) = false := by
  rw [Bool.eq_false_iff, ne_eq, metricIsWorse_iff]
  rintro (⟨-, h⟩ | ⟨-, h⟩) <;> exact lt_irrefl _ h

theorem degradationMagnitude_relative (kind : MetricKind) (base mean : ℚ) :
    degradationMagnitude kind (if leb base 0.0 then (0.0 : ℚ) else (mean - base) / base) =
      worsening kind base mean := by
  simp only [leb_rat, lit_zero, decide_eq_true_eq, degradationMagnitude, fabs_rat, worsening]
  by_cases hb : base ≤ 0
  -- without a positive base the source reports no relative change at all
  · rw [if_pos hb, metricIsWorse_zero, if_neg (Bool.false_ne_true),
      if_neg fun h => absurd h.1 (not_lt.mpr hb)]
  · have hpos : 0 < base := not_le.mp hb
    have hup : 0 < (mean - base) / base ↔ base < mean := by
      rw [div_pos_iff_of_pos_right hpos, sub_pos]
    have hdown : (mean - base) / base < 0 ↔ mean < base := by
      rw [div_lt_iff₀ hpos, zero_mul, sub_neg]
    have habs : |(mean - base) / base| = |mean - base| / base := by
      rw [abs_div, abs_of_pos hpos]
    simp only [if_neg hb, metricIsWorse_iff, hup, hdown, habs, hpos, true_and, Worsens]

def sampleMean (affected : WorkloadId) (kind : MetricKind) (obs : List (Observation ℚ)) : ℚ :=
  ((samples affected kind obs).map (·.measurement.value)).sum / (samples affected kind obs).length

theorem length_samples_le {F : Type} [DoubleOps F] (affected : WorkloadId) (kind : MetricKind)
    (obs : List (Observation F)) : (samples affected kind obs).length ≤ obs.length :=
  List.length_filter_le ..

theorem aggregate_n_toNat {F : Type} [DoubleOps F] (affected : WorkloadId) (kind : MetricKind)
    (associated : WorkloadId) {obs : List (Observation F)} (h : obs.length < 2 ^ 64) :
    (aggregate affected kind associated obs).n.toNat = (samples affected kind obs).length := by
  have hle := length_samples_le affected kind obs
  rw [aggregate_n]
  exact UInt64.toNat_ofNat_of_lt' (Nat.lt_of_le_of_lt hle h)

theorem meanOf_aggregate (affected : WorkloadId) (kind : MetricKind) (associated : WorkloadId)
    {obs : List (Observation ℚ)} (h : obs.length < 2 ^ 64) :
    meanOf (aggregate affected kind associated obs).vals
      (aggregate affected kind associated obs).n = sampleMean affected kind obs := by
  unfold meanOf sampleMean
  rw [ofUInt64_rat, aggregate_n_toNat affected kind associated h, aggregate_vals, lit_zero,
    ← List.sum_eq_foldl]

theorem overlap_iff {F : Type} [DoubleOps F] (affected : WorkloadId) (kind : MetricKind)
    (associated : WorkloadId) (obs : List (Observation F)) :
    (aggregate affected kind associated obs).overlap = true ↔
      ∃ o ∈ samples affected kind obs, associated ∈ o.coRunPeers := by
  rw [aggregate_overlap]
  simp only [List.any_eq_true, beq_iff_eq]
  constructor
  · rintro ⟨o, ho, p, hp, rfl⟩
    exact ⟨o, ho, hp⟩
  · rintro ⟨o, ho, hp⟩
    exact ⟨o, ho, _, hp, rfl⟩

/-- `now - t` as the source computes it is the difference of the two times. -/
def NoOverflow (now t : Int64) : Prop :=
  -2 ^ 63 ≤ now.toInt - t.toInt ∧ now.toInt - t.toInt < 2 ^ 63

instance (now t : Int64) : Decidable (NoOverflow now t) := inferInstanceAs (Decidable (_ ∧ _))

theorem sub_le_iff_of_noOverflow {now t bound : Int64} (h : NoOverflow now t) :
    now - t ≤ bound ↔ now.toInt - t.toInt ≤ bound.toInt := by
  have hsub : (now - t).toInt = now.toInt - t.toInt := by
    rw [Int64.toInt_sub]
    exact Int.bmod_eq_of_le h.1 h.2
  rw [Int64.le_iff_toInt_le, hsub]

structure Backed (st : Impl ℚ) (affected associated : WorkloadDescriptor)
    (obs : List (Observation ℚ)) (policy : Policy ℚ) (b : Baseline ℚ) : Prop where
  policyValid : policy.isValid = true
  stored : st.baselines.find? b.id = some b
  workload : b.workloadId = affected.id
  device : b.deviceId = affected.deviceId
  usable : b.isUsable = true
  binding : b.bindingMatches affected.binding = true
  current : b.freshness = .current
  recent : ∃ o, obs.getLast? = some o ∧
    o.timestampMs.toInt - b.timestampMs.toInt ≤ policy.staleAfterMs.toInt
  enough : policy.minSamples.toNat ≤ (samples affected.id b.metricKind obs).length
  overlap : ∃ o ∈ samples affected.id b.metricKind obs, associated.id ∈ o.coRunPeers

structure Reports (affected : WorkloadDescriptor) (obs : List (Observation ℚ)) (policy : Policy ℚ)
    (b : Baseline ℚ) (r : PairwiseInterference ℚ) : Prop where
  baseline : r.baselineId = b.id
  count : r.sampleCount.toNat = (samples affected.id b.metricKind obs).length
  worst : r.degradation.worstRelative =
    worsening b.metricKind b.meanValue (sampleMean affected.id b.metricKind obs)
  outcome : ThresholdClass policy r.degradation.worstRelative r.outcome

variable {st : Impl ℚ} {affected associated : WorkloadDescriptor} {domain : InterferenceDomain}
  {obs : List (Observation ℚ)} {policy : Policy ℚ} {b : Baseline ℚ}

theorem Impl.Admitted.reports (h : st.Admitted affected associated obs policy b)
    (hlen : obs.length < 2 ^ 64)
    (hover : (aggregate affected.id b.metricKind associated.id obs).overlap = true) :
    Reports affected obs policy b (st.compare affected associated domain obs policy).1 := by
  obtain ⟨e, he⟩ := h.compare_fst domain
  rw [he]
  refine ⟨rfl, aggregate_n_toNat _ _ _ hlen, ?_, ?_⟩
  · rw [← meanOf_aggregate affected.id b.metricKind associated.id hlen]
    exact degradationMagnitude_relative ..
  · simp only [Impl.verdictOn, Impl.verdict, hover, if_true]
    exact classifyOutcome_class ..

theorem overlap_of_isInterference (st : Impl ℚ) (domain : InterferenceDomain)
    (h : (st.verdictOn affected associated domain obs policy b).outcome.isInterference = true) :
    (aggregate affected.id b.metricKind associated.id obs).overlap = true := by
  by_contra hn
  simp only [Impl.verdictOn, Impl.verdict, if_neg hn] at h
  cases h

theorem Impl.Admitted.backed (h : st.Admitted affected associated obs policy b)
    (hlen : obs.length < 2 ^ 64) (htime : NoOverflow (nowOf obs) b.timestampMs)
    (hover : (aggregate affected.id b.metricKind associated.id obs).overlap = true) :
    Backed st affected associated obs policy b := by
  have hc := h.candidate
  have hcount := aggregate_n_toNat affected.id b.metricKind associated.id hlen
  have hov := (overlap_iff ..).mp hover
  have hne : obs ≠ [] := by
    rintro rfl
    obtain ⟨o, ho, -⟩ := hov
    cases ho
  refine ⟨h.policyValid, KeyedMap.mem_values.mp h.mem, hc.workload, hc.device, hc.usable,
    hc.binding, h.current, ⟨obs.getLast hne, List.getLast?_eq_some_getLast hne, ?_⟩, ?_, hov⟩
  · have hw := (sub_le_iff_of_noOverflow htime).mp h.inWindow
    simpa only [nowOf, List.getLast?_eq_some_getLast hne, Option.map_some, Option.getD_some]
      using hw
  · rw [← hcount]
    exact UInt64.le_iff_toNat_le.mp h.enough

theorem Backed.admitted (h : Backed st affected associated obs policy b)
    (hlen : obs.length < 2 ^ 64) (htime : NoOverflow (nowOf obs) b.timestampMs)
    (huniq : ∀ b' ∈ st.baselines.values, b'.workloadId = affected.id →
      b'.deviceId = affected.deviceId → b' = b) :
    st.Admitted affected associated obs policy b := by
  have hcount := aggregate_n_toNat affected.id b.metricKind associated.id hlen
  have hmin : 1 ≤ policy.minSamples.toNat := by
    have hp := h.policyValid
    simp only [Policy.isValid, Bool.and_eq_true, decide_eq_true_eq, ge_iff_le] at hp
    exact UInt64.le_iff_toNat_le.mp hp.1.1.2
  obtain ⟨o, ho, hwin⟩ := h.recent
  refine ⟨h.policyValid, ?_, h.current, ?_, ?_, ?_⟩
  · exact selectBaseline_unique (KeyedMap.mem_values.mpr h.stored)
      ⟨h.workload, h.device, h.usable, h.binding⟩ huniq
  · rw [sub_le_iff_of_noOverflow htime]
    simpa only [nowOf, ho, Option.map_some, Option.getD_some] using hwin
  · intro hz
    have henough := h.enough
    rw [← hcount, hz] at henough
    exact absurd (hmin.trans henough) (by decide)
  · rw [UInt64.le_iff_toNat_le, hcount]
    exact h.enough

/-- Every interference verdict is backed by evidence it reports truly, and evidence on
the only baseline of a workload on its device gets the verdict of its worsening. The
bound on the observations is that of a `std::vector`. -/
theorem compare_sound_and_complete (st : Impl ℚ) (affected associated : WorkloadDescriptor)
    (domain : InterferenceDomain) (obs : List (Observation ℚ)) (policy : Policy ℚ)
    (hlen : obs.length < 2 ^ 64)
    (htime : ∀ b ∈ st.baselines.values, NoOverflow (nowOf obs) b.timestampMs) :
    ((st.compare affected associated domain obs policy).1.outcome.isInterference = true →
      ∃ b, Backed st affected associated obs policy b ∧
        Reports affected obs policy b (st.compare affected associated domain obs policy).1) ∧
    ∀ b, Backed st affected associated obs policy b →
      (∀ b' ∈ st.baselines.values, b'.workloadId = affected.id →
        b'.deviceId = affected.deviceId → b' = b) →
      Reports affected obs policy b (st.compare affected associated domain obs policy).1 := by
  constructor
  · intro hout
    rcases st.compare_cases affected associated domain obs policy with ⟨b, hadm, -⟩ | ⟨-, hno⟩
    · obtain ⟨e, he⟩ := hadm.compare_fst domain
      have hover : (aggregate affected.id b.metricKind associated.id obs).overlap = true := by
        rw [he] at hout
        exact overlap_of_isInterference st domain hout
      exact ⟨b, hadm.backed hlen (htime b hadm.mem) hover, hadm.reports hlen hover⟩
    · rw [Outcome.isVerdict, Bool.or_eq_false_iff] at hno
      rw [hno.2] at hout
      cases hout
  · intro b hb huniq
    have hadm := hb.admitted hlen (htime b (KeyedMap.mem_values.mpr hb.stored)) huniq
    exact hadm.reports hlen ((overlap_iff ..).mpr hb.overlap)

theorem compare_sound_and_complete_slowdown :
    ∃ b, Backed Demo.published Demo.victim Demo.neighbor Demo.slowdown .init b ∧
      Reports Demo.victim Demo.slowdown .init b
        (Demo.published.compare Demo.victim Demo.neighbor .cache Demo.slowdown .init).1 :=
  (compare_sound_and_complete Demo.published Demo.victim Demo.neighbor .cache Demo.slowdown .init
    (by decide) (by decide +kernel)).1 (by decide +kernel)

end Iobs
