import InterferenceObservatory.Soundness
import InterferenceObservatory.Episodes
import Mathlib.Tactic.Linarith

/-! What a verdict rests on. `compare` reports no interference also where nothing was
measured beside the neighbor or where the baseline is zero, takes the age of a baseline from
the last entry of the list alone, and counts samples taken without the neighbor towards an
interference; each result says exactly when it does not. -/

namespace Iobs
open DoubleOps

section Admitted

variable {F : Type} [DoubleOps F] {st : Impl F} {affected associated : WorkloadDescriptor}
  {obs : List (Observation F)} {policy : Policy F} {b : Baseline F}

theorem compare_baselineId (hadm : st.Admitted affected associated obs policy b)
    (domain : InterferenceDomain) :
    st.baselines.find? (st.compare affected associated domain obs policy).1.baselineId =
      some b := by
  obtain ⟨e, he⟩ := hadm.compare_fst domain
  rw [he]
  exact KeyedMap.mem_values.mp hadm.mem

theorem compare_isVerdict (hadm : st.Admitted affected associated obs policy b)
    (domain : InterferenceDomain) :
    (st.compare affected associated domain obs policy).1.outcome.isVerdict = true := by
  obtain ⟨e, he⟩ := hadm.compare_fst domain
  rw [he]
  exact st.verdictOn_isVerdict affected associated domain obs policy b

end Admitted

structure NotWorse (kind : MetricKind) (base t mean : ℚ) : Prop where
  higher : kind ∈ higherIsWorse → mean < base + t * base ∨ mean ≤ base
  lower : kind ∈ lowerIsWorse → base - t * base < mean ∨ base ≤ mean

def Impl.NegativeMeasured (st : Impl ℚ) (affected associated : WorkloadDescriptor)
    (domain : InterferenceDomain) (obs : List (Observation ℚ)) (policy : Policy ℚ) : Prop :=
  (st.compare affected associated domain obs policy).1.outcome = .noInterferenceDetected →
    ∃ b, st.baselines.find? (st.compare affected associated domain obs policy).1.baselineId =
        some b ∧
      (∃ o ∈ samples affected.id b.metricKind obs, associated.id ∈ o.coRunPeers) ∧
      NotWorse b.metricKind b.meanValue policy.potentialThreshold
        (sampleMean affected.id b.metricKind obs)

theorem worsening_nonneg (kind : MetricKind) (base mean : ℚ) : 0 ≤ worsening kind base mean := by
  unfold worsening
  split_ifs with h
  · exact div_nonneg (abs_nonneg _) h.1.le
  · exact le_rfl

theorem classifyOutcome_negative_iff (policy : Policy ℚ) (w : ℚ) :
    classifyOutcome w policy = .noInterferenceDetected ↔ w < policy.potentialThreshold := by
  unfold classifyOutcome
  simp only [ltb_rat, decide_eq_true_eq]
  split_ifs with h₁ h₂ h₃
  · exact ⟨fun _ => h₁, fun _ => rfl⟩
  all_goals
    constructor
    · intro h
      cases h
    · intro h
      exact absurd h h₁

theorem notWorse_of_worsening_lt {kind : MetricKind} {base t mean : ℚ}
    (hw : worsening kind base mean < t)
    (h : 0 < base ∨ ¬ Worsens kind base mean ∨ t = 0) : NotWorse kind base t mean := by
  by_cases hworse : Worsens kind base mean
  · have hpos : 0 < base := by
      rcases h with hpos | hnot | ht
      · exact hpos
      · exact absurd hworse hnot
      · rw [ht] at hw
        exact absurd hw (not_lt.mpr (worsening_nonneg kind base mean))
    have hlt : |mean - base| < t * base := by
      rw [worsening, if_pos ⟨hpos, hworse⟩, div_lt_iff₀ hpos] at hw
      exact hw
    obtain ⟨hlow, hhigh⟩ := abs_lt.mp hlt
    refine ⟨fun _ => .inl ?_, fun _ => .inl ?_⟩
    · linarith
    · linarith
  · refine ⟨fun hk => .inr ?_, fun hk => .inr ?_⟩
    · by_contra hlt
      exact hworse (.inl ⟨hk, not_le.mp hlt⟩)
    · by_contra hlt
      exact hworse (.inr ⟨hk, not_le.mp hlt⟩)

theorem not_notWorse_zero {kind : MetricKind} {t mean : ℚ} (hw : Worsens kind 0 mean) :
    ¬ NotWorse kind 0 t mean := by
  intro h
  rcases hw with ⟨hk, hlt⟩ | ⟨hk, hlt⟩
  · rcases h.higher hk with hm | hm
    · linarith
    · linarith
  · rcases h.lower hk with hm | hm
    · linarith
    · linarith

section Negative

variable {st : Impl ℚ} {affected associated : WorkloadDescriptor} {obs : List (Observation ℚ)}
  {policy : Policy ℚ} {b : Baseline ℚ}

theorem Impl.Admitted.base_nonneg (h : st.Admitted affected associated obs policy b) :
    0 ≤ b.meanValue := by
  have hu := h.candidate.usable
  simp only [Baseline.isUsable, isFiniteNonneg, leb_rat, lit_zero, Bool.and_eq_true,
    decide_eq_true_eq] at hu
  exact hu.2.2

theorem Impl.Admitted.threshold_nonneg (h : st.Admitted affected associated obs policy b) :
    0 ≤ policy.potentialThreshold := by
  have hp := h.policyValid
  simp only [Policy.isValid, leb_rat, lit_zero, Bool.and_eq_true, decide_eq_true_eq] at hp
  exact hp.1.1.1.1.1

theorem compare_negative_iff (hadm : st.Admitted affected associated obs policy b)
    (hlen : obs.length < 2 ^ 64) (domain : InterferenceDomain) :
    (st.compare affected associated domain obs policy).1.outcome = .noInterferenceDetected ↔
      ((∃ o ∈ samples affected.id b.metricKind obs, associated.id ∈ o.coRunPeers) →
        worsening b.metricKind b.meanValue (sampleMean affected.id b.metricKind obs) <
          policy.potentialThreshold) := by
  have hout : (st.compare affected associated domain obs policy).1.outcome =
      if (aggregate affected.id b.metricKind associated.id obs).overlap then
        classifyOutcome (Impl.degradationOf b
          (aggregate affected.id b.metricKind associated.id obs)).worstRelative policy
      else .noInterferenceDetected := by
    obtain ⟨e, he⟩ := hadm.compare_fst domain
    rw [he]
    rfl
  have hworst : (Impl.degradationOf b
      (aggregate affected.id b.metricKind associated.id obs)).worstRelative =
        worsening b.metricKind b.meanValue (sampleMean affected.id b.metricKind obs) := by
    rw [← meanOf_aggregate affected.id b.metricKind associated.id hlen]
    exact degradationMagnitude_relative ..
  rw [hout, hworst, ← overlap_iff]
  split_ifs with hov
  · rw [classifyOutcome_negative_iff]
    exact ⟨fun h _ => h, fun h => h hov⟩
  · exact ⟨fun _ h => absurd h hov, fun _ => rfl⟩

end Negative

/-- A verdict of no interference is a measured negative exactly if, whenever a baseline is
admitted, some sample was taken beside the neighbor and the baseline is positive or the
samples are no worse or any worsening at all counts as interference. -/
theorem negative_measured_iff (st : Impl ℚ) (affected associated : WorkloadDescriptor)
    (domain : InterferenceDomain) (obs : List (Observation ℚ)) (policy : Policy ℚ)
    (hlen : obs.length < 2 ^ 64) :
    st.NegativeMeasured affected associated domain obs policy ↔
      ∀ b, st.Admitted affected associated obs policy b →
        (∃ o ∈ samples affected.id b.metricKind obs, associated.id ∈ o.coRunPeers) ∧
        (0 < b.meanValue ∨
          ¬ Worsens b.metricKind b.meanValue (sampleMean affected.id b.metricKind obs) ∨
          policy.potentialThreshold = 0) := by
  constructor
  · intro h b hadm
    have hfind := compare_baselineId hadm domain
    have hiff := compare_negative_iff hadm hlen domain
    have hover : ∃ o ∈ samples affected.id b.metricKind obs, associated.id ∈ o.coRunPeers := by
      by_contra hno
      obtain ⟨b', hb', hov, -⟩ := h (hiff.mpr fun hov => absurd hov hno)
      rw [hfind, Option.some.injEq] at hb'
      rw [← hb'] at hov
      exact hno hov
    refine ⟨hover, ?_⟩
    by_contra hnot
    simp only [not_or, not_not] at hnot
    obtain ⟨hbase, hworse, ht⟩ := hnot
    have hzero : b.meanValue = 0 := le_antisymm (not_lt.mp hbase) hadm.base_nonneg
    have hpos : 0 < policy.potentialThreshold := lt_of_le_of_ne hadm.threshold_nonneg (Ne.symm ht)
    -- the guard against a division by zero reports no degradation at all
    have hnone : worsening b.metricKind b.meanValue (sampleMean affected.id b.metricKind obs) <
        policy.potentialThreshold := by
      rw [worsening, if_neg fun hand => hbase hand.1]
      exact hpos
    obtain ⟨b', hb', -, hnw⟩ := h (hiff.mpr fun _ => hnone)
    rw [hfind, Option.some.injEq] at hb'
    rw [← hb', hzero] at hnw
    rw [hzero] at hworse
    exact not_notWorse_zero hworse hnw
  · intro h hout
    rcases st.compare_cases affected associated domain obs policy with ⟨b, hadm, -⟩ | ⟨-, hno⟩
    · obtain ⟨hover, hbase⟩ := h b hadm
      have hlt := (compare_negative_iff hadm hlen domain).mp hout hover
      exact ⟨b, compare_baselineId hadm domain, hover, notWorse_of_worsening_lt hlt hbase⟩
    · rw [hout] at hno
      cases hno

theorem negative_measured_iff_unchanged :
    (Demo.published : Impl ℚ).NegativeMeasured Demo.victim Demo.neighbor .cache
      (List.replicate 3 (Demo.observation 100.0)) .init := by
  refine (negative_measured_iff _ _ _ _ _ _ (by decide)).mpr ?_
  intro b hadm
  have hb : (selectBaseline (Demo.published : Impl ℚ).baselines.values Demo.victim).usable =
      some Demo.baseline := by decide +kernel
  rw [hadm.selected, Option.some.injEq] at hb
  rw [hb]
  exact ⟨by decide +kernel, .inl (by decide +kernel)⟩

theorem negative_not_measured :
    ¬ (Demo.published : Impl ℚ).NegativeMeasured Demo.victim (Demo.workload ⟨3⟩) .cache
        Demo.slowdown .init ∧
    ¬ ((Impl.fresh ⟨1⟩ ⟨1⟩ : Impl ℚ).publishBaseline
        { Demo.baseline with meanValue := 0.0 }).2.NegativeMeasured Demo.victim Demo.neighbor
        .cache Demo.slowdown .init := by
  constructor
  · intro h
    obtain ⟨b, hb, hov, -⟩ := h (by decide +kernel)
    have hfind : (Demo.published : Impl ℚ).baselines.find? ((Demo.published : Impl ℚ).compare
        Demo.victim (Demo.workload ⟨3⟩) .cache Demo.slowdown .init).1.baselineId =
          some Demo.baseline := by decide +kernel
    rw [hfind, Option.some.injEq] at hb
    rw [← hb] at hov
    exact absurd hov (by decide +kernel)
  · intro h
    obtain ⟨b, hb, -, hnw⟩ := h (by decide +kernel)
    have hfind : ((Impl.fresh ⟨1⟩ ⟨1⟩ : Impl ℚ).publishBaseline
        { Demo.baseline with meanValue := 0.0 }).2.baselines.find? (((Impl.fresh ⟨1⟩ ⟨1⟩ :
          Impl ℚ).publishBaseline { Demo.baseline with meanValue := 0.0 }).2.compare Demo.victim
            Demo.neighbor .cache Demo.slowdown .init).1.baselineId =
          some { Demo.baseline with meanValue := 0.0 } := by decide +kernel
    rw [hfind, Option.some.injEq] at hb
    rw [← hb] at hnw
    have hmean := hnw.higher (by decide +kernel)
    exact absurd hmean (by decide +kernel)

section Window

variable {F : Type} [DoubleOps F] (st : Impl F) (affected associated : WorkloadDescriptor)
  (domain : InterferenceDomain) (obs : List (Observation F)) (policy : Policy F)

/-- Every sample of a verdict was taken before the baseline it names was too old, and the age
was computed without overflow. -/
def Impl.VerdictTimely : Prop :=
  (st.compare affected associated domain obs policy).1.outcome.isVerdict = true →
    ∃ b, st.baselines.find? (st.compare affected associated domain obs policy).1.baselineId =
        some b ∧
      NoOverflow (nowOf obs) b.timestampMs ∧
      ∀ o ∈ samples affected.id b.metricKind obs,
        o.timestampMs.toInt - b.timestampMs.toInt ≤ policy.staleAfterMs.toInt ∧
        o.timestampMs.toInt - b.timestampMs.toInt ≤ policy.maxAgeMs.toInt

theorem verdictTimely_faults (st : Impl F) (affected associated : WorkloadDescriptor)
    (domain : InterferenceDomain) (obs : List (Observation F)) (policy : Policy F) :
    st.VerdictTimely affected associated domain obs policy ↔
      ∀ b, st.Admitted affected associated obs policy b →
        NoOverflow (nowOf obs) b.timestampMs ∧
        ∀ o ∈ samples affected.id b.metricKind obs,
          ((nowOf obs).toInt < o.timestampMs.toInt →
            o.timestampMs.toInt - b.timestampMs.toInt ≤ policy.staleAfterMs.toInt) ∧
          (policy.maxAgeMs.toInt < policy.staleAfterMs.toInt →
            o.timestampMs.toInt - b.timestampMs.toInt ≤ policy.maxAgeMs.toInt) := by
  constructor
  · intro h b hadm
    obtain ⟨b', hb', htime, hage⟩ := h (compare_isVerdict hadm domain)
    rw [compare_baselineId hadm, Option.some.injEq] at hb'
    rw [hb']
    exact ⟨htime, fun o ho => ⟨fun _ => (hage o ho).1, fun _ => (hage o ho).2⟩⟩
  · intro h hv
    rcases st.compare_cases affected associated domain obs policy with ⟨b, hadm, -⟩ | ⟨-, hno⟩
    · obtain ⟨htime, hfaults⟩ := h b hadm
      have hgate := (sub_le_iff_of_noOverflow htime).mp hadm.inWindow
      refine ⟨b, compare_baselineId hadm domain, htime, ?_⟩
      intro o ho
      obtain ⟨hlate, haged⟩ := hfaults o ho
      have hstale : o.timestampMs.toInt - b.timestampMs.toInt ≤ policy.staleAfterMs.toInt := by
        by_cases hafter : (nowOf obs).toInt < o.timestampMs.toInt
        · exact hlate hafter
        · linarith
      refine ⟨hstale, ?_⟩
      by_cases hmax : policy.maxAgeMs.toInt < policy.staleAfterMs.toInt
      · exact haged hmax
      · linarith
    · rw [hv] at hno
      cases hno

end Window

def baselineKinds : List MetricKind :=
  [.latency, .throughput, .deviceTime, .transferTime, .collectiveTime, .stallTime, .tailLatency,
    .completionRate, .memoryBandwidth]

def usableBaseline (affected : WorkloadDescriptor) (kind : MetricKind) (t : Int64) :
    Baseline Double :=
  { Demo.baseline with
    workloadId := affected.id
    workloadGeneration := affected.generation
    deviceId := affected.deviceId
    deviceGeneration := affected.deviceGeneration
    workerBoot := affected.workerBoot
    configFingerprint := affected.configFingerprint
    problemSizeFingerprint := affected.problemSizeFingerprint
    runtimeGeneration := affected.runtimeGeneration
    kernelGeneration := affected.kernelGeneration
    policyGeneration := affected.policyGeneration
    topologyGeneration := affected.topologyGeneration
    timestampMs := t
    metricKind := kind }

theorem checkBaseline_ok_kind {b : Baseline Double} (h : Impl.checkBaseline b = .ok) :
    b.metricKind ∈ baselineKinds := by
  unfold Impl.checkBaseline at h
  split_ifs at h with h₁ h₂ h₃ h₄ h₅ h₆
  exact h₆

theorem checkBaseline_usableBaseline (affected : WorkloadDescriptor) {kind : MetricKind}
    (hkind : kind ∈ baselineKinds) (t : Int64) :
    Impl.checkBaseline (usableBaseline affected kind t) = .ok := by
  have hids : ¬ ((Demo.baseline : Baseline Double).id.isNil ||
      (Demo.baseline : Baseline Double).generation.isNil) = true := by decide
  have husable : ¬ (!(Demo.baseline : Baseline Double).isUsable) = true := by decide +kernel
  have hconfidence : ¬ (!isFinite (1.0 : Double) || ltb (1.0 : Double) 0.0 ||
      ltb 1.0 (1.0 : Double)) = true := by decide +kernel
  have hvariance : ¬ (!isFinite (0.0 : Double) || ltb (0.0 : Double) 0.0) = true := by
    decide +kernel
  have hcount : ¬ (5 : UInt64) = 0 := by decide
  have hknown : ¬ kind ∉ baselineKinds := not_not.mpr hkind
  exact (if_neg hids).trans ((if_neg husable).trans ((if_neg hconfidence).trans
    ((if_neg hvariance).trans ((if_neg hcount).trans (if_neg hknown)))))

section Publication

variable {affected associated : WorkloadDescriptor} {obs : List (Observation Double)}
  {policy : Policy Double} {kind : MetricKind} {t : Int64}

theorem mem_published (affected : WorkloadDescriptor) (hkind : kind ∈ baselineKinds) (t : Int64)
    (b : Baseline Double) :
    b ∈ ((Impl.fresh ⟨1⟩ ⟨1⟩ : Impl Double).publishBaseline
      (usableBaseline affected kind t)).2.baselines.values ↔
        b = usableBaseline affected kind t := by
  have hok := checkBaseline_usableBaseline affected hkind t
  have hstored : ((Impl.fresh ⟨1⟩ ⟨1⟩ : Impl Double).publishBaseline
      (usableBaseline affected kind t)).2.baselines =
        (∅ : KeyedMap BaselineId (Baseline Double) Baseline.id).emplace
          (usableBaseline affected kind t) := by
    rw [Impl.publishBaseline, if_neg (not_not.mpr hok)]
    rfl
  rw [hstored, KeyedMap.mem_values_emplace rfl]
  constructor
  · rintro (h | h)
    · exact h
    · cases KeyedMap.mem_values.mp h
  · exact .inl

theorem admitted_usableBaseline (associated : WorkloadDescriptor) (hvalid : policy.isValid = true)
    (hkind : kind ∈ baselineKinds)
    (hwin : nowOf obs - t ≤ policy.staleAfterMs)
    (henough : policy.minSamples ≤ UInt64.ofNat (samples affected.id kind obs).length) :
    ((Impl.fresh ⟨1⟩ ⟨1⟩ : Impl Double).publishBaseline (usableBaseline affected kind t)).2.Admitted
      affected associated obs policy (usableBaseline affected kind t) := by
  have hmem := mem_published affected hkind t
  have hcand : Candidate affected (usableBaseline affected kind t) := by
    refine ⟨rfl, rfl, ?_, ?_⟩
    · change (Demo.baseline : Baseline Double).isUsable = true
      decide +kernel
    · simp [Baseline.bindingMatches, usableBaseline, WorkloadDescriptor.binding]
  obtain ⟨u, hu⟩ := Option.isSome_iff_exists.mp (foldl_selectStep_usable_isSome (s := ⟨none, none⟩)
    (.inr ⟨_, (hmem _).mpr rfl, hcand⟩))
  obtain rfl := (hmem u).mp (selectBaseline_usable hu).1
  have hone : 1 ≤ policy.minSamples := by
    simp only [Policy.isValid, Bool.and_eq_true, decide_eq_true_eq] at hvalid
    exact hvalid.1.1.2
  rw [← aggregate_n affected.id kind associated.id] at henough
  refine ⟨hvalid, hu, rfl, hwin, ?_, henough⟩
  intro hzero
  have hle := UInt64.le_trans hone henough
  change (aggregate affected.id kind associated.id obs).n = 0 at hzero
  rw [hzero] at hle
  exact absurd hle (by decide)

end Publication

/-- How much of the window lies before the first timestamp there is. -/
def unreached (now stale : Int64) : Int := max 0 (-2 ^ 63 - (now.toInt - stale.toInt))

theorem exists_oldest {now stale : Int64} (h : now.toInt - stale.toInt < 2 ^ 63) :
    ∃ t : Int64, NoOverflow now t ∧ now - t ≤ stale ∧
      t.toInt = now.toInt - stale.toInt + unreached now stale := by
  have hfirst := Int64.le_toInt now
  have hlow := Int64.le_toInt stale
  have hhigh := Int64.toInt_lt stale
  by_cases hreach : -2 ^ 63 ≤ now.toInt - stale.toInt
  · have htime : (now - stale).toInt = now.toInt - stale.toInt := by
      rw [Int64.toInt_sub]
      exact Int.bmod_eq_of_le hreach h
    have hage : NoOverflow now (now - stale) := by
      rw [NoOverflow, htime]
      omega
    refine ⟨now - stale, hage, ?_, ?_⟩
    · rw [sub_le_iff_of_noOverflow hage, htime]
      omega
    · rw [htime, unreached]
      omega
  · have htime : Int64.minValue.toInt = -2 ^ 63 := by decide
    have hage : NoOverflow now Int64.minValue := by
      rw [NoOverflow, htime]
      omega
    refine ⟨Int64.minValue, hage, ?_, ?_⟩
    · rw [sub_le_iff_of_noOverflow hage, htime]
      omega
    · rw [htime, unreached]
      omega

/-- For a given state the samples of every verdict are timely exactly if none of three faults
shows: an overflow of the age, a sample after the last entry of the list that is out of the
window, or a bound of the age below the window that the code does not consult. On all states
together whose baselines were accepted and are not so old that the age overflows, they are
timely exactly if no sample is after the last entry of the list, nor closer to it than the
bound of the age falls short of the window; where the window begins before the first timestamp
there is, by so much less. -/
theorem verdict_timely_iff (affected associated : WorkloadDescriptor)
    (domain : InterferenceDomain) (obs : List (Observation Double)) (policy : Policy Double) :
    (∀ st : Impl Double, st.VerdictTimely affected associated domain obs policy ↔
      ∀ b, st.Admitted affected associated obs policy b →
        NoOverflow (nowOf obs) b.timestampMs ∧
        ∀ o ∈ samples affected.id b.metricKind obs,
          ((nowOf obs).toInt < o.timestampMs.toInt →
            o.timestampMs.toInt - b.timestampMs.toInt ≤ policy.staleAfterMs.toInt) ∧
          (policy.maxAgeMs.toInt < policy.staleAfterMs.toInt →
            o.timestampMs.toInt - b.timestampMs.toInt ≤ policy.maxAgeMs.toInt)) ∧
    ((∀ st : Impl Double, (∀ b ∈ st.baselines.values,
        Impl.checkBaseline b = .ok ∧ NoOverflow (nowOf obs) b.timestampMs) →
      st.VerdictTimely affected associated domain obs policy) ↔
    (policy.isValid = true → (nowOf obs).toInt - policy.staleAfterMs.toInt < 2 ^ 63 →
      ∀ kind ∈ baselineKinds,
      policy.minSamples ≤ UInt64.ofNat (samples affected.id kind obs).length →
      ∀ o ∈ samples affected.id kind obs,
        o.timestampMs.toInt ≤ (nowOf obs).toInt + unreached (nowOf obs) policy.staleAfterMs ∧
        o.timestampMs.toInt + (policy.staleAfterMs.toInt - policy.maxAgeMs.toInt) ≤
          (nowOf obs).toInt + unreached (nowOf obs) policy.staleAfterMs)) := by
  refine ⟨fun st => verdictTimely_faults st affected associated domain obs policy, ?_⟩
  constructor
  · intro hall hvalid hnear kind hkind henough o ho
    -- the oldest baseline that is not stale at the last entry
    obtain ⟨t, hage, hwin, holdest⟩ := exists_oldest hnear
    have hadm := admitted_usableBaseline associated hvalid hkind hwin henough
    have htimely := hall _ fun b hb => by
      rw [mem_published affected hkind] at hb
      rw [hb]
      exact ⟨checkBaseline_usableBaseline affected hkind t, hage⟩
    obtain ⟨b, hb, -, hbounds⟩ := htimely (compare_isVerdict hadm domain)
    rw [compare_baselineId hadm, Option.some.injEq] at hb
    rw [← hb] at hbounds
    obtain ⟨hstale, hmax⟩ := hbounds o ho
    have htime : (usableBaseline affected kind t).timestampMs.toInt =
        (nowOf obs).toInt - policy.staleAfterMs.toInt +
          unreached (nowOf obs) policy.staleAfterMs := holdest
    rw [htime] at hstale hmax
    constructor
    · linarith
    · linarith
  · intro hlist st hstored
    rw [verdictTimely_faults]
    intro b hadm
    obtain ⟨hok, htime⟩ := hstored b hadm.mem
    refine ⟨htime, fun o ho => ?_⟩
    have henough := hadm.enough
    rw [aggregate_n] at henough
    have hgate := (sub_le_iff_of_noOverflow htime).mp hadm.inWindow
    have hfirst := Int64.le_toInt b.timestampMs
    have hlast := Int64.toInt_lt b.timestampMs
    have holdest : (nowOf obs).toInt - policy.staleAfterMs.toInt +
        unreached (nowOf obs) policy.staleAfterMs ≤ b.timestampMs.toInt := by
      rw [unreached]
      omega
    obtain ⟨hafter, hgap⟩ := hlist hadm.policyValid (by omega) b.metricKind
      (checkBaseline_ok_kind hok) henough o ho
    exact ⟨fun _ => by linarith, fun _ => by linarith⟩

theorem verdict_timely_iff_slowdown : ∀ st : Impl Double, (∀ b ∈ st.baselines.values,
    Impl.checkBaseline b = .ok ∧ NoOverflow 1000 b.timestampMs) →
      st.VerdictTimely Demo.victim Demo.neighbor .cache Demo.slowdown .init := by
  refine (verdict_timely_iff Demo.victim Demo.neighbor .cache Demo.slowdown .init).2.mpr ?_
  intro _ _ kind _ _ o ho
  obtain rfl := (List.mem_replicate.mp (List.mem_filter.mp ho).1).2
  exact ⟨by decide, by decide⟩

def Demo.lateSlowdown {F : Type} [DoubleOps F] : List (Observation F) :=
  List.replicate 3 { Demo.observation 150.0 with timestampMs := 10800000 } ++
    [{ Demo.observation 150.0 with workloadId := ⟨2⟩ }]

theorem verdict_not_timely :
    ¬ (Demo.published : Impl Double).VerdictTimely Demo.victim Demo.neighbor .cache
        Demo.lateSlowdown .init ∧
    ¬ ((Impl.fresh ⟨1⟩ ⟨1⟩ : Impl Double).publishBaseline
        { Demo.baseline with timestampMs := Int64.minValue }).2.VerdictTimely Demo.victim
        Demo.neighbor .cache Demo.slowdown .init ∧
    ¬ (Demo.published : Impl Double).VerdictTimely Demo.victim Demo.neighbor .cache Demo.slowdown
        { Policy.init with maxAgeMs := 0 } := by
  have hfind : ∀ obs policy, ((Demo.published : Impl Double).compare Demo.victim Demo.neighbor
      .cache obs policy).1.baselineId = ⟨1⟩ → (Demo.published : Impl Double).baselines.find?
        ((Demo.published : Impl Double).compare Demo.victim Demo.neighbor .cache obs
          policy).1.baselineId = some Demo.baseline := by
    intro obs policy hid
    rw [hid]
    decide +kernel
  refine ⟨?_, ?_, ?_⟩
  · intro h
    obtain ⟨b, hb, -, hage⟩ := h (by decide +kernel)
    rw [hfind _ _ (by decide +kernel), Option.some.injEq] at hb
    rw [← hb] at hage
    exact absurd hage (by decide +kernel)
  · intro h
    obtain ⟨b, hb, htime, -⟩ := h (by decide +kernel)
    have hstored : ((Impl.fresh ⟨1⟩ ⟨1⟩ : Impl Double).publishBaseline
        { Demo.baseline with timestampMs := Int64.minValue }).2.baselines.find? (((Impl.fresh ⟨1⟩
          ⟨1⟩ : Impl Double).publishBaseline { Demo.baseline with timestampMs :=
            Int64.minValue }).2.compare Demo.victim Demo.neighbor .cache Demo.slowdown
              .init).1.baselineId = some { Demo.baseline with timestampMs := Int64.minValue } := by
      decide +kernel
    rw [hstored, Option.some.injEq] at hb
    rw [← hb] at htime
    exact absurd htime (by decide +kernel)
  · intro h
    obtain ⟨b, hb, -, hage⟩ := h (by decide +kernel)
    rw [hfind _ _ (by decide +kernel), Option.some.injEq] at hb
    rw [← hb] at hage
    exact absurd hage (by decide +kernel)

section CoRun

variable {F : Type} [DoubleOps F]

def coRunSamples (affected : WorkloadId) (kind : MetricKind) (associated : WorkloadId)
    (obs : List (Observation F)) : List (Observation F) :=
  (samples affected kind obs).filter fun o => o.coRunPeers.any (· == associated)

/-- The entries of `obs` that `run_experiment` would collect for this direction. -/
def experimentView (affected associated : WorkloadId) (obs : List (Observation F)) :
    List (Observation F) :=
  obs.filter fun o => o.workloadId == affected && o.coRunPeers.any (· == associated)

theorem samples_coRunSamples (affected : WorkloadId) (kind : MetricKind) (associated : WorkloadId)
    (obs : List (Observation F)) :
    samples affected kind (coRunSamples affected kind associated obs) =
      coRunSamples affected kind associated obs := by
  apply List.filter_eq_self.mpr
  intro o ho
  exact (List.mem_filter.mp (List.mem_filter.mp ho).1).2

theorem samples_experimentView (affected : WorkloadId) (kind : MetricKind)
    (associated : WorkloadId) (obs : List (Observation F)) :
    samples affected kind (experimentView affected associated obs) =
      coRunSamples affected kind associated obs := by
  unfold samples experimentView coRunSamples samples
  rw [List.filter_filter, List.filter_filter]
  apply List.filter_congr
  intro o _
  unfold isSample
  cases o.workloadId == affected <;> cases o.coRunPeers.any (· == associated) <;> simp

theorem coRunSamples_eq_iff {affected : WorkloadId} {kind : MetricKind} {associated : WorkloadId}
    {obs : List (Observation F)} :
    coRunSamples affected kind associated obs = samples affected kind obs ↔
      ∀ o ∈ samples affected kind obs, associated ∈ o.coRunPeers := by
  simp only [coRunSamples, List.filter_eq_self, List.any_beq', List.contains_iff_mem]

theorem aggregate_congr {affected : WorkloadId} {kind : MetricKind} (associated : WorkloadId)
    {obs obs' : List (Observation F)} (h : samples affected kind obs' = samples affected kind obs) :
    (aggregate affected kind associated obs').vals = (aggregate affected kind associated obs).vals ∧
    (aggregate affected kind associated obs').n = (aggregate affected kind associated obs).n ∧
    (aggregate affected kind associated obs').overlap =
      (aggregate affected kind associated obs).overlap := by
  refine ⟨?_, ?_, ?_⟩
  · rw [aggregate_vals, aggregate_vals, h]
  · rw [aggregate_n, aggregate_n, h]
  · rw [aggregate_overlap, aggregate_overlap, h]

theorem degradationOf_congr (b : Baseline F) {a a' : Aggregate F} (hv : a'.vals = a.vals)
    (hn : a'.n = a.n) : Impl.degradationOf b a' = Impl.degradationOf b a := by
  unfold Impl.degradationOf
  rw [hv, hn]

theorem compare_interferes_fst {st : Impl F} {affected associated : WorkloadDescriptor}
    {obs : List (Observation F)} {policy : Policy F} {b : Baseline F}
    (h : st.Interferes affected associated obs policy b) (domain : InterferenceDomain) :
    (st.compare affected associated domain obs policy).1.outcome = classifyOutcome
      (Impl.degradationOf b (aggregate affected.id b.metricKind associated.id obs)).worstRelative
        policy ∧
    (st.compare affected associated domain obs policy).1.degradation =
      Impl.degradationOf b (aggregate affected.id b.metricKind associated.id obs) := by
  have hout : (st.verdictOn affected associated domain obs policy b).outcome = classifyOutcome
      (Impl.degradationOf b (aggregate affected.id b.metricKind associated.id obs)).worstRelative
        policy := if_pos h.overlap
  rw [compare_of_interferes h]
  exact ⟨hout, rfl⟩

theorem Impl.Interferes.of_aggregate {st : Impl F} {affected associated : WorkloadDescriptor}
    {obs obs' : List (Observation F)} {policy : Policy F} {b : Baseline F}
    (h : st.Interferes affected associated obs policy b)
    (hwin : nowOf obs' - b.timestampMs ≤ policy.staleAfterMs)
    (hn : (aggregate affected.id b.metricKind associated.id obs').n =
      (aggregate affected.id b.metricKind associated.id obs).n)
    (hover : (aggregate affected.id b.metricKind associated.id obs').overlap =
      (aggregate affected.id b.metricKind associated.id obs).overlap)
    (hdeg : degradationOf b (aggregate affected.id b.metricKind associated.id obs') =
      degradationOf b (aggregate affected.id b.metricKind associated.id obs)) :
    st.Interferes affected associated obs' policy b := by
  have hadm := h.admitted
  refine ⟨⟨hadm.policyValid, hadm.selected, hadm.current, hwin, ?_, ?_⟩, ?_, ?_⟩
  · rw [hn]
    exact hadm.nonempty
  · rw [hn]
    exact hadm.enough
  · rw [hover]
    exact h.overlap
  · rw [hdeg]
    exact h.degraded

theorem compare_view_iff {st : Impl F} {affected associated : WorkloadDescriptor}
    {domain : InterferenceDomain} {obs view : List (Observation F)} {policy : Policy F}
    {b : Baseline F} (h : st.Interferes affected associated obs policy b)
    (hlen : obs.length < 2 ^ 64) (hle : view.length ≤ obs.length)
    (hs : samples affected.id b.metricKind view =
      coRunSamples affected.id b.metricKind associated.id obs) :
    (st.compare affected associated domain view policy).1.outcome =
        (st.compare affected associated domain obs policy).1.outcome ∧
      (st.compare affected associated domain view policy).1.degradation =
        (st.compare affected associated domain obs policy).1.degradation ↔
    (∀ o ∈ samples affected.id b.metricKind obs, associated.id ∈ o.coRunPeers) ∧
      nowOf view - b.timestampMs ≤ policy.staleAfterMs := by
  obtain ⟨hout, hdeg⟩ := compare_interferes_fst h domain
  constructor
  · rintro ⟨hout', hdeg'⟩
    have hint : (st.compare affected associated domain view policy).1.outcome.isInterference =
        true := by
      rw [hout', hout]
      exact h.degraded
    obtain ⟨u, hu⟩ := compare_interference_iff.mp hint
    obtain rfl : b = u := h.admitted.aggregates.unique hu.admitted.aggregates
    -- the degradations carry the numbers of samples
    have hcount : (aggregate affected.id b.metricKind associated.id view).n =
        (aggregate affected.id b.metricKind associated.id obs).n := by
      have hcount := congrArg Degradation.sampleCount hdeg'
      rw [hdeg, (compare_interferes_fst hu domain).2] at hcount
      exact hcount
    have hlength : (coRunSamples affected.id b.metricKind associated.id obs).length =
        (samples affected.id b.metricKind obs).length := by
      rw [← hs, ← aggregate_n_toNat affected.id b.metricKind associated.id hlen, ← hcount]
      exact (aggregate_n_toNat _ _ _ (Nat.lt_of_le_of_lt hle hlen)).symm
    have hall := List.length_filter_eq_length_iff.mp hlength
    refine ⟨?_, hu.admitted.inWindow⟩
    apply coRunSamples_eq_iff.mp
    exact List.filter_eq_self.mpr hall
  · rintro ⟨hall, hwin⟩
    have hsame : samples affected.id b.metricKind view = samples affected.id b.metricKind obs := by
      rw [hs, coRunSamples_eq_iff]
      exact hall
    obtain ⟨hv, hn, hov⟩ := aggregate_congr associated.id hsame
    have hsamedeg := degradationOf_congr b hv hn
    obtain ⟨hout', hdeg'⟩ :=
      compare_interferes_fst (h.of_aggregate hwin hn hov hsamedeg) domain
    rw [hout', hdeg', hout, hdeg, hsamedeg]
    exact ⟨rfl, rfl⟩

/-- A verdict of interference is backed by enough samples beside the neighbor, and these
alone, or the entries an experiment would collect, give the same outcome and degradation. -/
def Impl.InterferenceBacked (st : Impl F) (affected associated : WorkloadDescriptor)
    (domain : InterferenceDomain) (obs : List (Observation F)) (policy : Policy F) : Prop :=
  (st.compare affected associated domain obs policy).1.outcome.isInterference = true →
    ∃ b, st.baselines.find? (st.compare affected associated domain obs policy).1.baselineId =
        some b ∧
      policy.minSamples.toNat ≤
        (coRunSamples affected.id b.metricKind associated.id obs).length ∧
      ∀ view ∈ [coRunSamples affected.id b.metricKind associated.id obs,
          experimentView affected.id associated.id obs],
        (st.compare affected associated domain view policy).1.outcome =
          (st.compare affected associated domain obs policy).1.outcome ∧
        (st.compare affected associated domain view policy).1.degradation =
          (st.compare affected associated domain obs policy).1.degradation

/-- Interference is backed beside the neighbor exactly if, whenever it is found, every sample
lists the neighbor and the baseline is not stale at the last sample and at the last entry an
experiment would collect. -/
theorem interference_backed_iff (st : Impl F) (affected associated : WorkloadDescriptor)
    (domain : InterferenceDomain) (obs : List (Observation F)) (policy : Policy F)
    (hlen : obs.length < 2 ^ 64) :
    st.InterferenceBacked affected associated domain obs policy ↔
      ∀ b, st.Interferes affected associated obs policy b →
        (∀ o ∈ samples affected.id b.metricKind obs, associated.id ∈ o.coRunPeers) ∧
        nowOf (samples affected.id b.metricKind obs) - b.timestampMs ≤ policy.staleAfterMs ∧
        nowOf (experimentView affected.id associated.id obs) - b.timestampMs ≤
          policy.staleAfterMs := by
  have hcoRun : ∀ b : Baseline F,
      (coRunSamples affected.id b.metricKind associated.id obs).length ≤ obs.length := by
    intro b
    exact (List.length_filter_le ..).trans (List.length_filter_le ..)
  have hview : (experimentView affected.id associated.id obs).length ≤ obs.length :=
    List.length_filter_le ..
  constructor
  · intro h b hint
    obtain ⟨b', hb', -, hsame⟩ := h (compare_interference_iff.mpr ⟨b, hint⟩)
    rw [compare_baselineId hint.admitted, Option.some.injEq] at hb'
    rw [← hb'] at hsame
    obtain ⟨hall, hwin⟩ := (compare_view_iff hint hlen (hcoRun b)
      (samples_coRunSamples ..)).mp (hsame _ (by simp))
    have hexp := (compare_view_iff hint hlen hview (samples_experimentView ..)).mp
      (hsame _ (by simp))
    rw [coRunSamples_eq_iff.mpr hall] at hwin
    exact ⟨hall, hwin, hexp.2⟩
  · intro h hout
    obtain ⟨b, hint⟩ := compare_interference_iff.mp hout
    obtain ⟨hall, hwin, hexp⟩ := h b hint
    have heq := coRunSamples_eq_iff.mpr hall
    refine ⟨b, compare_baselineId hint.admitted domain, ?_, ?_⟩
    · rw [heq, ← aggregate_n_toNat affected.id b.metricKind associated.id hlen]
      exact UInt64.le_iff_toNat_le.mp hint.admitted.enough
    · intro view hmem
      rw [List.mem_cons, List.mem_singleton] at hmem
      rcases hmem with rfl | rfl
      · refine (compare_view_iff hint hlen (hcoRun b) (samples_coRunSamples ..)).mpr ⟨hall, ?_⟩
        rw [heq]
        exact hwin
      · exact (compare_view_iff hint hlen hview (samples_experimentView ..)).mpr ⟨hall, hexp⟩

end CoRun

theorem interference_backed_iff_slowdown :
    (Demo.published : Impl Double).InterferenceBacked Demo.victim Demo.neighbor .cache
      Demo.slowdown .init := by
  refine (interference_backed_iff _ _ _ _ _ _ (by decide)).mpr ?_
  intro b hint
  have hb : (selectBaseline (Demo.published : Impl Double).baselines.values Demo.victim).usable =
      some Demo.baseline := by decide +kernel
  rw [hint.admitted.selected, Option.some.injEq] at hb
  rw [hb]
  refine ⟨?_, ?_, ?_⟩
  · decide +kernel
  · decide +kernel
  · decide +kernel

theorem interference_not_backed :
    ¬ (Demo.published : Impl Double).InterferenceBacked Demo.victim Demo.neighbor .cache
      (Demo.observation 150.0 :: List.replicate 2 { Demo.observation 150.0 with coRunPeers := [] })
      .init := by
  intro h
  obtain ⟨b, hb, henough, -⟩ := h (by decide +kernel)
  have hfind : (Demo.published : Impl Double).baselines.find? ((Demo.published :
      Impl Double).compare Demo.victim Demo.neighbor .cache (Demo.observation 150.0 ::
        List.replicate 2 { Demo.observation 150.0 with coRunPeers := [] }) .init).1.baselineId =
      some Demo.baseline := by decide +kernel
  rw [hfind, Option.some.injEq] at hb
  rw [← hb] at henough
  exact absurd henough (by decide +kernel)

end Iobs
