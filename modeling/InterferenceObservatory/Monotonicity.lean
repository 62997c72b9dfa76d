import InterferenceObservatory.Selectivity
import Mathlib.Algebra.Order.BigOperators.Group.List

/-! Comparisons of two lists that differ in one respect. More confounders leave the outcome
and lower confidence and attribution, although hard and soft ones are discounted by different
rules; larger measurements move the outcome in the direction of the metric and leave the
rest. -/

namespace Iobs
open DoubleOps

section Related

variable {α β : Type} {R : α → α → Prop}

theorem map_eq_of_forall₂ {f : α → β} {l l' : List α} (h : List.Forall₂ R l l')
    (hf : ∀ a b, R a b → f a = f b) : l.map f = l'.map f := by
  induction h with
  | nil => rfl
  | cons hab _ ih => rw [List.map_cons, List.map_cons, hf _ _ hab, ih]

variable {F : Type}

theorem nowOf_eq_of_forall₂ {R : Observation F → Observation F → Prop}
    {obs obs' : List (Observation F)} (h : List.Forall₂ R obs obs')
    (hR : ∀ o o', R o o' → o.timestampMs = o'.timestampMs) : nowOf obs = nowOf obs' := by
  unfold nowOf
  rw [← List.getLast?_map, ← List.getLast?_map, map_eq_of_forall₂ h hR]

variable [DoubleOps F] {st : Impl F} {affected associated : WorkloadDescriptor}
  {obs obs' : List (Observation F)} {policy : Policy F}

theorem samples_forall₂ {R : Observation F → Observation F → Prop} {kind : MetricKind}
    (h : List.Forall₂ R obs obs')
    (hR : ∀ o o', R o o' → isSample affected.id kind o = isSample affected.id kind o') :
    List.Forall₂ R (samples affected.id kind obs) (samples affected.id kind obs') := by
  refine List.rel_filter ?_ h
  intro o o' ho
  dsimp only
  rw [hR o o' ho]

theorem compare_both (st : Impl F) (policy : Policy F) (hnow : nowOf obs = nowOf obs')
    (hn : ∀ kind, (aggregate affected.id kind associated.id obs).n =
      (aggregate affected.id kind associated.id obs').n) (domain : InterferenceDomain) :
    ((st.compare affected associated domain obs policy).1 =
        (st.compare affected associated domain obs' policy).1 ∧
      (st.compare affected associated domain obs policy).1.outcome.isVerdict = false) ∨
    ∃ u, st.Admitted affected associated obs policy u ∧
      st.Admitted affected associated obs' policy u := by
  rcases st.compare_cases affected associated domain obs policy with ⟨u, hadm, -⟩ | ⟨-, hno⟩
  · have hu' : st.Aggregates affected obs' policy u := hadm.aggregates.of_gate (by rw [hnow])
    have hfew := hadm.notTooFew
    rw [hn] at hfew
    exact .inr ⟨u, hadm, hu'.admitted hfew⟩
  · refine .inl ⟨?_, hno⟩
    by_cases hagg : ∃ u, st.Aggregates affected obs policy u
    · obtain ⟨u, hu⟩ := hagg
      have hu' : st.Aggregates affected obs' policy u := hu.of_gate (by rw [hnow])
      obtain ⟨e, he⟩ := st.compareAgainst_fst affected associated domain obs policy u
      obtain ⟨e', he'⟩ := st.compareAgainst_fst affected associated domain obs' policy u
      rw [Impl.compare_of_aggregates hu, Impl.compare_of_aggregates hu', he, he', ← hn]
      split_ifs with hfew
      · rfl
      · have hadm : st.Admitted affected associated obs policy u := hu.admitted hfew
        rw [compare_isVerdict hadm domain] at hno
        cases hno
    · rw [not_exists] at hagg
      have heq : st.compare affected associated domain obs policy =
          st.compare affected associated domain obs' policy :=
        Impl.compare_congr_of_gate (fun u _ _ => by rw [hnow]) hagg associated domain
      rw [heq]

end Related

/-- An enumerator of `Confounder`, not a byte that was cast to one. -/
def Confounder.Named (c : Confounder) : Prop := ∀ r, c ≠ .outOfRange r

structure Observation.MoreConfounded {F : Type} (affected : WorkloadId) (o o' : Observation F) :
    Prop where
  same : o' = { o with confounders := o'.confounders }
  other : o.workloadId ≠ affected → o' = o
  more : ∀ c ∈ o.confounders, c ∈ o'.confounders

def softConfounders : List Confounder :=
  [.backgroundOSLoad, .coldStart, .cacheWarmup, .allocationWarmup, .frequencyScaling,
    .deviceTemperature, .memoryPressure, .retryRecovery, .unknown]

theorem mem_softConfounders {c : Confounder} (hc : c.Named) (hs : isHardConfounder c = false) :
    c ∈ softConfounders := by
  cases c with
  | outOfRange r => exact absurd rfl (hc r)
  | _ => revert hs; decide

theorem length_soft_le {u : Unresolved} {l : List Confounder} (h : u.Collects l)
    (hl : ∀ c ∈ l, c.Named) : u.soft.length ≤ 9 := by
  have hsub : u.soft ⊆ softConfounders := by
    intro c hc
    obtain ⟨hmem, hsoft⟩ := (h.mem_soft c).mp hc
    exact mem_softConfounders (hl c hmem) hsoft
  exact (List.subperm_of_subset h.soft_nodup hsub).length_le

theorem fifth_le_pow {k : ℕ} (hk : k ≤ 9) : (0.2 : ℚ) ≤ 0.85 ^ k := by
  have hpow : (0.85 : ℚ) ^ 9 ≤ 0.85 ^ k := pow_le_pow_of_le_one (by norm_num) (by norm_num) hk
  have hnine : (0.2 : ℚ) ≤ 0.85 ^ 9 := by norm_num
  exact hnine.trans hpow

section Confounders

variable {u u' : Unresolved} {l l' : List Confounder}

theorem Unresolved.Collects.hard_sub (h : u.Collects l) (h' : u'.Collects l')
    (hsub : ∀ c ∈ l, c ∈ l') : u.hard ⊆ u'.hard := by
  intro c hc
  obtain ⟨hmem, hhard⟩ := (h.mem_hard c).mp hc
  exact (h'.mem_hard c).mpr ⟨hsub c hmem, hhard⟩

theorem Unresolved.Collects.soft_sub (h : u.Collects l) (h' : u'.Collects l')
    (hsub : ∀ c ∈ l, c ∈ l') : u.soft ⊆ u'.soft := by
  intro c hc
  obtain ⟨hmem, hsoft⟩ := (h.mem_soft c).mp hc
  exact (h'.mem_soft c).mpr ⟨hsub c hmem, hsoft⟩

theorem discountOf_antitone (h : u.Collects l) (h' : u'.Collects l') (hsub : ∀ c ∈ l, c ∈ l')
    (hl : ∀ c ∈ l, c.Named) : discountOf u' ≤ discountOf u := by
  unfold discountOf
  by_cases hu : u.hard = []
  · rw [if_pos hu]
    split_ifs with hu'
    · have hle : u.soft.length ≤ u'.soft.length :=
        (List.subperm_of_subset h.soft_nodup (h.soft_sub h' hsub)).length_le
      exact pow_le_pow_of_le_one (by norm_num) (by norm_num) hle
    · exact fifth_le_pow (length_soft_le h hl)
  · have hu' : u'.hard ≠ [] := by
      intro hnil
      have hsub' := h.hard_sub h' hsub
      rw [hnil] at hsub'
      exact hu (List.subset_nil.mp hsub')
    rw [if_neg hu, if_neg hu']

def AttributionStrength.rank (a : AttributionStrength) : ℕ := (ByteEnum.toByte a).toNat

theorem attributionOf_antitone (h : u.Collects l) (h' : u'.Collects l')
    (hsub : ∀ c ∈ l, c ∈ l') (overlap hasRecovery : Bool) :
    (attributionOf overlap u' hasRecovery).rank ≤ (attributionOf overlap u hasRecovery).rank := by
  have hle : u.hard.length ≤ u'.hard.length :=
    (List.subperm_of_subset h.hard_nodup (h.hard_sub h' hsub)).length_le
  cases overlap with
  | false => exact le_rfl
  | true =>
    simp only [attributionOf, Bool.not_true, Bool.false_eq_true, if_false, Bool.not_eq_true',
      ← Bool.not_eq_true, List.isEmpty_iff, ge_iff_le]
    by_cases hu : u.hard = []
    · -- without hard confounders the rung is above all those with them
      rw [if_neg (not_not.mpr hu)]
      split_ifs <;> decide
    · have hu' : u'.hard ≠ [] := by
        intro hnil
        rw [hnil, List.length_nil, Nat.le_zero, List.length_eq_zero_iff] at hle
        exact hu hle
      rw [if_pos hu, if_pos hu']
      split_ifs with htwo' htwo
      · exact le_rfl
      · decide
      · exact absurd (le_trans ‹_› hle) htwo'
      · exact le_rfl

end Confounders

section Rat

variable {st : Impl ℚ} {affected associated : WorkloadDescriptor} {obs obs' : List (Observation ℚ)}
  {policy : Policy ℚ} {b : Baseline ℚ}

theorem confidenceOf_antitone {u u' : Unresolved} (hb : 0 ≤ b.confidence)
    (h : discountOf u' ≤ discountOf u) (n : UInt64) (policy : Policy ℚ) :
    confidenceOf b .current true n policy u' ≤ confidenceOf b .current true n policy u := by
  rw [confidenceOf_rat hb, confidenceOf_rat hb]
  have hdisc := (discipline_bounds n (policy.minSamples * 2)).1
  apply min_le_min_right
  exact mul_le_mul_of_nonneg_left h (mul_nonneg hb hdisc)

theorem aggregate_confounded
    (h : List.Forall₂ (Observation.MoreConfounded affected.id) obs obs') (kind : MetricKind)
    (associated : WorkloadId) :
    aggregate affected.id kind associated obs' = aggregate affected.id kind associated obs := by
  unfold aggregate
  generalize Aggregate.mk [] (0.0 : ℚ) false false 0 = a
  induction h generalizing a with
  | nil => rfl
  | cons ho _ ih =>
    rw [List.foldl_cons, List.foldl_cons, ih, ho.same]
    rfl

theorem confoundersOf_sub
    (h : List.Forall₂ (Observation.MoreConfounded affected.id) obs obs') :
    ∀ c ∈ confoundersOf affected.id obs, c ∈ confoundersOf affected.id obs' := by
  induction h with
  | nil =>
    intro c hc
    exact hc
  | @cons o o' l l' ho _ ih =>
    have hid : o'.workloadId = o.workloadId := by rw [ho.same]
    intro c hc
    unfold confoundersOf entriesOf at hc ih ⊢
    by_cases hw : o.workloadId = affected.id
    · rw [List.filter_cons_of_pos (by simpa using hw), List.flatMap_cons, List.mem_append] at hc
      rw [List.filter_cons_of_pos (by simpa [hid] using hw), List.flatMap_cons, List.mem_append]
      exact hc.imp (ho.more c) (ih c)
    · rw [List.filter_cons_of_neg (by simpa using hw)] at hc
      rw [List.filter_cons_of_neg (by simpa [hid] using hw)]
      exact ih c hc

end Rat

/-- With further confounders on entries of the affected workload a comparison has the same
outcome and degradation and at most the confidence and the attribution it had without. Those
that were there are enumerators: ten soft bytes out of range would weigh more than a hard
confounder. -/
theorem more_confounders_weaken (st : Impl ℚ) (affected associated : WorkloadDescriptor)
    (domain : InterferenceDomain) (policy : Policy ℚ) (obs obs' : List (Observation ℚ))
    (h : List.Forall₂ (Observation.MoreConfounded affected.id) obs obs')
    (hnamed : ∀ o ∈ obs, o.workloadId = affected.id → ∀ c ∈ o.confounders, c.Named) :
    let r := (st.compare affected associated domain obs policy).1
    let r' := (st.compare affected associated domain obs' policy).1
    r'.outcome = r.outcome ∧ r'.degradation = r.degradation ∧ r'.confidence ≤ r.confidence ∧
      r'.attribution.rank ≤ r.attribution.rank := by
  dsimp only
  have hnow : nowOf obs = nowOf obs' := by
    apply nowOf_eq_of_forall₂ h
    intro o o' ho
    rw [ho.same]
  have hagg : ∀ kind, aggregate affected.id kind associated.id obs' =
      aggregate affected.id kind associated.id obs := by
    intro kind
    exact aggregate_confounded h kind associated.id
  have hn : ∀ kind, (aggregate affected.id kind associated.id obs).n =
      (aggregate affected.id kind associated.id obs').n := by
    intro kind
    rw [hagg]
  rcases compare_both st policy hnow hn domain with ⟨heq, -⟩ | ⟨u, hadm, hadm'⟩
  · rw [heq]
    exact ⟨rfl, rfl, le_rfl, le_rfl⟩
  · obtain ⟨e, he⟩ := hadm.compare_fst domain
    obtain ⟨e', he'⟩ := hadm'.compare_fst domain
    have hcol := unresolvedConfounders_collects affected.id obs
    have hcol' := unresolvedConfounders_collects affected.id obs'
    have hsub := confoundersOf_sub h
    have hl : ∀ c ∈ confoundersOf affected.id obs, c.Named := by
      intro c hc
      obtain ⟨o, ho, hmem⟩ := List.mem_flatMap.mp hc
      obtain ⟨hobs, hid⟩ := List.mem_filter.mp ho
      exact hnamed o hobs (beq_iff_eq.mp hid) c hmem
    have hdiscount := discountOf_antitone hcol hcol' hsub hl
    rw [he, he']
    simp only [Impl.verdictOn, Impl.verdict, hagg]
    refine ⟨trivial, trivial, ?_, ?_⟩
    · exact confidenceOf_antitone hadm.confidence_pos.le hdiscount _ policy
    · exact attributionOf_antitone hcol hcol' hsub _ _

def Demo.confoundedSlowdown {F : Type} [DoubleOps F] (l : List Confounder) :
    List (Observation F) :=
  List.replicate 3 { Demo.observation 150.0 with confounders := l }

theorem more_confounders_weaken_throttled :
    let r := ((Demo.published : Impl ℚ).compare Demo.victim Demo.neighbor .cache
      (Demo.confoundedSlowdown [.coldStart]) .init).1
    let r' := ((Demo.published : Impl ℚ).compare Demo.victim Demo.neighbor .cache
      (Demo.confoundedSlowdown [.thermalThrottling, .coldStart]) .init).1
    r'.outcome = r.outcome ∧ r'.degradation = r.degradation ∧ r'.confidence ≤ r.confidence ∧
      r'.attribution.rank ≤ r.attribution.rank := by
  refine more_confounders_weaken Demo.published Demo.victim Demo.neighbor .cache .init
    (Demo.confoundedSlowdown [.coldStart])
    (Demo.confoundedSlowdown [.thermalThrottling, .coldStart]) ?_ ?_
  · have hmore : Observation.MoreConfounded Demo.victim.id
        ({ Demo.observation 150.0 with confounders := [.coldStart] } : Observation ℚ)
        { Demo.observation 150.0 with confounders := [.thermalThrottling, .coldStart] } := by
      refine ⟨rfl, ?_, ?_⟩
      · intro h
        exact absurd rfl h
      · intro c hc
        exact List.mem_cons_of_mem _ hc
    exact .cons hmore (.cons hmore (.cons hmore .nil))
  · intro o ho _ c hc r hr
    rw [(List.mem_replicate.mp ho).2, hr] at hc
    simp at hc

theorem confounders_not_weaken :
    let soft : List Confounder := (List.finRange 10).map fun i => .outOfRange (i.castLE (by decide))
    let obs : List (Observation ℚ) := Demo.confoundedSlowdown soft
    let obs' : List (Observation ℚ) := Demo.confoundedSlowdown (.thermalThrottling :: soft)
    List.Forall₂ (Observation.MoreConfounded Demo.victim.id) obs obs' ∧
      Confounder.Named .thermalThrottling ∧
      ((Demo.published : Impl ℚ).compare Demo.victim Demo.neighbor .cache obs .init).1.confidence <
        ((Demo.published : Impl ℚ).compare Demo.victim Demo.neighbor .cache obs'
          .init).1.confidence := by
  intro soft obs obs'
  refine ⟨?_, nofun, by decide +kernel⟩
  have hmore : Observation.MoreConfounded Demo.victim.id
      ({ Demo.observation 150.0 with confounders := soft } : Observation ℚ)
      { Demo.observation 150.0 with confounders := .thermalThrottling :: soft } := by
    refine ⟨rfl, ?_, ?_⟩
    · intro h
      exact absurd rfl h
    · intro c hc
      exact List.mem_cons_of_mem _ hc
  exact .cons hmore (.cons hmore (.cons hmore .nil))

structure Observation.Raised (o o' : Observation ℚ) : Prop where
  same : o' = { o with measurement := { o.measurement with value := o'.measurement.value } }
  raised : o.measurement.value ≤ o'.measurement.value
  valid : o'.measurement.isValid = o.measurement.isValid

def Outcome.severity : Outcome → ℕ
  | .potentialInterference => 1
  | .interferenceDetected => 2
  | .severeInterference => 3
  | _ => 0

theorem classifyOutcome_mono (policy : Policy ℚ) {w w' : ℚ} (h : w ≤ w') :
    (classifyOutcome w policy).severity ≤ (classifyOutcome w' policy).severity := by
  unfold classifyOutcome
  simp only [ltb_rat, decide_eq_true_eq]
  -- each threshold that `w` has reached `w'` has reached too
  split_ifs <;> first | decide | (exfalso; linarith)

theorem higherIsWorse_disjoint : ∀ kind ∈ higherIsWorse, kind ∉ lowerIsWorse := by decide

theorem worsening_mono {kind : MetricKind} (hk : kind ∈ higherIsWorse) (base : ℚ) {mean mean' : ℚ}
    (h : mean ≤ mean') : worsening kind base mean ≤ worsening kind base mean' := by
  have hlow := higherIsWorse_disjoint kind hk
  unfold worsening
  split_ifs with hw hw'
  · rcases hw.2 with ⟨-, hlt⟩ | ⟨hno, -⟩
    · rw [abs_of_pos (sub_pos.mpr hlt), abs_of_pos (sub_pos.mpr (hlt.trans_le h))]
      exact div_le_div_of_nonneg_right (sub_le_sub_right h base) hw.1.le
    · exact absurd hno hlow
  · exfalso
    rcases hw.2 with ⟨-, hlt⟩ | ⟨hno, -⟩
    · exact hw' ⟨hw.1, .inl ⟨hk, hlt.trans_le h⟩⟩
    · exact hlow hno
  · exact div_nonneg (abs_nonneg _) (le_of_lt (And.left ‹_›))
  · exact le_rfl

theorem worsening_anti {kind : MetricKind} (hk : kind ∈ lowerIsWorse) (base : ℚ) {mean mean' : ℚ}
    (h : mean ≤ mean') : worsening kind base mean' ≤ worsening kind base mean := by
  have hhigh : kind ∉ higherIsWorse := fun hhigh => higherIsWorse_disjoint kind hhigh hk
  unfold worsening
  split_ifs with hw' hw
  · rcases hw'.2 with ⟨hno, -⟩ | ⟨-, hlt⟩
    · exact absurd hno hhigh
    · rw [abs_of_neg (sub_neg.mpr hlt), abs_of_neg (sub_neg.mpr (h.trans_lt hlt))]
      exact div_le_div_of_nonneg_right (neg_le_neg (sub_le_sub_right h base)) hw'.1.le
  · exfalso
    rcases hw'.2 with ⟨hno, -⟩ | ⟨-, hlt⟩
    · exact hhigh hno
    · exact hw ⟨hw'.1, .inr ⟨hk, h.trans_lt hlt⟩⟩
  · exact div_nonneg (abs_nonneg _) (le_of_lt (And.left ‹_›))
  · exact le_rfl

section Raised

variable {affected : WorkloadDescriptor} {obs obs' : List (Observation ℚ)}
  (h : List.Forall₂ Observation.Raised obs obs')
include h

theorem samples_raised (kind : MetricKind) :
    List.Forall₂ Observation.Raised (samples affected.id kind obs)
      (samples affected.id kind obs') := by
  apply samples_forall₂ h
  intro o o' ho
  have hid : o'.workloadId = o.workloadId := by rw [ho.same]
  have hkind : o'.measurement.kind = o.measurement.kind := by rw [ho.same]
  rw [isSample, isSample, hid, hkind, ho.valid]

theorem aggregate_raised (kind : MetricKind) (associated : WorkloadId) :
    (aggregate affected.id kind associated obs).n = (aggregate affected.id kind associated obs').n ∧
    (aggregate affected.id kind associated obs).overlap =
      (aggregate affected.id kind associated obs').overlap := by
  have hs : List.Forall₂ Observation.Raised (samples affected.id kind obs)
      (samples affected.id kind obs') := samples_raised h kind
  have hpeers : (samples affected.id kind obs).map (·.coRunPeers) =
      (samples affected.id kind obs').map (·.coRunPeers) := by
    apply map_eq_of_forall₂ hs
    intro o o' ho
    rw [ho.same]
  constructor
  · rw [aggregate_n, aggregate_n, hs.length_eq]
  · have hany : ∀ l : List (Observation ℚ),
        (l.any fun o => o.coRunPeers.any (· == associated)) =
          (l.map (·.coRunPeers)).any fun peers => peers.any (· == associated) := by
      intro l
      rw [List.any_map]
      rfl
    rw [aggregate_overlap, aggregate_overlap, hany, hany, hpeers]

theorem meanOf_raised (kind : MetricKind) (associated : WorkloadId) :
    meanOf (aggregate affected.id kind associated obs).vals
        (aggregate affected.id kind associated obs).n ≤
      meanOf (aggregate affected.id kind associated obs').vals
        (aggregate affected.id kind associated obs').n := by
  have hvals : List.Forall₂ (· ≤ ·) ((samples affected.id kind obs).map (·.measurement.value))
      ((samples affected.id kind obs').map (·.measurement.value)) := by
    rw [List.forall₂_map_left_iff, List.forall₂_map_right_iff]
    exact (samples_raised h kind).imp fun o o' ho => ho.raised
  unfold meanOf
  rw [← (aggregate_raised h kind associated).1, aggregate_vals, aggregate_vals, lit_zero,
    ← List.sum_eq_foldl, ← List.sum_eq_foldl, ofUInt64_rat]
  exact div_le_div_of_nonneg_right hvals.sum_le_sum (Nat.cast_nonneg _)

theorem unresolvedConfounders_raised (affected : WorkloadId) :
    unresolvedConfounders affected obs = unresolvedConfounders affected obs' := by
  unfold unresolvedConfounders
  generalize Unresolved.mk [] [] = u
  induction h generalizing u with
  | nil => rfl
  | cons ho _ ih =>
    rw [List.foldl_cons, List.foldl_cons, ih, ho.same]

end Raised

theorem Impl.Admitted.outcome {st : Impl ℚ} {affected associated : WorkloadDescriptor}
    {obs : List (Observation ℚ)} {policy : Policy ℚ} {b : Baseline ℚ}
    (h : st.Admitted affected associated obs policy b) (domain : InterferenceDomain) :
    let a := aggregate affected.id b.metricKind associated.id obs
    (st.compare affected associated domain obs policy).1.outcome =
      if a.overlap then
        classifyOutcome (worsening b.metricKind b.meanValue (meanOf a.vals a.n)) policy
      else .noInterferenceDetected := by
  dsimp only
  obtain ⟨e, he⟩ := h.compare_fst domain
  rw [he, ← degradationMagnitude_relative]
  rfl

/-- With larger values, as valid as before, a comparison has an outcome at least as severe if
the metric of its baseline is one of those where more is worse, and at most as severe if less
is worse; any outcome that is no verdict, the number of samples, the confidence and the
attribution stay. -/
theorem larger_values_shift_outcome (st : Impl ℚ) (affected associated : WorkloadDescriptor)
    (domain : InterferenceDomain) (policy : Policy ℚ) (obs obs' : List (Observation ℚ))
    (h : List.Forall₂ Observation.Raised obs obs') :
    let r := (st.compare affected associated domain obs policy).1
    let r' := (st.compare affected associated domain obs' policy).1
    (r.outcome.isVerdict = false ∨ r'.outcome.isVerdict = false → r'.outcome = r.outcome) ∧
    (∀ b, st.baselines.find? r.baselineId = some b →
      (b.metricKind ∈ higherIsWorse → r.outcome.severity ≤ r'.outcome.severity) ∧
      (b.metricKind ∈ lowerIsWorse → r'.outcome.severity ≤ r.outcome.severity)) ∧
    r'.sampleCount = r.sampleCount ∧ r'.confidence = r.confidence ∧
      r'.attribution = r.attribution := by
  dsimp only
  have hnow : nowOf obs = nowOf obs' := by
    apply nowOf_eq_of_forall₂ h
    intro o o' ho
    rw [ho.same]
  have hn : ∀ kind, (aggregate affected.id kind associated.id obs).n =
      (aggregate affected.id kind associated.id obs').n := by
    intro kind
    exact (aggregate_raised h kind associated.id).1
  rcases compare_both st policy hnow hn domain with ⟨heq, -⟩ | ⟨u, hadm, hadm'⟩
  · rw [heq]
    exact ⟨fun _ => rfl, fun b _ => ⟨fun _ => le_rfl, fun _ => le_rfl⟩, rfl, rfl, rfl⟩
  · refine ⟨?_, ?_, ?_⟩
    · intro hno
      rw [compare_isVerdict hadm domain, compare_isVerdict hadm' domain] at hno
      rcases hno with hno | hno <;> cases hno
    · intro b hb
      rw [compare_baselineId hadm domain, Option.some.injEq] at hb
      subst hb
      have hover : (aggregate affected.id u.metricKind associated.id obs).overlap =
          (aggregate affected.id u.metricKind associated.id obs').overlap :=
        (aggregate_raised h u.metricKind associated.id).2
      have hmean : meanOf (aggregate affected.id u.metricKind associated.id obs).vals
            (aggregate affected.id u.metricKind associated.id obs).n ≤
          meanOf (aggregate affected.id u.metricKind associated.id obs').vals
            (aggregate affected.id u.metricKind associated.id obs').n :=
        meanOf_raised h u.metricKind associated.id
      have hout := hadm.outcome domain
      have hout' := hadm'.outcome domain
      dsimp only at hout hout'
      rw [hout, hout', ← hover]
      split_ifs with hov
      · constructor
        · intro hk
          exact classifyOutcome_mono policy (worsening_mono hk u.meanValue hmean)
        · intro hk
          exact classifyOutcome_mono policy (worsening_anti hk u.meanValue hmean)
      · exact ⟨fun _ => le_rfl, fun _ => le_rfl⟩
    · obtain ⟨e, he⟩ := hadm.compare_fst domain
      obtain ⟨e', he'⟩ := hadm'.compare_fst domain
      have hover : (aggregate affected.id u.metricKind associated.id obs).overlap =
          (aggregate affected.id u.metricKind associated.id obs').overlap :=
        (aggregate_raised h u.metricKind associated.id).2
      have hconf := unresolvedConfounders_raised h affected.id
      rw [he, he']
      simp only [Impl.verdictOn, Impl.verdict, hn, hover, hconf, and_self]

def Demo.slowdownBy (v : ℚ) : List (Observation ℚ) := List.replicate 3 (Demo.observation v)

theorem larger_values_shift_outcome_slowdown :
    let r := ((Demo.published : Impl ℚ).compare Demo.victim Demo.neighbor .cache
      (Demo.slowdownBy 105) .init).1
    let r' := ((Demo.published : Impl ℚ).compare Demo.victim Demo.neighbor .cache
      (Demo.slowdownBy 150) .init).1
    (r.outcome.isVerdict = false ∨ r'.outcome.isVerdict = false → r'.outcome = r.outcome) ∧
    (∀ b, (Demo.published : Impl ℚ).baselines.find? r.baselineId = some b →
      (b.metricKind ∈ higherIsWorse → r.outcome.severity ≤ r'.outcome.severity) ∧
      (b.metricKind ∈ lowerIsWorse → r'.outcome.severity ≤ r.outcome.severity)) ∧
    r'.sampleCount = r.sampleCount ∧ r'.confidence = r.confidence ∧
      r'.attribution = r.attribution := by
  have hraised : Observation.Raised (Demo.observation 105) (Demo.observation 150) :=
    ⟨rfl, by decide +kernel, by decide +kernel⟩
  exact larger_values_shift_outcome Demo.published Demo.victim Demo.neighbor .cache .init
    (Demo.slowdownBy 105) (Demo.slowdownBy 150)
    (.cons hraised (.cons hraised (.cons hraised .nil)))

end Iobs
