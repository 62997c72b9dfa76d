import InterferenceObservatory.Grounds
import InterferenceObservatory.Restraint
import Mathlib.Algebra.Ring.Parity
import Mathlib.Tactic.Ring

/-! What `compare` takes from the entries of the affected workload. No loop looks at the worker
boot, the generations or the freshness of an entry, so stale evidence counts: its samples
always, its confounders when they tip the confidence or the attribution. -/

namespace Iobs
open DoubleOps

variable {F : Type} [DoubleOps F]

def entriesOf (affected : WorkloadId) (obs : List (Observation F)) : List (Observation F) :=
  obs.filter fun o => o.workloadId == affected

def confoundersOf (affected : WorkloadId) (obs : List (Observation F)) : List Confounder :=
  (entriesOf affected obs).flatMap (·.confounders)

omit [DoubleOps F] in
theorem allMeasured_iff (affected : WorkloadId) (obs : List (Observation F)) :
    allMeasured affected obs = true ↔
      ∀ o ∈ entriesOf affected obs, o.provenance = .measured ∨ o.provenance = .controlled := by
  simp only [allMeasured, entriesOf, List.all_eq_true, List.mem_filter, bne_iff_ne, ne_eq,
    Bool.or_eq_true, beq_iff_eq, and_imp]
  constructor
  · intro h o ho hw
    exact (h o ho).resolve_left (not_not.mpr hw)
  · intro h o ho
    by_cases hw : o.workloadId = affected
    · exact .inr (h o ho hw)
    · exact .inl hw

omit [DoubleOps F] in
theorem unresolvedConfounders_eq (affected : WorkloadId) (obs : List (Observation F)) :
    unresolvedConfounders affected obs =
      (confoundersOf affected obs).foldl noteConfounder ⟨[], []⟩ := by
  have hfold : ∀ u : Unresolved, obs.foldl (fun u o => if o.workloadId ≠ affected then u
      else o.confounders.foldl noteConfounder u) u =
        (confoundersOf affected obs).foldl noteConfounder u := by
    unfold confoundersOf entriesOf
    induction obs with
    | nil =>
      intro u
      rfl
    | cons o obs ih =>
      intro u
      rw [List.foldl_cons, ih]
      by_cases hw : o.workloadId = affected
      · rw [List.filter_cons_of_pos (by simpa using hw), List.flatMap_cons, List.foldl_append,
          if_neg (not_not.mpr hw)]
      · rw [List.filter_cons_of_neg (by simpa using hw), if_pos hw]
  exact hfold ⟨[], []⟩

structure Unresolved.Collects (u : Unresolved) (l : List Confounder) : Prop where
  hard_nodup : u.hard.Nodup
  soft_nodup : u.soft.Nodup
  mem_hard : ∀ c, c ∈ u.hard ↔ c ∈ l ∧ isHardConfounder c = true
  mem_soft : ∀ c, c ∈ u.soft ↔ c ∈ l ∧ isHardConfounder c = false

theorem mem_noteConfounder (u : Unresolved) (c d : Confounder) :
    (d ∈ (noteConfounder u c).hard ↔
      d ∈ u.hard ∨ d = c ∧ c ∉ u.soft ∧ isHardConfounder c = true) ∧
    (d ∈ (noteConfounder u c).soft ↔
      d ∈ u.soft ∨ d = c ∧ c ∉ u.hard ∧ isHardConfounder c = false) := by
  unfold noteConfounder
  split_ifs with hnew hhard
  · simp only [List.mem_append, List.mem_singleton]
    grind
  · simp only [List.mem_append, List.mem_singleton]
    grind
  · grind

theorem noteConfounder_nodup {u : Unresolved} (hh : u.hard.Nodup) (hs : u.soft.Nodup)
    (c : Confounder) : (noteConfounder u c).hard.Nodup ∧ (noteConfounder u c).soft.Nodup := by
  unfold noteConfounder
  split_ifs with hnew hhard
  · refine ⟨?_, hs⟩
    rw [← List.concat_eq_append]
    exact hh.concat hnew.1
  · refine ⟨hh, ?_⟩
    rw [← List.concat_eq_append]
    exact hs.concat hnew.2
  · exact ⟨hh, hs⟩

theorem noteConfounder_collects {u : Unresolved} {l : List Confounder} (h : u.Collects l)
    (c : Confounder) : (noteConfounder u c).Collects (l ++ [c]) := by
  obtain ⟨hhard, hsoft⟩ := noteConfounder_nodup h.hard_nodup h.soft_nodup c
  refine ⟨hhard, hsoft, ?_, ?_⟩
  · intro d
    rw [(mem_noteConfounder u c d).1, h.mem_hard, h.mem_soft, List.mem_append, List.mem_singleton]
    grind
  · intro d
    rw [(mem_noteConfounder u c d).2, h.mem_hard, h.mem_soft, List.mem_append, List.mem_singleton]
    grind

theorem foldl_noteConfounder_collects (l : List Confounder) :
    (l.foldl noteConfounder ⟨[], []⟩).Collects l := by
  induction l using List.reverseRecOn with
  | nil =>
    refine ⟨List.nodup_nil, List.nodup_nil, ?_, ?_⟩
    · intro c
      simp
    · intro c
      simp
  | append_singleton l c ih =>
    rw [List.foldl_append]
    exact noteConfounder_collects ih c

omit [DoubleOps F] in
theorem unresolvedConfounders_collects (affected : WorkloadId) (obs : List (Observation F)) :
    (unresolvedConfounders affected obs).Collects (confoundersOf affected obs) := by
  rw [unresolvedConfounders_eq]
  exact foldl_noteConfounder_collects _

theorem Unresolved.Collects.length_eq {u u' : Unresolved} {l l' : List Confounder}
    (h : u.Collects l) (h' : u'.Collects l') (hmem : ∀ c, c ∈ l ↔ c ∈ l') :
    u.hard.length = u'.hard.length ∧ u.soft.length = u'.soft.length := by
  constructor
  · apply List.Perm.length_eq
    rw [List.perm_ext_iff_of_nodup h.hard_nodup h'.hard_nodup]
    intro c
    rw [h.mem_hard, h'.mem_hard, hmem]
  · apply List.Perm.length_eq
    rw [List.perm_ext_iff_of_nodup h.soft_nodup h'.soft_nodup]
    intro c
    rw [h.mem_soft, h'.mem_soft, hmem]

def Unresolved.SameDiscount (u u' : Unresolved) : Prop :=
  (u.hard = [] ↔ u'.hard = []) ∧ (u.hard = [] → u.soft.length = u'.soft.length)

def Unresolved.SameRung (u u' : Unresolved) : Prop :=
  (u.hard = [] ↔ u'.hard = []) ∧ (2 ≤ u.hard.length ↔ 2 ≤ u'.hard.length)

theorem foldl_discount_congr {l l' : List Confounder} (h : l.length = l'.length) (x : F) :
    l.foldl (fun c _ => c * 0.85) x = l'.foldl (fun c _ => c * 0.85) x := by
  induction l generalizing l' x with
  | nil => rw [List.eq_nil_of_length_eq_zero h.symm]
  | cons c l ih =>
    cases l' with
    | nil => cases h
    | cons c' l' => exact ih (Nat.succ.inj h) _

theorem confidenceOf_congr {u u' : Unresolved} (h : u.SameDiscount u') (b : Baseline F)
    (fresh : Freshness) (freshOk : Bool) (n : UInt64) (policy : Policy F) :
    confidenceOf b fresh freshOk n policy u = confidenceOf b fresh freshOk n policy u' := by
  unfold confidenceOf
  dsimp only
  simp only [List.isEmpty_iff]
  by_cases hu : u.hard = []
  · rw [if_pos hu, if_pos (h.1.mp hu), foldl_discount_congr (h.2 hu)]
  · rw [if_neg hu, if_neg fun hu' => hu (h.1.mpr hu')]

theorem attributionOf_eq_iff (u u' : Unresolved) (overlap hasRecovery : Bool) :
    attributionOf overlap u hasRecovery = attributionOf overlap u' hasRecovery ↔
      (overlap = true → u.SameRung u') := by
  cases overlap with
  | false =>
    constructor
    · intro _ h
      cases h
    · intro _
      rfl
  | true =>
    simp only [attributionOf, Bool.not_true, Bool.false_eq_true, if_false, Bool.not_eq_true',
      ← Bool.not_eq_true, List.isEmpty_iff, Unresolved.SameRung, ge_iff_le, true_implies]
    by_cases hu : u.hard = [] <;> by_cases hu' : u'.hard = []
    · simp only [hu, hu', not_true_eq_false, if_false, List.length_nil, iff_self, and_self]
    · have hne : (if hasRecovery = true then AttributionStrength.strongCounterfactualEvidence
          else .controlledComparison) ≠
            if 2 ≤ u'.hard.length then .temporallyAssociated else .correlated := by
        split_ifs <;> decide
      simp only [hu, hu', not_true_eq_false, not_false_eq_true, if_false, if_true, hne, true_iff,
        false_and]
    · have hne : (if 2 ≤ u.hard.length then AttributionStrength.temporallyAssociated
          else .correlated) ≠ if hasRecovery = true then .strongCounterfactualEvidence
            else .controlledComparison := by
        split_ifs <;> decide
      simp only [hu, hu', not_true_eq_false, not_false_eq_true, if_false, if_true, hne, iff_true,
        false_and]
    · simp only [hu, hu', not_false_eq_true, if_true, iff_self, true_and]
      split_ifs with h h' h'
      · simp only [h, h']
      · simp only [h, h', true_iff]
      · simp only [h, h', iff_true]
      · simp only [h, h']

structure PairwiseInterference.Agrees (r r' : PairwiseInterference F) : Prop where
  outcome : r.outcome = r'.outcome
  samples : r.sampleCount = r'.sampleCount
  degradation : r.degradation = r'.degradation
  confidence : r.confidence = r'.confidence
  attribution : r.attribution = r'.attribution

namespace Impl

variable {st : Impl F} {affected associated : WorkloadDescriptor} {domain : InterferenceDomain}
  {obs obs' : List (Observation F)} {policy : Policy F} {usable : Baseline F}

theorem compare_congr_of_gate
    (hg : ∀ u, policy.isValid = true →
      (selectBaseline st.baselines.values affected).usable = some u →
      freshnessGate u (nowOf obs) policy = freshnessGate u (nowOf obs') policy)
    (hno : ∀ u, ¬ st.Aggregates affected obs policy u) (associated : WorkloadDescriptor)
    (domain : InterferenceDomain) :
    st.compare affected associated domain obs policy =
      st.compare affected associated domain obs' policy := by
  by_cases hp : policy.isValid = true
  · rcases hu : (selectBaseline st.baselines.values affected).usable with _ | u
    · simp only [compare, hu]
    · have hstale : (freshnessGate u (nowOf obs) policy).2 = false := by
        rw [Bool.eq_false_iff]
        intro hok
        exact hno u ⟨hp, hu, hok⟩
      have hstale' : (freshnessGate u (nowOf obs') policy).2 = false := by
        rw [← hg u hp hu]
        exact hstale
      rw [compare_of_stale hp hu hstale, compare_of_stale hp hu hstale', hg u hp hu]
  · simp only [compare, hp, Bool.not_false, if_true]

theorem compareAgainst_fst (st : Impl F) (affected associated : WorkloadDescriptor)
    (domain : InterferenceDomain) (obs : List (Observation F)) (policy : Policy F)
    (usable : Baseline F) :
    ∃ e, (st.compareAgainst affected associated domain obs policy usable .current true).1 =
      if (aggregate affected.id usable.metricKind associated.id obs).n = 0 ||
          (aggregate affected.id usable.metricKind associated.id obs).n < policy.minSamples then
        { st.compareInit affected associated domain with
          baselineId := usable.id
          sampleCount := (aggregate affected.id usable.metricKind associated.id obs).n
          freshness := .current
          outcome := .insufficientEvidence }
      else { st.verdictOn affected associated domain obs policy usable with episodeId := e } := by
  unfold compareAgainst
  dsimp only
  split_ifs with hn
  · exact ⟨⟨0⟩, rfl⟩
  · exact st.recordVerdict_fst affected associated domain obs _

theorem compareAgainst_agrees_iff (st : Impl F) (affected associated : WorkloadDescriptor)
    (domain : InterferenceDomain) (obs obs' : List (Observation F)) (policy : Policy F)
    (usable : Baseline F) :
    (st.compareAgainst affected associated domain obs policy usable .current true).1.Agrees
        (st.compareAgainst affected associated domain obs' policy usable .current true).1 ↔
      (aggregate affected.id usable.metricKind associated.id obs).n =
        (aggregate affected.id usable.metricKind associated.id obs').n ∧
      (¬ ((aggregate affected.id usable.metricKind associated.id obs).n = 0 ||
          (aggregate affected.id usable.metricKind associated.id obs).n < policy.minSamples) =
            true →
        (st.verdictOn affected associated domain obs policy usable).Agrees
          (st.verdictOn affected associated domain obs' policy usable)) := by
  obtain ⟨e, he⟩ := st.compareAgainst_fst affected associated domain obs policy usable
  obtain ⟨e', he'⟩ := st.compareAgainst_fst affected associated domain obs' policy usable
  rw [he, he']
  by_cases hn : (aggregate affected.id usable.metricKind associated.id obs).n =
      (aggregate affected.id usable.metricKind associated.id obs').n
  · rw [← hn]
    split_ifs with hfew
    · exact ⟨fun _ => ⟨rfl, fun h => absurd hfew h⟩, fun _ => ⟨rfl, rfl, rfl, rfl, rfl⟩⟩
    · constructor
      · intro h
        exact ⟨rfl, fun _ => ⟨h.outcome, h.samples, h.degradation, h.confidence, h.attribution⟩⟩
      · intro h
        obtain ⟨hout, hcount, hdeg, hconf, hattr⟩ := h.2 hfew
        exact ⟨hout, hcount, hdeg, hconf, hattr⟩
  · constructor
    · intro h
      have hcount := h.samples
      exfalso
      apply hn
      split_ifs at hcount <;> exact hcount
    · intro h
      exact absurd h.1 hn

theorem verdictOn_agrees_iff {st : Impl F}
    (hn : (aggregate affected.id usable.metricKind associated.id obs).n =
      (aggregate affected.id usable.metricKind associated.id obs').n)
    (hover : (aggregate affected.id usable.metricKind associated.id obs).overlap =
      (aggregate affected.id usable.metricKind associated.id obs').overlap)
    (hdeg : degradationOf usable (aggregate affected.id usable.metricKind associated.id obs) =
      degradationOf usable (aggregate affected.id usable.metricKind associated.id obs')) :
    (st.verdictOn affected associated domain obs policy usable).Agrees
        (st.verdictOn affected associated domain obs' policy usable) ↔
      confidenceOf usable .current true
          (aggregate affected.id usable.metricKind associated.id obs).n policy
          (unresolvedConfounders affected.id obs) =
        confidenceOf usable .current true
          (aggregate affected.id usable.metricKind associated.id obs).n policy
          (unresolvedConfounders affected.id obs') ∧
      ((aggregate affected.id usable.metricKind associated.id obs).overlap = true →
        (unresolvedConfounders affected.id obs).SameRung
          (unresolvedConfounders affected.id obs')) := by
  rw [← attributionOf_eq_iff _ _ _ (st.recoveries.contains ⟨affected.id, associated.id, domain⟩)]
  constructor
  · intro h
    have hconf := h.confidence
    have hattr := h.attribution
    simp only [verdictOn, verdict, ← hn, ← hover] at hconf hattr
    exact ⟨hconf, hattr⟩
  · intro h
    refine ⟨?_, hn, hdeg, ?_, ?_⟩
    · simp only [verdictOn, verdict, hover, hdeg]
    · simp only [verdictOn, verdict, ← hn]
      exact h.1
    · simp only [verdictOn, verdict, ← hover]
      exact h.2

end Impl

def isCurrentEvidence (affected : WorkloadDescriptor) (o : Observation F) : Bool :=
  o.workloadId != affected.id || (o.workerBoot == affected.workerBoot &&
    o.workloadGeneration == affected.generation && o.deviceId == affected.deviceId &&
    o.deviceGeneration == affected.deviceGeneration && o.freshness == .current)

def currentEvidence (affected : WorkloadDescriptor) (obs : List (Observation F)) :
    List (Observation F) := obs.filter (isCurrentEvidence affected)

theorem samples_currentEvidence (affected : WorkloadDescriptor) (kind : MetricKind)
    (obs : List (Observation F)) : samples affected.id kind (currentEvidence affected obs) =
      (samples affected.id kind obs).filter (isCurrentEvidence affected) := by
  unfold samples currentEvidence
  rw [List.filter_filter, List.filter_filter]
  apply List.filter_congr
  intro o _
  exact Bool.and_comm ..

section Stale

variable (st : Impl F) (affected associated : WorkloadDescriptor) (domain : InterferenceDomain)
  (obs : List (Observation F)) (policy : Policy F)

/-- No stale entry is a sample, and the confounders of stale entries leave the confidence
`unmoved` and, if the samples overlap, the rung of the attribution. -/
def Impl.StaleIsIdle (unmoved : Baseline F → UInt64 → Unresolved → Unresolved → Prop) : Prop :=
  ∀ u, st.Aggregates affected obs policy u →
    (∀ o ∈ samples affected.id u.metricKind obs, isCurrentEvidence affected o = true) ∧
    (st.Admitted affected associated obs policy u →
      unmoved u (aggregate affected.id u.metricKind associated.id obs).n
        (unresolvedConfounders affected.id obs)
        (unresolvedConfounders affected.id (currentEvidence affected obs)) ∧
      ((aggregate affected.id u.metricKind associated.id obs).overlap = true →
        (unresolvedConfounders affected.id obs).SameRung
          (unresolvedConfounders affected.id (currentEvidence affected obs))))

variable {st affected associated domain obs policy}

theorem samples_currentEvidence_eq {kind : MetricKind}
    (h : ∀ o ∈ samples affected.id kind obs, isCurrentEvidence affected o = true) :
    samples affected.id kind obs = samples affected.id kind (currentEvidence affected obs) := by
  rw [samples_currentEvidence, List.filter_eq_self.mpr h]

theorem agrees_of_staleIsIdle (hnow : nowOf (currentEvidence affected obs) = nowOf obs)
    (h : st.StaleIsIdle affected associated obs policy fun u n v v' =>
      confidenceOf u .current true n policy v = confidenceOf u .current true n policy v') :
    (st.compare affected associated domain obs policy).1.Agrees
      (st.compare affected associated domain (currentEvidence affected obs) policy).1 := by
  by_cases hagg : ∃ u, st.Aggregates affected obs policy u
  · obtain ⟨u, hu⟩ := hagg
    obtain ⟨hcurrent, hconf⟩ := h u hu
    obtain ⟨hv, hn, hov⟩ := aggregate_congr associated.id (samples_currentEvidence_eq hcurrent)
    have hu' : st.Aggregates affected (currentEvidence affected obs) policy u :=
      hu.of_gate (by rw [hnow])
    rw [Impl.compare_of_aggregates hu, Impl.compare_of_aggregates hu',
      Impl.compareAgainst_agrees_iff]
    refine ⟨hn, ?_⟩
    intro hfew
    rw [Impl.verdictOn_agrees_iff hn hov (degradationOf_congr u hv hn)]
    exact hconf (hu.admitted hfew)
  · rw [not_exists] at hagg
    rw [Impl.compare_congr_of_gate (fun u _ _ => by rw [hnow]) hagg]
    exact ⟨rfl, rfl, rfl, rfl, rfl⟩

theorem staleIsIdle_of_agrees (hlen : obs.length < 2 ^ 64)
    (hnow : nowOf (currentEvidence affected obs) = nowOf obs)
    (h : (st.compare affected associated domain obs policy).1.Agrees
      (st.compare affected associated domain (currentEvidence affected obs) policy).1) :
    st.StaleIsIdle affected associated obs policy fun u n v v' =>
      confidenceOf u .current true n policy v = confidenceOf u .current true n policy v' := by
  intro u hu
  have hu' : st.Aggregates affected (currentEvidence affected obs) policy u :=
    hu.of_gate (by rw [hnow])
  rw [Impl.compare_of_aggregates hu, Impl.compare_of_aggregates hu',
    Impl.compareAgainst_agrees_iff] at h
  obtain ⟨hn, hverdict⟩ := h
  -- one stale sample less is one sample less
  have hlength : ((samples affected.id u.metricKind obs).filter
      (isCurrentEvidence affected)).length = (samples affected.id u.metricKind obs).length := by
    have hle : (currentEvidence affected obs).length < 2 ^ 64 :=
      Nat.lt_of_le_of_lt (List.length_filter_le ..) hlen
    rw [← samples_currentEvidence, ← aggregate_n_toNat _ _ associated.id hle, ← hn,
      aggregate_n_toNat _ _ _ hlen]
  have hcurrent := List.length_filter_eq_length_iff.mp hlength
  refine ⟨hcurrent, ?_⟩
  intro hadm
  obtain ⟨hv, hn, hov⟩ := aggregate_congr associated.id (samples_currentEvidence_eq hcurrent)
  exact (Impl.verdictOn_agrees_iff hn hov (degradationOf_congr u hv hn)).mp
    (hverdict hadm.notTooFew)

theorem Impl.StaleIsIdle.mono
    {unmoved unmoved' : Baseline F → UInt64 → Unresolved → Unresolved → Prop}
    (hm : ∀ u v v', st.Admitted affected associated obs policy u →
      unmoved u (aggregate affected.id u.metricKind associated.id obs).n v v' →
      unmoved' u (aggregate affected.id u.metricKind associated.id obs).n v v')
    (h : st.StaleIsIdle affected associated obs policy unmoved) :
    st.StaleIsIdle affected associated obs policy unmoved' := by
  intro u hu
  obtain ⟨hcurrent, hconf⟩ := h u hu
  refine ⟨hcurrent, ?_⟩
  intro hadm
  exact ⟨hm u _ _ hadm (hconf hadm).1, (hconf hadm).2⟩

end Stale

def discountOf (u : Unresolved) : ℚ := if u.hard = [] then 0.85 ^ u.soft.length else 0.2

def discounted (policy : Policy ℚ) (b : Baseline ℚ) (n : UInt64) (u : Unresolved) : ℚ :=
  b.confidence * DoubleOps.min 1.0 (ofUInt64 n / ofUInt64 (policy.minSamples * 2)) * discountOf u

theorem foldl_discount_eq (l : List Confounder) (x : ℚ) :
    l.foldl (fun c _ => c * 0.85) x = x * 0.85 ^ l.length := by
  induction l generalizing x with
  | nil => rw [List.foldl_nil, List.length_nil, pow_zero, mul_one]
  | cons c l ih => rw [List.foldl_cons, ih, List.length_cons, pow_succ', mul_assoc]

theorem discountOf_pos (u : Unresolved) : 0 < discountOf u := by
  unfold discountOf
  split_ifs
  · positivity
  · norm_num

theorem pow_ne_fifth (k : ℕ) : (0.85 : ℚ) ^ k ≠ 0.2 := by
  intro h
  have heq : 5 * 17 ^ k = 20 ^ k := by
    have hq : (5 : ℚ) * 17 ^ k = 20 ^ k := by
      have h85 : (0.85 : ℚ) = 17 / 20 := by norm_num
      have h20 : (20 : ℚ) ^ k ≠ 0 := pow_ne_zero k (by norm_num)
      rw [h85, div_pow, div_eq_iff h20] at h
      rw [h]
      ring
    exact_mod_cast hq
  -- an odd number is not a power of twenty
  have hodd : Odd (5 * 17 ^ k) := by
    apply Odd.mul
    · decide
    · exact Odd.pow (by decide)
  rw [heq] at hodd
  rcases k with _ | k
  · norm_num at heq
  · rw [Nat.odd_pow_iff (Nat.succ_ne_zero k)] at hodd
    exact absurd hodd (by decide)

theorem discountOf_eq_iff (u u' : Unresolved) :
    discountOf u = discountOf u' ↔ u.SameDiscount u' := by
  have hinj : Function.Injective fun k : ℕ => (0.85 : ℚ) ^ k :=
    pow_right_injective₀ (by norm_num) (by norm_num)
  unfold discountOf Unresolved.SameDiscount
  by_cases hu : u.hard = [] <;> by_cases hu' : u'.hard = []
  · simp only [hu, hu', if_true, true_and, true_implies]
    exact hinj.eq_iff
  · simp only [hu, hu', if_true, if_false, iff_false, not_true_eq_false, false_and]
    exact pow_ne_fifth _
  · simp only [hu, hu', if_true, if_false, iff_true, iff_false, false_and]
    exact (pow_ne_fifth _).symm
  · simp only [hu, hu', if_false, iff_self, false_implies, and_self]

theorem confidenceOf_rat {b : Baseline ℚ} (hb : 0 ≤ b.confidence) (n : UInt64) (policy : Policy ℚ)
    (u : Unresolved) :
    confidenceOf b .current true n policy u = Min.min (discounted policy b n u) 1 := by
  have hfresh : (true && (Freshness.current == Freshness.stale)) = false := rfl
  have hdisc := (discipline_bounds n (policy.minSamples * 2)).1
  have hnonneg : 0 ≤ discounted policy b n u :=
    mul_nonneg (mul_nonneg hb hdisc) (discountOf_pos u).le
  have hraw : (if u.hard.isEmpty then u.soft.foldl (fun c _ => c * 0.85)
      (b.confidence * DoubleOps.min 1.0 (ofUInt64 n / ofUInt64 (policy.minSamples * 2)))
      else b.confidence * DoubleOps.min 1.0 (ofUInt64 n / ofUInt64 (policy.minSamples * 2)) * 0.2) =
        discounted policy b n u := by
    unfold discounted discountOf
    simp only [List.isEmpty_iff, foldl_discount_eq, mul_ite]
  unfold confidenceOf
  simp only [hfresh, Bool.false_eq_true, if_false]
  rw [hraw, clamp]
  simp only [lit_zero, lit_one, ltb_rat, decide_eq_true_eq, if_neg (not_lt.mpr hnonneg)]
  split_ifs with h
  · exact (min_eq_right h.le).symm
  · exact (min_eq_left (not_lt.mp h)).symm

section Exact

variable {st : Impl ℚ} {affected associated : WorkloadDescriptor} {obs : List (Observation ℚ)}
  {policy : Policy ℚ} {b : Baseline ℚ}

theorem discipline_pos (hadm : st.Admitted affected associated obs policy b)
    (hlen : obs.length < 2 ^ 63) :
    0 < DoubleOps.min (1.0 : ℚ) (ofUInt64 (aggregate affected.id b.metricKind associated.id obs).n /
      ofUInt64 (policy.minSamples * 2)) := by
  have hcount := aggregate_n_toNat affected.id b.metricKind associated.id
    (hlen.trans (by norm_num : 2 ^ 63 < 2 ^ 64))
  have hn : (aggregate affected.id b.metricKind associated.id obs).n.toNat < 2 ^ 63 := by
    rw [hcount]
    exact Nat.lt_of_le_of_lt (length_samples_le ..) hlen
  have hpos : 0 < (aggregate affected.id b.metricKind associated.id obs).n.toNat :=
    Nat.pos_of_ne_zero fun h0 => hadm.nonempty (UInt64.toNat_inj.mp h0)
  have hmin : 1 ≤ policy.minSamples.toNat := by
    have hp := hadm.policyValid
    simp only [Policy.isValid, Bool.and_eq_true, decide_eq_true_eq, ge_iff_le] at hp
    exact UInt64.le_iff_toNat_le.mp hp.1.1.2
  have henough := UInt64.le_iff_toNat_le.mp hadm.enough
  have hdouble : (policy.minSamples * 2).toNat = policy.minSamples.toNat * 2 := by
    rw [UInt64.toNat_mul]
    apply Nat.mod_eq_of_lt
    rw [show (2 : UInt64).toNat = 2 from rfl]
    omega
  rw [min_rat, lit_one, ofUInt64_rat, ofUInt64_rat, hdouble, lt_inf_iff]
  refine ⟨zero_lt_one, ?_⟩
  apply div_pos
  · exact_mod_cast hpos
  · exact_mod_cast (show 0 < policy.minSamples.toNat * 2 by omega)

theorem confidenceOf_eq_iff (hadm : st.Admitted affected associated obs policy b)
    (hlen : obs.length < 2 ^ 63) (u u' : Unresolved) :
    let n := (aggregate affected.id b.metricKind associated.id obs).n
    confidenceOf b .current true n policy u = confidenceOf b .current true n policy u' ↔
      u.SameDiscount u' ∨ 1 ≤ discounted policy b n u ∧ 1 ≤ discounted policy b n u' := by
  intro n
  have hconf := hadm.confidence_pos
  have hx : 0 < b.confidence * DoubleOps.min 1.0 (ofUInt64 n / ofUInt64 (policy.minSamples * 2)) :=
    mul_pos hconf (discipline_pos hadm hlen)
  have hiff : discounted policy b n u = discounted policy b n u' ↔ u.SameDiscount u' := by
    rw [← discountOf_eq_iff]
    unfold discounted
    exact mul_right_inj' hx.ne'
  rw [confidenceOf_rat hconf.le, confidenceOf_rat hconf.le, ← hiff]
  constructor
  · intro h
    by_cases hu : 1 ≤ discounted policy b n u <;> by_cases hu' : 1 ≤ discounted policy b n u'
    · exact .inr ⟨hu, hu'⟩
    · rw [min_eq_right hu, min_eq_left (not_le.mp hu').le] at h
      exact absurd h.le hu'
    · rw [min_eq_left (not_le.mp hu).le, min_eq_right hu'] at h
      exact absurd h.ge hu
    · rw [min_eq_left (not_le.mp hu).le, min_eq_left (not_le.mp hu').le] at h
      exact .inl h
  · rintro (heq | ⟨hu, hu'⟩)
    · rw [heq]
    · rw [min_eq_right hu, min_eq_right hu']

end Exact

/-- Stale evidence does not contribute to a comparison if no stale entry is a sample and the
confounders of stale entries change neither the discount of the confidence nor the rung of
the attribution. Apart from a changed discount that rounds or is cut to the same confidence
this is necessary too; over exact numbers only confidences above one are cut to the same. -/
theorem stale_evidence_idle_iff (affected associated : WorkloadDescriptor)
    (domain : InterferenceDomain) :
    (∀ (F : Type) [DoubleOps F] (st : Impl F) (obs : List (Observation F)) (policy : Policy F),
      nowOf (currentEvidence affected obs) = nowOf obs →
      (st.StaleIsIdle affected associated obs policy (fun _ _ u u' => u.SameDiscount u') →
        (st.compare affected associated domain obs policy).1.Agrees
          (st.compare affected associated domain (currentEvidence affected obs) policy).1) ∧
      (obs.length < 2 ^ 64 →
        ((st.compare affected associated domain obs policy).1.Agrees
            (st.compare affected associated domain (currentEvidence affected obs) policy).1 ↔
          st.StaleIsIdle affected associated obs policy fun b n u u' =>
            confidenceOf b .current true n policy u =
              confidenceOf b .current true n policy u'))) ∧
    ∀ (st : Impl ℚ) (obs : List (Observation ℚ)) (policy : Policy ℚ), obs.length < 2 ^ 63 →
      nowOf (currentEvidence affected obs) = nowOf obs →
      ((st.compare affected associated domain obs policy).1.Agrees
          (st.compare affected associated domain (currentEvidence affected obs) policy).1 ↔
        st.StaleIsIdle affected associated obs policy fun b n u u' => u.SameDiscount u' ∨
          1 ≤ discounted policy b n u ∧ 1 ≤ discounted policy b n u') := by
  constructor
  · intro F _ st obs policy hnow
    constructor
    · intro h
      apply agrees_of_staleIsIdle hnow
      apply h.mono
      intro u v v' _ hsame
      exact confidenceOf_congr hsame u .current true _ policy
    · intro hlen
      exact ⟨staleIsIdle_of_agrees hlen hnow, agrees_of_staleIsIdle hnow⟩
  · intro st obs policy hlen hnow
    constructor
    · intro h
      have hlen' : obs.length < 2 ^ 64 := hlen.trans (by norm_num)
      apply (staleIsIdle_of_agrees hlen' hnow h).mono
      intro u v v' hadm heq
      exact (confidenceOf_eq_iff hadm hlen v v').mp heq
    · intro h
      apply agrees_of_staleIsIdle hnow
      apply h.mono
      intro u v v' hadm hsame
      exact (confidenceOf_eq_iff hadm hlen v v').mpr hsame

namespace Demo

def staleObservation (kind : MetricKind) : Observation F :=
  { (observation 150.0 : Observation F) with
    workerBoot := ⟨9⟩
    measurement := .mk₂ kind 150.0 }

end Demo

theorem stale_evidence_idle_iff_other_metric :
    ((Demo.published : Impl Double).compare Demo.victim Demo.neighbor .cache
      (Demo.staleObservation .throughput :: Demo.slowdown) .init).1.Agrees
    ((Demo.published : Impl Double).compare Demo.victim Demo.neighbor .cache
      (currentEvidence Demo.victim (Demo.staleObservation .throughput :: Demo.slowdown))
      .init).1 := by
  refine ((stale_evidence_idle_iff Demo.victim Demo.neighbor .cache).1 Double Demo.published
    (Demo.staleObservation .throughput :: Demo.slowdown) .init (by decide +kernel)).1 ?_
  intro u hu
  have hb : (selectBaseline (Demo.published : Impl Double).baselines.values Demo.victim).usable =
      some Demo.baseline := by decide +kernel
  rw [hu.selected, Option.some.injEq] at hb
  rw [hb]
  refine ⟨by decide +kernel, fun _ => ⟨?_, fun _ => ?_⟩⟩
  · unfold Unresolved.SameDiscount
    decide +kernel
  · unfold Unresolved.SameRung
    decide +kernel

theorem stale_evidence_counts :
    ¬ ∀ (st : Impl Double) (affected associated : WorkloadDescriptor) (domain : InterferenceDomain)
      (obs : List (Observation Double)) (policy : Policy Double),
      nowOf (currentEvidence affected obs) = nowOf obs →
      (st.compare affected associated domain obs policy).1.Agrees
        (st.compare affected associated domain (currentEvidence affected obs) policy).1 := by
  intro h
  have hagree := h Demo.published Demo.victim Demo.neighbor .cache
    [Demo.staleObservation .latency, Demo.staleObservation .latency, Demo.observation 150.0] .init
    (by decide +kernel)
  exact absurd hagree.outcome (by decide +kernel)

end Iobs
