import InterferenceObservatory.Selectivity

/-! The order of the observations and the entries of other workloads. The samples, the
confounders and the provenance of a comparison are taken from the entries of the affected
workload in any order; the age of the baseline and the interval of the episode are read off
the two ends of the whole list. -/

namespace Iobs
open DoubleOps

variable {F : Type} [DoubleOps F]

def startOf (obs : List (Observation F)) : Int64 := (obs.head?.map (·.timestampMs)).getD 0

structure Impl.SameComparison (st : Impl F) (affected associated : WorkloadDescriptor)
    (domain : InterferenceDomain) (policy : Policy F) (obs obs' : List (Observation F)) :
    Prop where
  agrees : (st.compare affected associated domain obs policy).1.Agrees
    (st.compare affected associated domain obs' policy).1
  freshness : (st.compare affected associated domain obs policy).1.freshness =
    (st.compare affected associated domain obs' policy).1.freshness
  episodes : (st.compare affected associated domain obs policy).2.episodes =
    (st.compare affected associated domain obs' policy).2.episodes

theorem samples_entriesOf (affected : WorkloadId) (kind : MetricKind)
    (obs : List (Observation F)) :
    samples affected kind (entriesOf affected obs) = samples affected kind obs := by
  unfold samples entriesOf
  rw [List.filter_filter]
  apply List.filter_congr
  intro o _
  unfold isSample
  cases o.workloadId == affected <;> simp

section Permuted

variable {affected : WorkloadId} {obs obs' : List (Observation F)}
  (hp : (entriesOf affected obs).Perm (entriesOf affected obs'))
include hp

theorem samples_perm (kind : MetricKind) :
    (samples affected kind obs).Perm (samples affected kind obs') := by
  rw [← samples_entriesOf, ← samples_entriesOf affected kind obs']
  exact hp.filter _

theorem aggregate_n_perm (kind : MetricKind) (associated : WorkloadId) :
    (aggregate affected kind associated obs).n = (aggregate affected kind associated obs').n := by
  rw [aggregate_n, aggregate_n, (samples_perm hp kind).length_eq]

theorem aggregate_overlap_perm (kind : MetricKind) (associated : WorkloadId) :
    (aggregate affected kind associated obs).overlap =
      (aggregate affected kind associated obs').overlap := by
  rw [Bool.eq_iff_iff, overlap_iff, overlap_iff]
  simp only [(samples_perm hp kind).mem_iff]

omit [DoubleOps F] in
theorem unresolvedConfounders_perm :
    (unresolvedConfounders affected obs).hard.length =
        (unresolvedConfounders affected obs').hard.length ∧
      (unresolvedConfounders affected obs).soft.length =
        (unresolvedConfounders affected obs').soft.length := by
  apply (unresolvedConfounders_collects affected obs).length_eq
    (unresolvedConfounders_collects affected obs')
  intro c
  unfold confoundersOf
  simp only [List.mem_flatMap, hp.mem_iff]

omit [DoubleOps F] in
theorem evidenceProvenance_perm :
    evidenceProvenance affected obs = evidenceProvenance affected obs' := by
  have heq : allMeasured affected obs = allMeasured affected obs' := by
    rw [Bool.eq_iff_iff, allMeasured_iff, allMeasured_iff]
    simp only [hp.mem_iff]
  unfold evidenceProvenance
  rw [heq]

end Permuted

omit [DoubleOps F] in
theorem sameDiscount_of_length {u u' : Unresolved} (hh : u.hard.length = u'.hard.length)
    (hs : u.soft.length = u'.soft.length) : u.SameDiscount u' ∧ u.SameRung u' := by
  have hempty : u.hard = [] ↔ u'.hard = [] := by
    rw [← List.length_eq_zero_iff, hh, List.length_eq_zero_iff]
  refine ⟨⟨hempty, fun _ => hs⟩, ⟨hempty, ?_⟩⟩
  rw [hh]

section Sums

theorem foldl_sum_perm {l l' : List ℚ} (h : l.Perm l') (f : ℚ → ℚ) (x : ℚ) :
    l.foldl (fun s v => s + f v) x = l'.foldl (fun s v => s + f v) x := by
  apply h.foldl_eq'
  intro a _ b _ z
  exact add_right_comm z (f a) (f b)

theorem degradationOf_perm {affected : WorkloadId} {obs obs' : List (Observation ℚ)}
    (hp : (entriesOf affected obs).Perm (entriesOf affected obs')) (b : Baseline ℚ)
    (associated : WorkloadId) :
    Impl.degradationOf b (aggregate affected b.metricKind associated obs) =
      Impl.degradationOf b (aggregate affected b.metricKind associated obs') := by
  have hvals : (aggregate affected b.metricKind associated obs).vals.Perm
      (aggregate affected b.metricKind associated obs').vals := by
    rw [aggregate_vals, aggregate_vals]
    exact (samples_perm hp b.metricKind).map _
  have hn := aggregate_n_perm hp b.metricKind associated
  have hmean : meanOf (aggregate affected b.metricKind associated obs).vals
      (aggregate affected b.metricKind associated obs).n =
        meanOf (aggregate affected b.metricKind associated obs').vals
          (aggregate affected b.metricKind associated obs').n := by
    unfold meanOf
    rw [hn]
    exact congrArg (· / _) (foldl_sum_perm hvals id _)
  have hvar : ∀ mean, varianceOf (aggregate affected b.metricKind associated obs).vals
      (aggregate affected b.metricKind associated obs).n mean =
        varianceOf (aggregate affected b.metricKind associated obs').vals
          (aggregate affected b.metricKind associated obs').n mean := by
    intro mean
    unfold varianceOf
    rw [hn]
    split_ifs
    · exact congrArg (· / _) (foldl_sum_perm hvals (fun v => (v - mean) * (v - mean)) _)
    · rfl
  unfold Impl.degradationOf
  dsimp only
  rw [hmean, hvar, hn]

end Sums

section Reordered

variable {st : Impl ℚ} {affected associated : WorkloadDescriptor} {domain : InterferenceDomain}
  {obs obs' : List (Observation ℚ)} {policy : Policy ℚ} {u : Baseline ℚ}

theorem verdictOn_agrees_perm (st : Impl ℚ) (associated : WorkloadDescriptor)
    (domain : InterferenceDomain) (policy : Policy ℚ) (u : Baseline ℚ)
    (hp : (entriesOf affected.id obs).Perm (entriesOf affected.id obs')) :
    (st.verdictOn affected associated domain obs policy u).Agrees
      (st.verdictOn affected associated domain obs' policy u) := by
  obtain ⟨hh, hs⟩ := unresolvedConfounders_perm hp
  obtain ⟨hdiscount, hrung⟩ := sameDiscount_of_length hh hs
  rw [Impl.verdictOn_agrees_iff (aggregate_n_perm hp _ _) (aggregate_overlap_perm hp _ _)
    (degradationOf_perm hp u associated.id)]
  exact ⟨confidenceOf_congr hdiscount u .current true _ policy, fun _ => hrung⟩

theorem episodeOf_eq_iff (st : Impl ℚ) (associated : WorkloadDescriptor)
    (domain : InterferenceDomain) (policy : Policy ℚ) (u : Baseline ℚ)
    (hp : (entriesOf affected.id obs).Perm (entriesOf affected.id obs')) :
    st.episodeOf affected associated domain obs
        (st.verdictOn affected associated domain obs policy u) =
      st.episodeOf affected associated domain obs'
        (st.verdictOn affected associated domain obs' policy u) ↔
      startOf obs = startOf obs' ∧ nowOf obs = nowOf obs' := by
  constructor
  · intro h
    exact ⟨congrArg InterferenceEpisode.startMs h, congrArg InterferenceEpisode.endMs h⟩
  · rintro ⟨hstart, hend⟩
    obtain ⟨hout, -, hdeg, hconf, hattr⟩ :=
      verdictOn_agrees_perm st associated domain policy u hp
    have hprov := evidenceProvenance_perm hp
    have hhead : (obs.head?.map (·.timestampMs)).getD 0 =
        (obs'.head?.map (·.timestampMs)).getD 0 := hstart
    simp only [Impl.episodeOf, hout, hdeg, hconf, hattr, hprov, hhead, hend]
    rfl

theorem compare_episodes_of_not_interferes
    (h : ∀ u, ¬ st.Interferes affected associated obs policy u) (domain : InterferenceDomain) :
    (st.compare affected associated domain obs policy).2.episodes = st.episodes := by
  rcases st.compare_cases affected associated domain obs policy with ⟨u, hadm, heq⟩ | ⟨heq, -⟩
  · have hint : ¬ (st.verdictOn affected associated domain obs policy u).outcome.isInterference =
        true := by
      rw [interferes_iff hadm]
      exact h u
    rw [heq, Impl.recordVerdict_episodes, if_neg hint]
  · rw [heq]

theorem Impl.Interferes.of_perm (h : st.Interferes affected associated obs policy u)
    (hp : (entriesOf affected.id obs).Perm (entriesOf affected.id obs'))
    (hu' : st.Aggregates affected obs' policy u) :
    st.Interferes affected associated obs' policy u := by
  have hwin := ((freshnessGate_ok ..).mp hu'.gate).2
  exact h.of_aggregate hwin (aggregate_n_perm hp.symm _ _) (aggregate_overlap_perm hp.symm _ _)
    (degradationOf_perm hp.symm u associated.id)

theorem compare_episodes_iff (hp : (entriesOf affected.id obs).Perm (entriesOf affected.id obs'))
    (hu : st.Aggregates affected obs policy u) (hu' : st.Aggregates affected obs' policy u)
    (domain : InterferenceDomain) :
    (st.compare affected associated domain obs policy).2.episodes =
        (st.compare affected associated domain obs' policy).2.episodes ↔
      (st.Interferes affected associated obs policy u →
        startOf obs = startOf obs' ∧ nowOf obs = nowOf obs') := by
  by_cases hint : st.Interferes affected associated obs policy u
  · have hint' := hint.of_perm hp hu'
    have hiff := episodeOf_eq_iff st associated domain policy u hp
    have hid : (st.episodeOf affected associated domain obs
        (st.verdictOn affected associated domain obs policy u)).id =
      (st.episodeOf affected associated domain obs'
        (st.verdictOn affected associated domain obs' policy u)).id := rfl
    rw [compare_of_interferes hint, compare_of_interferes hint']
    constructor
    · intro h _
      exact hiff.mp ((KeyedMap.insert_inj hid).mp h)
    · intro h
      exact (KeyedMap.insert_inj hid).mpr (hiff.mpr (h hint))
  · have hnone : ∀ v, ¬ st.Interferes affected associated obs policy v := by
      intro v hv
      obtain rfl : u = v := hu.unique hv.admitted.aggregates
      exact hint hv
    have hnone' : ∀ v, ¬ st.Interferes affected associated obs' policy v := by
      intro v hv
      obtain rfl : u = v := hu'.unique hv.admitted.aggregates
      exact hint (hv.of_perm hp.symm hu)
    rw [compare_episodes_of_not_interferes hnone, compare_episodes_of_not_interferes hnone']
    exact ⟨fun _ h => absurd h hint, fun _ => rfl⟩

theorem compareAgainst_outcome (st : Impl ℚ) (affected associated : WorkloadDescriptor)
    (domain : InterferenceDomain) (obs : List (Observation ℚ)) (policy : Policy ℚ)
    (u : Baseline ℚ) :
    (st.compareAgainst affected associated domain obs policy u .current true).1.freshness =
        .current ∧
      (st.compareAgainst affected associated domain obs policy u .current true).1.outcome ≠
        .revalidationRequired := by
  obtain ⟨e, he⟩ := st.compareAgainst_fst affected associated domain obs policy u
  rw [he]
  split_ifs with hfew
  · exact ⟨rfl, fun h => nomatch h⟩
  · refine ⟨rfl, ?_⟩
    intro h
    have hv := st.verdictOn_isVerdict affected associated domain obs policy u
    have hout : (st.verdictOn affected associated domain obs policy u).outcome =
        .revalidationRequired := h
    rw [hout] at hv
    cases hv

theorem gate_eq_of_same (hval : policy.isValid = true)
    (hsel : (selectBaseline st.baselines.values affected).usable = some u)
    (h : st.SameComparison affected associated domain policy obs obs') :
    freshnessGate u (nowOf obs) policy = freshnessGate u (nowOf obs') policy := by
  have hout := h.agrees.outcome
  have hfresh := h.freshness
  rcases hg : (freshnessGate u (nowOf obs) policy).2 with _ | _ <;>
    rcases hg' : (freshnessGate u (nowOf obs') policy).2 with _ | _
  · rw [Impl.compare_of_stale hval hsel hg, Impl.compare_of_stale hval hsel hg'] at hfresh
    exact Prod.ext hfresh (hg.trans hg'.symm)
  · rw [Impl.compare_of_stale hval hsel hg,
      Impl.compare_of_aggregates ⟨hval, hsel, hg'⟩] at hout
    exact absurd hout.symm (compareAgainst_outcome st affected associated domain obs' policy u).2
  · rw [Impl.compare_of_aggregates ⟨hval, hsel, hg⟩,
      Impl.compare_of_stale hval hsel hg'] at hout
    exact absurd hout (compareAgainst_outcome st affected associated domain obs policy u).2
  · rw [Impl.freshnessGate_of_ok hg, Impl.freshnessGate_of_ok hg']

end Reordered

/-- Two lists with the same entries of the affected workload, in any order and among any
others, give the same comparison exactly if their last entries put the selected baseline in
the same state of freshness and, where interference is found, they start and end at the same
times. -/
theorem same_comparison_iff (st : Impl ℚ) (affected associated : WorkloadDescriptor)
    (domain : InterferenceDomain) (policy : Policy ℚ) (obs obs' : List (Observation ℚ))
    (hp : (entriesOf affected.id obs).Perm (entriesOf affected.id obs')) :
    st.SameComparison affected associated domain policy obs obs' ↔
      (∀ u, policy.isValid = true →
        (selectBaseline st.baselines.values affected).usable = some u →
        freshnessGate u (nowOf obs) policy = freshnessGate u (nowOf obs') policy) ∧
      ∀ u, st.Interferes affected associated obs policy u →
        startOf obs = startOf obs' ∧ nowOf obs = nowOf obs' := by
  constructor
  · intro h
    have hgate : ∀ u, policy.isValid = true →
        (selectBaseline st.baselines.values affected).usable = some u →
        freshnessGate u (nowOf obs) policy = freshnessGate u (nowOf obs') policy := by
      intro u hval hsel
      exact gate_eq_of_same hval hsel h
    refine ⟨hgate, ?_⟩
    intro u hint
    have hu := hint.admitted.aggregates
    have hu' := hu.of_gate (hgate u hu.policyValid hu.selected)
    exact (compare_episodes_iff hp hu hu' domain).mp h.episodes hint
  · rintro ⟨hgate, hends⟩
    by_cases hagg : ∃ u, st.Aggregates affected obs policy u
    · obtain ⟨u, hu⟩ := hagg
      have hu' := hu.of_gate (hgate u hu.policyValid hu.selected)
      refine ⟨?_, ?_, (compare_episodes_iff hp hu hu' domain).mpr (hends u)⟩
      · rw [Impl.compare_of_aggregates hu, Impl.compare_of_aggregates hu',
          Impl.compareAgainst_agrees_iff]
        refine ⟨aggregate_n_perm hp _ _, ?_⟩
        intro _
        exact verdictOn_agrees_perm st associated domain policy u hp
      · rw [Impl.compare_of_aggregates hu, Impl.compare_of_aggregates hu',
          (compareAgainst_outcome ..).1, (compareAgainst_outcome ..).1]
    · rw [not_exists] at hagg
      have heq := Impl.compare_congr_of_gate hgate hagg associated domain
      constructor
      · rw [heq]
        exact ⟨rfl, rfl, rfl, rfl, rfl⟩
      · rw [heq]
      · rw [heq]

namespace Demo

def neighborObservation (time : Int64) : Observation F :=
  { (observation 150.0 : Observation F) with workloadId := ⟨2⟩, timestampMs := time }

end Demo

theorem same_comparison_iff_neighbor_between :
    (Demo.published : Impl ℚ).SameComparison Demo.victim Demo.neighbor .cache .init Demo.slowdown
      [Demo.observation 150.0, Demo.neighborObservation 5, Demo.observation 150.0,
        Demo.observation 150.0] := by
  refine (same_comparison_iff Demo.published Demo.victim Demo.neighbor .cache .init Demo.slowdown
    [Demo.observation 150.0, Demo.neighborObservation 5, Demo.observation 150.0,
      Demo.observation 150.0] (List.Perm.of_eq rfl)).mpr ⟨?_, ?_⟩
  · intro u _ _
    rfl
  · intro u _
    exact ⟨rfl, rfl⟩

theorem comparison_depends_on_order :
    ¬ ∀ (st : Impl ℚ) (affected associated : WorkloadDescriptor) (domain : InterferenceDomain)
      (policy : Policy ℚ) (obs obs' : List (Observation ℚ)),
      (entriesOf affected.id obs).Perm (entriesOf affected.id obs') →
      st.SameComparison affected associated domain policy obs obs' := by
  intro h
  have hsame := h Demo.published Demo.victim Demo.neighbor .cache .init
    (Demo.neighborObservation 10000000 :: Demo.slowdown)
    (Demo.slowdown ++ [Demo.neighborObservation 10000000]) (List.Perm.of_eq rfl)
  exact absurd hsame.agrees.outcome (by decide +kernel)

end Iobs
