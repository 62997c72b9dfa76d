import InterferenceObservatory.Compare

/-! What `compare` computes, gate by gate: which baseline its loop selects, which
observations it aggregates, and that it either records a verdict on an admitted
baseline or leaves the state alone. -/

namespace Iobs
open DoubleOps

variable {F : Type} [DoubleOps F]

structure Candidate (affected : WorkloadDescriptor) (b : Baseline F) : Prop where
  workload : b.workloadId = affected.id
  device : b.deviceId = affected.deviceId
  usable : b.isUsable = true
  binding : b.bindingMatches affected.binding = true

theorem selectStep_candidate {affected : WorkloadDescriptor} {b : Baseline F}
    (hc : Candidate affected b) (s : Selection F) :
    (selectStep affected s b).usable =
      match s.usable with
      | none => some b
      | some u => if newer b u then some b else some u := by
  have hboth : (b.isUsable && b.bindingMatches affected.binding) = true := by
    rw [hc.usable, hc.binding, Bool.and_self]
  rw [selectStep, if_pos ⟨hc.workload, hc.device⟩]
  exact if_pos hboth

theorem selectStep_not_candidate {affected : WorkloadDescriptor} {b : Baseline F}
    (hc : ¬ Candidate affected b) (s : Selection F) :
    (selectStep affected s b).usable = s.usable := by
  by_cases hid : b.workloadId = affected.id ∧ b.deviceId = affected.deviceId
  · rw [selectStep, if_pos hid]
    apply if_neg
    intro hb
    apply hc
    rw [Bool.and_eq_true] at hb
    exact ⟨hid.1, hid.2, hb.1, hb.2⟩
  · rw [selectStep, if_neg hid]

theorem selectStep_usable {affected : WorkloadDescriptor} {s : Selection F} {b u : Baseline F}
    (h : (selectStep affected s b).usable = some u) :
    s.usable = some u ∨ u = b ∧ Candidate affected b := by
  by_cases hc : Candidate affected b
  · rw [selectStep_candidate hc] at h
    rcases hs : s.usable with _ | v
    · simp only [hs, Option.some.injEq] at h
      exact .inr ⟨h.symm, hc⟩
    · simp only [hs] at h
      split_ifs at h
      · exact .inr ⟨(Option.some.inj h).symm, hc⟩
      · exact .inl h
  · rw [selectStep_not_candidate hc] at h
    exact .inl h

theorem foldl_selectStep_usable {affected : WorkloadDescriptor} {l : List (Baseline F)}
    {s : Selection F} {u : Baseline F} (h : (l.foldl (selectStep affected) s).usable = some u) :
    s.usable = some u ∨ u ∈ l ∧ Candidate affected u := by
  induction l generalizing s with
  | nil => exact .inl h
  | cons b l ih =>
    rcases ih h with hs | ⟨hu, hc⟩
    · rcases selectStep_usable hs with hs | ⟨rfl, hc⟩
      · exact .inl hs
      · exact .inr ⟨List.mem_cons_self .., hc⟩
    · exact .inr ⟨List.mem_cons_of_mem _ hu, hc⟩

theorem selectBaseline_usable {affected : WorkloadDescriptor} {l : List (Baseline F)}
    {u : Baseline F} (h : (selectBaseline l affected).usable = some u) :
    u ∈ l ∧ Candidate affected u := by
  rcases foldl_selectStep_usable h with hs | hu
  · cases hs
  · exact hu

theorem selectStep_usable_isSome {affected : WorkloadDescriptor} {s : Selection F} {b : Baseline F}
    (h : s.usable.isSome ∨ Candidate affected b) : (selectStep affected s b).usable.isSome := by
  by_cases hc : Candidate affected b
  · rw [selectStep_candidate hc]
    rcases s.usable with _ | v
    · rfl
    · dsimp only
      split_ifs <;> rfl
  · rw [selectStep_not_candidate hc]
    exact h.resolve_right hc

theorem foldl_selectStep_usable_isSome {affected : WorkloadDescriptor} {l : List (Baseline F)}
    {s : Selection F} (h : s.usable.isSome ∨ ∃ b ∈ l, Candidate affected b) :
    (l.foldl (selectStep affected) s).usable.isSome := by
  induction l generalizing s with
  | nil => simpa using h
  | cons b l ih =>
    apply ih
    rcases h with h | ⟨c, hc, hcand⟩
    · exact .inl (selectStep_usable_isSome (.inl h))
    · rcases List.mem_cons.mp hc with rfl | hc
      · exact .inl (selectStep_usable_isSome (.inr hcand))
      · exact .inr ⟨c, hc, hcand⟩

theorem selectStep_anyMatch {affected : WorkloadDescriptor} {s : Selection F} {b : Baseline F}
    (h : s.usable.isSome → s.anyMatch.isSome) :
    (selectStep affected s b).usable.isSome → (selectStep affected s b).anyMatch.isSome := by
  by_cases hid : b.workloadId = affected.id ∧ b.deviceId = affected.deviceId
  · intro _
    rw [selectStep, if_pos hid]
    rcases s.anyMatch with _ | v <;> rfl
  · rw [selectStep, if_neg hid]
    exact h

theorem selectBaseline_anyMatch {affected : WorkloadDescriptor} {l : List (Baseline F)}
    (h : (selectBaseline l affected).usable.isSome) :
    (selectBaseline l affected).anyMatch.isSome := by
  -- invariant of the loop: whatever is usable has been noted as a match
  have hfold : ∀ (l : List (Baseline F)) (s : Selection F), (s.usable.isSome → s.anyMatch.isSome) →
      (l.foldl (selectStep affected) s).usable.isSome →
      (l.foldl (selectStep affected) s).anyMatch.isSome := by
    intro l
    induction l with
    | nil =>
      intro s hs
      exact hs
    | cons b l ih =>
      intro s hs
      exact ih _ (selectStep_anyMatch hs)
  exact hfold l _ (fun h => by cases h) h

theorem selectBaseline_unique {affected : WorkloadDescriptor} {l : List (Baseline F)}
    {b : Baseline F} (hb : b ∈ l) (hc : Candidate affected b)
    (huniq : ∀ b' ∈ l, b'.workloadId = affected.id → b'.deviceId = affected.deviceId → b' = b) :
    (selectBaseline l affected).usable = some b := by
  have hsome : (selectBaseline l affected).usable.isSome :=
    foldl_selectStep_usable_isSome (.inr ⟨b, hb, hc⟩)
  obtain ⟨u, hu⟩ := Option.isSome_iff_exists.mp hsome
  obtain ⟨hmem, hcu⟩ := selectBaseline_usable hu
  rw [hu, huniq u hmem hcu.workload hcu.device]

def isSample (affected : WorkloadId) (kind : MetricKind) (o : Observation F) : Bool :=
  o.workloadId == affected && o.measurement.kind == kind && o.measurement.isValid

def samples (affected : WorkloadId) (kind : MetricKind) (obs : List (Observation F)) :
    List (Observation F) := obs.filter (isSample affected kind)

theorem aggregateStep_eq (affected : WorkloadId) (kind : MetricKind) (associated : WorkloadId)
    (a : Aggregate F) (o : Observation F) :
    aggregateStep affected kind associated a o =
      if isSample affected kind o then
        let tail := o.measurement.hasP95 && ltb a.p95 o.measurement.p95
        { vals := a.vals ++ [o.measurement.value]
          p95 := if tail then o.measurement.p95 else a.p95
          hasP95 := tail || a.hasP95
          overlap := a.overlap || o.coRunPeers.any (· == associated)
          n := a.n + 1 }
      else a := by
  unfold aggregateStep isSample
  by_cases hw : o.workloadId = affected
  · by_cases hk : o.measurement.kind = kind
    · cases hv : o.measurement.isValid <;> simp [hw, hk]
    · simp [hw, hk]
  · simp [hw]

section Fold

variable (affected : WorkloadId) (kind : MetricKind) (associated : WorkloadId)

theorem foldl_aggregateStep (obs : List (Observation F)) (a : Aggregate F) :
    let r := obs.foldl (aggregateStep affected kind associated) a
    r.vals = a.vals ++ (samples affected kind obs).map (·.measurement.value) ∧
    r.n = a.n + UInt64.ofNat (samples affected kind obs).length ∧
    r.overlap = (a.overlap || (samples affected kind obs).any
      fun o => o.coRunPeers.any (· == associated)) := by
  induction obs generalizing a with
  | nil => simp [samples]
  | cons o obs ih =>
    obtain ⟨hv, hn, ho⟩ := ih (aggregateStep affected kind associated a o)
    simp only [List.foldl_cons]
    rw [hv, hn, ho, aggregateStep_eq]
    by_cases hs : isSample affected kind o = true
    · have hf : samples affected kind (o :: obs) = o :: samples affected kind obs :=
        List.filter_cons_of_pos hs
      simp only [hs, if_true, hf, List.map_cons, List.length_cons, List.any_cons, List.append_assoc,
        List.singleton_append, Bool.or_assoc, true_and, and_true]
      rw [Nat.add_comm, UInt64.ofNat_add, UInt64.add_assoc]
      rfl
    · have hf : samples affected kind (o :: obs) = samples affected kind obs :=
        List.filter_cons_of_neg hs
      simp only [hs, if_false, hf, Bool.false_eq_true, true_and]

theorem aggregate_vals (obs : List (Observation F)) :
    (aggregate affected kind associated obs).vals =
      (samples affected kind obs).map (·.measurement.value) :=
  (foldl_aggregateStep affected kind associated obs _).1

theorem aggregate_n (obs : List (Observation F)) :
    (aggregate affected kind associated obs).n =
      UInt64.ofNat (samples affected kind obs).length := by
  have h := (foldl_aggregateStep affected kind associated obs ⟨[], 0.0, false, false, 0⟩).2.1
  rw [UInt64.zero_add] at h
  exact h

theorem aggregate_overlap (obs : List (Observation F)) :
    (aggregate affected kind associated obs).overlap = (samples affected kind obs).any
      fun o => o.coRunPeers.any (· == associated) := by
  have h := (foldl_aggregateStep affected kind associated obs ⟨[], 0.0, false, false, 0⟩).2.2
  rw [Bool.false_or] at h
  exact h

end Fold

def Outcome.isVerdict (o : Outcome) : Bool := o = .noInterferenceDetected || o.isInterference

def gateOutcomes : List Outcome :=
  [.unknown, .insufficientEvidence, .baselineInvalid, .revalidationRequired]

theorem gateOutcomes_isVerdict {o : Outcome} (h : o ∈ gateOutcomes) : o.isVerdict = false := by
  simp only [gateOutcomes, List.mem_cons, List.not_mem_nil, or_false] at h
  rcases h with rfl | rfl | rfl | rfl <;> rfl

namespace Impl

/-- Everything the gates of `compare` ask of the baseline it goes on with. -/
structure Admitted (st : Impl F) (affected associated : WorkloadDescriptor)
    (obs : List (Observation F)) (policy : Policy F) (usable : Baseline F) : Prop where
  policyValid : policy.isValid = true
  selected : (selectBaseline st.baselines.values affected).usable = some usable
  current : usable.freshness = .current
  inWindow : nowOf obs - usable.timestampMs ≤ policy.staleAfterMs
  nonempty : (aggregate affected.id usable.metricKind associated.id obs).n ≠ 0
  enough : policy.minSamples ≤ (aggregate affected.id usable.metricKind associated.id obs).n

variable {st : Impl F} {affected associated : WorkloadDescriptor} {domain : InterferenceDomain}
  {obs : List (Observation F)} {policy : Policy F} {usable : Baseline F}

theorem Admitted.mem (h : st.Admitted affected associated obs policy usable) :
    usable ∈ st.baselines.values := (selectBaseline_usable h.selected).1

theorem Admitted.candidate (h : st.Admitted affected associated obs policy usable) :
    Candidate affected usable := (selectBaseline_usable h.selected).2

def verdictOn (st : Impl F) (affected associated : WorkloadDescriptor) (domain : InterferenceDomain)
    (obs : List (Observation F)) (policy : Policy F) (usable : Baseline F) :
    PairwiseInterference F :=
  st.verdict affected associated domain obs policy usable .current true
    (aggregate affected.id usable.metricKind associated.id obs)

omit [DoubleOps F] in
theorem freshnessGate_ok (usable : Baseline F) (now : Int64) (policy : Policy F) :
    (freshnessGate usable now policy).2 = true ↔
      usable.freshness = .current ∧ now - usable.timestampMs ≤ policy.staleAfterMs := by
  unfold freshnessGate
  by_cases hc : usable.freshness = .current
  · rw [if_pos hc]
    by_cases hs : now - usable.timestampMs ≤ policy.staleAfterMs
    · simp [hs, hc]
    · by_cases hm : now - usable.timestampMs ≤ policy.maxAgeMs <;> simp [hs, hm]
  · simp [hc]

structure Aggregates (st : Impl F) (affected : WorkloadDescriptor) (obs : List (Observation F))
    (policy : Policy F) (usable : Baseline F) : Prop where
  policyValid : policy.isValid = true
  selected : (selectBaseline st.baselines.values affected).usable = some usable
  gate : (freshnessGate usable (nowOf obs) policy).2 = true

theorem not_tooFew_iff {n minSamples : UInt64} :
    ¬ (n = 0 || n < minSamples) = true ↔ n ≠ 0 ∧ minSamples ≤ n := by
  rw [Bool.or_eq_true, not_or, decide_eq_true_eq, decide_eq_true_eq, UInt64.not_lt]

theorem Admitted.aggregates (h : st.Admitted affected associated obs policy usable) :
    st.Aggregates affected obs policy usable :=
  ⟨h.policyValid, h.selected, (freshnessGate_ok ..).mpr ⟨h.current, h.inWindow⟩⟩

theorem Admitted.notTooFew (h : st.Admitted affected associated obs policy usable) :
    ¬ ((aggregate affected.id usable.metricKind associated.id obs).n = 0 ||
      (aggregate affected.id usable.metricKind associated.id obs).n < policy.minSamples) = true :=
  not_tooFew_iff.mpr ⟨h.nonempty, h.enough⟩

theorem Aggregates.admitted (h : st.Aggregates affected obs policy usable)
    (hn : ¬ ((aggregate affected.id usable.metricKind associated.id obs).n = 0 ||
      (aggregate affected.id usable.metricKind associated.id obs).n < policy.minSamples) = true) :
    st.Admitted affected associated obs policy usable := by
  obtain ⟨hcur, hwin⟩ := (freshnessGate_ok ..).mp h.gate
  obtain ⟨hne, hmin⟩ := not_tooFew_iff.mp hn
  exact ⟨h.policyValid, h.selected, hcur, hwin, hne, hmin⟩

theorem Aggregates.unique {obs' : List (Observation F)} {policy' : Policy F}
    {usable' : Baseline F} (h : st.Aggregates affected obs policy usable)
    (h' : st.Aggregates affected obs' policy' usable') : usable = usable' := by
  have hsel := h.selected
  rw [h'.selected] at hsel
  exact (Option.some.inj hsel).symm

theorem Aggregates.of_gate {obs' : List (Observation F)}
    (h : st.Aggregates affected obs policy usable)
    (hg : freshnessGate usable (nowOf obs) policy = freshnessGate usable (nowOf obs') policy) :
    st.Aggregates affected obs' policy usable := by
  refine ⟨h.policyValid, h.selected, ?_⟩
  rw [← hg]
  exact h.gate

theorem anyMatch_of_selected
    (h : (selectBaseline st.baselines.values affected).usable = some usable) :
    (selectBaseline st.baselines.values affected).anyMatch.isNone = false := by
  have hs : (selectBaseline st.baselines.values affected).anyMatch.isSome := by
    apply selectBaseline_anyMatch
    rw [h]
    rfl
  rw [← Option.not_isSome, hs]
  rfl

omit [DoubleOps F] in
theorem freshnessGate_of_ok {now : Int64} (h : (freshnessGate usable now policy).2 = true) :
    freshnessGate usable now policy = (.current, true) := by
  obtain ⟨hcur, hwin⟩ := (freshnessGate_ok ..).mp h
  rw [freshnessGate, if_pos hcur, if_pos hwin]

theorem compare_of_stale (hp : policy.isValid = true)
    (hs : (selectBaseline st.baselines.values affected).usable = some usable)
    (hg : (freshnessGate usable (nowOf obs) policy).2 = false)
    (associated : WorkloadDescriptor) (domain : InterferenceDomain) :
    st.compare affected associated domain obs policy =
      ({ st.compareInit affected associated domain with
        outcome := .revalidationRequired
        freshness := (freshnessGate usable (nowOf obs) policy).1 }, st) := by
  have hany := anyMatch_of_selected hs
  simp only [compare, hp, hany, hs, hg, Bool.not_true, Bool.not_false, Bool.false_eq_true,
    if_false, if_true]

theorem compare_of_aggregates (h : st.Aggregates affected obs policy usable)
    (associated : WorkloadDescriptor) (domain : InterferenceDomain) :
    st.compare affected associated domain obs policy =
      st.compareAgainst affected associated domain obs policy usable .current true := by
  have hany := anyMatch_of_selected h.selected
  have hgate := freshnessGate_of_ok h.gate
  simp only [compare, h.policyValid, hany, h.selected, hgate, Bool.not_true, Bool.false_eq_true,
    if_false]

theorem compare_of_admitted (h : st.Admitted affected associated obs policy usable)
    (domain : InterferenceDomain) :
    st.compare affected associated domain obs policy =
      st.recordVerdict affected associated domain obs
        (st.verdictOn affected associated domain obs policy usable) := by
  rw [compare_of_aggregates h.aggregates, compareAgainst]
  exact if_neg h.notTooFew

theorem compare_inversion (st : Impl F) (affected associated : WorkloadDescriptor)
    (domain : InterferenceDomain) (obs : List (Observation F)) (policy : Policy F) :
    (∃ usable, st.Admitted affected associated obs policy usable ∧
      st.compare affected associated domain obs policy =
        st.recordVerdict affected associated domain obs
          (st.verdictOn affected associated domain obs policy usable)) ∨
    ∃ baseline n fresh outcome, outcome ∈ gateOutcomes ∧
      st.compare affected associated domain obs policy =
        ({ st.compareInit affected associated domain with
          baselineId := baseline, sampleCount := n, freshness := fresh, outcome := outcome },
          st) := by
  by_cases hex : ∃ usable, st.Admitted affected associated obs policy usable
  · obtain ⟨usable, h⟩ := hex
    exact .inl ⟨usable, h, compare_of_admitted h domain⟩
  · right
    unfold compare
    dsimp only
    split_ifs with hp ha
    · exact ⟨⟨0⟩, 0, .unknown, .unknown, by simp [gateOutcomes], rfl⟩
    · exact ⟨⟨0⟩, 0, .unknown, .insufficientEvidence, by simp [gateOutcomes], rfl⟩
    · rcases hu : (selectBaseline st.baselines.values affected).usable with _ | usable
      · exact ⟨⟨0⟩, 0, .unknown, .baselineInvalid, by simp [gateOutcomes], rfl⟩
      · dsimp only
        split_ifs with hf
        · exact ⟨⟨0⟩, 0, _, .revalidationRequired, by simp [gateOutcomes], rfl⟩
        · unfold compareAgainst
          dsimp only
          split_ifs with hn
          · exact ⟨usable.id, _, _, .insufficientEvidence, by simp [gateOutcomes], rfl⟩
          · -- all gates passed, so the baseline is admitted after all
            rw [Bool.not_eq_true, Bool.not_eq_false'] at hf
            have hagg : st.Aggregates affected obs policy usable := ⟨by simpa using hp, hu, hf⟩
            exact absurd ⟨usable, hagg.admitted hn⟩ hex

theorem compare_gates (st : Impl F) (affected associated : WorkloadDescriptor)
    (domain : InterferenceDomain) (obs : List (Observation F)) (policy : Policy F) :
    (∃ usable, st.Admitted affected associated obs policy usable ∧
      st.compare affected associated domain obs policy =
        st.recordVerdict affected associated domain obs
          (st.verdictOn affected associated domain obs policy usable)) ∨
    ((st.compare affected associated domain obs policy).2 = st ∧
      (st.compare affected associated domain obs policy).1.outcome ∈ gateOutcomes) := by
  rcases st.compare_inversion affected associated domain obs policy with
    h | ⟨baseline, n, fresh, outcome, hgate, heq⟩
  · exact .inl h
  · rw [heq]
    exact .inr ⟨rfl, hgate⟩

theorem compare_cases (st : Impl F) (affected associated : WorkloadDescriptor)
    (domain : InterferenceDomain) (obs : List (Observation F)) (policy : Policy F) :
    (∃ usable, st.Admitted affected associated obs policy usable ∧
      st.compare affected associated domain obs policy =
        st.recordVerdict affected associated domain obs
          (st.verdictOn affected associated domain obs policy usable)) ∨
    ((st.compare affected associated domain obs policy).2 = st ∧
      (st.compare affected associated domain obs policy).1.outcome.isVerdict = false) := by
  rcases st.compare_gates affected associated domain obs policy with h | ⟨heq, hgate⟩
  · exact .inl h
  · exact .inr ⟨heq, gateOutcomes_isVerdict hgate⟩

theorem classifyOutcome_isVerdict (w : F) (policy : Policy F) :
    (classifyOutcome w policy).isVerdict = true := by
  unfold classifyOutcome
  split_ifs <;> rfl

theorem verdictOn_isVerdict (st : Impl F) (affected associated : WorkloadDescriptor)
    (domain : InterferenceDomain) (obs : List (Observation F)) (policy : Policy F)
    (usable : Baseline F) :
    (st.verdictOn affected associated domain obs policy usable).outcome.isVerdict = true := by
  simp only [verdictOn, verdict]
  split_ifs
  · exact classifyOutcome_isVerdict _ _
  · rfl

omit [DoubleOps F] in
theorem recordVerdict_fst (st : Impl F) (affected associated : WorkloadDescriptor)
    (domain : InterferenceDomain) (obs : List (Observation F)) (v : PairwiseInterference F) :
    ∃ episode, (st.recordVerdict affected associated domain obs v).1 =
      { v with episodeId := episode } := by
  unfold recordVerdict
  dsimp only
  split_ifs
  · exact ⟨_, rfl⟩
  · exact ⟨v.episodeId, rfl⟩

theorem Admitted.compare_fst (h : st.Admitted affected associated obs policy usable)
    (domain : InterferenceDomain) :
    ∃ episode, (st.compare affected associated domain obs policy).1 =
      { st.verdictOn affected associated domain obs policy usable with episodeId := episode } := by
  rw [compare_of_admitted h]
  exact st.recordVerdict_fst affected associated domain obs _

theorem compare_verdict
    (h : (st.compare affected associated domain obs policy).1.outcome.isVerdict = true) :
    ∃ usable, st.Admitted affected associated obs policy usable ∧
      (st.compare affected associated domain obs policy).1.baselineId = usable.id := by
  rcases st.compare_cases affected associated domain obs policy with ⟨u, hadm, -⟩ | ⟨-, hno⟩
  · obtain ⟨e, he⟩ := hadm.compare_fst domain
    refine ⟨u, hadm, ?_⟩
    rw [he]
    rfl
  · rw [hno] at h
    cases h

end Impl
end Iobs
