import InterferenceObservatory.Steps

/-! The history of an observatory. Evidence that a call has stored is never taken back by a later
one, and the matrix is a view of the comparisons made so far: each directed cell shows the last
one that reached a verdict, and so does its explanation. -/

namespace Iobs
open DoubleOps Std Runs

variable {F : Type}

/-- The observations and recoveries of `st` are in `st'` too, its baselines but for their
freshness, and the identities of its episodes and comparisons. -/
structure Impl.KeptIn (st st' : Impl F) : Prop where
  observations : ∀ id o, st.observations.find? id = some o → st'.observations.find? id = some o
  baselines : ∀ id b, st.baselines.find? id = some b → ∃ b', st'.baselines.find? id = some b' ∧
    (b' = b ∨ b' = { b with freshness := .revalidationRequired })
  recoveries : ∀ k ∈ st.recoveries, k ∈ st'.recoveries
  episodes : ∀ id, (st.episodes.find? id).isSome → (st'.episodes.find? id).isSome
  comparisons : ∀ c : ComparisonId, c ∈ st.comparisons → c ∈ st'.comparisons

theorem Impl.KeptIn.refl (st : Impl F) : st.KeptIn st := by
  refine ⟨?_, ?_, ?_, ?_, ?_⟩
  · intro id o ho
    exact ho
  · intro id b hb
    exact ⟨b, hb, .inl rfl⟩
  · intro k hk
    exact hk
  · intro id hid
    exact hid
  · intro c hc
    exact hc

theorem Impl.KeptIn.trans {st st' st'' : Impl F} (h : st.KeptIn st') (h' : st'.KeptIn st'') :
    st.KeptIn st'' := by
  refine ⟨?_, ?_, ?_, ?_, ?_⟩
  · intro id o ho
    exact h'.observations id o (h.observations id o ho)
  · intro id b hb
    obtain ⟨b', hb', heq⟩ := h.baselines id b hb
    obtain ⟨b'', hb'', heq'⟩ := h'.baselines id b' hb'
    refine ⟨b'', hb'', ?_⟩
    -- a second demotion finds nothing left to demote
    rcases heq with rfl | rfl
    · exact heq'
    · rcases heq' with rfl | rfl
      · exact .inr rfl
      · exact .inr rfl
  · intro k hk
    exact h'.recoveries k (h.recoveries k hk)
  · intro id hid
    exact h'.episodes id (h.episodes id hid)
  · intro c hc
    exact h'.comparisons c (h.comparisons c hc)

theorem demoteBaseline_eq_or (b : Baseline F) : Impl.demoteBaseline b = b ∨
    Impl.demoteBaseline b = { b with freshness := .revalidationRequired } := by
  unfold Impl.demoteBaseline
  split_ifs
  · exact .inl rfl
  · exact .inr rfl

variable [DoubleOps F] {st st' : Impl F} {op : Op F} {hist : List (Op F)}

theorem Effect.keptIn (h : Effect st op st') : st.KeptIn st' := by
  refine ⟨?_, ?_, ?_, ?_, ?_⟩
  · intro id o ho
    rcases h.observations with heq | ⟨o', -, -, -, heq⟩
    · rwa [heq]
    · rw [heq]
      exact KeyedMap.find?_emplace_of_some ho
  · intro id b hb
    rcases h.baseline_kept hb with hb' | hb'
    · exact ⟨b, hb', .inl rfl⟩
    · exact ⟨_, hb', demoteBaseline_eq_or b⟩
  · intro k hk
    rcases h.recoveries with heq | ⟨v, n, d, -, heq⟩
    · rwa [heq]
    · rw [heq, ExtTreeSet.mem_insert]
      exact .inr hk
  · intro id hid
    rcases h.episodes with heq | ⟨_, _, _, _, _, _, -, -, -, heq⟩
    · rwa [heq]
    · rw [heq, KeyedMap.find?_insert]
      split_ifs
      · rfl
      · exact hid
  · intro c hc
    rcases h.stores with ⟨heq, -⟩ | ⟨_, _, _, _, _, _, -, -, heq, -⟩
    · rwa [heq]
    · rw [heq, ExtTreeMap.mem_insert]
      exact .inr hc

theorem Effect.baseline_unchanged (h : Effect st op st')
    (hop : ∀ epoch, op ≠ .setCoordinatorEpoch epoch) {id : BaselineId} {b : Baseline F}
    (hb : st.baselines.find? id = some b) : st'.baselines.find? id = some b := by
  rcases h.baselines with heq | ⟨epoch, rfl, -⟩ | ⟨c, -, -, -, heq⟩
  · rwa [heq]
  · exact absurd rfl (hop epoch)
  · rw [heq]
    exact KeyedMap.find?_emplace_of_some hb

/-- In every run all evidence, recoveries and identities of the start are kept, and without
a change of the epoch every baseline stays exactly as it was. -/
theorem run_append_only (hr : Run step (fun _ _ => True) st hist st') :
    st.KeptIn st' ∧ ((∀ epoch, Op.setCoordinatorEpoch epoch ∉ hist) →
      ∀ id b, st.baselines.find? id = some b → st'.baselines.find? id = some b) := by
  constructor
  · apply hr.invariant (Impl.KeptIn.refl st)
    intro s op s' _ hs h
    exact h.trans (step_effect hs).keptIn
  · refine hr.history_invariant (I := fun hist s => (∀ epoch, Op.setCoordinatorEpoch epoch ∉ hist) →
      ∀ id b, st.baselines.find? id = some b → s.baselines.find? id = some b) ?_ ?_
    · intro _ id b hb
      exact hb
    · intro hist s op s' _ hs ih hno id b hb
      have hop : ∀ epoch, op ≠ .setCoordinatorEpoch epoch := by
        rintro epoch rfl
        exact hno epoch (List.mem_append_right _ (List.mem_singleton_self _))
      have hold : ∀ epoch, Op.setCoordinatorEpoch epoch ∉ hist := by
        intro epoch hmem
        exact hno epoch (List.mem_append_left _ hmem)
      exact (step_effect hs).baseline_unchanged hop (ih hold id b hb)

theorem run_append_only_epoch_changed :
    (Demo.compared : Impl Double).KeptIn
      ((Demo.compared : Impl Double).setCoordinatorEpoch ⟨2⟩) ∧
    (Demo.compared : Impl Double).baselines.find? ⟨1⟩ = some Demo.baseline := by
  have hrun : Run step (fun _ _ => True) (Demo.compared : Impl Double) [.setCoordinatorEpoch ⟨2⟩]
      ((Demo.compared : Impl Double).setCoordinatorEpoch ⟨2⟩) := .next .start trivial rfl
  exact ⟨(run_append_only hrun).1, by decide +kernel⟩

def lastVerdict (k : CellKey) (log : List (PairwiseInterference F)) :
    Option (PairwiseInterference F) :=
  (log.filter fun r => r.cellKey = k ∧ r.outcome ∉ gateOutcomes).getLast?

def PairwiseInterference.withoutEpisode (r : PairwiseInterference F) : PairwiseInterference F :=
  { r with episodeId := ⟨0⟩ }

omit [DoubleOps F] in
theorem lastVerdict_concat (k : CellKey) (log : List (PairwiseInterference F))
    (r : PairwiseInterference F) : lastVerdict k (log ++ [r]) =
      if r.cellKey = k ∧ r.outcome ∉ gateOutcomes then some r else lastVerdict k log := by
  unfold lastVerdict
  rw [List.filter_append]
  split_ifs with h
  · rw [List.filter_cons_of_pos (by simpa using h), List.filter_nil, List.getLast?_concat]
  · rw [List.filter_cons_of_neg (by simpa using h), List.filter_nil, List.append_nil]

omit [DoubleOps F] in
theorem lastVerdict_mem {k : CellKey} {log : List (PairwiseInterference F)}
    {r : PairwiseInterference F} (h : lastVerdict k log = some r) :
    r ∈ log ∧ r.cellKey = k ∧ r.outcome ∉ gateOutcomes := by
  have hmem := List.mem_of_getLast? h
  simpa using hmem

def Impl.Follows (st : Impl F) (log : List (PairwiseInterference F)) : Prop :=
  ∀ k : CellKey, st.matrix[k]? = (lastVerdict k log).map PairwiseInterference.withoutEpisode

section Compare

variable {affected associated : WorkloadDescriptor} {domain : InterferenceDomain}
  {obs : List (Observation F)} {policy : Policy F} {usable : Baseline F}

theorem compare_withoutEpisode (h : st.Admitted affected associated obs policy usable)
    (domain : InterferenceDomain) :
    (st.compare affected associated domain obs policy).1.withoutEpisode =
      st.verdictOn affected associated domain obs policy usable := by
  obtain ⟨e, he⟩ := h.compare_fst domain
  rw [he]
  rfl

theorem compare_passed (h : st.Admitted affected associated obs policy usable)
    (domain : InterferenceDomain) :
    (st.compare affected associated domain obs policy).1.outcome ∉ gateOutcomes := by
  intro hmem
  have hverdict := st.verdictOn_isVerdict affected associated domain obs policy usable
  rw [← compare_withoutEpisode h] at hverdict
  have hnot := gateOutcomes_isVerdict hmem
  exact Bool.false_ne_true (hnot.symm.trans hverdict)

theorem compare_follows {log : List (PairwiseInterference F)} (h : st.Follows log)
    (affected associated : WorkloadDescriptor) (domain : InterferenceDomain)
    (obs : List (Observation F)) (policy : Policy F) :
    (st.compare affected associated domain obs policy).2.Follows
      (log ++ [(st.compare affected associated domain obs policy).1]) := by
  intro k
  rw [lastVerdict_concat]
  rcases st.compare_gates affected associated domain obs policy with ⟨u, hadm, heq⟩ | ⟨heq, hgate⟩
  · have hv := compare_withoutEpisode hadm domain
    have hkey : (st.compare affected associated domain obs policy).1.cellKey =
        ⟨affected.id, associated.id, domain⟩ := congrArg PairwiseInterference.cellKey hv
    have hout := compare_passed hadm domain
    have hmatrix : (st.compare affected associated domain obs policy).2.matrix =
        st.matrix.insert ⟨affected.id, associated.id, domain⟩
          (st.verdictOn affected associated domain obs policy u) := by
      rw [heq, Impl.recordVerdict_matrix]
    rw [hmatrix, ExtTreeMap.getElem?_insert, hkey]
    by_cases hk : (⟨affected.id, associated.id, domain⟩ : CellKey) = k
    · rw [if_pos (LawfulEqOrd.compare_eq_iff_eq.mpr hk), if_pos ⟨hk, hout⟩, Option.map_some, hv]
    · have hne : ¬ ((⟨affected.id, associated.id, domain⟩ : CellKey) = k ∧
          (st.compare affected associated domain obs policy).1.outcome ∉ gateOutcomes) := by
        intro hand
        exact hk hand.1
      rw [if_neg fun hc => hk (LawfulEqOrd.eq_of_compare hc), if_neg hne]
      exact h k
  · have hno : ¬ ((st.compare affected associated domain obs policy).1.cellKey = k ∧
        (st.compare affected associated domain obs policy).1.outcome ∉ gateOutcomes) := by
      intro hand
      exact hand.2 hgate
    rw [if_neg hno, heq]
    exact h k

theorem compare_minSamples
    (h : (st.compare affected associated domain obs policy).1.outcome ∉ gateOutcomes) :
    policy.minSamples ≤ (st.compare affected associated domain obs policy).1.sampleCount := by
  rcases st.compare_gates affected associated domain obs policy with ⟨u, hadm, -⟩ | ⟨-, hgate⟩
  · have hcount := congrArg PairwiseInterference.sampleCount (compare_withoutEpisode hadm domain)
    have heq : (st.compare affected associated domain obs policy).1.sampleCount =
        (aggregate affected.id u.metricKind associated.id obs).n := hcount
    rw [heq]
    exact hadm.enough
  · exact absurd hgate h

end Compare

theorem step_follows {log : List (PairwiseInterference F)} (hs : step st op = some st')
    (h : st.Follows log) : st'.Follows (log ++ returned st op) := by
  cases op with
  | compare affected associated domain obs policy =>
    obtain rfl := Option.some.inj hs
    exact compare_follows h affected associated domain obs policy
  | _ =>
    intro k
    have hm : st'.matrix = st.matrix := by
      rcases (step_effect hs).stores with ⟨-, hm⟩ | ⟨_, _, _, _, _, _, hop, -⟩
      · exact hm
      · cases hop
    change st'.matrix[k]? = (lastVerdict k (log ++ [])).map PairwiseInterference.withoutEpisode
    rw [hm, List.append_nil]
    exact h k

theorem run_follows {id : ObservatoryId} {generation : ObservatoryGeneration}
    {allowed : Impl F → Op F → Prop}
    (hr : Run step allowed (Impl.fresh id generation) hist st) :
    st.Follows (outputs step returned (Impl.fresh id generation) hist) := by
  apply hr.output_invariant (I := fun _ log s => s.Follows log)
  · intro k
    exact ExtTreeMap.getElem?_empty
  · intro hist log s op s' _ hs h
    exact step_follows hs h

theorem run_minSamples {id : ObservatoryId} {generation : ObservatoryGeneration}
    {allowed : Impl F → Op F → Prop} {policy : Policy F}
    (hr : Run step allowed (Impl.fresh id generation) hist st)
    (hpolicy : ∀ affected associated domain obs q,
      Op.compare affected associated domain obs q ∈ hist → q = policy) :
    ∀ r ∈ outputs step returned (Impl.fresh id generation) hist, r.outcome ∉ gateOutcomes →
      policy.minSamples ≤ r.sampleCount := by
  revert hpolicy
  refine hr.output_invariant (I := fun hist (log : List (PairwiseInterference F)) _ =>
    (∀ affected associated domain obs q,
      Op.compare affected associated domain obs q ∈ hist → q = policy) →
      ∀ r ∈ log, r.outcome ∉ gateOutcomes → policy.minSamples ≤ r.sampleCount) ?_ ?_
  · intro _ r hmem
    cases hmem
  · intro hist log s op s' _ hs ih hpolicy r hmem hout
    rcases List.mem_append.mp hmem with hold | hnew
    · have hp : ∀ affected associated domain obs q,
          Op.compare affected associated domain obs q ∈ hist → q = policy := by
        intro affected associated domain obs q hq
        exact hpolicy affected associated domain obs q (List.mem_append_left _ hq)
      exact ih hp r hold hout
    · cases op with
      | compare affected associated domain obs q =>
        have hq : q = policy := hpolicy affected associated domain obs q
          (List.mem_append_right _ (List.mem_singleton_self _))
        rw [List.mem_singleton.mp hnew] at hout ⊢
        rw [← hq]
        exact compare_minSamples hout
      | _ => cases hnew

structure InterferenceExplanation.Reports (ex : InterferenceExplanation F)
    (r : PairwiseInterference F) : Prop where
  outcome : ex.outcome = r.outcome
  attribution : ex.attribution = r.attribution
  confidence : ex.confidence = r.confidence
  degradation : ex.degradation = r.degradation
  baseline : ex.baselineId = r.baselineId
  samples : ex.sampleCount = r.sampleCount
  confounders : ex.confoundersUnresolved = r.unresolvedConfounders

theorem explain_reports {v n : WorkloadId} {d : InterferenceDomain} {policy : Policy F}
    {r : PairwiseInterference F}
    (hcell : st.matrix[CellKey.mk v n d]? = some r.withoutEpisode)
    (hcount : policy.minSamples ≤ r.sampleCount) : (st.explain v n d policy).Reports r := by
  have hnot : ¬ r.withoutEpisode.sampleCount < policy.minSamples := UInt64.not_lt.mpr hcount
  unfold Impl.explain
  rw [hcell]
  exact ⟨if_neg hnot, rfl, rfl, rfl, rfl, rfl, rfl⟩

/-- In every run with one policy an explanation reports the last comparison of its pair and
domain that got past the gates, whatever was compared in between, and is unknown if there
was none. -/
theorem explain_last_verdict {id : ObservatoryId} {generation : ObservatoryGeneration}
    {policy : Policy F} (hr : Run step (fun _ _ => True) (Impl.fresh id generation) hist st)
    (hpolicy : ∀ affected associated domain obs q,
      Op.compare affected associated domain obs q ∈ hist → q = policy)
    (v n : WorkloadId) (d : InterferenceDomain) :
    let log := outputs step returned (Impl.fresh id generation) hist
    (∀ r, lastVerdict ⟨v, n, d⟩ log = some r → (st.explain v n d policy).Reports r) ∧
    (lastVerdict ⟨v, n, d⟩ log = none → (st.explain v n d policy).outcome = .unknown ∧
      (st.explain v n d policy).attribution = .unknown) := by
  have hcell := run_follows hr ⟨v, n, d⟩
  constructor
  · intro r hlast
    obtain ⟨hmem, -, hout⟩ := lastVerdict_mem hlast
    rw [hlast, Option.map_some] at hcell
    exact explain_reports hcell (run_minSamples hr hpolicy r hmem hout)
  · intro hlast
    rw [hlast, Option.map_none] at hcell
    unfold Impl.explain
    rw [hcell]
    exact ⟨rfl, rfl⟩

theorem explain_last_verdict_other_pair :
    let ops : List (Op Double) := [.publishBaseline Demo.baseline,
      .compare Demo.victim Demo.neighbor .cache Demo.slowdown .init,
      .compare Demo.victim (Demo.workload ⟨3⟩) .cache Demo.slowdown .init]
    ∃ st r, exec step (Impl.fresh ⟨1⟩ ⟨1⟩) ops = some st ∧
      lastVerdict ⟨⟨1⟩, ⟨2⟩, .cache⟩ (outputs step returned (Impl.fresh ⟨1⟩ ⟨1⟩) ops) = some r ∧
      r.outcome = .severeInterference ∧ (st.explain ⟨1⟩ ⟨2⟩ .cache .init).Reports r := by
  intro ops
  have hpolicy : ∀ affected associated domain obs q,
      Op.compare affected associated domain obs q ∈ ops → q = .init := by
    intro affected associated domain obs q hmem
    simp only [ops, List.mem_cons, Op.compare.injEq, reduceCtorEq, List.not_mem_nil, false_or,
      or_false] at hmem
    rcases hmem with ⟨-, -, -, -, hq⟩ | ⟨-, -, -, -, hq⟩
    · exact hq
    · exact hq
  have hsome : ((lastVerdict ⟨⟨1⟩, ⟨2⟩, .cache⟩
      (outputs step returned (Impl.fresh ⟨1⟩ ⟨1⟩) ops)).map (·.outcome)) =
        some .severeInterference := by decide +kernel
  obtain ⟨r, hr, hout⟩ := Option.map_eq_some_iff.mp hsome
  refine ⟨_, r, rfl, hr, hout, ?_⟩
  exact (explain_last_verdict (.of_exec (fun _ _ => trivial) rfl) hpolicy ⟨1⟩ ⟨2⟩ .cache).1 r hr

end Iobs
