import InterferenceObservatory.History

/-! The representation invariant. Whatever is called, the containers of an observatory hold
records under their own non-nil identities, only evidence that passed its check, and cells,
comparisons and episodes that fit together. -/

namespace Iobs
open DoubleOps Std Runs

structure Baseline.Stored (b : Baseline Double) : Prop where
  usable : b.isUsable = true
  samples : 0 < b.sampleCount
  confidence_pos : ltb 0.0 b.confidence = true
  confidence_le : leb b.confidence 1.0 = true
  variance_finite : isFinite b.variance = true
  variance_nonneg : leb 0.0 b.variance = true
  metric : b.metricKind ∈ [.latency, .throughput, .deviceTime, .transferTime, .collectiveTime,
    .stallTime, .tailLatency, .completionRate, .memoryBandwidth]

def Impl.NamesBaseline (st : Impl Double) (id : BaselineId) (w : WorkloadId) : Prop :=
  ∃ b, st.baselines.find? id = some b ∧ b.workloadId = w

structure Impl.CellFits (st : Impl Double) (k : CellKey) (p : PairwiseInterference Double) :
    Prop where
  key : p.victim = k.victim ∧ p.neighbor = k.neighbor ∧ p.domain = k.domain
  baseline : st.NamesBaseline p.baselineId k.victim
  samples : 1 ≤ p.sampleCount
  identity : p.comparisonId = comparisonIdOf k p.baselineId p.sampleCount

structure Impl.Represented (st : Impl Double) : Prop where
  sources : ∀ (k : SourceId) s, st.sources[k]? = some s → k.isNil = false
  workers : ∀ (k : WorkerId) w, st.workers[k]? = some w → k.isNil = false
  workloads : ∀ k w, st.workloads.find? k = some w → k.isNil = false ∧ w.id = k
  baselines : ∀ k b, st.baselines.find? k = some b → k.isNil = false ∧ b.id = k ∧ b.Stored
  observations : ∀ k o, st.observations.find? k = some o → k.isNil = false ∧ o.id = k ∧
    o.measurement.isValid = true ∧ o.workloadId.isNil = false
  comparisons : ∀ (k : ComparisonId) p, st.comparisons[k]? = some p →
    k.isNil = false ∧ p.comparisonId = k
  episodes : ∀ k e, st.episodes.find? k = some e → k.isNil = false ∧ e.id = k ∧
    e.classification.isInterference = true ∧ st.NamesBaseline e.baselineId e.affected
  cells : ∀ (k : CellKey) p, st.matrix[k]? = some p → st.CellFits k p

/-- Every cell is the comparison stored under its identity. -/
def Impl.CellsRecorded (st : Impl Double) : Prop :=
  ∀ (k : CellKey) p, st.matrix[k]? = some p → st.comparisons[p.comparisonId]? = some p

/-- The verdicts of a run that differ in victim, neighbor, domain, baseline or sample count
have different identities. -/
def NoCollision (log : List (PairwiseInterference Double)) : Prop :=
  ∀ r ∈ log, ∀ r' ∈ log, r.outcome ∉ gateOutcomes → r'.outcome ∉ gateOutcomes →
    comparisonIdOf r.cellKey r.baselineId r.sampleCount =
      comparisonIdOf r'.cellKey r'.baselineId r'.sampleCount →
    r.cellKey = r'.cellKey ∧ r.baselineId = r'.baselineId ∧ r.sampleCount = r'.sampleCount

def Op.namesNil {F : Type} : Op F → Bool
  | .registerSource id _ _ _ => id.isNil
  | .registerWorker id _ _ _ => id.isNil
  | .registerWorkload w => w.id.isNil
  | .publishBaseline b => b.id.isNil
  | .recordObservation o => o.id.isNil || o.workloadId.isNil
  | _ => false

theorem step_namesNil {F : Type} [DoubleOps F] {st st' : Impl F} {op : Op F}
    (h : op.namesNil = true) (hs : step st op = some st') : st' = st := by
  cases op with
  | registerSource id gen name caps =>
    have hnil : (id.isNil || gen.isNil) = true := by rw [show id.isNil = true from h, Bool.true_or]
    simp only [step, Impl.registerSource, hnil, if_true, Option.some.injEq] at hs
    exact hs.symm
  | registerWorker id boot name connected =>
    have hnil : (id.isNil || boot.isNil) = true := by rw [show id.isNil = true from h, Bool.true_or]
    simp only [step, Impl.registerWorker, hnil, if_true, Option.some.injEq] at hs
    exact hs.symm
  | registerWorkload w =>
    have hnil : (w.id.isNil || w.generation.isNil) = true := by
      rw [show w.id.isNil = true from h, Bool.true_or]
    simp only [step, Impl.registerWorkload, hnil, if_true, Option.some.injEq] at hs
    exact hs.symm
  | publishBaseline b =>
    have hnil : (b.id.isNil || b.generation.isNil) = true := by
      rw [show b.id.isNil = true from h, Bool.true_or]
    have hcheck : Impl.checkBaseline b = .invalidInput := by
      rw [Impl.checkBaseline, if_pos hnil]
    simp only [step, Impl.publishBaseline, hcheck, ne_eq, reduceCtorEq, not_false_eq_true, if_true,
      Option.some.injEq] at hs
    exact hs.symm
  | recordObservation o =>
    have hnil : (o.id.isNil || o.workloadId.isNil) = true := h
    rw [Bool.or_eq_true] at hnil
    rcases hnil with hid | hw
    · simp only [step, Impl.recordObservation, hid, Bool.true_or, if_true, Option.some.injEq] at hs
      exact hs.symm
    · simp only [step, Impl.recordObservation, hw, if_true, ite_self, Option.some.injEq] at hs
      exact hs.symm
  | _ => cases h

theorem stored_of_checkBaseline {b : Baseline Double} (h : Impl.checkBaseline b = .ok) :
    b.Stored := by
  unfold Impl.checkBaseline at h
  split_ifs at h with _ husable hconf hvar hcount hkind
  rw [Bool.not_eq_true', Bool.not_eq_false] at husable
  simp only [Bool.or_eq_true, Bool.not_eq_true', not_or, Bool.not_eq_false] at hconf hvar
  have hzero : isFinite (0.0 : Double) = true := by decide +kernel
  have hone : isFinite (1.0 : Double) = true := by decide +kernel
  have hpos : ltb 0.0 b.confidence = true := by
    simp only [Baseline.isUsable, Bool.and_eq_true] at husable
    exact husable.1.2
  refine ⟨husable, UInt64.pos_iff_ne_zero.mpr hcount, hpos, ?_, hvar.1, ?_, hkind⟩
  · exact Double.leb_of_not_ltb hone hconf.1.1 hconf.2
  · exact Double.leb_of_not_ltb hvar.1 hzero hvar.2

theorem Baseline.Stored.withFreshness {b : Baseline Double} (h : b.Stored) (f : Freshness) :
    ({ b with freshness := f } : Baseline Double).Stored :=
  ⟨h.usable, h.samples, h.confidence_pos, h.confidence_le, h.variance_finite, h.variance_nonneg,
    h.metric⟩

theorem Baseline.Stored.stampFreshness {b : Baseline Double} (h : b.Stored) :
    (Impl.stampFreshness b).Stored := by
  unfold Impl.stampFreshness
  split_ifs
  · exact h.withFreshness _
  · exact h

theorem Baseline.Stored.demoteBaseline {b : Baseline Double} (h : b.Stored) :
    (Impl.demoteBaseline b).Stored := by
  rcases demoteBaseline_eq_or b with heq | heq
  · rw [heq]
    exact h
  · rw [heq]
    exact h.withFreshness _

section Step

variable {st st' : Impl Double} {op : Op Double}

theorem Impl.NamesBaseline.keptIn {id : BaselineId} {w : WorkloadId}
    (h : st.NamesBaseline id w) (hk : st.KeptIn st') : st'.NamesBaseline id w := by
  obtain ⟨b, hb, hw⟩ := h
  obtain ⟨b', hb', heq⟩ := hk.baselines id b hb
  refine ⟨b', hb', ?_⟩
  rcases heq with rfl | rfl
  · exact hw
  · exact hw

theorem Impl.Admitted.namesBaseline {affected associated : WorkloadDescriptor}
    {obs : List (Observation Double)} {policy : Policy Double} {usable : Baseline Double}
    (h : st.Admitted affected associated obs policy usable) :
    st.NamesBaseline usable.id affected.id :=
  ⟨usable, KeyedMap.mem_values.mp h.mem, h.candidate.workload⟩

theorem nonNil_ne_zero (v : UInt64) : (nonNil v == 0) = false := by
  unfold nonNil
  split_ifs with h
  · rfl
  · simpa using h

theorem Effect.sources_represented (he : Effect st op st') (hnil : op.namesNil = false)
    (h : st.Represented) (k : SourceId) (s : SourceRec) (hk : st'.sources[k]? = some s) :
    k.isNil = false := by
  cases he with
  | epochAdvanced hne =>
    rw [Impl.setCoordinatorEpoch, if_neg hne, ExtTreeMap.getElem?_map,
      Option.map_eq_some_iff] at hk
    obtain ⟨s₀, hs₀, -⟩ := hk
    exact h.sources k s₀ hs₀
  | sourceStored _ =>
    rcases getElem?_insert_cases hk with ⟨rfl, -⟩ | hold
    · exact hnil
    · exact h.sources k s hold
  | verdictStored _ =>
    rw [Impl.recordVerdict_sources] at hk
    exact h.sources k s hk
  | _ => exact h.sources k s hk

theorem Effect.workers_represented (he : Effect st op st') (hnil : op.namesNil = false)
    (h : st.Represented) (k : WorkerId) (w : WorkerRec) (hk : st'.workers[k]? = some w) :
    k.isNil = false := by
  cases he with
  | epochAdvanced hne =>
    rw [Impl.setCoordinatorEpoch, if_neg hne, ExtTreeMap.getElem?_map,
      Option.map_eq_some_iff] at hk
    obtain ⟨w₀, hw₀, -⟩ := hk
    exact h.workers k w₀ hw₀
  | workerStored =>
    rcases getElem?_insert_cases hk with ⟨rfl, -⟩ | hold
    · exact hnil
    · exact h.workers k w hold
  | verdictStored _ =>
    rw [Impl.recordVerdict_workers] at hk
    exact h.workers k w hk
  | _ => exact h.workers k w hk

theorem Effect.workloads_represented (he : Effect st op st') (hnil : op.namesNil = false)
    (h : st.Represented) (k : WorkloadId) (w : WorkloadDescriptor)
    (hk : st'.workloads.find? k = some w) : k.isNil = false := by
  cases he with
  | epochAdvanced hne =>
    rw [Impl.setCoordinatorEpoch, if_neg hne] at hk
    exact (h.workloads k w hk).1
  | workloadStored =>
    rcases KeyedMap.find?_insert_cases hk with ⟨rfl, -⟩ | hold
    · exact hnil
    · exact (h.workloads k w hold).1
  | verdictStored _ =>
    rw [Impl.recordVerdict_workloads] at hk
    exact (h.workloads k w hk).1
  | _ => exact (h.workloads k w hk).1

theorem Effect.baselines_represented (he : Effect st op st') (hnil : op.namesNil = false)
    (h : st.Represented) (k : BaselineId) (b : Baseline Double)
    (hk : st'.baselines.find? k = some b) : k.isNil = false ∧ b.Stored := by
  rcases he.baselines with heq | ⟨epoch, -, heq⟩ | ⟨c, rfl, hcheck, -, heq⟩
  · rw [heq] at hk
    exact ⟨(h.baselines k b hk).1, (h.baselines k b hk).2.2⟩
  · rw [heq, KeyedMap.find?_mapValues, Option.map_eq_some_iff] at hk
    obtain ⟨b₀, hb₀, rfl⟩ := hk
    obtain ⟨hkey, -, hstored⟩ := h.baselines k b₀ hb₀
    exact ⟨hkey, hstored.demoteBaseline⟩
  · rw [heq] at hk
    rcases KeyedMap.find?_emplace_cases hk with ⟨hid, rfl⟩ | hold
    · rw [hid, Impl.stampFreshness_id]
      exact ⟨hnil, (stored_of_checkBaseline hcheck).stampFreshness⟩
    · exact ⟨(h.baselines k b hold).1, (h.baselines k b hold).2.2⟩

theorem Effect.observations_represented (he : Effect st op st') (hnil : op.namesNil = false)
    (h : st.Represented) (k : ObservationId) (o : Observation Double)
    (hk : st'.observations.find? k = some o) :
    k.isNil = false ∧ o.measurement.isValid = true ∧ o.workloadId.isNil = false := by
  rcases he.observations with heq | ⟨c, rfl, hvalid, -, heq⟩
  · rw [heq] at hk
    obtain ⟨hkey, -, hrest⟩ := h.observations k o hk
    exact ⟨hkey, hrest⟩
  · rw [heq] at hk
    rcases KeyedMap.find?_emplace_cases hk with ⟨rfl, rfl⟩ | hold
    · have hboth : (o.id.isNil || o.workloadId.isNil) = false := hnil
      rw [Bool.or_eq_false_iff] at hboth
      exact ⟨hboth.1, hvalid, hboth.2⟩
    · obtain ⟨hkey, -, hrest⟩ := h.observations k o hold
      exact ⟨hkey, hrest⟩

theorem Effect.comparisons_represented (he : Effect st op st') (h : st.Represented)
    (k : ComparisonId) (p : PairwiseInterference Double) (hk : st'.comparisons[k]? = some p) :
    k.isNil = false ∧ p.comparisonId = k := by
  rcases he.stores with ⟨heq, -⟩ | ⟨affected, associated, domain, obs, policy, u, -, -, heq, -⟩
  · rw [heq] at hk
    exact h.comparisons k p hk
  · rw [heq] at hk
    rcases getElem?_insert_cases hk with ⟨rfl, rfl⟩ | hold
    · exact ⟨nonNil_ne_zero _, rfl⟩
    · exact h.comparisons k p hold

theorem Effect.episodes_represented (he : Effect st op st') (h : st.Represented) (k : EpisodeId)
    (e : InterferenceEpisode Double) (hk : st'.episodes.find? k = some e) :
    k.isNil = false ∧ e.classification.isInterference = true ∧
      st'.NamesBaseline e.baselineId e.affected := by
  rcases he.episodes with heq | ⟨affected, associated, domain, obs, policy, u, -, hadm, hint, heq⟩
  · rw [heq] at hk
    obtain ⟨hkey, -, hclass, hbase⟩ := h.episodes k e hk
    exact ⟨hkey, hclass, hbase.keptIn he.keptIn⟩
  · rw [heq] at hk
    rcases KeyedMap.find?_insert_cases hk with ⟨rfl, rfl⟩ | hold
    · exact ⟨nonNil_ne_zero _, hint, hadm.namesBaseline.keptIn he.keptIn⟩
    · obtain ⟨hkey, -, hclass, hbase⟩ := h.episodes k e hold
      exact ⟨hkey, hclass, hbase.keptIn he.keptIn⟩

theorem Effect.cells_represented (he : Effect st op st') (h : st.Represented) (k : CellKey)
    (p : PairwiseInterference Double) (hk : st'.matrix[k]? = some p) : st'.CellFits k p := by
  have hold : st.matrix[k]? = some p → st'.CellFits k p := by
    intro hp
    obtain ⟨hkey, hbase, hcount, hid⟩ := h.cells k p hp
    exact ⟨hkey, hbase.keptIn he.keptIn, hcount, hid⟩
  rcases he.stores with ⟨-, heq⟩ | ⟨affected, associated, domain, obs, policy, u, -, hadm, -, heq⟩
  · rw [heq] at hk
    exact hold hk
  · rw [heq] at hk
    rcases getElem?_insert_cases hk with ⟨rfl, rfl⟩ | hprev
    · have hpos : (1 : UInt64) ≤ (aggregate affected.id u.metricKind associated.id obs).n := by
        rw [UInt64.le_iff_toNat_le]
        exact Nat.pos_of_ne_zero fun h0 => hadm.nonempty (UInt64.toNat_inj.mp h0)
      exact ⟨⟨rfl, rfl, rfl⟩, hadm.namesBaseline.keptIn he.keptIn, hpos, rfl⟩
    · exact hold hprev

theorem Impl.Represented.step (h : st.Represented) (hs : Iobs.step st op = some st') :
    st'.Represented := by
  rcases hnil : op.namesNil with _ | _
  · have he := step_effect hs
    refine ⟨he.sources_represented hnil h, he.workers_represented hnil h, ?_, ?_, ?_,
      he.comparisons_represented h, ?_, he.cells_represented h⟩
    · intro k w hk
      exact ⟨he.workloads_represented hnil h k w hk, st'.workloads.keyed k w hk⟩
    · intro k b hk
      obtain ⟨hkey, hstored⟩ := he.baselines_represented hnil h k b hk
      exact ⟨hkey, st'.baselines.keyed k b hk, hstored⟩
    · intro k o hk
      obtain ⟨hkey, hrest⟩ := he.observations_represented hnil h k o hk
      exact ⟨hkey, st'.observations.keyed k o hk, hrest⟩
    · intro k e hk
      obtain ⟨hkey, hrest⟩ := he.episodes_represented h k e hk
      exact ⟨hkey, st'.episodes.keyed k e hk, hrest⟩
  · rw [step_namesNil hnil hs]
    exact h

end Step

theorem represented_fresh (id : ObservatoryId) (generation : ObservatoryGeneration) :
    (Impl.fresh id generation : Impl Double).Represented := by
  constructor <;> intro k v hv <;> cases hv.symm.trans ExtTreeMap.getElem?_empty

theorem compare_comparisonId {st : Impl Double} {affected associated : WorkloadDescriptor}
    {obs : List (Observation Double)} {policy : Policy Double} {usable : Baseline Double}
    (h : st.Admitted affected associated obs policy usable) (domain : InterferenceDomain) :
    comparisonIdOf (st.compare affected associated domain obs policy).1.cellKey
      (st.compare affected associated domain obs policy).1.baselineId
      (st.compare affected associated domain obs policy).1.sampleCount =
        (st.verdictOn affected associated domain obs policy usable).comparisonId := by
  have hv := compare_withoutEpisode h domain
  have hkey : (st.compare affected associated domain obs policy).1.cellKey =
      ⟨affected.id, associated.id, domain⟩ := congrArg PairwiseInterference.cellKey hv
  have hbase : (st.compare affected associated domain obs policy).1.baselineId = usable.id :=
    congrArg PairwiseInterference.baselineId hv
  have hcount : (st.compare affected associated domain obs policy).1.sampleCount =
      (aggregate affected.id usable.metricKind associated.id obs).n :=
    congrArg PairwiseInterference.sampleCount hv
  rw [hkey, hbase, hcount]
  rfl

theorem cellsRecorded_step {st st' : Impl Double} {op : Op Double}
    {log : List (PairwiseInterference Double)} (hs : step st op = some st') (hw : st.Represented)
    (hf : st.Follows log) (hcol : NoCollision (log ++ returned st op)) (h : st.CellsRecorded) :
    st'.CellsRecorded := by
  intro k p hp
  rcases (step_effect hs).stores with
    ⟨hcmp, hmat⟩ | ⟨affected, associated, domain, obs, policy, u, rfl, hadm, hcmp, hmat⟩
  · rw [hmat] at hp
    rw [hcmp]
    exact h k p hp
  · rw [hmat, ExtTreeMap.getElem?_insert] at hp
    rw [hcmp, ExtTreeMap.getElem?_insert]
    split_ifs at hp with hk
    · rw [← Option.some.inj hp, if_pos ReflOrd.compare_self]
    · -- an old cell under the new identity would be a verdict on the same cell
      rw [if_neg]
      · exact h k p hp
      · intro hid
        have hlast := hf k
        rw [hp] at hlast
        obtain ⟨r, hr, hrp⟩ := Option.map_eq_some_iff.mp hlast.symm
        obtain ⟨hmem, hrk, hrout⟩ := lastVerdict_mem hr
        have hnew := compare_withoutEpisode hadm domain
        have hpid := (hw.cells k p hp).identity
        rw [← LawfulEqOrd.eq_of_compare hid, ← hrp, ← hrk] at hpid
        have hsame : comparisonIdOf (st.compare affected associated domain obs policy).1.cellKey
            (st.compare affected associated domain obs policy).1.baselineId
            (st.compare affected associated domain obs policy).1.sampleCount =
              comparisonIdOf r.cellKey r.baselineId r.sampleCount :=
          (compare_comparisonId hadm domain).trans hpid
        have hkey := (hcol _ (List.mem_append_right _ (List.mem_singleton_self _)) r
          (List.mem_append_left _ hmem) (compare_passed hadm domain) hrout hsame).1
        apply hk
        rw [← hrk, ← hkey, ← hnew]
        exact ReflOrd.compare_self

/-- In every state a run reaches, all containers are in order, and if the verdicts of the
run do not collide every cell is the comparison stored under its identity. -/
theorem run_representation {id : ObservatoryId} {generation : ObservatoryGeneration}
    {hist : List (Op Double)} {st : Impl Double}
    (hr : Run step (fun _ _ => True) (Impl.fresh id generation) hist st)
    (hcol : NoCollision (outputs step returned (Impl.fresh id generation) hist)) :
    st.Represented ∧ st.CellsRecorded := by
  have hinv : st.Represented ∧ st.Follows (outputs step returned (Impl.fresh id generation) hist) ∧
      (NoCollision (outputs step returned (Impl.fresh id generation) hist) →
        st.CellsRecorded) := by
    apply hr.output_invariant (I := fun _ log s => s.Represented ∧ s.Follows log ∧
      (NoCollision log → s.CellsRecorded))
    · refine ⟨represented_fresh id generation, fun k => ExtTreeMap.getElem?_empty, ?_⟩
      intro _ k p hp
      cases hp.symm.trans ExtTreeMap.getElem?_empty
    · intro hist log s op s' _ hs ⟨hw, hf, hrec⟩
      refine ⟨hw.step hs, step_follows hs hf, ?_⟩
      intro hno
      have hold : NoCollision log := by
        intro r hr r' hr'
        exact hno r (List.mem_append_left _ hr) r' (List.mem_append_left _ hr')
      exact cellsRecorded_step hs hw hf hno (hrec hold)
  exact ⟨hinv.1, hinv.2.2 hcol⟩

theorem run_representation_compared :
    NoCollision (outputs step returned (Impl.fresh ⟨1⟩ ⟨1⟩) [.publishBaseline Demo.baseline,
      .compare Demo.victim Demo.neighbor .cache Demo.slowdown .init]) ∧
    (Demo.compared : Impl Double).Represented ∧ (Demo.compared : Impl Double).CellsRecorded := by
  have hcol : NoCollision (outputs step returned (Impl.fresh ⟨1⟩ ⟨1⟩)
      [.publishBaseline Demo.baseline,
        .compare Demo.victim Demo.neighbor .cache Demo.slowdown .init]) := by
    intro r hr r' hr'
    have hlog : outputs step returned (Impl.fresh ⟨1⟩ ⟨1⟩) [.publishBaseline Demo.baseline,
        .compare Demo.victim Demo.neighbor .cache Demo.slowdown .init] =
      [((Demo.published : Impl Double).compare Demo.victim Demo.neighbor .cache Demo.slowdown
        .init).1] := rfl
    rw [hlog, List.mem_singleton] at hr hr'
    rw [hr, hr']
    intro _ _ _
    exact ⟨rfl, rfl, rfl⟩
  have hrun : Run step (fun _ _ => True) (Impl.fresh ⟨1⟩ ⟨1⟩ : Impl Double)
      [.publishBaseline Demo.baseline,
        .compare Demo.victim Demo.neighbor .cache Demo.slowdown .init] Demo.compared :=
    .of_exec (fun _ _ => trivial) rfl
  exact ⟨hcol, run_representation hrun hcol⟩

end Iobs
