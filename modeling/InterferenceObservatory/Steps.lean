import InterferenceObservatory.Operations
import InterferenceObservatory.Verdict

/-! What a call can do to the state. `Effect` lists every change a step can make with
the guards under which it makes it; the invariants of runs are derived from it without
looking into the operations again. -/

namespace Iobs
open DoubleOps Std

variable {F : Type} [DoubleOps F]

namespace Impl

variable (st : Impl F) (affected associated : WorkloadDescriptor) (domain : InterferenceDomain)
  (obs : List (Observation F)) (v : PairwiseInterference F)

section Recorded
omit [DoubleOps F]

theorem recordVerdict_snd : ∃ episodes, (st.recordVerdict affected associated domain obs v).2 =
    { st with
      comparisons := st.comparisons.insert v.comparisonId v
      matrix := st.matrix.insert ⟨affected.id, associated.id, domain⟩ v
      episodes := episodes } := by
  unfold recordVerdict
  dsimp only
  split_ifs
  · exact ⟨_, rfl⟩
  · exact ⟨st.episodes, rfl⟩

@[simp] theorem recordVerdict_comparisons :
    (st.recordVerdict affected associated domain obs v).2.comparisons =
      st.comparisons.insert v.comparisonId v := by
  obtain ⟨e, he⟩ := st.recordVerdict_snd affected associated domain obs v
  rw [he]

@[simp] theorem recordVerdict_matrix :
    (st.recordVerdict affected associated domain obs v).2.matrix =
      st.matrix.insert ⟨affected.id, associated.id, domain⟩ v := by
  obtain ⟨e, he⟩ := st.recordVerdict_snd affected associated domain obs v
  rw [he]

@[simp] theorem recordVerdict_baselines :
    (st.recordVerdict affected associated domain obs v).2.baselines = st.baselines := by
  obtain ⟨e, he⟩ := st.recordVerdict_snd affected associated domain obs v
  rw [he]

@[simp] theorem recordVerdict_observations :
    (st.recordVerdict affected associated domain obs v).2.observations = st.observations := by
  obtain ⟨e, he⟩ := st.recordVerdict_snd affected associated domain obs v
  rw [he]

@[simp] theorem recordVerdict_sources :
    (st.recordVerdict affected associated domain obs v).2.sources = st.sources := by
  obtain ⟨e, he⟩ := st.recordVerdict_snd affected associated domain obs v
  rw [he]

@[simp] theorem recordVerdict_workloads :
    (st.recordVerdict affected associated domain obs v).2.workloads = st.workloads := by
  obtain ⟨e, he⟩ := st.recordVerdict_snd affected associated domain obs v
  rw [he]

@[simp] theorem recordVerdict_workers :
    (st.recordVerdict affected associated domain obs v).2.workers = st.workers := by
  obtain ⟨e, he⟩ := st.recordVerdict_snd affected associated domain obs v
  rw [he]

@[simp] theorem recordVerdict_recoveries :
    (st.recordVerdict affected associated domain obs v).2.recoveries = st.recoveries := by
  obtain ⟨e, he⟩ := st.recordVerdict_snd affected associated domain obs v
  rw [he]

theorem recordVerdict_episodes : (st.recordVerdict affected associated domain obs v).2.episodes =
    if v.outcome.isInterference then
      st.episodes.insert (st.episodeOf affected associated domain obs v)
    else st.episodes := by
  unfold recordVerdict
  dsimp only
  split_ifs <;> rfl

end Recorded

theorem experimentSide_state {st' : Impl F} {plan : ExperimentPlan} {policy : Policy F}
    {p : Option (PairwiseInterference F)}
    (h : st.experimentSide affected associated plan obs policy = some (p, st')) : st' = st := by
  unfold experimentSide at h
  split_ifs at h
  · rw [Option.some.injEq, Prod.mk.injEq] at h
    exact h.2.symm
  · cases h

theorem runExperiment_state {st' : Impl F} {plan : ExperimentPlan} {policy : Policy F}
    {res : ExperimentResult F} (h : st.runExperiment plan policy = some (res, st')) : st' = st := by
  unfold runExperiment at h
  by_cases hid : plan.id.isNil
  · rw [if_pos hid, Option.some.injEq, Prod.mk.injEq] at h
    exact h.2.symm
  · rw [if_neg hid] at h
    split at h
    · simp only [Option.bind_eq_bind, Option.bind_eq_some_iff] at h
      obtain ⟨⟨p, st₁⟩, hp, ⟨n, st₂⟩, hn, hres⟩ := h
      have h₁ := experimentSide_state _ _ _ _ hp
      have h₂ := experimentSide_state _ _ _ _ hn
      rw [Option.some.injEq, Prod.mk.injEq] at hres
      rw [← hres.2, h₂, h₁]
    · rw [Option.some.injEq, Prod.mk.injEq] at h
      exact h.2.symm

end Impl

inductive Effect (st : Impl F) : Op F → Impl F → Prop
  | unchanged (op : Op F) : Effect st op st
  | epochAdvanced {epoch : CoordinatorEpoch} : epoch ≠ st.epoch →
      Effect st (.setCoordinatorEpoch epoch) (st.setCoordinatorEpoch epoch)
  | sourceStored {id : SourceId} {gen : SourceGeneration} {name : ByteString}
      {caps : BackendCapabilities} {f : Freshness} : f = .current ∨ f = .revalidationRequired →
      Effect st (.registerSource id gen name caps)
        { st with sources := st.sources.insert id ⟨gen, name, caps, f⟩ }
  | workerStored {id : WorkerId} {boot : WorkerBootId} {name : ByteString} {connected : Bool} :
      Effect st (.registerWorker id boot name connected)
        { st with workers := st.workers.insert id ⟨boot, name, connected⟩ }
  | workloadStored {w : WorkloadDescriptor} :
      Effect st (.registerWorkload w) { st with workloads := st.workloads.insert w }
  | baselineStored {b : Baseline F} : Impl.checkBaseline b = .ok → st.baselines.find? b.id = none →
      Effect st (.publishBaseline b)
        { st with baselines := st.baselines.emplace (Impl.stampFreshness b) }
  | observationStored {o : Observation F} : o.measurement.isValid = true →
      st.observations.find? o.id = none →
      Effect st (.recordObservation o) { st with observations := st.observations.emplace o }
  | recoveryStored {victim neighbor : WorkloadId} {domain : InterferenceDomain} :
      Effect st (.recordRecovery victim neighbor domain)
        { st with recoveries := st.recoveries.insert ⟨victim, neighbor, domain⟩ }
  | verdictStored {affected associated : WorkloadDescriptor} {domain : InterferenceDomain}
      {obs : List (Observation F)} {policy : Policy F} {usable : Baseline F} :
      st.Admitted affected associated obs policy usable →
      Effect st (.compare affected associated domain obs policy)
        (st.recordVerdict affected associated domain obs
          (st.verdictOn affected associated domain obs policy usable)).2

section Operations

variable (st : Impl F)

theorem registerSource_effect (id : SourceId) (gen : SourceGeneration) (name : ByteString)
    (caps : BackendCapabilities) :
    Effect st (.registerSource id gen name caps) (st.registerSource id gen name caps).2 := by
  unfold Impl.registerSource
  split_ifs
  · exact .unchanged _
  · split
    · rename_i s _
      split_ifs with hgen
      · exact .sourceStored (.inr rfl)
      · rw [ne_eq, not_not] at hgen
        dsimp only
        rw [hgen]
        exact .sourceStored (.inl rfl)
    · exact .sourceStored (.inl rfl)

theorem registerWorker_effect (id : WorkerId) (boot : WorkerBootId) (name : ByteString)
    (connected : Bool) :
    Effect st (.registerWorker id boot name connected)
      (st.registerWorker id boot name connected).2 := by
  unfold Impl.registerWorker
  split_ifs
  · exact .unchanged _
  · split
    · rename_i w _
      split_ifs with hboot
      · exact .workerStored
      · rw [ne_eq, not_not] at hboot
        dsimp only
        rw [hboot]
        exact .workerStored
    · exact .workerStored

theorem publishBaseline_effect (b : Baseline F) :
    Effect st (.publishBaseline b) (st.publishBaseline b).2 := by
  unfold Impl.publishBaseline
  split_ifs with hc
  · exact .unchanged _
  · rw [ne_eq, not_not] at hc
    split
    · split_ifs <;> exact .unchanged _
    · rename_i hnone
      exact .baselineStored hc hnone

theorem recordObservation_effect (o : Observation F) :
    Effect st (.recordObservation o) (st.recordObservation o).2 := by
  unfold Impl.recordObservation
  split_ifs with _ _ hv
  · exact .unchanged _
  · exact .unchanged _
  · exact .unchanged _
  · exact .unchanged _
  · split
    · split_ifs <;> exact .unchanged _
    · rename_i hnone
      exact .observationStored (by simpa using hv) hnone

end Operations

theorem step_effect {st st' : Impl F} {op : Op F} (h : step st op = some st') :
    Effect st op st' := by
  cases op with
  | setCoordinatorEpoch epoch =>
    obtain rfl := Option.some.inj h
    by_cases he : epoch = st.epoch
    · rw [Impl.setCoordinatorEpoch, if_pos he]
      exact .unchanged _
    · exact .epochAdvanced he
  | registerSource id gen name caps =>
    obtain rfl := Option.some.inj h
    exact registerSource_effect st id gen name caps
  | registerWorker id boot name connected =>
    obtain rfl := Option.some.inj h
    exact registerWorker_effect st id boot name connected
  | registerWorkload w =>
    obtain rfl := Option.some.inj h
    unfold Impl.registerWorkload
    split_ifs
    · exact .unchanged _
    · exact .workloadStored
  | publishBaseline b =>
    obtain rfl := Option.some.inj h
    exact publishBaseline_effect st b
  | recordObservation o =>
    obtain rfl := Option.some.inj h
    exact recordObservation_effect st o
  | recordRecovery victim neighbor domain =>
    obtain rfl := Option.some.inj h
    unfold Impl.recordRecovery
    split_ifs
    · exact .unchanged _
    · exact .recoveryStored
  | compare affected associated domain obs policy =>
    obtain rfl := Option.some.inj h
    rcases st.compare_cases affected associated domain obs policy with ⟨u, hadm, heq⟩ | ⟨heq, -⟩
    · rw [heq]
      exact .verdictStored hadm
    · rw [heq]
      exact .unchanged _
  | runExperiment plan policy =>
    obtain ⟨⟨res, st''⟩, hrun, rfl⟩ := Option.map_eq_some_iff.mp h
    rw [Impl.runExperiment_state _ hrun]
    exact .unchanged _
  | inspect =>
    obtain rfl := Option.some.inj h
    exact .unchanged _

namespace Effect

variable {st st' : Impl F} {op : Op F}

theorem baselines (h : Effect st op st') : st'.baselines = st.baselines ∨
    (∃ epoch, op = .setCoordinatorEpoch epoch ∧ st'.baselines =
      st.baselines.mapValues Impl.demoteBaseline Impl.demoteBaseline_id) ∨
    ∃ b, op = .publishBaseline b ∧ Impl.checkBaseline b = .ok ∧ st.baselines.find? b.id = none ∧
      st'.baselines = st.baselines.emplace (Impl.stampFreshness b) := by
  cases h with
  | epochAdvanced he =>
    refine .inr (.inl ⟨_, rfl, ?_⟩)
    rw [Impl.setCoordinatorEpoch, if_neg he]
  | baselineStored hc hn => exact .inr (.inr ⟨_, rfl, hc, hn, rfl⟩)
  | verdictStored _ => exact .inl (Impl.recordVerdict_baselines ..)
  | _ => exact .inl rfl

theorem baseline_kept (h : Effect st op st') {id : BaselineId} {b : Baseline F}
    (hb : st.baselines.find? id = some b) : st'.baselines.find? id = some b ∨
      st'.baselines.find? id = some (Impl.demoteBaseline b) := by
  rcases h.baselines with heq | ⟨e, -, heq⟩ | ⟨c, -, -, -, heq⟩
  · rw [heq]
    exact .inl hb
  · rw [heq, KeyedMap.find?_mapValues, hb]
    exact .inr rfl
  · rw [heq]
    exact .inl (KeyedMap.find?_emplace_of_some hb)

theorem baseline_origin (h : Effect st op st')
    (hop : ∀ b, op = .publishBaseline b → (st.publishBaseline b).1 ≠ .ok) {id : BaselineId}
    {b : Baseline F} (hb : st'.baselines.find? id = some b) :
    ∃ b₀, st.baselines.find? id = some b₀ ∧ (b = b₀ ∨ b = Impl.demoteBaseline b₀) := by
  rcases h.baselines with heq | ⟨e, -, heq⟩ | ⟨c, rfl, hcheck, hnone, -⟩
  · rw [heq] at hb
    exact ⟨b, hb, .inl rfl⟩
  · rw [heq, KeyedMap.find?_mapValues, Option.map_eq_some_iff] at hb
    obtain ⟨b₀, hb₀, rfl⟩ := hb
    exact ⟨b₀, hb₀, .inr rfl⟩
  · have hok : (st.publishBaseline c).1 = .ok := by
      rw [Impl.publishBaseline, if_neg (not_not.mpr hcheck), hnone]
    exact absurd hok (hop c rfl)

theorem observations (h : Effect st op st') : st'.observations = st.observations ∨
    ∃ o, op = .recordObservation o ∧ o.measurement.isValid = true ∧
      st.observations.find? o.id = none ∧ st'.observations = st.observations.emplace o := by
  cases h with
  | epochAdvanced he =>
    left
    rw [Impl.setCoordinatorEpoch, if_neg he]
  | observationStored hv hn => exact .inr ⟨_, rfl, hv, hn, rfl⟩
  | verdictStored _ => exact .inl (Impl.recordVerdict_observations ..)
  | _ => exact .inl rfl

theorem workers (h : Effect st op st') {w : WorkerId}
    (hop : ∀ boot name connected, op ≠ .registerWorker w boot name connected) :
    st'.workers[w]? = st.workers[w]? ∨
      st'.workers[w]? = st.workers[w]?.map fun r => { r with connected := false } := by
  cases h with
  | epochAdvanced he =>
    rw [Impl.setCoordinatorEpoch, if_neg he]
    exact .inr ExtTreeMap.getElem?_map
  | @workerStored id boot name connected =>
    have hne : id ≠ w := by
      rintro rfl
      exact hop boot name connected rfl
    left
    rw [ExtTreeMap.getElem?_insert, if_neg]
    intro hc
    exact hne (LawfulEqOrd.eq_of_compare hc)
  | verdictStored _ => exact .inl (by rw [Impl.recordVerdict_workers])
  | _ => exact .inl rfl

theorem recoveries (h : Effect st op st') : st'.recoveries = st.recoveries ∨
    ∃ victim neighbor domain, op = .recordRecovery victim neighbor domain ∧
      st'.recoveries = st.recoveries.insert ⟨victim, neighbor, domain⟩ := by
  cases h with
  | epochAdvanced he =>
    left
    rw [Impl.setCoordinatorEpoch, if_neg he]
  | recoveryStored => exact .inr ⟨_, _, _, rfl, rfl⟩
  | verdictStored _ => exact .inl (Impl.recordVerdict_recoveries ..)
  | _ => exact .inl rfl

theorem stores (h : Effect st op st') :
    st'.comparisons = st.comparisons ∧ st'.matrix = st.matrix ∨
    ∃ affected associated domain obs policy usable,
      op = .compare affected associated domain obs policy ∧
      st.Admitted affected associated obs policy usable ∧
      let v := st.verdictOn affected associated domain obs policy usable
      st'.comparisons = st.comparisons.insert v.comparisonId v ∧
      st'.matrix = st.matrix.insert v.cellKey v := by
  cases h with
  | epochAdvanced he =>
    left
    rw [Impl.setCoordinatorEpoch, if_neg he]
    exact ⟨rfl, rfl⟩
  | verdictStored hadm =>
    exact .inr ⟨_, _, _, _, _, _, rfl, hadm, Impl.recordVerdict_comparisons ..,
      Impl.recordVerdict_matrix ..⟩
  | _ => exact .inl ⟨rfl, rfl⟩

theorem episodes (h : Effect st op st') : st'.episodes = st.episodes ∨
    ∃ affected associated domain obs policy usable,
      op = .compare affected associated domain obs policy ∧
      st.Admitted affected associated obs policy usable ∧
      let v := st.verdictOn affected associated domain obs policy usable
      v.outcome.isInterference = true ∧
      st'.episodes = st.episodes.insert (st.episodeOf affected associated domain obs v) := by
  cases h with
  | epochAdvanced he =>
    left
    rw [Impl.setCoordinatorEpoch, if_neg he]
  | verdictStored hadm =>
    rw [Impl.recordVerdict_episodes]
    split_ifs with hint
    · exact .inr ⟨_, _, _, _, _, _, rfl, hadm, hint, rfl⟩
    · exact .inl rfl
  | _ => exact .inl rfl

end Effect
end Iobs
