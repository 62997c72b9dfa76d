import InterferenceObservatory.SaveLoad
import InterferenceObservatory.Steps

/-! The lock of the observatory. Every public operation is a method of an object that
carries `mutex_` beside the state; a method that acquires the mutex while it holds it is
stuck. Only `run_experiment` calls a locking method from inside its own critical section. -/

namespace Iobs
open DoubleOps Std

structure Object where
  held : Bool
  st : Impl Double

abbrev Method (α : Type) := StateT Object Option α

namespace Method

variable {α : Type}

def acquire : Method Unit := fun o => if o.held then none else some ((), { o with held := true })

def release : Method Unit := fun o => some ((), { o with held := false })

def lockGuard (body : Method α) : Method α := do
  acquire
  let a ← body
  release
  pure a

def update (f : Impl Double → α × Impl Double) : Method α := fun o =>
  some ((f o.st).1, { o with st := (f o.st).2 })

def view (f : Impl Double → α) : Method α := update fun st => (f st, st)

theorem lockGuard_update (f : Impl Double → α × Impl Double) (st : Impl Double) :
    lockGuard (update f) ⟨false, st⟩ = some ((f st).1, ⟨false, (f st).2⟩) := rfl

theorem lockGuard_free (body : Method α) (st : Impl Double) :
    lockGuard body ⟨false, st⟩ =
      (body ⟨true, st⟩).map fun r => (r.1, { r.2 with held := false }) := by
  change ((body ⟨true, st⟩).bind fun r => some (r.1, { r.2 with held := false })) = _
  rcases body ⟨true, st⟩ with _ | r <;> rfl

def registerSource (id : SourceId) (gen : SourceGeneration) (name : ByteString)
    (caps : BackendCapabilities) : Method Status :=
  if id.isNil || gen.isNil then pure .invalidInput
  else lockGuard (update (·.registerSource id gen name caps))

def registerWorker (id : WorkerId) (boot : WorkerBootId) (name : ByteString) (connected : Bool) :
    Method Status :=
  if id.isNil || boot.isNil then pure .invalidInput
  else lockGuard (update (·.registerWorker id boot name connected))

def registerWorkload (workload : WorkloadDescriptor) : Method Status :=
  if workload.id.isNil || workload.generation.isNil then pure .invalidInput
  else lockGuard (update (·.registerWorkload workload))

def publishBaseline (baseline : Baseline Double) : Method Status :=
  if Impl.checkBaseline baseline ≠ .ok then pure (Impl.checkBaseline baseline)
  else lockGuard (update (·.publishBaseline baseline))

def recordObservation (observation : Observation Double) : Method Status :=
  if observation.id.isNil || observation.generation.isNil then pure .invalidInput
  else if observation.workloadId.isNil then pure .invalidInput
  else if !observation.measurement.isValid then pure .invalidInput
  else if !isFinite (ofInt64 observation.timestampMs : Double) then pure .invalidInput
  else lockGuard (update (·.recordObservation observation))

def recordRecovery (victim neighbor : WorkloadId) (domain : InterferenceDomain) : Method Status :=
  if victim.isNil || neighbor.isNil then pure .invalidInput
  else lockGuard (update (·.recordRecovery victim neighbor domain))

def compare (affected associated : WorkloadDescriptor) (domain : InterferenceDomain)
    (obs : List (Observation Double)) (policy : Policy Double) :
    Method (PairwiseInterference Double) :=
  lockGuard (update (·.compare affected associated domain obs policy))

def experimentSide (affected associated : WorkloadDescriptor) (plan : ExperimentPlan)
    (obs : List (Observation Double)) (policy : Policy Double) :
    Method (Option (PairwiseInterference Double)) :=
  if obs.isEmpty then pure none
  else do
    let r ← compare affected associated plan.domain obs policy
    pure (some r)

def runExperiment (plan : ExperimentPlan) (policy : Policy Double) :
    Method (ExperimentResult Double) :=
  lockGuard do
    let st ← view id
    let res : ExperimentResult Double := ⟨plan.id, plan.generation, none, none, 0, false⟩
    if plan.id.isNil then pure res
    else match st.workloads.find? plan.primary, st.workloads.find? plan.neighbor with
      | some primary, some neighbor => do
        let primaryObs := st.coRunObservations plan.primary plan.neighbor
        let neighborObs := if plan.neighbor = plan.primary then []
          else st.coRunObservations plan.neighbor plan.primary
        let p ← experimentSide primary neighbor plan primaryObs policy
        let n ← experimentSide neighbor primary plan neighborObs policy
        pure { res with
          primaryAsVictim := p
          neighborAsVictim := n
          repetitionsExecuted := plan.repetitions
          complete := p.isSome && n.isSome }
      | _, _ => pure res

end Method

inductive Request where
  | observatoryId
  | observatoryGeneration
  | coordinatorEpoch
  | setCoordinatorEpoch (epoch : CoordinatorEpoch)
  | registerSource (id : SourceId) (gen : SourceGeneration) (name : ByteString)
      (caps : BackendCapabilities)
  | registerWorker (id : WorkerId) (boot : WorkerBootId) (name : ByteString) (connected : Bool)
  | registerWorkload (workload : WorkloadDescriptor)
  | publishBaseline (baseline : Baseline Double)
  | lookupBaseline (id : BaselineId)
  | recordObservation (observation : Observation Double)
  | compare (affected associated : WorkloadDescriptor) (domain : InterferenceDomain)
      (obs : List (Observation Double)) (policy : Policy Double)
  | recordRecovery (victim neighbor : WorkloadId) (domain : InterferenceDomain)
  | runExperiment (plan : ExperimentPlan) (policy : Policy Double)
  | explain (affected associated : WorkloadId) (domain : InterferenceDomain)
      (policy : Policy Double)
  | pairwiseMatrix
  | episodes
  | observationCount
  | baselineCount
  | sourceCount
  | workloadCount
  | workerCount
  | episodeCount
  | observationsFor (w : WorkloadId)
  | save (path : String) (io : Io) (fs : Files)
  | load (file : Option (List UInt8))
  | canonicalDigest

inductive Response where
  | done
  | status (s : Status)
  | observatoryId (id : ObservatoryId)
  | observatoryGeneration (generation : ObservatoryGeneration)
  | coordinatorEpoch (epoch : CoordinatorEpoch)
  | baseline (b : Option (Baseline Double))
  | comparison (v : PairwiseInterference Double)
  | experiment (r : ExperimentResult Double)
  | explanation (e : InterferenceExplanation Double)
  | matrix (cells : List (CellKey × PairwiseInterference Double))
  | episodes (l : List (InterferenceEpisode Double))
  | count (n : Nat)
  | observations (l : List (Observation Double))
  | saved (s : Status) (files : List Files)
  | digest (s : String)

open Method in
def invoke : Request → Method Response
  -- the accessors of the header read without the lock
  | .observatoryId => view fun st => .observatoryId st.id
  | .observatoryGeneration => view fun st => .observatoryGeneration st.generation
  | .coordinatorEpoch => view fun st => .coordinatorEpoch st.epoch
  | .setCoordinatorEpoch epoch => lockGuard (update fun st => (.done, st.setCoordinatorEpoch epoch))
  | .registerSource id gen name caps => Response.status <$> registerSource id gen name caps
  | .registerWorker id boot name connected => .status <$> registerWorker id boot name connected
  | .registerWorkload workload => .status <$> registerWorkload workload
  | .publishBaseline baseline => .status <$> publishBaseline baseline
  | .lookupBaseline id => lockGuard (view fun st => .baseline (st.lookupBaseline id))
  | .recordObservation observation => .status <$> recordObservation observation
  | .compare affected associated domain obs policy =>
    .comparison <$> Method.compare affected associated domain obs policy
  | .recordRecovery victim neighbor domain => .status <$> recordRecovery victim neighbor domain
  | .runExperiment plan policy => .experiment <$> runExperiment plan policy
  | .explain affected associated domain policy =>
    lockGuard (view fun st => .explanation (st.explain affected associated domain policy))
  | .pairwiseMatrix => lockGuard (view fun st => .matrix st.matrix.toList)
  | .episodes => lockGuard (view fun st => .episodes st.episodes.values)
  | .observationCount => lockGuard (view fun st => .count st.observations.size)
  | .baselineCount => lockGuard (view fun st => .count st.baselines.size)
  | .sourceCount => lockGuard (view fun st => .count st.sources.size)
  | .workloadCount => lockGuard (view fun st => .count st.workloads.size)
  | .workerCount => lockGuard (view fun st => .count st.workers.size)
  | .episodeCount => lockGuard (view fun st => .count st.episodes.size)
  | .observationsFor w => lockGuard (view fun st =>
    .observations (st.observations.values.filter fun o => o.workloadId == w))
  | .save path io fs => lockGuard (view fun st =>
    .saved (st.save path io fs).1 (st.save path io fs).2)
  | .load file => lockGuard (update fun st => (.status (st.load file).1, (st.load file).2))
  | .canonicalDigest => lockGuard (view fun st => .digest (Iobs.canonicalDigest st))

def Request.call : Request → Call
  | .setCoordinatorEpoch epoch => .op (.setCoordinatorEpoch epoch)
  | .registerSource id gen name caps => .op (.registerSource id gen name caps)
  | .registerWorker id boot name connected => .op (.registerWorker id boot name connected)
  | .registerWorkload workload => .op (.registerWorkload workload)
  | .publishBaseline baseline => .op (.publishBaseline baseline)
  | .recordObservation observation => .op (.recordObservation observation)
  | .compare affected associated domain obs policy =>
    .op (.compare affected associated domain obs policy)
  | .recordRecovery victim neighbor domain => .op (.recordRecovery victim neighbor domain)
  | .runExperiment plan policy => .op (.runExperiment plan policy)
  | .load file => .load file
  | _ => .op .inspect

namespace Method

variable (st : Impl Double)

theorem checked_free {α : Type} {c : Prop} [Decidable c] {a : α} {m : Method α}
    {f : Impl Double → α × Impl Double} (hc : c → f st = (a, st))
    (hm : ¬ c → m ⟨false, st⟩ = some ((f st).1, ⟨false, (f st).2⟩)) :
    (if c then pure a else m) ⟨false, st⟩ = some ((f st).1, ⟨false, (f st).2⟩) := by
  by_cases h : c
  · rw [if_pos h, hc h]
    rfl
  · rw [if_neg h, hm h]

theorem registerSource_free (id : SourceId) (gen : SourceGeneration) (name : ByteString)
    (caps : BackendCapabilities) : registerSource id gen name caps ⟨false, st⟩ =
      some ((st.registerSource id gen name caps).1,
        ⟨false, (st.registerSource id gen name caps).2⟩) := by
  refine checked_free st (fun h => ?_) fun _ => lockGuard_update _ st
  rw [Impl.registerSource, if_pos h]

theorem registerWorker_free (id : WorkerId) (boot : WorkerBootId) (name : ByteString)
    (connected : Bool) : registerWorker id boot name connected ⟨false, st⟩ =
      some ((st.registerWorker id boot name connected).1,
        ⟨false, (st.registerWorker id boot name connected).2⟩) := by
  refine checked_free st (fun h => ?_) fun _ => lockGuard_update _ st
  rw [Impl.registerWorker, if_pos h]

theorem registerWorkload_free (workload : WorkloadDescriptor) :
    registerWorkload workload ⟨false, st⟩ =
      some ((st.registerWorkload workload).1, ⟨false, (st.registerWorkload workload).2⟩) := by
  refine checked_free st (fun h => ?_) fun _ => lockGuard_update _ st
  rw [Impl.registerWorkload, if_pos h]

theorem publishBaseline_free (baseline : Baseline Double) :
    publishBaseline baseline ⟨false, st⟩ =
      some ((st.publishBaseline baseline).1, ⟨false, (st.publishBaseline baseline).2⟩) := by
  refine checked_free st (fun h => ?_) fun _ => lockGuard_update _ st
  rw [Impl.publishBaseline, if_pos h]

theorem recordObservation_free (observation : Observation Double) :
    recordObservation observation ⟨false, st⟩ = some ((st.recordObservation observation).1,
      ⟨false, (st.recordObservation observation).2⟩) := by
  refine checked_free st (fun h₁ => ?_) fun h₁ => checked_free st (fun h₂ => ?_) fun h₂ =>
    checked_free st (fun h₃ => ?_) fun h₃ => checked_free st (fun h₄ => ?_) fun _ =>
    lockGuard_update _ st
  · rw [Impl.recordObservation, if_pos h₁]
  · rw [Impl.recordObservation, if_neg h₁, if_pos h₂]
  · rw [Impl.recordObservation, if_neg h₁, if_neg h₂, if_pos h₃]
  · rw [Impl.recordObservation, if_neg h₁, if_neg h₂, if_neg h₃, if_pos h₄]

theorem recordRecovery_free (victim neighbor : WorkloadId) (domain : InterferenceDomain) :
    recordRecovery victim neighbor domain ⟨false, st⟩ =
      some ((st.recordRecovery victim neighbor domain).1,
        ⟨false, (st.recordRecovery victim neighbor domain).2⟩) := by
  refine checked_free st (fun h => ?_) fun _ => lockGuard_update _ st
  rw [Impl.recordRecovery, if_pos h]

theorem experimentSide_held (affected associated : WorkloadDescriptor) (plan : ExperimentPlan)
    (obs : List (Observation Double)) (policy : Policy Double) :
    experimentSide affected associated plan obs policy ⟨true, st⟩ =
      (st.experimentSide affected associated plan obs policy).map fun r => (r.1, ⟨true, r.2⟩) := by
  unfold experimentSide Impl.experimentSide
  split_ifs
  · rfl
  · rfl

theorem runExperiment_free (plan : ExperimentPlan) (policy : Policy Double) :
    runExperiment plan policy ⟨false, st⟩ =
      (st.runExperiment plan policy).map fun r => (r.1, ⟨false, r.2⟩) := by
  unfold runExperiment Impl.runExperiment
  rw [lockGuard_free]
  by_cases hid : plan.id.isNil
  · simp only [hid, if_true]
    rfl
  · simp only [hid]
    rcases hp : st.workloads.find? plan.primary with _ | primary
    · simp only [bind, StateT.bind, view, update, Option.bind, hp, id]
      rfl
    · rcases hn : st.workloads.find? plan.neighbor with _ | neighbor
      · simp only [bind, StateT.bind, view, update, Option.bind, hp, hn, id]
        rfl
      · simp only [bind, StateT.bind, view, update, Option.bind_some, hp, hn, id]
        generalize st.coRunObservations plan.primary plan.neighbor = primaryObs
        generalize (if plan.neighbor = plan.primary then [] else
          st.coRunObservations plan.neighbor plan.primary) = neighborObs
        rw [if_neg Bool.false_ne_true, if_neg Bool.false_ne_true]
        change ((experimentSide primary neighbor plan primaryObs policy ⟨true, st⟩).bind
          fun r => (experimentSide neighbor primary plan neighborObs policy r.2).bind
            fun r' => some (_, r'.2)).map _ = _
        rw [experimentSide_held]
        rcases st.experimentSide primary neighbor plan primaryObs policy with _ | ⟨p, st₁⟩
        · rfl
        · rw [Option.map_some, Option.bind_some, experimentSide_held]
          rcases h₂ : st₁.experimentSide neighbor primary plan neighborObs policy with _ | ⟨n, st₂⟩
          · simp [h₂]
          · simp [h₂]

theorem map_free {α β : Type} {m : Method α} {o o' : Object} {a : α} (f : α → β)
    (h : m o = some (a, o')) : (f <$> m) o = some (f a, o') := by
  change (m o).bind (fun r => some (f r.1, r.2)) = _
  rw [h]
  rfl

theorem invoke_call (q : Request) :
    (invoke q ⟨false, st⟩).map Prod.snd = (Iobs.call st q.call).map (Object.mk false) := by
  cases q with
  | registerSource id gen name caps =>
    rw [invoke, map_free _ (registerSource_free st id gen name caps)]
    rfl
  | registerWorker id boot name connected =>
    rw [invoke, map_free _ (registerWorker_free st id boot name connected)]
    rfl
  | registerWorkload workload =>
    rw [invoke, map_free _ (registerWorkload_free st workload)]
    rfl
  | publishBaseline baseline =>
    rw [invoke, map_free _ (publishBaseline_free st baseline)]
    rfl
  | recordObservation observation =>
    rw [invoke, map_free _ (recordObservation_free st observation)]
    rfl
  | recordRecovery victim neighbor domain =>
    rw [invoke, map_free _ (recordRecovery_free st victim neighbor domain)]
    rfl
  | runExperiment plan policy =>
    change ((runExperiment plan policy ⟨false, st⟩).bind fun r => some (_, r.2)).map _ =
      ((st.runExperiment plan policy).map Prod.snd).map _
    rw [runExperiment_free]
    rcases st.runExperiment plan policy with _ | r <;> rfl
  | _ => rfl

end Method

section Experiments

variable {st : Impl Double}

theorem coRunObservations_eq_nil_iff {w peer : WorkloadId} :
    st.coRunObservations w peer = [] ↔
      ∀ o ∈ st.observations.values, ¬ (o.workloadId = w ∧ peer ∈ o.coRunPeers) := by
  unfold Impl.coRunObservations
  rw [List.filter_eq_nil_iff]
  simp only [Bool.and_eq_true, beq_iff_eq, List.any_eq_true, exists_eq_right]

def Impl.CoRan (st : Impl Double) (plan : ExperimentPlan) : Prop :=
  ∃ o ∈ st.observations.values, o.workloadId = plan.primary ∧ plan.neighbor ∈ o.coRunPeers ∨
    o.workloadId = plan.neighbor ∧ plan.primary ∈ o.coRunPeers

theorem not_coRan_iff {plan : ExperimentPlan} : ¬ st.CoRan plan ↔
    st.coRunObservations plan.primary plan.neighbor = [] ∧
      (if plan.neighbor = plan.primary then []
        else st.coRunObservations plan.neighbor plan.primary) = [] := by
  have hboth : ¬ st.CoRan plan ↔ st.coRunObservations plan.primary plan.neighbor = [] ∧
      st.coRunObservations plan.neighbor plan.primary = [] := by
    rw [coRunObservations_eq_nil_iff, coRunObservations_eq_nil_iff]
    constructor
    · intro h
      exact ⟨fun o ho hc => h ⟨o, ho, .inl hc⟩, fun o ho hc => h ⟨o, ho, .inr hc⟩⟩
    · rintro ⟨h₁, h₂⟩ ⟨o, ho, hc | hc⟩
      · exact h₁ o ho hc
      · exact h₂ o ho hc
  rw [hboth]
  split_ifs with heq
  · rw [heq, and_self, and_iff_left rfl]
  · rfl

theorem runExperiment_isSome_iff {plan : ExperimentPlan} {policy : Policy Double} :
    (st.runExperiment plan policy).isSome = true ↔
      (plan.id.isNil = false → st.workloads.find? plan.primary ≠ none →
        st.workloads.find? plan.neighbor ≠ none → ¬ st.CoRan plan) := by
  unfold Impl.runExperiment
  by_cases hid : plan.id.isNil
  · simp [hid]
  · rw [if_neg hid]
    rcases hp : st.workloads.find? plan.primary with _ | primary
    · simp
    · rcases hn : st.workloads.find? plan.neighbor with _ | neighbor
      · simp
      · simp only [hid, ne_eq, reduceCtorEq, not_false_eq_true, true_implies, not_coRan_iff]
        generalize st.coRunObservations plan.primary plan.neighbor = primaryObs
        generalize (if plan.neighbor = plan.primary then [] else
          st.coRunObservations plan.neighbor plan.primary) = neighborObs
        -- a side with observations is stuck, and so is the experiment
        rcases primaryObs with _ | ⟨o, primaryObs⟩
        · rcases neighborObs with _ | ⟨o, neighborObs⟩
          · exact ⟨fun _ => ⟨rfl, rfl⟩, fun _ => rfl⟩
          · constructor
            · intro h
              cases h
            · intro h
              cases h.2
        · constructor
          · intro h
            cases h
          · intro h
            cases h.1

end Experiments

/-- A request made while the lock is free returns, with the lock free again, exactly if it is
not an experiment whose plan has an identity and names two registered workloads one of which
was observed beside the other. -/
theorem invoke_returns_iff (q : Request) (st : Impl Double) :
    (∃ response st', invoke q ⟨false, st⟩ = some (response, ⟨false, st'⟩)) ↔
      ∀ plan policy, q = .runExperiment plan policy → plan.id.isNil = false →
        st.workloads.find? plan.primary ≠ none → st.workloads.find? plan.neighbor ≠ none →
        ¬ st.CoRan plan := by
  have hreturns : (∃ response st', invoke q ⟨false, st⟩ = some (response, ⟨false, st'⟩)) ↔
      (call st q.call).isSome = true := by
    have hcall := Method.invoke_call st q
    rcases hq : invoke q ⟨false, st⟩ with _ | ⟨response, o⟩
    · rw [hq] at hcall
      have hnone : call st q.call = none := Option.map_eq_none_iff.mp hcall.symm
      rw [hnone]
      simp
    · rw [hq] at hcall
      obtain ⟨st', hst', ho⟩ := Option.map_eq_some_iff.mp hcall.symm
      obtain rfl : Object.mk false st' = o := ho
      rw [hst']
      simp
  rw [hreturns]
  by_cases hex : ∃ plan policy, q = .runExperiment plan policy
  · obtain ⟨plan, policy, rfl⟩ := hex
    have hcall : (call st (Request.runExperiment plan policy).call).isSome =
        (st.runExperiment plan policy).isSome := Option.isSome_map
    rw [hcall, runExperiment_isSome_iff]
    constructor
    · rintro h plan' policy' heq
      obtain ⟨rfl, rfl⟩ := Request.runExperiment.inj heq
      exact h
    · intro h
      exact h plan policy rfl
  · have hsome : (call st q.call).isSome = true := by
      cases q with
      | runExperiment plan policy => exact absurd ⟨plan, policy, rfl⟩ hex
      | _ => rfl
    rw [hsome]
    refine ⟨fun _ plan policy heq => absurd ⟨plan, policy, heq⟩ hex, fun _ => rfl⟩

namespace Demo

def observed : Impl Double :=
  (((Impl.fresh ⟨1⟩ ⟨1⟩).registerWorkload victim).2.registerWorkload neighbor).2.recordObservation
    (observation 150.0) |>.2

def plan : ExperimentPlan := ⟨⟨1⟩, ⟨1⟩, ⟨1⟩, ⟨2⟩, .cache, 3⟩

end Demo

theorem experiment_stuck :
    (Demo.observed.workloads.find? ⟨1⟩).isSome = true ∧
    (Demo.observed.workloads.find? ⟨2⟩).isSome = true ∧
    invoke (.runExperiment Demo.plan .init) ⟨false, Demo.observed⟩ = none := by
  have hstuck : (invoke (.runExperiment Demo.plan .init) ⟨false, Demo.observed⟩).isNone = true := by
    decide +kernel
  exact ⟨by decide +kernel, by decide +kernel, Option.isNone_iff_eq_none.mp hstuck⟩

end Iobs
