import InterferenceObservatory.Compare
import InterferenceObservatory.Lib.Run

/-! The remaining public operations and the observatory as a transition system: what a
caller can do, the state each call leads to, and which containers it can change. -/

namespace Iobs
open DoubleOps Std

variable {F : Type} [DoubleOps F]

namespace Impl

def explainInit (affected associated : WorkloadId) (domain : InterferenceDomain) :
    InterferenceExplanation F where
  affected := affected
  associated := [associated]
  domain := domain
  baselineId := ⟨0⟩
  hasBaseline := false
  degradation := .init
  sampleCount := 0
  variance := 0.0
  timelineOverlapFraction := 0.0
  confoundersChecked := []
  confoundersUnresolved := []
  provenance := .unknown
  freshness := .unknown
  confidence := 0.0
  attribution := .unknown
  outcome := .unknown
  supportingObservations := []
  unknownComponents := []
  whatWouldStrengthenEvidence := []
  authorityOnly := true

def strengthenEvidence (p : PairwiseInterference F) (policy : Policy F) : List String :=
  (if p.baselineId.isNil then ["run isolated baseline"] else []) ++
  (if p.sampleCount < policy.minSamples then ["increase repetitions"] else []) ++
  (if p.freshness ≠ .current then ["wait for source freshness"] else []) ++
  p.unresolvedConfounders.map (fun c => "control " ++ c.toString) ++
  (if p.attribution = .controlledComparison then
    ["remove neighbor workload and confirm recovery"] else [])

def explain (st : Impl F) (affected associated : WorkloadId) (domain : InterferenceDomain)
    (policy : Policy F) : InterferenceExplanation F :=
  match st.matrix[CellKey.mk affected associated domain]? with
  | none => explainInit affected associated domain
  | some p =>
    { explainInit affected associated domain with
      degradation := p.degradation
      sampleCount := p.sampleCount
      confidence := p.confidence
      attribution := p.attribution
      outcome := if p.sampleCount < policy.minSamples then .insufficientEvidence else p.outcome
      provenance := p.evidenceSources.head?.getD .unknown
      freshness := p.freshness
      baselineId := p.baselineId
      hasBaseline := !p.baselineId.isNil
      confoundersUnresolved := p.unresolvedConfounders
      variance := (p.degradation.deltas.head?.map (·.variance)).getD 0.0
      whatWouldStrengthenEvidence := strengthenEvidence p policy }

def lockGuard {α : Type} (held : Bool) (body : α) : Option α := if held then none else some body

def coRunObservations (st : Impl F) (w peer : WorkloadId) : List (Observation F) :=
  st.observations.values.filter fun o => o.workloadId == w && o.coRunPeers.any (· == peer)

def experimentSide (st : Impl F) (affected associated : WorkloadDescriptor) (plan : ExperimentPlan)
    (obs : List (Observation F)) (policy : Policy F) :
    Option (Option (PairwiseInterference F) × Impl F) :=
  if obs.isEmpty then some (none, st)
  else (lockGuard true (st.compare affected associated plan.domain obs policy)).map
    fun r => (some r.1, r.2)

def runExperiment (st : Impl F) (plan : ExperimentPlan) (policy : Policy F) :
    Option (ExperimentResult F × Impl F) :=
  let res : ExperimentResult F := ⟨plan.id, plan.generation, none, none, 0, false⟩
  if plan.id.isNil then some (res, st)
  else match st.workloads.find? plan.primary, st.workloads.find? plan.neighbor with
    | some primary, some neighbor => do
      let primaryObs := st.coRunObservations plan.primary plan.neighbor
      -- the second branch of the source is an `else if`
      let neighborObs := if plan.neighbor = plan.primary then []
        else st.coRunObservations plan.neighbor plan.primary
      let (p, st₁) ← st.experimentSide primary neighbor plan primaryObs policy
      let (n, st₂) ← st₁.experimentSide neighbor primary plan neighborObs policy
      some ({ res with
        primaryAsVictim := p
        neighborAsVictim := n
        repetitionsExecuted := plan.repetitions
        complete := p.isSome && n.isSome }, st₂)
    | _, _ => some (res, st)

end Impl

/-- A call of a public operation other than `load`. The lookups, the views, `explain`,
`canonical_digest` and `save` only read the state and are the one action `inspect`. -/
inductive Op (F : Type) where
  | setCoordinatorEpoch (epoch : CoordinatorEpoch)
  | registerSource (id : SourceId) (gen : SourceGeneration) (name : ByteString)
      (caps : BackendCapabilities)
  | registerWorker (id : WorkerId) (boot : WorkerBootId) (name : ByteString) (connected : Bool)
  | registerWorkload (workload : WorkloadDescriptor)
  | publishBaseline (baseline : Baseline F)
  | recordObservation (observation : Observation F)
  | recordRecovery (victim neighbor : WorkloadId) (domain : InterferenceDomain)
  | compare (affected associated : WorkloadDescriptor) (domain : InterferenceDomain)
      (obs : List (Observation F)) (policy : Policy F)
  | runExperiment (plan : ExperimentPlan) (policy : Policy F)
  | inspect

def step (st : Impl F) : Op F → Option (Impl F)
  | .setCoordinatorEpoch epoch => some (st.setCoordinatorEpoch epoch)
  | .registerSource id gen name caps => some (st.registerSource id gen name caps).2
  | .registerWorker id boot name connected => some (st.registerWorker id boot name connected).2
  | .registerWorkload workload => some (st.registerWorkload workload).2
  | .publishBaseline baseline => some (st.publishBaseline baseline).2
  | .recordObservation observation => some (st.recordObservation observation).2
  | .recordRecovery victim neighbor domain => some (st.recordRecovery victim neighbor domain).2
  | .compare affected associated domain obs policy =>
    some (st.compare affected associated domain obs policy).2
  | .runExperiment plan policy => (st.runExperiment plan policy).map Prod.snd
  | .inspect => some st

def returned (st : Impl F) : Op F → List (PairwiseInterference F)
  | .compare affected associated domain obs policy =>
    [(st.compare affected associated domain obs policy).1]
  | _ => []

namespace Demo

def workload (id : WorkloadId) : WorkloadDescriptor where
  id := id
  generation := ⟨1⟩
  name := []
  configFingerprint := []
  problemSizeFingerprint := []
  deviceId := ⟨1⟩
  deviceGeneration := ⟨1⟩
  workerId := ⟨1⟩
  workerBoot := ⟨1⟩
  policyGeneration := []
  runtimeGeneration := []
  kernelGeneration := []
  topologyGeneration := ⟨0⟩
  startMs := 0
  endMs := 0
  attemptId := 0
  priorityClass := []

def victim : WorkloadDescriptor := workload ⟨1⟩
def neighbor : WorkloadDescriptor := workload ⟨2⟩

def baseline : Baseline F where
  id := ⟨1⟩
  generation := ⟨1⟩
  type := .isolated
  workloadId := ⟨1⟩
  workloadGeneration := ⟨1⟩
  deviceId := ⟨1⟩
  deviceGeneration := ⟨1⟩
  workerId := ⟨1⟩
  workerBoot := ⟨1⟩
  configFingerprint := []
  problemSizeFingerprint := []
  runtimeGeneration := []
  kernelGeneration := []
  policyGeneration := []
  topologyGeneration := ⟨0⟩
  sourceGeneration := ⟨1⟩
  evidenceGeneration := ⟨1⟩
  timestampMs := 0
  intervalMs := 0
  provenance := .measured
  freshness := .current
  sampleCount := 5
  variance := 0.0
  confidence := 1.0
  meanValue := 100.0
  metricKind := .latency
  valid := true

def observation (value : F) : Observation F where
  id := ⟨1⟩
  generation := ⟨1⟩
  sourceId := ⟨1⟩
  sourceGeneration := ⟨1⟩
  workerId := ⟨1⟩
  workerBoot := ⟨1⟩
  workloadId := ⟨1⟩
  workloadGeneration := ⟨1⟩
  deviceId := ⟨1⟩
  deviceGeneration := ⟨1⟩
  timestampMs := 1000
  measurement := .mk₂ .latency value
  provenance := .measured
  freshness := .current
  sourceHealth := .healthy
  capabilities := .init
  coRunPeers := [⟨2⟩]
  confounders := []

def published : Impl F := ((Impl.fresh ⟨1⟩ ⟨1⟩).publishBaseline baseline).2

def slowdown : List (Observation F) := List.replicate 3 (observation 150.0)

def compared : Impl F := (published.compare victim neighbor .cache slowdown .init).2

end Demo
end Iobs
