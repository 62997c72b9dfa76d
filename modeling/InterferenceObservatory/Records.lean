import InterferenceObservatory.Ids
import InterferenceObservatory.Double

/-! The records of the observatory: measurements, workloads, baselines, observations,
policies and the conclusions drawn from them. -/

namespace Iobs
open DoubleOps

/-- A `std::string` of the source: bytes, not necessarily text. -/
abbrev ByteString := List UInt8

variable {F : Type}

structure Measurement (F : Type) where
  kind : MetricKind
  value : F
  unit : ByteString
  sampleCount : UInt64
  variance : F
  p95 : F
  hasP95 : Bool

def Measurement.mk₂ [DoubleOps F] (kind : MetricKind) (value : F) : Measurement F where
  kind := kind
  value := value
  unit := []
  sampleCount := 1
  variance := 0.0
  p95 := 0.0
  hasP95 := false

def Measurement.isValid [DoubleOps F] (m : Measurement F) : Bool :=
  isFiniteNonneg m.value && m.sampleCount != 0 && isFiniteNonneg m.variance

structure MetricDelta (F : Type) where
  kind : MetricKind
  absolute : F
  relative : F
  sampleCount : UInt64
  variance : F

structure Degradation (F : Type) where
  deltas : List (MetricDelta F)
  sampleCount : UInt64
  worstRelative : F

def Degradation.init [DoubleOps F] : Degradation F := ⟨[], 0, 0.0⟩

structure BackendCapabilities where
  cudaDeviceDiscovery : Bool
  cudaMemoryAlloc : Bool
  cudaH2d : Bool
  cudaD2h : Bool
  cudaKernels : Bool
  cudaEvents : Bool
  cudaMemoryAccounting : Bool
  nvmlUtilization : Bool
  pcieCounters : Bool
  cacheCounters : Bool
  memoryBandwidthCounters : Bool
  nvlinkCounters : Bool
  collectiveMetrics : Bool
  numaTopology : Bool
  storageMetrics : Bool
  powerClockTelemetry : Bool
  hostCpuMetrics : Bool
deriving DecidableEq

def BackendCapabilities.init : BackendCapabilities :=
  ⟨false, false, false, false, false, false, false, false, false, false, false, false, false,
    false, false, false, false⟩

structure Binding where
  workloadGeneration : WorkloadGeneration
  deviceGeneration : DeviceGeneration
  workerBoot : WorkerBootId
  configFingerprint : ByteString
  problemSizeFingerprint : ByteString
  runtimeGeneration : ByteString
  kernelGeneration : ByteString
  policyGeneration : ByteString
  topologyGeneration : TopologyGeneration
deriving DecidableEq

structure WorkloadDescriptor where
  id : WorkloadId
  generation : WorkloadGeneration
  name : ByteString
  configFingerprint : ByteString
  problemSizeFingerprint : ByteString
  deviceId : DeviceId
  deviceGeneration : DeviceGeneration
  workerId : WorkerId
  workerBoot : WorkerBootId
  policyGeneration : ByteString
  runtimeGeneration : ByteString
  kernelGeneration : ByteString
  topologyGeneration : TopologyGeneration
  startMs : Int64
  endMs : Int64
  attemptId : UInt64
  priorityClass : ByteString

def WorkloadDescriptor.binding (w : WorkloadDescriptor) : Binding where
  workloadGeneration := w.generation
  deviceGeneration := w.deviceGeneration
  workerBoot := w.workerBoot
  configFingerprint := w.configFingerprint
  problemSizeFingerprint := w.problemSizeFingerprint
  runtimeGeneration := w.runtimeGeneration
  kernelGeneration := w.kernelGeneration
  policyGeneration := w.policyGeneration
  topologyGeneration := w.topologyGeneration

structure Baseline (F : Type) where
  id : BaselineId
  generation : BaselineGeneration
  type : BaselineType
  workloadId : WorkloadId
  workloadGeneration : WorkloadGeneration
  deviceId : DeviceId
  deviceGeneration : DeviceGeneration
  workerId : WorkerId
  workerBoot : WorkerBootId
  configFingerprint : ByteString
  problemSizeFingerprint : ByteString
  runtimeGeneration : ByteString
  kernelGeneration : ByteString
  policyGeneration : ByteString
  topologyGeneration : TopologyGeneration
  sourceGeneration : SourceGeneration
  evidenceGeneration : EvidenceGeneration
  timestampMs : Int64
  intervalMs : Int64
  provenance : Provenance
  freshness : Freshness
  sampleCount : UInt64
  variance : F
  confidence : F
  meanValue : F
  metricKind : MetricKind
  valid : Bool
deriving DecidableEq

namespace Baseline

def bindingMatches (b : Baseline F) (x : Binding) : Bool :=
  b.workloadGeneration == x.workloadGeneration && b.deviceGeneration == x.deviceGeneration &&
  b.workerBoot == x.workerBoot && b.configFingerprint == x.configFingerprint &&
  b.problemSizeFingerprint == x.problemSizeFingerprint &&
  b.runtimeGeneration == x.runtimeGeneration && b.kernelGeneration == x.kernelGeneration &&
  b.policyGeneration == x.policyGeneration && b.topologyGeneration == x.topologyGeneration

def isUsable [DoubleOps F] (b : Baseline F) : Bool :=
  b.valid && b.sampleCount > 0 && ltb 0.0 b.confidence && isFiniteNonneg b.meanValue

end Baseline

structure Observation (F : Type) where
  id : ObservationId
  generation : ObservationGeneration
  sourceId : SourceId
  sourceGeneration : SourceGeneration
  workerId : WorkerId
  workerBoot : WorkerBootId
  workloadId : WorkloadId
  workloadGeneration : WorkloadGeneration
  deviceId : DeviceId
  deviceGeneration : DeviceGeneration
  timestampMs : Int64
  measurement : Measurement F
  provenance : Provenance
  freshness : Freshness
  sourceHealth : SourceHealth
  capabilities : BackendCapabilities
  coRunPeers : List WorkloadId
  confounders : List Confounder

structure Policy (F : Type) where
  potentialThreshold : F
  detectedThreshold : F
  severeThreshold : F
  minSamples : UInt64
  minConfidence : F
  staleAfterMs : Int64
  maxAgeMs : Int64
  allowNoEvidenceToBeUnknown : Bool

def Policy.init [DoubleOps F] : Policy F where
  potentialThreshold := 0.02
  detectedThreshold := 0.10
  severeThreshold := 0.50
  minSamples := 3
  minConfidence := 0.60
  staleAfterMs := 15 * 60 * 1000
  maxAgeMs := 60 * 60 * 1000
  allowNoEvidenceToBeUnknown := true

def Policy.isValid [DoubleOps F] (p : Policy F) : Bool :=
  leb 0.0 p.potentialThreshold && leb p.potentialThreshold p.detectedThreshold &&
  leb p.detectedThreshold p.severeThreshold && p.minSamples ≥ 1 &&
  leb 0.0 p.minConfidence && leb p.minConfidence 1.0

structure PairwiseInterference (F : Type) where
  victim : WorkloadId
  neighbor : WorkloadId
  domain : InterferenceDomain
  baselineId : BaselineId
  degradation : Degradation F
  confidence : F
  sampleCount : UInt64
  freshness : Freshness
  outcome : Outcome
  attribution : AttributionStrength
  episodeId : EpisodeId
  comparisonId : ComparisonId
  comparisonGeneration : ComparisonGeneration
  epoch : CoordinatorEpoch
  evidenceSources : List Provenance
  confounded : Bool
  unresolvedConfounders : List Confounder

def PairwiseInterference.cellKey (p : PairwiseInterference F) : CellKey :=
  ⟨p.victim, p.neighbor, p.domain⟩

structure InterferenceEvidence where
  id : EvidenceId
  generation : EvidenceGeneration
  provenance : Provenance
  strength : AttributionStrength
  outcome : Outcome
  summary : ByteString

structure InterferenceEpisode (F : Type) where
  id : EpisodeId
  generation : EpisodeGeneration
  startMs : Int64
  endMs : Int64
  isOpen : Bool
  affected : WorkloadId
  coRunning : List WorkloadId
  domains : List InterferenceDomain
  baselineId : BaselineId
  degradation : Degradation F
  evidence : List InterferenceEvidence
  confidence : F
  classification : Outcome
  provenance : Provenance
  freshness : Freshness
  epoch : CoordinatorEpoch

structure InterferenceExplanation (F : Type) where
  affected : WorkloadId
  associated : List WorkloadId
  domain : InterferenceDomain
  baselineId : BaselineId
  hasBaseline : Bool
  degradation : Degradation F
  sampleCount : UInt64
  variance : F
  timelineOverlapFraction : F
  confoundersChecked : List Confounder
  confoundersUnresolved : List Confounder
  provenance : Provenance
  freshness : Freshness
  confidence : F
  attribution : AttributionStrength
  outcome : Outcome
  supportingObservations : List ObservationId
  unknownComponents : List String
  whatWouldStrengthenEvidence : List String
  authorityOnly : Bool

structure ExperimentPlan where
  id : ExperimentId
  generation : ExperimentGeneration
  primary : WorkloadId
  neighbor : WorkloadId
  domain : InterferenceDomain
  repetitions : UInt64

structure ExperimentResult (F : Type) where
  experimentId : ExperimentId
  generation : ExperimentGeneration
  primaryAsVictim : Option (PairwiseInterference F)
  neighborAsVictim : Option (PairwiseInterference F)
  repetitionsExecuted : UInt64
  complete : Bool

end Iobs
