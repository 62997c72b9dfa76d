import InterferenceObservatory.Records
import InterferenceObservatory.Lib.KeyedMap

/-! The state of the observatory and the operations that register evidence in it. The
workload, baseline, observation and episode maps are keyed by the identity in the
record, as every store of the source does it. -/

namespace Iobs
open DoubleOps Std

variable {F : Type}

structure SourceRec where
  generation : SourceGeneration
  name : ByteString
  caps : BackendCapabilities
  freshness : Freshness

structure WorkerRec where
  boot : WorkerBootId
  name : ByteString
  connected : Bool

structure Impl (F : Type) where
  id : ObservatoryId
  generation : ObservatoryGeneration
  epoch : CoordinatorEpoch
  sources : ExtTreeMap SourceId SourceRec
  workers : ExtTreeMap WorkerId WorkerRec
  workloads : KeyedMap WorkloadId WorkloadDescriptor WorkloadDescriptor.id
  baselines : KeyedMap BaselineId (Baseline F) Baseline.id
  observations : KeyedMap ObservationId (Observation F) Observation.id
  episodes : KeyedMap EpisodeId (InterferenceEpisode F) InterferenceEpisode.id
  comparisons : ExtTreeMap ComparisonId (PairwiseInterference F)
  matrix : ExtTreeMap CellKey (PairwiseInterference F)
  recoveries : ExtTreeSet CellKey

namespace Impl

def fresh (id : ObservatoryId) (generation : ObservatoryGeneration) : Impl F where
  id := id
  generation := generation
  epoch := ⟨1⟩
  sources := ∅
  workers := ∅
  workloads := ∅
  baselines := ∅
  observations := ∅
  episodes := ∅
  comparisons := ∅
  matrix := ∅
  recoveries := ∅

def demoteBaseline (b : Baseline F) : Baseline F :=
  if b.type = .historicalIsolated ∨ b.freshness = .historical then b
  else { b with freshness := .revalidationRequired }

theorem demoteBaseline_id (b : Baseline F) : (demoteBaseline b).id = b.id := by
  unfold demoteBaseline
  split_ifs <;> rfl

def setCoordinatorEpoch (st : Impl F) (epoch : CoordinatorEpoch) : Impl F :=
  -- setting the epoch there already is demotes nothing
  if epoch = st.epoch then st
  else { st with
    epoch := epoch
    baselines := st.baselines.mapValues demoteBaseline demoteBaseline_id
    sources := st.sources.map fun _ s =>
      if s.freshness ≠ .historical then { s with freshness := .revalidationRequired } else s
    workers := st.workers.map fun _ w => { w with connected := false } }

def registerSource (st : Impl F) (id : SourceId) (gen : SourceGeneration) (name : ByteString)
    (caps : BackendCapabilities) : Status × Impl F :=
  if id.isNil || gen.isNil then (.invalidInput, st)
  else match st.sources[id]? with
    | some s =>
      -- another generation is reported as stale, and stored all the same
      if s.generation ≠ gen then
        (.staleAuthority,
          { st with sources := st.sources.insert id ⟨gen, name, caps, .revalidationRequired⟩ })
      else (.ok, { st with sources := st.sources.insert id ⟨s.generation, name, caps, .current⟩ })
    | none => (.ok, { st with sources := st.sources.insert id ⟨gen, name, caps, .current⟩ })

def registerWorker (st : Impl F) (id : WorkerId) (boot : WorkerBootId) (name : ByteString)
    (connected : Bool) : Status × Impl F :=
  if id.isNil || boot.isNil then (.invalidInput, st)
  else match st.workers[id]? with
    | some w =>
      if w.boot ≠ boot then
        (.staleAuthority, { st with workers := st.workers.insert id ⟨boot, name, connected⟩ })
      else (.ok, { st with workers := st.workers.insert id ⟨w.boot, name, connected⟩ })
    | none => (.ok, { st with workers := st.workers.insert id ⟨boot, name, connected⟩ })

def registerWorkload (st : Impl F) (workload : WorkloadDescriptor) : Status × Impl F :=
  if workload.id.isNil || workload.generation.isNil then (.invalidInput, st)
  else (.ok, { st with workloads := st.workloads.insert workload })

def lookupBaseline (st : Impl F) (id : BaselineId) : Option (Baseline F) := st.baselines.find? id

def stampFreshness (b : Baseline F) : Baseline F :=
  if b.freshness = .unknown then { b with freshness := .current } else b

theorem stampFreshness_id (b : Baseline F) : (stampFreshness b).id = b.id := by
  unfold stampFreshness
  split_ifs <;> rfl

def recordRecovery (st : Impl F) (victim neighbor : WorkloadId) (domain : InterferenceDomain) :
    Status × Impl F :=
  if victim.isNil || neighbor.isNil then (.invalidInput, st)
  else (.ok, { st with recoveries := st.recoveries.insert ⟨victim, neighbor, domain⟩ })

variable [DoubleOps F]

def checkBaseline (b : Baseline F) : Status :=
  if b.id.isNil || b.generation.isNil then .invalidInput
  else if !b.isUsable then .insufficientEvidence
  else if !isFinite b.confidence || ltb b.confidence 0.0 || ltb 1.0 b.confidence then .invalidInput
  else if !isFinite b.variance || ltb b.variance 0.0 then .invalidInput
  else if b.sampleCount = 0 then .insufficientEvidence
  else if b.metricKind ∉ [.latency, .throughput, .deviceTime, .transferTime, .collectiveTime,
      .stallTime, .tailLatency, .completionRate, .memoryBandwidth] then .invalidInput
  else .ok

def publishBaseline (st : Impl F) (baseline : Baseline F) : Status × Impl F :=
  if checkBaseline baseline ≠ .ok then (checkBaseline baseline, st)
  else match st.baselines.find? baseline.id with
    | some b =>
      -- a stored baseline is never replaced: a repetition is accepted, anything else refused
      if b.generation = baseline.generation ∧ b.workloadId = baseline.workloadId ∧
          b.deviceId = baseline.deviceId ∧ eqb b.meanValue baseline.meanValue ∧
          b.sampleCount = baseline.sampleCount then (.ok, st)
      else (.invalidInput, st)
    | none => (.ok, { st with baselines := st.baselines.emplace (stampFreshness baseline) })

def recordObservation (st : Impl F) (observation : Observation F) : Status × Impl F :=
  if observation.id.isNil || observation.generation.isNil then (.invalidInput, st)
  else if observation.workloadId.isNil then (.invalidInput, st)
  else if !observation.measurement.isValid then (.invalidInput, st)
  else if !isFinite (ofInt64 observation.timestampMs : F) then (.invalidInput, st)
  else match st.observations.find? observation.id with
    | some o =>
      if o.timestampMs = observation.timestampMs ∧
          eqb o.measurement.value observation.measurement.value ∧
          o.workloadId = observation.workloadId then (.ok, st)
      else (.invalidInput, st)
    | none => (.ok, { st with observations := st.observations.emplace observation })

end Impl
end Iobs
