import InterferenceObservatory.Operations
import InterferenceObservatory.Lib.Parser

/-! The state payload. `serializeState` and `deserializeState` follow the two field
sequences of the source; a record parser returns its record, and what becomes of the
records is left to a `Sink`, so that the same walk over a payload can fill an
observatory or only inspect the payload. -/

namespace Iobs
open ByteFormat Std

namespace Writer
open ByteFormat.Writer

def ident {tag : IdTag} (i : Id tag) : List UInt8 := u64 i.value
def f64 (v : Double) : List UInt8 := u64 v.bits
def en {E : Type} [ByteEnum E] (e : E) : List UInt8 := u8 (ByteEnum.toByte e)

end Writer

namespace Reader
open ByteFormat.Parser

def kStringBound : Nat := 16 * 1024 * 1024

def kCountBound : Nat := 50000000

variable {σ : Type}

def ident {tag : IdTag} : Parser σ (Id tag) := do let v ← u64; pure ⟨v⟩
def i64 : Parser σ Int64 := do let v ← u64; pure v.toInt64
def f64 : Parser σ Double := do let v ← u64; pure ⟨v⟩
def flag : Parser σ Bool := do let v ← u8; pure (v != 0)
def str : Parser σ ByteString := Parser.str kStringBound
def en {E : Type} [ByteEnum E] : Parser σ E := do let v ← u8; pure (ByteEnum.ofByte v)

end Reader

def BackendCapabilities.flags (c : BackendCapabilities) : List Bool :=
  [c.cudaDeviceDiscovery, c.cudaMemoryAlloc, c.cudaH2d, c.cudaD2h, c.cudaKernels, c.cudaEvents,
    c.cudaMemoryAccounting, c.nvmlUtilization, c.pcieCounters, c.cacheCounters,
    c.memoryBandwidthCounters, c.nvlinkCounters, c.collectiveMetrics, c.numaTopology,
    c.storageMetrics, c.powerClockTelemetry, c.hostCpuMetrics]

def packFrom : Nat → List Bool → UInt32
  | _, [] => 0
  | i, b :: bs => (if b then 1 <<< UInt32.ofNat i else 0) ||| packFrom (i + 1) bs

def packCaps (c : BackendCapabilities) : UInt32 := packFrom 0 c.flags

def hasBit (m : UInt32) (i : Nat) : Bool := m &&& (1 <<< UInt32.ofNat i) != 0

def unpackCaps (m : UInt32) : BackendCapabilities where
  cudaDeviceDiscovery := hasBit m 0
  cudaMemoryAlloc := hasBit m 1
  cudaH2d := hasBit m 2
  cudaD2h := hasBit m 3
  cudaKernels := hasBit m 4
  cudaEvents := hasBit m 5
  cudaMemoryAccounting := hasBit m 6
  nvmlUtilization := hasBit m 7
  pcieCounters := hasBit m 8
  cacheCounters := hasBit m 9
  memoryBandwidthCounters := hasBit m 10
  nvlinkCounters := hasBit m 11
  collectiveMetrics := hasBit m 12
  numaTopology := hasBit m 13
  storageMetrics := hasBit m 14
  powerClockTelemetry := hasBit m 15
  hostCpuMetrics := hasBit m 16

section Bytes
open Writer ByteFormat.Writer

def sourceBytes (e : SourceId × SourceRec) : List UInt8 :=
  [ident e.1, ident e.2.generation, str e.2.name, u32 (packCaps e.2.caps), en e.2.freshness].flatten

def workerBytes (e : WorkerId × WorkerRec) : List UInt8 :=
  [ident e.1, ident e.2.boot, str e.2.name, flag e.2.connected].flatten

def workloadBytes (w : WorkloadDescriptor) : List UInt8 :=
  [ident w.id, ident w.generation, str w.name, str w.configFingerprint,
    str w.problemSizeFingerprint, ident w.deviceId, ident w.deviceGeneration, ident w.workerId,
    ident w.workerBoot, str w.policyGeneration, str w.runtimeGeneration, str w.kernelGeneration,
    ident w.topologyGeneration, i64 w.startMs, i64 w.endMs, u64 w.attemptId,
    str w.priorityClass].flatten

def baselineBytes (b : Baseline Double) : List UInt8 :=
  [ident b.id, ident b.generation, en b.type, ident b.workloadId, ident b.workloadGeneration,
    ident b.deviceId, ident b.deviceGeneration, ident b.workerId, ident b.workerBoot,
    str b.configFingerprint, str b.problemSizeFingerprint, str b.runtimeGeneration,
    str b.kernelGeneration, str b.policyGeneration, ident b.topologyGeneration,
    ident b.sourceGeneration, ident b.evidenceGeneration, i64 b.timestampMs, i64 b.intervalMs,
    en b.provenance, en b.freshness, u64 b.sampleCount, f64 b.variance, f64 b.confidence,
    f64 b.meanValue, en b.metricKind, flag b.valid].flatten

def observationBytes (o : Observation Double) : List UInt8 :=
  [ident o.id, ident o.generation, ident o.sourceId, ident o.sourceGeneration, ident o.workerId,
    ident o.workerBoot, ident o.workloadId, ident o.workloadGeneration, ident o.deviceId,
    ident o.deviceGeneration, i64 o.timestampMs, en o.measurement.kind, f64 o.measurement.value,
    str o.measurement.unit, u64 o.measurement.sampleCount, f64 o.measurement.variance,
    f64 o.measurement.p95, flag o.measurement.hasP95, en o.provenance, en o.freshness,
    en o.sourceHealth, u32 (packCaps o.capabilities), list ident o.coRunPeers,
    list en o.confounders].flatten

def deltaBytes (d : MetricDelta Double) : List UInt8 :=
  [en d.kind, f64 d.absolute, f64 d.relative, u64 d.sampleCount, f64 d.variance].flatten

def evidenceBytes (e : InterferenceEvidence) : List UInt8 :=
  [ident e.id, ident e.generation, en e.provenance, en e.strength, en e.outcome,
    str e.summary].flatten

def episodeBytes (e : InterferenceEpisode Double) : List UInt8 :=
  [ident e.id, ident e.generation, i64 e.startMs, i64 e.endMs, flag e.isOpen, ident e.affected,
    list ident e.coRunning, list en e.domains, ident e.baselineId, u64 e.degradation.sampleCount,
    list deltaBytes e.degradation.deltas, f64 e.degradation.worstRelative, f64 e.confidence,
    en e.classification, en e.provenance, en e.freshness, ident e.epoch,
    list evidenceBytes e.evidence].flatten

def comparisonBytes (e : ComparisonId × PairwiseInterference Double) : List UInt8 :=
  [ident e.1, ident e.2.victim, ident e.2.neighbor, en e.2.domain, ident e.2.baselineId,
    u64 e.2.degradation.sampleCount, list deltaBytes e.2.degradation.deltas,
    f64 e.2.degradation.worstRelative, f64 e.2.confidence, u64 e.2.sampleCount, en e.2.freshness,
    en e.2.outcome, en e.2.attribution, ident e.2.episodeId, ident e.2.comparisonId,
    ident e.2.comparisonGeneration, ident e.2.epoch, list en e.2.evidenceSources,
    flag e.2.confounded, list en e.2.unresolvedConfounders].flatten

def recoveryBytes (k : CellKey) : List UInt8 :=
  [ident k.victim, ident k.neighbor, en k.domain].flatten

def sectionBytes (st : Impl Double) : List (List UInt8) :=
  [list sourceBytes st.sources.toList, list workerBytes st.workers.toList,
    list workloadBytes st.workloads.values, list baselineBytes st.baselines.values,
    list observationBytes st.observations.values, list episodeBytes st.episodes.values,
    list comparisonBytes st.comparisons.toList, list recoveryBytes st.recoveries.toList]

def bodyBytes (st : Impl Double) : List UInt8 :=
  (ident st.id :: ident st.generation :: ident st.epoch :: sectionBytes st).flatten

def serializeState (st : Impl Double) : List UInt8 := u8 1 ++ bodyBytes st

end Bytes

def canonicalDigest (st : Impl Double) : String :=
  DigestBuilder.finish (DigestBuilder.addBytes DigestBuilder.init (serializeState st))

section Parsers
open Reader ByteFormat.Parser

def source : Parser Unit (SourceId × SourceRec) := do
  let sourceId ← ident
  let generation ← ident
  let name ← str
  let caps ← u32
  let freshness ← en
  pure (sourceId, ⟨generation, name, unpackCaps caps, freshness⟩)

def worker : Parser Unit (WorkerId × WorkerRec) := do
  let workerId ← ident
  let boot ← ident
  let name ← str
  let connected ← flag
  pure (workerId, ⟨boot, name, connected⟩)

def workload : Parser Unit WorkloadDescriptor := do
  let workloadId ← ident
  let generation ← ident
  let name ← str
  let configFingerprint ← str
  let problemSizeFingerprint ← str
  let deviceId ← ident
  let deviceGeneration ← ident
  let workerId ← ident
  let workerBoot ← ident
  let policyGeneration ← str
  let runtimeGeneration ← str
  let kernelGeneration ← str
  let topologyGeneration ← ident
  let startMs ← i64
  let endMs ← i64
  let attemptId ← u64
  let priorityClass ← str
  pure ⟨workloadId, generation, name, configFingerprint, problemSizeFingerprint, deviceId,
    deviceGeneration, workerId, workerBoot, policyGeneration, runtimeGeneration, kernelGeneration,
    topologyGeneration, startMs, endMs, attemptId, priorityClass⟩

def baseline : Parser Unit (Baseline Double) := do
  let baselineId ← ident
  let generation ← ident
  let type ← en
  let workloadId ← ident
  let workloadGeneration ← ident
  let deviceId ← ident
  let deviceGeneration ← ident
  let workerId ← ident
  let workerBoot ← ident
  let configFingerprint ← str
  let problemSizeFingerprint ← str
  let runtimeGeneration ← str
  let kernelGeneration ← str
  let policyGeneration ← str
  let topologyGeneration ← ident
  let sourceGeneration ← ident
  let evidenceGeneration ← ident
  let timestampMs ← i64
  let intervalMs ← i64
  let provenance ← en
  let freshness ← en
  let sampleCount ← u64
  let variance ← f64
  let confidence ← f64
  let meanValue ← f64
  let metricKind ← en
  let valid ← flag
  pure ⟨baselineId, generation, type, workloadId, workloadGeneration, deviceId, deviceGeneration,
    workerId, workerBoot, configFingerprint, problemSizeFingerprint, runtimeGeneration,
    kernelGeneration, policyGeneration, topologyGeneration, sourceGeneration, evidenceGeneration,
    timestampMs, intervalMs, provenance, freshness, sampleCount, variance, confidence, meanValue,
    metricKind, valid⟩

def observation : Parser Unit (Observation Double) := do
  let observationId ← ident
  let generation ← ident
  let sourceId ← ident
  let sourceGeneration ← ident
  let workerId ← ident
  let workerBoot ← ident
  let workloadId ← ident
  let workloadGeneration ← ident
  let deviceId ← ident
  let deviceGeneration ← ident
  let timestampMs ← i64
  let kind ← en
  let value ← f64
  let unit ← str
  let sampleCount ← u64
  let variance ← f64
  let p95 ← f64
  let hasP95 ← flag
  let provenance ← en
  let freshness ← en
  let sourceHealth ← en
  let capabilities ← u32
  let coRunPeers ← list "peer count bound" kCountBound ident
  let confounders ← list "confounder count bound" kCountBound en
  pure ⟨observationId, generation, sourceId, sourceGeneration, workerId, workerBoot, workloadId,
    workloadGeneration, deviceId, deviceGeneration, timestampMs,
    ⟨kind, value, unit, sampleCount, variance, p95, hasP95⟩, provenance, freshness, sourceHealth,
    unpackCaps capabilities, coRunPeers, confounders⟩

def delta : Parser Unit (MetricDelta Double) := do
  let kind ← en
  let absolute ← f64
  let relative ← f64
  let sampleCount ← u64
  let variance ← f64
  pure ⟨kind, absolute, relative, sampleCount, variance⟩

def evidence : Parser Unit InterferenceEvidence := do
  let evidenceId ← ident
  let generation ← ident
  let provenance ← en
  let strength ← en
  let outcome ← en
  let summary ← str
  pure ⟨evidenceId, generation, provenance, strength, outcome, summary⟩

def episode : Parser Unit (InterferenceEpisode Double) := do
  let episodeId ← ident
  let generation ← ident
  let startMs ← i64
  let endMs ← i64
  let isOpen ← flag
  let affected ← ident
  let coRunning ← list "co-running bound" kCountBound ident
  let domains ← list "domain bound" kCountBound en
  let baselineId ← ident
  let sampleCount ← u64
  let deltas ← list "delta bound" kCountBound delta
  let worstRelative ← f64
  let confidence ← f64
  let classification ← en
  let provenance ← en
  let freshness ← en
  let epoch ← ident
  let evidence ← list "evidence bound" kCountBound evidence
  pure ⟨episodeId, generation, startMs, endMs, isOpen, affected, coRunning, domains, baselineId,
    ⟨deltas, sampleCount, worstRelative⟩, evidence, confidence, classification, provenance,
    freshness, epoch⟩

def comparison : Parser Unit (ComparisonId × PairwiseInterference Double) := do
  let cid ← ident
  let victim ← ident
  let neighbor ← ident
  let domain ← en
  let baselineId ← ident
  let deltaCount ← u64
  let deltas ← list "delta bound" kCountBound delta
  let worstRelative ← f64
  let confidence ← f64
  let sampleCount ← u64
  let freshness ← en
  let outcome ← en
  let attribution ← en
  let episodeId ← ident
  let comparisonId ← ident
  let comparisonGeneration ← ident
  let epoch ← ident
  let evidenceSources ← list "evidence source bound" kCountBound en
  let confounded ← flag
  let unresolvedConfounders ← list "unresolved bound" kCountBound en
  pure (cid, ⟨victim, neighbor, domain, baselineId, ⟨deltas, deltaCount, worstRelative⟩,
    confidence, sampleCount, freshness, outcome, attribution, episodeId, comparisonId,
    comparisonGeneration, epoch, evidenceSources, confounded, unresolvedConfounders⟩)

def recovery : Parser Unit CellKey := do
  let victim ← ident
  let neighbor ← ident
  let domain ← en
  pure ⟨victim, neighbor, domain⟩

structure Sink (σ : Type) where
  header : ObservatoryId → ObservatoryGeneration → CoordinatorEpoch → σ → σ
  source : SourceId × SourceRec → σ → σ
  worker : WorkerId × WorkerRec → σ → σ
  workload : WorkloadDescriptor → σ → σ
  baseline : Baseline Double → σ → σ
  observation : Observation Double → σ → σ
  episode : InterferenceEpisode Double → σ → σ
  comparison : ComparisonId × PairwiseInterference Double → σ → σ
  recovery : CellKey → σ → σ

def sections {σ : Type} (sink : Sink σ) : Parser σ Unit := do
  counted "source count bound" kCountBound (lift source) sink.source
  counted "worker count bound" kCountBound (lift worker) sink.worker
  counted "workload count bound" kCountBound (lift workload) sink.workload
  counted "baseline count bound" kCountBound (lift baseline) sink.baseline
  counted "observation count bound" kCountBound (lift observation) sink.observation
  counted "episode count bound" kCountBound (lift episode) sink.episode
  counted "comparison count bound" kCountBound (lift comparison) sink.comparison
  counted "recovery count bound" kCountBound (lift recovery) sink.recovery
  pure ()

def body {σ : Type} (sink : Sink σ) : Parser σ Unit := do
  let observatoryId ← lift ident
  let generation ← lift ident
  let epoch ← lift ident
  update (sink.header observatoryId generation epoch)
  sections sink

end Parsers

namespace Impl

def sink : Sink (Impl Double) where
  header id generation epoch st := { st with id, generation, epoch }
  source e st := { st with sources := st.sources.insertIfNew e.1 e.2 }
  worker e st := { st with workers := st.workers.insertIfNew e.1 e.2 }
  workload w st := { st with workloads := st.workloads.emplace w }
  baseline b st := { st with baselines := st.baselines.emplace b }
  observation o st := { st with observations := st.observations.emplace o }
  episode e st := { st with episodes := st.episodes.emplace e }
  comparison e st := { st with
    comparisons := st.comparisons.insertIfNew e.1 e.2
    matrix := st.matrix.insert e.2.cellKey e.2 }
  recovery k st := { st with recoveries := st.recoveries.insert k }

def clear (st : Impl Double) : Impl Double :=
  { st with
    sources := ∅
    workers := ∅
    workloads := ∅
    baselines := ∅
    observations := ∅
    episodes := ∅
    comparisons := ∅
    recoveries := ∅ }

end Impl

def readBody {σ : Type} (sink : Sink σ) (payload : List UInt8) : Except String Unit × (σ → σ) :=
  let out := (body sink).run ⟨payload, 1, true⟩
  match out.1 with
  | .error reason => (.error reason, out.2.2)
  | .ok () => (if out.2.1.ok then .ok () else .error "truncated payload", out.2.2)

def deserializeState (st : Impl Double) (payload : List UInt8) : Except String Unit × Impl Double :=
  match payload with
  | [] => (.error "empty payload", st)
  | version :: _ =>
    if version ≠ 1 then (.error "unknown payload version", st)
    else
      let out := readBody Impl.sink payload
      (out.1, out.2 st.clear)

end Iobs
