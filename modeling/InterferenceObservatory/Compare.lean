import InterferenceObservatory.Observatory
import InterferenceObservatory.Digest

/-! `InterferenceObservatory::compare`: the gates, the aggregation of the co-run
measurements, the confounder analysis, the attribution ladder and the three stores. -/

namespace Iobs
open DoubleOps

variable {F : Type} [DoubleOps F]

def ascii (s : String) : ByteString := s.toList.map fun c => UInt8.ofNat c.toNat

def metricIsWorse (kind : MetricKind) (relative : F) : Bool :=
  match kind with
  | .latency | .deviceTime | .transferTime | .collectiveTime | .stallTime | .tailLatency =>
    ltb 0.0 relative
  | .throughput | .completionRate | .memoryBandwidth => ltb relative 0.0
  | .outOfRange _ => false

def degradationMagnitude (kind : MetricKind) (relative : F) : F :=
  if metricIsWorse kind relative then fabs relative else 0.0

def relativeDegradation (baseline : Baseline F) (measurement : Measurement F) : F :=
  if leb baseline.meanValue 0.0 then 0.0
  else (measurement.value - baseline.meanValue) / baseline.meanValue

def classifyOutcome (worstRelativeDegradation : F) (policy : Policy F) : Outcome :=
  if ltb worstRelativeDegradation policy.potentialThreshold then .noInterferenceDetected
  else if ltb worstRelativeDegradation policy.detectedThreshold then .potentialInterference
  else if ltb worstRelativeDegradation policy.severeThreshold then .interferenceDetected
  else .severeInterference

structure Selection (F : Type) where
  usable : Option (Baseline F)
  anyMatch : Option (Baseline F)

def newer (b u : Baseline F) : Bool :=
  b.timestampMs > u.timestampMs || (b.timestampMs == u.timestampMs && b.id.value > u.id.value)

def selectStep (affected : WorkloadDescriptor) (s : Selection F) (b : Baseline F) : Selection F :=
  if b.workloadId = affected.id ∧ b.deviceId = affected.deviceId then
    { anyMatch := if s.anyMatch.isNone then some b else s.anyMatch
      usable :=
        if b.isUsable && b.bindingMatches affected.binding then
          match s.usable with
          | none => some b
          | some u => if newer b u then some b else some u
        else s.usable }
  else s

def selectBaseline (baselines : List (Baseline F)) (affected : WorkloadDescriptor) : Selection F :=
  baselines.foldl (selectStep affected) ⟨none, none⟩

def nowOf (obs : List (Observation F)) : Int64 := (obs.getLast?.map (·.timestampMs)).getD 0

def freshnessGate (usable : Baseline F) (now : Int64) (policy : Policy F) : Freshness × Bool :=
  if usable.freshness = .current then
    if now - usable.timestampMs ≤ policy.staleAfterMs then (.current, true)
    else if now - usable.timestampMs ≤ policy.maxAgeMs then (.stale, false)
    else (.expired, false)
  else (usable.freshness, false)

structure Aggregate (F : Type) where
  vals : List F
  p95 : F
  hasP95 : Bool
  overlap : Bool
  n : UInt64

def aggregateStep (affected : WorkloadId) (kind : MetricKind) (associated : WorkloadId)
    (a : Aggregate F) (o : Observation F) : Aggregate F :=
  if o.workloadId ≠ affected then a
  else if o.measurement.kind ≠ kind then a
  else if !o.measurement.isValid then a
  else
    -- the largest tail latency is kept but enters no result
    let tail := o.measurement.hasP95 && ltb a.p95 o.measurement.p95
    { vals := a.vals ++ [o.measurement.value]
      p95 := if tail then o.measurement.p95 else a.p95
      hasP95 := tail || a.hasP95
      overlap := a.overlap || o.coRunPeers.any (· == associated)
      n := a.n + 1 }

def aggregate (affected : WorkloadId) (kind : MetricKind) (associated : WorkloadId)
    (obs : List (Observation F)) : Aggregate F :=
  obs.foldl (aggregateStep affected kind associated) ⟨[], 0.0, false, false, 0⟩

def meanOf (vals : List F) (n : UInt64) : F := vals.foldl (· + ·) 0.0 / ofUInt64 n

def varianceOf (vals : List F) (n : UInt64) (mean : F) : F :=
  if n > 1 then vals.foldl (fun s v => s + (v - mean) * (v - mean)) 0.0 / ofUInt64 (n - 1)
  else 0.0

structure Unresolved where
  hard : List Confounder
  soft : List Confounder

def noteConfounder (u : Unresolved) (c : Confounder) : Unresolved :=
  if c ∉ u.hard ∧ c ∉ u.soft then
    if isHardConfounder c then { u with hard := u.hard ++ [c] }
    else { u with soft := u.soft ++ [c] }
  else u

def unresolvedConfounders (affected : WorkloadId) (obs : List (Observation F)) : Unresolved :=
  obs.foldl (fun u o => if o.workloadId ≠ affected then u else o.confounders.foldl noteConfounder u)
    ⟨[], []⟩

def confidenceOf (usable : Baseline F) (fresh : Freshness) (freshOk : Bool) (n : UInt64)
    (policy : Policy F) (u : Unresolved) : F :=
  let conf := usable.confidence
  let conf := if freshOk && fresh == .stale then conf * 0.5 else conf
  let conf := conf * DoubleOps.min 1.0 (ofUInt64 n / ofUInt64 (policy.minSamples * 2))
  let conf := if u.hard.isEmpty then u.soft.foldl (fun c _ => c * 0.85) conf else conf * 0.2
  clamp conf 0.0 1.0

def attributionOf (overlap : Bool) (u : Unresolved) (hasRecovery : Bool) : AttributionStrength :=
  if !overlap then .unknown
  else if !u.hard.isEmpty then
    if u.hard.length ≥ 2 then .temporallyAssociated else .correlated
  else if hasRecovery then .strongCounterfactualEvidence
  else .controlledComparison

def allMeasured (affected : WorkloadId) (obs : List (Observation F)) : Bool :=
  obs.all fun o => o.workloadId != affected ||
    (o.provenance == .measured || o.provenance == .controlled)

def evidenceProvenance (affected : WorkloadId) (obs : List (Observation F)) : Provenance :=
  if allMeasured affected obs then .measured else .controlled

def nonNil (v : UInt64) : UInt64 := if v = 0 then 1 else v

open DigestBuilder in
def comparisonIdOf (key : CellKey) (baseline : BaselineId) (n : UInt64) : ComparisonId :=
  ⟨nonNil (addU64 (addId (addEnum (addId (addId (addU8 init 0xA1) key.victim) key.neighbor)
    key.domain) baseline) n)⟩

open DigestBuilder in
def episodeIdOf (victim : WorkloadId) (domain : InterferenceDomain) (baseline : BaselineId) :
    EpisodeId :=
  ⟨nonNil (addId (addEnum (addId (addU8 init 0xB2) victim) domain) baseline)⟩

def Outcome.isInterference (o : Outcome) : Bool :=
  o = .potentialInterference || o = .interferenceDetected || o = .severeInterference

namespace Impl

def compareInit (st : Impl F) (affected associated : WorkloadDescriptor)
    (domain : InterferenceDomain) : PairwiseInterference F where
  victim := affected.id
  neighbor := associated.id
  domain := domain
  baselineId := ⟨0⟩
  degradation := .init
  confidence := 0.0
  sampleCount := 0
  freshness := .unknown
  outcome := .unknown
  attribution := .unknown
  episodeId := ⟨0⟩
  comparisonId := ⟨0⟩
  comparisonGeneration := ⟨1⟩
  epoch := st.epoch
  evidenceSources := []
  confounded := false
  unresolvedConfounders := []

def degradationOf (usable : Baseline F) (a : Aggregate F) : Degradation F :=
  let mean := meanOf a.vals a.n
  let relative := relativeDegradation usable (.mk₂ usable.metricKind mean)
  { deltas := [⟨usable.metricKind, mean - usable.meanValue, relative, a.n,
      varianceOf a.vals a.n mean⟩]
    sampleCount := a.n
    worstRelative := degradationMagnitude usable.metricKind relative }

def verdict (st : Impl F) (affected associated : WorkloadDescriptor) (domain : InterferenceDomain)
    (obs : List (Observation F)) (policy : Policy F) (usable : Baseline F) (fresh : Freshness)
    (freshOk : Bool) (a : Aggregate F) : PairwiseInterference F :=
  let u := unresolvedConfounders affected.id obs
  let deg := degradationOf usable a
  { st.compareInit affected associated domain with
    baselineId := usable.id
    sampleCount := a.n
    freshness := fresh
    confounded := !u.hard.isEmpty
    unresolvedConfounders := u.hard ++ u.soft
    degradation := deg
    outcome := if a.overlap then classifyOutcome deg.worstRelative policy
      else .noInterferenceDetected
    confidence := confidenceOf usable fresh freshOk a.n policy u
    -- a recovery counts for this direction and this domain only
    attribution := attributionOf a.overlap u
      (st.recoveries.contains ⟨affected.id, associated.id, domain⟩)
    evidenceSources := [evidenceProvenance affected.id obs]
    comparisonId := comparisonIdOf ⟨affected.id, associated.id, domain⟩ usable.id a.n }

def episodeOf (st : Impl F) (affected associated : WorkloadDescriptor) (domain : InterferenceDomain)
    (obs : List (Observation F)) (v : PairwiseInterference F) : InterferenceEpisode F where
  id := episodeIdOf affected.id domain v.baselineId
  generation := ⟨1⟩
  startMs := (obs.head?.map (·.timestampMs)).getD 0
  endMs := nowOf obs
  isOpen := false
  affected := affected.id
  coRunning := [associated.id]
  domains := [domain]
  baselineId := v.baselineId
  degradation := v.degradation
  evidence := [⟨⟨1⟩, ⟨1⟩, evidenceProvenance affected.id obs, v.attribution, v.outcome,
    ascii "controlled co-run degradation"⟩]
  confidence := v.confidence
  classification := v.outcome
  provenance := evidenceProvenance affected.id obs
  freshness := v.freshness
  epoch := st.epoch

def recordVerdict (st : Impl F) (affected associated : WorkloadDescriptor)
    (domain : InterferenceDomain) (obs : List (Observation F)) (v : PairwiseInterference F) :
    PairwiseInterference F × Impl F :=
  let st' := { st with
    comparisons := st.comparisons.insert v.comparisonId v
    matrix := st.matrix.insert ⟨affected.id, associated.id, domain⟩ v }
  if v.outcome.isInterference then
    let ep := st.episodeOf affected associated domain obs v
    ({ v with episodeId := ep.id }, { st' with episodes := st'.episodes.insert ep })
  else (v, st')

def compareAgainst (st : Impl F) (affected associated : WorkloadDescriptor)
    (domain : InterferenceDomain) (obs : List (Observation F)) (policy : Policy F)
    (usable : Baseline F) (fresh : Freshness) (freshOk : Bool) : PairwiseInterference F × Impl F :=
  let a := aggregate affected.id usable.metricKind associated.id obs
  if a.n = 0 || a.n < policy.minSamples then
    ({ st.compareInit affected associated domain with
      baselineId := usable.id
      sampleCount := a.n
      freshness := fresh
      outcome := .insufficientEvidence }, st)
  else st.recordVerdict affected associated domain obs
    (st.verdict affected associated domain obs policy usable fresh freshOk a)

def compare (st : Impl F) (affected associated : WorkloadDescriptor) (domain : InterferenceDomain)
    (obs : List (Observation F)) (policy : Policy F) : PairwiseInterference F × Impl F :=
  let result := st.compareInit affected associated domain
  if !policy.isValid then (result, st)
  else
    let sel := selectBaseline st.baselines.values affected
    if sel.anyMatch.isNone then ({ result with outcome := .insufficientEvidence }, st)
    else match sel.usable with
      -- there are baselines of the workload, but none fits the descriptor
      | none => ({ result with outcome := .baselineInvalid }, st)
      | some usable =>
        let (fresh, freshOk) := freshnessGate usable (nowOf obs) policy
        if !freshOk then ({ result with outcome := .revalidationRequired, freshness := fresh }, st)
        else st.compareAgainst affected associated domain obs policy usable fresh freshOk

end Impl
end Iobs
