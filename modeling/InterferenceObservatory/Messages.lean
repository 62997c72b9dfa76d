import InterferenceObservatory.StateRoundTrip
import InterferenceObservatory.Verdict

/-! Observations as messages. The message form of an observation leaves out four fields
that the state payload has; what is left of an observation after it was sent, and when
a comparison cannot tell the difference. -/

namespace Iobs
open ByteFormat ByteFormat.Parser

def kMaxFrame : Nat := 16 * 1024 * 1024

section Encode
open Writer ByteFormat.Writer

def encodeObservation (o : Observation Double) : List UInt8 :=
  [ident o.id, ident o.generation, ident o.sourceId, ident o.sourceGeneration, ident o.workerId,
    ident o.workerBoot, ident o.workloadId, ident o.workloadGeneration, ident o.deviceId,
    ident o.deviceGeneration, i64 o.timestampMs, en o.measurement.kind, f64 o.measurement.value,
    str o.measurement.unit, u64 o.measurement.sampleCount, f64 o.measurement.variance,
    en o.provenance, en o.freshness, en o.sourceHealth, list ident o.coRunPeers].flatten

end Encode

def Observation.init : Observation Double where
  id := ⟨0⟩
  generation := ⟨0⟩
  sourceId := ⟨0⟩
  sourceGeneration := ⟨0⟩
  workerId := ⟨0⟩
  workerBoot := ⟨0⟩
  workloadId := ⟨0⟩
  workloadGeneration := ⟨0⟩
  deviceId := ⟨0⟩
  deviceGeneration := ⟨0⟩
  timestampMs := 0
  measurement := .mk₂ .latency 0.0
  provenance := .unknown
  freshness := .current
  sourceHealth := .unknown
  capabilities := .init
  coRunPeers := []
  confounders := []

section Decode
open Reader

def peers : Parser Unit (List WorkloadId) := u32 >>= fun n => loop ident n.toNat

def observationMessage (o : Observation Double) : Parser Unit (Observation Double) := do
  let observationId ← ident
  let generation ← ident
  let sourceId ← ident
  let sourceGeneration ← ident
  let workerId ← ident
  let workerBoot ← ident
  let workloadId ← ident
  let workloadGeneration ← ident
  let deviceId ← ident
  let deviceGeneration ← ident
  let timestampMs ← i64
  let kind ← en
  let value ← f64
  let unit ← Parser.str kMaxFrame
  let sampleCount ← u64
  let variance ← f64
  let provenance ← en
  let freshness ← en
  let sourceHealth ← en
  let coRunPeers ← peers
  pure ⟨observationId, generation, sourceId, sourceGeneration, workerId, workerBoot, workloadId,
    workloadGeneration, deviceId, deviceGeneration, timestampMs,
    ⟨kind, value, unit, sampleCount, variance, o.measurement.p95, o.measurement.hasP95⟩,
    provenance, freshness, sourceHealth, o.capabilities, o.coRunPeers ++ coRunPeers, o.confounders⟩

def decodeObservation (p : List UInt8) (o : Observation Double) : Bool × Observation Double :=
  match (observationMessage o).run ⟨p, 0, true⟩ with
  | (.ok o', r, _) => (r.ok && r.pos == p.length, o')
  -- no field of the message stops the parser
  | (.error _, _, _) => (false, o)

end Decode

def FitsFrame (o : Observation Double) : Prop := (encodeObservation o).length ≤ kMaxFrame

instance : DecidablePred FitsFrame := fun o =>
  inferInstanceAs (Decidable ((encodeObservation o).length ≤ kMaxFrame))

def received (o : Observation Double) : Observation Double :=
  (decodeObservation (encodeObservation o) .init).2

structure NothingOmitted (o : Observation Double) : Prop where
  p95 : o.measurement.p95 = 0.0
  hasP95 : o.measurement.hasP95 = false
  capabilities : o.capabilities = .init
  confounders : o.confounders = []

def omitted (o : Observation Double) : Observation Double :=
  { o with
    measurement := { o.measurement with p95 := 0.0, hasP95 := false }
    capabilities := .init
    confounders := [] }

theorem omitted_eq_self_iff {o : Observation Double} : omitted o = o ↔ NothingOmitted o := by
  constructor
  · intro h
    refine ⟨?_, ?_, ?_, ?_⟩
    all_goals
      rw [← h]
      rfl
  · rintro ⟨hp, hh, hc, hf⟩
    unfold omitted
    rw [← hp, ← hh, ← hc, ← hf]

theorem parses_peers (l : List WorkloadId) :
    Parses peers (ByteFormat.Writer.list Writer.ident l) l id (l.length < 2 ^ 32) := by
  have h := parses_repeated l (fun i _ => ident_ne_nil i) fun i _ => parses_ident (σ := Unit) i
  exact h.congr (by simp)

def writtenOver (out o : Observation Double) : Observation Double :=
  { o with
    measurement :=
      { o.measurement with p95 := out.measurement.p95, hasP95 := out.measurement.hasP95 }
    capabilities := out.capabilities
    coRunPeers := out.coRunPeers ++ o.coRunPeers
    confounders := out.confounders }

theorem parses_message (out o : Observation Double) :
    Parses (observationMessage out) (encodeObservation o) (writtenOver out o) id
      (o.measurement.unit.length ≤ kMaxFrame ∧ o.coRunPeers.length < 2 ^ 32) := by
  refine Parses.congr (.field (parses_ident _) <| .field (parses_ident _) <|
    .field (parses_ident _) <| .field (parses_ident _) <| .field (parses_ident _) <|
    .field (parses_ident _) <| .field (parses_ident _) <| .field (parses_ident _) <|
    .field (parses_ident _) <| .field (parses_ident _) <| .field (parses_i64 _) <|
    .field (parses_en _) <| .field (parses_f64 _) <| .cons (parses_str (by decide) _) <|
    .field (parses_u64 _) <| .field (parses_f64 _) <| .field (parses_en _) <|
    .field (parses_en _) <| .field (parses_en _) <|
    .cons (parses_peers _) (parses_pure (writtenOver out o))) ?_
  rw [and_true]

theorem decodeObservation_into {o : Observation Double} (h : FitsFrame o)
    (out : Observation Double) :
    decodeObservation (encodeObservation o) out = (true, writtenOver out o) := by
  have hunit : (ByteFormat.Writer.str o.measurement.unit).length ≤ (encodeObservation o).length :=
    (List.sublist_flatten_of_mem (by simp)).length_le
  have hpeers : (ByteFormat.Writer.list Writer.ident o.coRunPeers).length ≤
      (encodeObservation o).length := (List.sublist_flatten_of_mem (by simp)).length_le
  have hlen := length_le_flatMap o.coRunPeers fun i _ => ident_ne_nil i
  rw [ByteFormat.Writer.str, List.length_append] at hunit
  rw [ByteFormat.Writer.list, List.length_append] at hpeers
  unfold FitsFrame at h
  have hbounds : o.measurement.unit.length ≤ kMaxFrame ∧ o.coRunPeers.length < 2 ^ 32 := by
    unfold kMaxFrame at h ⊢
    omega
  have hread := (parses_message out o).reads hbounds ⟨encodeObservation o, 0, true⟩ [] rfl
    (List.append_nil _).symm
  unfold decodeObservation
  rw [hread]
  simp [ByteFormat.Reader.skip]

theorem decodeObservation_encode {o : Observation Double} (h : FitsFrame o) :
    decodeObservation (encodeObservation o) .init = (true, omitted o) :=
  decodeObservation_into h .init

theorem received_eq {o : Observation Double} (h : FitsFrame o) : received o = omitted o := by
  rw [received, decodeObservation_encode h]

section Compare

variable (affected : WorkloadId) (kind : MetricKind) (associated : WorkloadId)
  (obs : List (Observation Double))

theorem nowOf_omitted : nowOf (obs.map omitted) = nowOf obs := by
  unfold nowOf
  rw [List.getLast?_map]
  rcases obs.getLast? with _ | o <;> rfl

theorem samples_omitted :
    samples affected kind (obs.map omitted) = (samples affected kind obs).map omitted := by
  unfold samples
  rw [List.filter_map]
  rfl

theorem allMeasured_omitted :
    allMeasured affected (obs.map omitted) = allMeasured affected obs := by
  unfold allMeasured
  rw [List.all_map]
  rfl

theorem aggregate_omitted :
    let a := aggregate affected kind associated (obs.map omitted)
    let a' := aggregate affected kind associated obs
    a.vals = a'.vals ∧ a.n = a'.n ∧ a.overlap = a'.overlap := by
  dsimp only
  rw [aggregate_vals, aggregate_vals, aggregate_n, aggregate_n, aggregate_overlap,
    aggregate_overlap, samples_omitted]
  refine ⟨?_, ?_, ?_⟩
  · rw [List.map_map]
    rfl
  · rw [List.length_map]
  · rw [List.any_map]
    rfl

theorem unresolvedConfounders_of_none (h : ∀ o ∈ obs, o.confounders = []) :
    unresolvedConfounders affected obs = ⟨[], []⟩ := by
  -- without confounders no step of the loop changes what is noted
  have hfold : ∀ u, obs.foldl (fun u o => if o.workloadId ≠ affected then u
      else o.confounders.foldl noteConfounder u) u = u := by
    induction obs with
    | nil => exact fun _ => rfl
    | cons o obs ih =>
      intro u
      have ho : o.confounders = [] := h o (List.mem_cons_self ..)
      have hobs := ih fun o' ho' => h o' (List.mem_cons_of_mem _ ho')
      rw [List.foldl_cons, ho, List.foldl_nil, ite_self]
      exact hobs u
  exact hfold _

theorem unresolvedConfounders_omitted :
    unresolvedConfounders affected (obs.map omitted) = ⟨[], []⟩ := by
  apply unresolvedConfounders_of_none
  intro o ho
  obtain ⟨o', -, rfl⟩ := List.mem_map.mp ho
  rfl

end Compare

namespace Impl

variable (st : Impl Double) (affected associated : WorkloadDescriptor) (domain : InterferenceDomain)
  {obs : List (Observation Double)} (policy : Policy Double)

theorem episodeOf_omitted (v : PairwiseInterference Double) :
    st.episodeOf affected associated domain (obs.map omitted) v =
      st.episodeOf affected associated domain obs v := by
  have hhead : ((obs.map omitted).head?.map (·.timestampMs)).getD 0 =
      (obs.head?.map (·.timestampMs)).getD 0 := by
    rcases obs with _ | ⟨o, obs⟩ <;> rfl
  unfold episodeOf evidenceProvenance
  rw [hhead, nowOf_omitted, allMeasured_omitted]

theorem verdict_omitted (h : ∀ o ∈ obs, o.confounders = []) (usable : Baseline Double)
    (fresh : Freshness) (freshOk : Bool) :
    st.verdict affected associated domain (obs.map omitted) policy usable fresh freshOk
        (aggregate affected.id usable.metricKind associated.id (obs.map omitted)) =
      st.verdict affected associated domain obs policy usable fresh freshOk
        (aggregate affected.id usable.metricKind associated.id obs) := by
  obtain ⟨hvals, hn, hoverlap⟩ := aggregate_omitted affected.id usable.metricKind associated.id obs
  have hdeg : degradationOf usable
      (aggregate affected.id usable.metricKind associated.id (obs.map omitted)) =
        degradationOf usable (aggregate affected.id usable.metricKind associated.id obs) := by
    unfold degradationOf
    rw [hvals, hn]
  unfold verdict evidenceProvenance
  rw [hdeg, hn, hoverlap, allMeasured_omitted, unresolvedConfounders_omitted,
    unresolvedConfounders_of_none affected.id obs h]

theorem compare_omitted (h : ∀ o ∈ obs, o.confounders = []) :
    st.compare affected associated domain (obs.map omitted) policy =
      st.compare affected associated domain obs policy := by
  have hagainst (usable : Baseline Double) (fresh : Freshness) (freshOk : Bool) :
      st.compareAgainst affected associated domain (obs.map omitted) policy usable fresh freshOk =
        st.compareAgainst affected associated domain obs policy usable fresh freshOk := by
    have hn := (aggregate_omitted affected.id usable.metricKind associated.id obs).2.1
    unfold compareAgainst recordVerdict
    dsimp only
    rw [verdict_omitted st affected associated domain policy h, episodeOf_omitted, hn]
  unfold compare
  simp only [nowOf_omitted, hagainst]

end Impl

/-- Every observation that fits a frame is received, and exactly those come back whole
whose tail latency, capabilities and confounders have their default values; a comparison
of the received observations is that of the originals if none lists a confounder. -/
theorem observation_received_iff (obs : List (Observation Double)) (hfit : ∀ o ∈ obs, FitsFrame o) :
    (((∀ o ∈ obs, decodeObservation (encodeObservation o) .init = (true, o)) ∧
      ∀ (st : Impl Double) affected associated domain policy,
        st.compare affected associated domain (obs.map received) policy =
          st.compare affected associated domain obs policy) ↔
      ∀ o ∈ obs, NothingOmitted o) ∧
    (∀ o ∈ obs, (decodeObservation (encodeObservation o) .init).1 = true) ∧
    ((∀ o ∈ obs, o.confounders = []) → ∀ (st : Impl Double) affected associated domain policy,
      st.compare affected associated domain (obs.map received) policy =
        st.compare affected associated domain obs policy) := by
  have hmap : obs.map received = obs.map omitted :=
    List.map_congr_left fun o ho => received_eq (hfit o ho)
  have hcompare (hnone : ∀ o ∈ obs, o.confounders = []) (st : Impl Double)
      (affected associated : WorkloadDescriptor) (domain : InterferenceDomain)
      (policy : Policy Double) :
      st.compare affected associated domain (obs.map received) policy =
        st.compare affected associated domain obs policy := by
    rw [hmap]
    exact st.compare_omitted affected associated domain policy hnone
  refine ⟨⟨?_, ?_⟩, fun o ho => ?_, hcompare⟩
  · rintro ⟨hback, -⟩ o ho
    have heq := hback o ho
    rw [decodeObservation_encode (hfit o ho), Prod.mk.injEq] at heq
    exact omitted_eq_self_iff.mp heq.2
  · intro hall
    refine ⟨fun o ho => ?_, hcompare fun o ho => (hall o ho).confounders⟩
    rw [decodeObservation_encode (hfit o ho), omitted_eq_self_iff.mpr (hall o ho)]
  · rw [decodeObservation_encode (hfit o ho)]

theorem observation_received_iff_slowdown :
    decodeObservation (encodeObservation (Demo.observation 150.0)) .init =
      (true, Demo.observation 150.0) := by
  have hfit : ∀ o ∈ (Demo.slowdown : List (Observation Double)), FitsFrame o := by
    decide +kernel
  have hall : ∀ o ∈ (Demo.slowdown : List (Observation Double)), NothingOmitted o := by
    intro o ho
    obtain rfl := List.eq_of_mem_replicate ho
    exact ⟨rfl, rfl, rfl, rfl⟩
  apply ((observation_received_iff _ hfit).1.mpr hall).1
  exact List.mem_cons_self ..

def Demo.throttled : List (Observation Double) :=
  List.replicate 3 { Demo.observation 150.0 with confounders := [.thermalThrottling] }

theorem throttling_not_received :
    ¬ ∀ obs : List (Observation Double), (∀ o ∈ obs, FitsFrame o) →
      (∀ o ∈ obs, decodeObservation (encodeObservation o) .init = (true, o)) ∧
      ∀ (st : Impl Double) affected associated domain policy,
        (st.compare affected associated domain (obs.map received) policy).1 =
          (st.compare affected associated domain obs policy).1 := by
  intro h
  have hsame := (h Demo.throttled (by decide +kernel)).2 Demo.published Demo.victim Demo.neighbor
    .cache .init
  have hconf := congrArg (fun r => r.confounded) hsame
  exact absurd hconf (by decide +kernel)

end Iobs
