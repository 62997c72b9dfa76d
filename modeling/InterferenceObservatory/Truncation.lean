import InterferenceObservatory.StateRoundTrip
import InterferenceObservatory.Lib.Delimited

/-! Payloads that end early. Each record of the format delimits its bytes, so a payload cut at
any place is rejected, as long as no 32-bit count of it has wrapped around. -/

namespace Iobs
open ByteFormat ByteFormat.Parser Std

section Fields

variable {σ : Type}

theorem delimits_ident {tag : IdTag} (i : Id tag) :
    Delimits (Reader.ident : Parser σ (Id tag)) (Writer.ident i) i :=
  (delimits_u64 i.value).map Id.mk

theorem delimits_i64 (v : Int64) :
    Delimits (Reader.i64 : Parser σ Int64) (ByteFormat.Writer.i64 v) v :=
  (delimits_u64 v.toUInt64).map UInt64.toInt64

theorem delimits_f64 (v : Double) : Delimits (Reader.f64 : Parser σ Double) (Writer.f64 v) v :=
  (delimits_u64 v.bits).map Double.mk

theorem delimits_flag (v : Bool) :
    Delimits (Reader.flag : Parser σ Bool) (ByteFormat.Writer.flag v) v := by
  have h := (delimits_u8 (σ := σ) (if v then 1 else 0)).map (· != 0)
  have hv : ((if v then (1 : UInt8) else 0) != 0) = v := by cases v <;> rfl
  rwa [hv] at h

theorem delimits_en {E : Type} [ByteEnum E] (e : E) :
    Delimits (Reader.en : Parser σ E) (Writer.en e) e := by
  have h := (delimits_u8 (σ := σ) (ByteEnum.toByte e)).map (@ByteEnum.ofByte E _)
  rwa [ByteEnum.ofByte_toByte] at h

def Sized (s : ByteString) : Prop := s.length < 2 ^ 64

theorem delimits_string {s : ByteString} (h : Sized s) :
    Delimits (Reader.str : Parser σ ByteString) (ByteFormat.Writer.str s) s :=
  delimits_str (by decide) h

end Fields

def WorkloadDescriptor.strings (w : WorkloadDescriptor) : List ByteString :=
  [w.name, w.configFingerprint, w.problemSizeFingerprint, w.policyGeneration,
    w.runtimeGeneration, w.kernelGeneration, w.priorityClass]

def Baseline.strings (b : Baseline Double) : List ByteString :=
  [b.configFingerprint, b.problemSizeFingerprint, b.runtimeGeneration, b.kernelGeneration,
    b.policyGeneration]

def Observation.counts (o : Observation Double) : List Nat :=
  [o.coRunPeers.length, o.confounders.length]

def InterferenceEpisode.counts (e : InterferenceEpisode Double) : List Nat :=
  [e.coRunning.length, e.domains.length, e.degradation.deltas.length, e.evidence.length]

def PairwiseInterference.counts (v : PairwiseInterference Double) : List Nat :=
  [v.degradation.deltas.length, v.evidenceSources.length, v.unresolvedConfounders.length]

namespace Impl

def strings (st : Impl Double) : List ByteString :=
  st.sources.toList.map (·.2.name) ++ st.workers.toList.map (·.2.name) ++
    st.workloads.values.flatMap WorkloadDescriptor.strings ++
    st.baselines.values.flatMap Baseline.strings ++
    st.observations.values.map (·.measurement.unit) ++
    st.episodes.values.flatMap fun e => e.evidence.map (·.summary)

def counts (st : Impl Double) : List Nat :=
  [st.sources.toList.length, st.workers.toList.length, st.workloads.values.length,
    st.baselines.values.length, st.observations.values.length, st.episodes.values.length,
    st.comparisons.toList.length, st.recoveries.toList.length] ++
    st.observations.values.flatMap Observation.counts ++
    st.episodes.values.flatMap InterferenceEpisode.counts ++
    st.comparisons.toList.flatMap fun e => e.2.counts

structure Unwrapped (st : Impl Double) : Prop where
  counts : ∀ n ∈ st.counts, n < 2 ^ 32
  strings : ∀ s ∈ st.strings, Sized s

end Impl

section Records

theorem delimits_source {e : SourceId × SourceRec} (h : Sized e.2.name) :
    Delimits source (sourceBytes e) e := by
  have hpure : Delimits (pure (e.1, { e.2 with caps := unpackCaps (packCaps e.2.caps) }) :
      Parser Unit (SourceId × SourceRec)) [] e := by
    rw [unpackCaps_packCaps]
    exact delimits_pure e
  exact .field (delimits_ident _) <| .field (delimits_ident _) <| .field (delimits_string h) <|
    .field (delimits_u32 _) <| .field (delimits_en _) hpure

theorem delimits_worker {e : WorkerId × WorkerRec} (h : Sized e.2.name) :
    Delimits worker (workerBytes e) e :=
  .field (delimits_ident _) <| .field (delimits_ident _) <| .field (delimits_string h) <|
    .field (delimits_flag _) (delimits_pure e)

theorem delimits_workload {w : WorkloadDescriptor} (h : ∀ s ∈ w.strings, Sized s) :
    Delimits workload (workloadBytes w) w := by
  simp only [WorkloadDescriptor.strings, List.forall_mem_cons] at h
  obtain ⟨hname, hconfig, hsize, hpolicy, hruntime, hkernel, hpriority, -⟩ := h
  exact .field (delimits_ident _) <| .field (delimits_ident _) <|
    .field (delimits_string hname) <| .field (delimits_string hconfig) <|
    .field (delimits_string hsize) <| .field (delimits_ident _) <| .field (delimits_ident _) <|
    .field (delimits_ident _) <| .field (delimits_ident _) <| .field (delimits_string hpolicy) <|
    .field (delimits_string hruntime) <| .field (delimits_string hkernel) <|
    .field (delimits_ident _) <| .field (delimits_i64 _) <| .field (delimits_i64 _) <|
    .field (delimits_u64 _) <| .field (delimits_string hpriority) (delimits_pure w)

theorem delimits_baseline {b : Baseline Double} (h : ∀ s ∈ b.strings, Sized s) :
    Delimits baseline (baselineBytes b) b := by
  simp only [Baseline.strings, List.forall_mem_cons] at h
  obtain ⟨hconfig, hsize, hruntime, hkernel, hpolicy, -⟩ := h
  exact .field (delimits_ident _) <| .field (delimits_ident _) <| .field (delimits_en _) <|
    .field (delimits_ident _) <| .field (delimits_ident _) <| .field (delimits_ident _) <|
    .field (delimits_ident _) <| .field (delimits_ident _) <| .field (delimits_ident _) <|
    .field (delimits_string hconfig) <| .field (delimits_string hsize) <|
    .field (delimits_string hruntime) <| .field (delimits_string hkernel) <|
    .field (delimits_string hpolicy) <| .field (delimits_ident _) <| .field (delimits_ident _) <|
    .field (delimits_ident _) <| .field (delimits_i64 _) <| .field (delimits_i64 _) <|
    .field (delimits_en _) <| .field (delimits_en _) <| .field (delimits_u64 _) <|
    .field (delimits_f64 _) <| .field (delimits_f64 _) <| .field (delimits_f64 _) <|
    .field (delimits_en _) <| .field (delimits_flag _) (delimits_pure b)

theorem delimits_plain {α : Type} {p : Parser Unit α} {enc : α → List UInt8} {reason : String}
    {bound : Nat} {l : List α} (hlt : l.length < 2 ^ 32) (h : ∀ a, Delimits p (enc a) a) :
    Delimits (list reason bound p) (ByteFormat.Writer.list enc l) l :=
  delimits_list hlt fun a _ => h a

theorem delimits_observation {o : Observation Double} (h : Sized o.measurement.unit)
    (hcounts : ∀ n ∈ o.counts, n < 2 ^ 32) : Delimits observation (observationBytes o) o := by
  have hpure : Delimits (pure { o with capabilities := unpackCaps (packCaps o.capabilities) } :
      Parser Unit (Observation Double)) [] o := by
    rw [unpackCaps_packCaps]
    exact delimits_pure o
  simp only [Observation.counts, List.forall_mem_cons] at hcounts
  obtain ⟨hpeers, hconfounders, -⟩ := hcounts
  exact .field (delimits_ident _) <| .field (delimits_ident _) <| .field (delimits_ident _) <|
    .field (delimits_ident _) <| .field (delimits_ident _) <| .field (delimits_ident _) <|
    .field (delimits_ident _) <| .field (delimits_ident _) <| .field (delimits_ident _) <|
    .field (delimits_ident _) <| .field (delimits_i64 _) <| .field (delimits_en _) <|
    .field (delimits_f64 _) <| .field (delimits_string h) <| .field (delimits_u64 _) <|
    .field (delimits_f64 _) <| .field (delimits_f64 _) <| .field (delimits_flag _) <|
    .field (delimits_en _) <| .field (delimits_en _) <| .field (delimits_en _) <|
    .field (delimits_u32 _) <| .field (delimits_plain hpeers delimits_ident) <|
    .field (delimits_plain hconfounders delimits_en) hpure

theorem delimits_delta (d : MetricDelta Double) : Delimits delta (deltaBytes d) d :=
  .field (delimits_en _) <| .field (delimits_f64 _) <| .field (delimits_f64 _) <|
    .field (delimits_u64 _) <| .field (delimits_f64 _) (delimits_pure d)

theorem delimits_evidence {e : InterferenceEvidence} (h : Sized e.summary) :
    Delimits evidence (evidenceBytes e) e :=
  .field (delimits_ident _) <| .field (delimits_ident _) <| .field (delimits_en _) <|
    .field (delimits_en _) <| .field (delimits_en _) <|
    .field (delimits_string h) (delimits_pure e)

theorem delimits_episode {e : InterferenceEpisode Double}
    (h : ∀ s ∈ e.evidence.map (·.summary), Sized s) (hcounts : ∀ n ∈ e.counts, n < 2 ^ 32) :
    Delimits episode (episodeBytes e) e := by
  simp only [InterferenceEpisode.counts, List.forall_mem_cons] at hcounts
  obtain ⟨hrunning, hdomains, hdeltas, hevidence, -⟩ := hcounts
  have hsummaries : ∀ v ∈ e.evidence, Delimits evidence (evidenceBytes v) v := by
    intro v hv
    exact delimits_evidence (h v.summary (List.mem_map_of_mem hv))
  exact .field (delimits_ident _) <| .field (delimits_ident _) <| .field (delimits_i64 _) <|
    .field (delimits_i64 _) <| .field (delimits_flag _) <| .field (delimits_ident _) <|
    .field (delimits_plain hrunning delimits_ident) <|
    .field (delimits_plain hdomains delimits_en) <| .field (delimits_ident _) <|
    .field (delimits_u64 _) <| .field (delimits_plain hdeltas delimits_delta) <|
    .field (delimits_f64 _) <| .field (delimits_f64 _) <| .field (delimits_en _) <|
    .field (delimits_en _) <| .field (delimits_en _) <| .field (delimits_ident _) <|
    .field (delimits_list hevidence hsummaries) (delimits_pure e)

theorem delimits_comparison {e : ComparisonId × PairwiseInterference Double}
    (hcounts : ∀ n ∈ e.2.counts, n < 2 ^ 32) : Delimits comparison (comparisonBytes e) e := by
  simp only [PairwiseInterference.counts, List.forall_mem_cons] at hcounts
  obtain ⟨hdeltas, hsources, hunresolved, -⟩ := hcounts
  exact .field (delimits_ident _) <| .field (delimits_ident _) <| .field (delimits_ident _) <|
    .field (delimits_en _) <| .field (delimits_ident _) <| .field (delimits_u64 _) <|
    .field (delimits_plain hdeltas delimits_delta) <| .field (delimits_f64 _) <|
    .field (delimits_f64 _) <| .field (delimits_u64 _) <| .field (delimits_en _) <|
    .field (delimits_en _) <| .field (delimits_en _) <| .field (delimits_ident _) <|
    .field (delimits_ident _) <| .field (delimits_ident _) <| .field (delimits_ident _) <|
    .field (delimits_plain hsources delimits_en) <| .field (delimits_flag _) <|
    .field (delimits_plain hunresolved delimits_en) (delimits_pure e)

theorem delimits_recovery (k : CellKey) : Delimits recovery (recoveryBytes k) k :=
  .field (delimits_ident _) <| .field (delimits_ident _) <| .field (delimits_en _)
    (delimits_pure k)

end Records

theorem delimits_part {σ α : Type} {p : Parser Unit α} {enc : α → List UInt8} {reason : String}
    {put : α → σ → σ} {l : List α} (hlt : l.length < 2 ^ 32) (h : ∀ a ∈ l, Delimits p (enc a) a) :
    Delimits (counted reason Reader.kCountBound (lift p) put) (ByteFormat.Writer.list enc l) () :=
  delimits_section hlt fun a ha => (h a ha).lift

section Payload

variable {st : Impl Double} (h : st.Unwrapped)
include h

theorem Impl.Unwrapped.sizes {n : Nat} (hn : n ∈ [st.sources.toList.length,
    st.workers.toList.length, st.workloads.values.length, st.baselines.values.length,
    st.observations.values.length, st.episodes.values.length, st.comparisons.toList.length,
    st.recoveries.toList.length]) : n < 2 ^ 32 := by
  apply h.counts
  simp only [Impl.counts, List.mem_append]
  exact .inl (.inl (.inl hn))

theorem delimits_observations : ∀ o ∈ st.observations.values,
    Delimits observation (observationBytes o) o := by
  intro o ho
  refine delimits_observation (h.strings _ ?_) ?_
  · simp only [Impl.strings, List.mem_append, List.mem_map]
    exact .inl (.inr ⟨o, ho, rfl⟩)
  · intro n hn
    apply h.counts
    simp only [Impl.counts, List.mem_append, List.mem_flatMap]
    exact .inl (.inl (.inr ⟨o, ho, hn⟩))

theorem delimits_episodes : ∀ e ∈ st.episodes.values, Delimits episode (episodeBytes e) e := by
  intro e he
  refine delimits_episode ?_ ?_
  · intro s hs
    apply h.strings
    simp only [Impl.strings, List.mem_append, List.mem_flatMap]
    exact .inr ⟨e, he, hs⟩
  · intro n hn
    apply h.counts
    simp only [Impl.counts, List.mem_append, List.mem_flatMap]
    exact .inl (.inr ⟨e, he, hn⟩)

theorem delimits_sections {σ : Type} (sink : Sink σ) :
    Delimits (sections sink) (sectionBytes st).flatten () := by
  have hsources : ∀ e ∈ st.sources.toList, Delimits source (sourceBytes e) e := by
    intro e he
    apply delimits_source
    apply h.strings
    simp only [Impl.strings, List.mem_append, List.mem_map]
    exact .inl (.inl (.inl (.inl (.inl ⟨e, he, rfl⟩))))
  have hworkers : ∀ e ∈ st.workers.toList, Delimits worker (workerBytes e) e := by
    intro e he
    apply delimits_worker
    apply h.strings
    simp only [Impl.strings, List.mem_append, List.mem_map]
    exact .inl (.inl (.inl (.inl (.inr ⟨e, he, rfl⟩))))
  have hworkloads : ∀ w ∈ st.workloads.values, Delimits workload (workloadBytes w) w := by
    intro w hw
    apply delimits_workload
    intro s hs
    apply h.strings
    simp only [Impl.strings, List.mem_append, List.mem_flatMap]
    exact .inl (.inl (.inl (.inr ⟨w, hw, hs⟩)))
  have hbaselines : ∀ b ∈ st.baselines.values, Delimits baseline (baselineBytes b) b := by
    intro b hb
    apply delimits_baseline
    intro s hs
    apply h.strings
    simp only [Impl.strings, List.mem_append, List.mem_flatMap]
    exact .inl (.inl (.inr ⟨b, hb, hs⟩))
  have hcomparisons : ∀ e ∈ st.comparisons.toList, Delimits comparison (comparisonBytes e) e := by
    intro e he
    apply delimits_comparison
    intro n hn
    apply h.counts
    simp only [Impl.counts, List.mem_append, List.mem_flatMap]
    exact .inr ⟨e, he, hn⟩
  exact .field (delimits_part (h.sizes (by simp)) hsources) <|
    .field (delimits_part (h.sizes (by simp)) hworkers) <|
    .field (delimits_part (h.sizes (by simp)) hworkloads) <|
    .field (delimits_part (h.sizes (by simp)) hbaselines) <|
    .field (delimits_part (h.sizes (by simp)) (delimits_observations h)) <|
    .field (delimits_part (h.sizes (by simp)) (delimits_episodes h)) <|
    .field (delimits_part (h.sizes (by simp)) hcomparisons) <|
    .field (delimits_part (h.sizes (by simp)) fun k _ => delimits_recovery k) (delimits_pure ())

theorem delimits_body {σ : Type} (sink : Sink σ) : Delimits (body sink) (bodyBytes st) () :=
  .field (delimits_ident _).lift <| .field (delimits_ident _).lift <|
    .field (delimits_ident _).lift <|
    (delimits_update (sink.header st.id st.generation st.epoch)).bind (delimits_sections h sink)

end Payload

/-- A payload that was cut anywhere is rejected, whatever state it is loaded into, if no count
of the state has wrapped around in it. -/
theorem truncation_rejected (st : Impl Double) (h : st.Unwrapped) (payload : List UInt8)
    (hpre : payload <+: serializeState st) (hne : payload ≠ serializeState st)
    (S : Impl Double) : ∃ reason, (deserializeState S payload).1 = .error reason := by
  have hbytes : serializeState st = 1 :: bodyBytes st := rfl
  rw [hbytes] at hpre hne
  rcases payload with _ | ⟨version, rest⟩
  · exact ⟨"empty payload", rfl⟩
  · obtain ⟨rfl, hrest⟩ := List.cons_prefix_cons.mp hpre
    have hcut : rest ≠ bodyBytes st := by
      rintro rfl
      exact hne rfl
    have hreader : (ByteFormat.Reader.mk (1 :: rest) 1 true).rest = rest := rfl
    rw [← hreader] at hrest hcut
    have hfails : (body Impl.sink).Fails ⟨1 :: rest, 1, true⟩ :=
      (delimits_body h Impl.sink).cut _ rfl hrest hcut
    obtain ⟨reason, hreason⟩ := readBody_of_fails hfails
    rw [deserializeState_version, hreason]
    exact ⟨reason, rfl⟩

theorem truncation_rejected_published :
    ∃ reason, (deserializeState (Impl.fresh ⟨9⟩ ⟨9⟩)
      ((serializeState Demo.published).take 60)).1 = .error reason := by
  refine truncation_rejected Demo.published ⟨by decide +kernel, ?_⟩ _ (List.take_prefix ..) ?_ _
  · simp only [Sized]
    decide +kernel
  · decide +kernel

def Demo.noted (n : Nat) : Observation Double :=
  { Demo.observation 150.0 with confounders := List.replicate n .thermalThrottling }

def Demo.recorded (n : Nat) : Impl Double :=
  ((Impl.fresh ⟨1⟩ ⟨1⟩).recordObservation (Demo.noted n)).2

theorem recorded_eq (n : Nat) : Demo.recorded n =
    { Impl.fresh ⟨1⟩ ⟨1⟩ with
      observations := (∅ : KeyedMap ObservationId (Observation Double) Observation.id).emplace
        (Demo.noted n) } := by
  have hvalid : (Demo.observation (150.0 : Double)).measurement.isValid = true := by
    decide +kernel
  have hvalid' : (Demo.noted n).measurement.isValid = true := hvalid
  have hfinite : DoubleOps.isFinite (DoubleOps.ofInt64 (Demo.noted n).timestampMs : Double) =
      true := by
    change DoubleOps.isFinite (DoubleOps.ofInt64 1000 : Double) = true
    decide +kernel
  have hnone : (Impl.fresh ⟨1⟩ ⟨1⟩ : Impl Double).observations.find? (Demo.noted n).id = none :=
    ExtTreeMap.getElem?_empty
  have hids : ((Demo.noted n).id.isNil || (Demo.noted n).generation.isNil) = false := rfl
  have hworkload : (Demo.noted n).workloadId.isNil = false := rfl
  rw [Demo.recorded, Impl.recordObservation, hids, hworkload, hvalid', hfinite, hnone]
  rfl

theorem values_recorded (n : Nat) : (Demo.recorded n).observations.values = [Demo.noted n] := by
  rw [recorded_eq]
  exact KeyedMap.values_foldl_emplace (l := [Demo.noted n]) (List.pairwise_singleton _ _)

theorem exists_head {f g : Nat → List UInt8} (h : ∃ head, ∀ n, f n = head ++ g n)
    (bs : List UInt8) : ∃ head, ∀ n, bs ++ f n = head ++ g n := by
  obtain ⟨head, hn⟩ := h
  refine ⟨bs ++ head, ?_⟩
  intro n
  rw [hn, List.append_assoc]

theorem serializeState_recorded : ∃ head, ∀ n, serializeState (Demo.recorded n) =
    head ++ (ByteFormat.Writer.u32 (UInt32.ofNat n) ++
      (List.replicate n 0 ++ List.replicate 12 0)) := by
  have hsections : ∀ n, sectionBytes (Demo.recorded n) =
      [le 4 0, le 4 0, le 4 0, le 4 0, le 4 1 ++ observationBytes (Demo.noted n), le 4 0, le 4 0,
        le 4 0] := by
    intro n
    have hone : ByteFormat.Writer.list observationBytes [Demo.noted n] =
        le 4 1 ++ observationBytes (Demo.noted n) := by
      rw [ByteFormat.Writer.list, List.flatMap_singleton]
      rfl
    have hvalues := values_recorded n
    rw [sectionBytes, hvalues, hone, recorded_eq]
    rfl
  have hnoted : ∀ n, ByteFormat.Writer.list Writer.en (Demo.noted n).confounders =
      ByteFormat.Writer.u32 (UInt32.ofNat n) ++ List.replicate n 0 := by
    intro n
    simp only [ByteFormat.Writer.list, Demo.noted, List.length_replicate, List.flatMap_replicate]
    exact congrArg _ List.flatten_replicate_singleton
  have hzeros : le 4 0 ++ (le 4 0 ++ le 4 0) = List.replicate 12 (0 : UInt8) := by decide
  simp only [serializeState, bodyBytes, hsections, observationBytes, hnoted, List.flatten_cons,
    List.flatten_nil, List.append_assoc, List.append_nil, hzeros]
  simp only [recorded_eq, Demo.noted]
  repeat refine exists_head ?_ _
  exact ⟨[], fun n => rfl⟩

theorem serializeState_wrapped {n : Nat} (hn : UInt32.ofNat n = 0) :
    serializeState (Demo.recorded n) =
      serializeState (Demo.recorded 0) ++ List.replicate n 0 := by
  obtain ⟨head, hbytes⟩ := serializeState_recorded
  have hswap : List.replicate n (0 : UInt8) ++ List.replicate 12 0 =
      List.replicate 12 0 ++ List.replicate n 0 := by
    rw [List.replicate_append_replicate, List.replicate_append_replicate, Nat.add_comm]
  rw [hbytes n, hbytes 0, hn, hswap]
  simp only [List.append_assoc]
  rfl

theorem wrapped_count_truncates :
    ∃ payload, payload <+: serializeState (Demo.recorded (2 ^ 32)) ∧
      payload ≠ serializeState (Demo.recorded (2 ^ 32)) ∧
      ∀ S, (deserializeState S payload).1 = .ok () := by
  have hbytes := serializeState_wrapped (n := 2 ^ 32) rfl
  have hfits : (Demo.recorded 0).Fits := by decide +kernel
  refine ⟨serializeState (Demo.recorded 0), ?_, ?_, ?_⟩
  · rw [hbytes]
    exact List.prefix_append ..
  · rw [hbytes]
    intro heq
    have hnil := List.self_eq_append_right.mp heq
    rw [List.replicate_eq_nil_iff] at hnil
    cases hnil
  · intro S
    rw [deserializeState_serializeState hfits]

end Iobs
