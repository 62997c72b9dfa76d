import InterferenceObservatory.StateCodec
import Mathlib.Data.Nat.Bitwise

/-! The state payload read back. For every record of the format, reading its bytes
returns the record if its strings and lists are within the reader's bounds and fails
if one is not; the whole payload follows section by section. -/

namespace Iobs
open ByteFormat ByteFormat.Parser Std

section Fields

variable {σ : Type}

theorem parses_ident {tag : IdTag} (i : Id tag) :
    Parses (Reader.ident : Parser σ (Id tag)) (Writer.ident i) i id True :=
  (parses_u64 i.value).map Id.mk

theorem parses_i64 (v : Int64) :
    Parses (Reader.i64 : Parser σ Int64) (ByteFormat.Writer.i64 v) v id True :=
  (parses_u64 v.toUInt64).map UInt64.toInt64

theorem parses_f64 (v : Double) :
    Parses (Reader.f64 : Parser σ Double) (Writer.f64 v) v id True :=
  (parses_u64 v.bits).map Double.mk

theorem parses_flag (v : Bool) :
    Parses (Reader.flag : Parser σ Bool) (ByteFormat.Writer.flag v) v id True := by
  have h := (parses_u8 (σ := σ) (if v then 1 else 0)).map (· != 0)
  have hv : ((if v then (1 : UInt8) else 0) != 0) = v := by cases v <;> rfl
  rwa [hv] at h

theorem parses_en {E : Type} [ByteEnum E] (e : E) :
    Parses (Reader.en : Parser σ E) (Writer.en e) e id True := by
  have h := (parses_u8 (σ := σ) (ByteEnum.toByte e)).map (@ByteEnum.ofByte E _)
  rwa [ByteEnum.ofByte_toByte] at h

theorem parses_string (s : ByteString) :
    Parses (Reader.str : Parser σ ByteString) (ByteFormat.Writer.str s) s id
      (s.length ≤ Reader.kStringBound) := parses_str (by decide) s

end Fields

theorem toNat_bit {i : Nat} (hi : i < 32) : (1 <<< UInt32.ofNat i : UInt32).toNat = 2 ^ i := by
  rw [UInt32.toNat_shiftLeft, UInt32.toNat_ofNat_of_lt' (Nat.lt_trans hi (by decide)),
    Nat.mod_eq_of_lt hi, UInt32.toNat_one, Nat.one_shiftLeft]
  exact Nat.mod_eq_of_lt (Nat.pow_lt_pow_right (by decide) hi)

theorem hasBit_eq {i : Nat} (hi : i < 32) (m : UInt32) : hasBit m i = m.toNat.testBit i := by
  have hand : (m &&& (1 <<< UInt32.ofNat i)).toNat = (m.toNat.testBit i).toNat * 2 ^ i := by
    rw [UInt32.toNat_and, toNat_bit hi, Nat.and_two_pow]
  rw [hasBit, Bool.eq_iff_iff, bne_iff_ne, ne_eq, ← UInt32.toNat_inj, hand]
  cases m.toNat.testBit i <;> simp

theorem testBit_packFrom (l : List Bool) (i j : Nat) (hl : i + l.length ≤ 32) :
    (packFrom i l).toNat.testBit j = (decide (i ≤ j) && l[j - i]?.getD false) := by
  induction l generalizing i with
  | nil => simp [packFrom]
  | cons b l ih =>
    rw [List.length_cons] at hl
    -- the head of the list decides bit `i`, the rest the bits above it
    have hbit : (if b then 1 <<< UInt32.ofNat i else 0 : UInt32).toNat.testBit j =
        (b && decide (i = j)) := by
      cases b
      · simp
      · rw [if_pos rfl, toNat_bit (by omega), Nat.testBit_two_pow, Bool.true_and]
    rw [packFrom, UInt32.toNat_or, Nat.testBit_or, hbit, ih (i + 1) (by omega)]
    rcases Nat.lt_trichotomy i j with hlt | rfl | hgt
    · obtain ⟨k, rfl⟩ : ∃ k, j = i + 1 + k := ⟨j - (i + 1), by omega⟩
      have hk : i + 1 + k - i = k + 1 := by omega
      simp [hk, show i ≠ i + 1 + k by omega, show i ≤ i + 1 + k by omega]
    · simp
    · simp [show ¬ i + 1 ≤ j by omega, show ¬ i ≤ j by omega, show ¬ i = j by omega]

theorem unpackCaps_packCaps (c : BackendCapabilities) : unpackCaps (packCaps c) = c := by
  have hbit (i : Nat) (hi : i < 32) : hasBit (packCaps c) i = c.flags[i]?.getD false := by
    rw [hasBit_eq hi, packCaps, testBit_packFrom _ _ _ (by simp [BackendCapabilities.flags])]
    simp
  simp only [unpackCaps, hbit, Nat.reduceLT]
  rfl

def ListFits {α : Type} (fits : α → Prop) (l : List α) : Prop :=
  l.length ≤ Reader.kCountBound ∧ ∀ a ∈ l, fits a

def StringFits (s : ByteString) : Prop := s.length ≤ Reader.kStringBound

def SourceFits (e : SourceId × SourceRec) : Prop := StringFits e.2.name

def WorkerFits (e : WorkerId × WorkerRec) : Prop := StringFits e.2.name

def WorkloadFits (w : WorkloadDescriptor) : Prop :=
  ∀ s ∈ [w.name, w.configFingerprint, w.problemSizeFingerprint, w.policyGeneration,
    w.runtimeGeneration, w.kernelGeneration, w.priorityClass], StringFits s

def BaselineFits (b : Baseline Double) : Prop :=
  ∀ s ∈ [b.configFingerprint, b.problemSizeFingerprint, b.runtimeGeneration, b.kernelGeneration,
    b.policyGeneration], StringFits s

def ObservationFits (o : Observation Double) : Prop :=
  StringFits o.measurement.unit ∧ ListFits (fun _ => True) o.coRunPeers ∧
    ListFits (fun _ => True) o.confounders

def EpisodeFits (e : InterferenceEpisode Double) : Prop :=
  ListFits (fun _ => True) e.coRunning ∧ ListFits (fun _ => True) e.domains ∧
    ListFits (fun _ => True) e.degradation.deltas ∧
    ListFits (fun v => StringFits v.summary) e.evidence

def ComparisonFits (e : ComparisonId × PairwiseInterference Double) : Prop :=
  ListFits (fun _ => True) e.2.degradation.deltas ∧ ListFits (fun _ => True) e.2.evidenceSources ∧
    ListFits (fun _ => True) e.2.unresolvedConfounders

section Decidable

instance {α : Type} (fits : α → Prop) [DecidablePred fits] (l : List α) :
    Decidable (ListFits fits l) :=
  inferInstanceAs (Decidable (_ ∧ _))

instance : DecidablePred StringFits := fun s =>
  inferInstanceAs (Decidable (s.length ≤ Reader.kStringBound))

instance : DecidablePred SourceFits := fun e => inferInstanceAs (Decidable (StringFits e.2.name))

instance : DecidablePred WorkerFits := fun e => inferInstanceAs (Decidable (StringFits e.2.name))

instance : DecidablePred WorkloadFits := fun _ =>
  inferInstanceAs (Decidable (∀ s ∈ _, StringFits s))

instance : DecidablePred BaselineFits := fun _ =>
  inferInstanceAs (Decidable (∀ s ∈ _, StringFits s))

instance : DecidablePred ObservationFits := fun _ => inferInstanceAs (Decidable (_ ∧ _ ∧ _))

instance : DecidablePred EpisodeFits := fun _ => inferInstanceAs (Decidable (_ ∧ _ ∧ _ ∧ _))

instance : DecidablePred ComparisonFits := fun _ => inferInstanceAs (Decidable (_ ∧ _ ∧ _))

end Decidable

section Records

theorem parses_source (e : SourceId × SourceRec) :
    Parses source (sourceBytes e) e id (SourceFits e) := by
  refine Parses.congr (.field (parses_ident _) <| .field (parses_ident _) <|
    .cons (parses_string _) <| .field (parses_u32 _) <| .field (parses_en _) ?_) (and_true _).to_iff
  rw [unpackCaps_packCaps]
  exact parses_pure e

theorem parses_worker (e : WorkerId × WorkerRec) :
    Parses worker (workerBytes e) e id (WorkerFits e) := by
  refine Parses.congr (.field (parses_ident _) <| .field (parses_ident _) <|
    .cons (parses_string _) <| .field (parses_flag _) ?_) (and_true _).to_iff
  exact parses_pure e

theorem parses_workload (w : WorkloadDescriptor) :
    Parses workload (workloadBytes w) w id (WorkloadFits w) := by
  refine Parses.congr (.field (parses_ident _) <| .field (parses_ident _) <|
    .cons (parses_string _) <| .cons (parses_string _) <| .cons (parses_string _) <|
    .field (parses_ident _) <| .field (parses_ident _) <| .field (parses_ident _) <|
    .field (parses_ident _) <| .cons (parses_string _) <| .cons (parses_string _) <|
    .cons (parses_string _) <| .field (parses_ident _) <| .field (parses_i64 _) <|
    .field (parses_i64 _) <| .field (parses_u64 _) <| .cons (parses_string _) (parses_pure w)) ?_
  simp only [WorkloadFits, StringFits, List.forall_mem_cons, List.not_mem_nil, false_imp_iff,
    implies_true]

theorem parses_baseline (b : Baseline Double) :
    Parses baseline (baselineBytes b) b id (BaselineFits b) := by
  refine Parses.congr (.field (parses_ident _) <| .field (parses_ident _) <|
    .field (parses_en _) <| .field (parses_ident _) <| .field (parses_ident _) <|
    .field (parses_ident _) <| .field (parses_ident _) <| .field (parses_ident _) <|
    .field (parses_ident _) <| .cons (parses_string _) <| .cons (parses_string _) <|
    .cons (parses_string _) <| .cons (parses_string _) <| .cons (parses_string _) <|
    .field (parses_ident _) <| .field (parses_ident _) <| .field (parses_ident _) <|
    .field (parses_i64 _) <| .field (parses_i64 _) <| .field (parses_en _) <|
    .field (parses_en _) <| .field (parses_u64 _) <| .field (parses_f64 _) <|
    .field (parses_f64 _) <| .field (parses_f64 _) <| .field (parses_en _) <|
    .field (parses_flag _) (parses_pure b)) ?_
  simp only [BaselineFits, StringFits, List.forall_mem_cons, List.not_mem_nil, false_imp_iff,
    implies_true]

theorem parses_plain {α : Type} {p : Parser Unit α} {enc : α → List UInt8} (reason : String)
    (hne : ∀ a, enc a ≠ []) (h : ∀ a, Parses p (enc a) a id True) (l : List α) :
    Parses (list reason Reader.kCountBound p) (ByteFormat.Writer.list enc l) l id
      (ListFits (fun _ => True) l) :=
  parses_list (by decide) l (fun a _ => hne a) fun a _ => h a

theorem ident_ne_nil {tag : IdTag} (i : Id tag) : Writer.ident i ≠ [] := List.cons_ne_nil _ _

theorem en_ne_nil {E : Type} [ByteEnum E] (e : E) : Writer.en e ≠ [] := List.cons_ne_nil _ _

theorem parses_observation (o : Observation Double) :
    Parses observation (observationBytes o) o id (ObservationFits o) := by
  have hpure : Parses (pure { o with capabilities := unpackCaps (packCaps o.capabilities) } :
      Parser Unit (Observation Double)) [] o id True := by
    rw [unpackCaps_packCaps]
    exact parses_pure o
  refine Parses.congr (.field (parses_ident _) <| .field (parses_ident _) <|
    .field (parses_ident _) <| .field (parses_ident _) <| .field (parses_ident _) <|
    .field (parses_ident _) <| .field (parses_ident _) <| .field (parses_ident _) <|
    .field (parses_ident _) <| .field (parses_ident _) <| .field (parses_i64 _) <|
    .field (parses_en _) <| .field (parses_f64 _) <| .cons (parses_string _) <|
    .field (parses_u64 _) <| .field (parses_f64 _) <| .field (parses_f64 _) <|
    .field (parses_flag _) <| .field (parses_en _) <| .field (parses_en _) <|
    .field (parses_en _) <| .field (parses_u32 _) <|
    .cons (parses_plain _ ident_ne_nil parses_ident _) <|
    .cons (parses_plain _ en_ne_nil parses_en _) hpure) ?_
  simp only [ObservationFits, StringFits, and_true]

theorem parses_delta (d : MetricDelta Double) : Parses delta (deltaBytes d) d id True :=
  .field (parses_en _) <| .field (parses_f64 _) <| .field (parses_f64 _) <|
    .field (parses_u64 _) <| .field (parses_f64 _) (parses_pure d)

theorem parses_evidence (e : InterferenceEvidence) :
    Parses evidence (evidenceBytes e) e id (StringFits e.summary) := by
  refine Parses.congr (.field (parses_ident _) <| .field (parses_ident _) <|
    .field (parses_en _) <| .field (parses_en _) <| .field (parses_en _) <|
    .cons (parses_string _) ?_) (and_true _).to_iff
  exact parses_pure e

theorem deltaBytes_ne_nil (d : MetricDelta Double) : deltaBytes d ≠ [] := List.cons_ne_nil _ _

theorem parses_episode (e : InterferenceEpisode Double) :
    Parses episode (episodeBytes e) e id (EpisodeFits e) := by
  have hevidence : Parses (list "evidence bound" Reader.kCountBound evidence)
      (ByteFormat.Writer.list evidenceBytes e.evidence) e.evidence id
      (ListFits (fun v => StringFits v.summary) e.evidence) :=
    parses_list (by decide) e.evidence (fun _ _ => List.cons_ne_nil _ _) fun v _ =>
      parses_evidence v
  refine Parses.congr (.field (parses_ident _) <| .field (parses_ident _) <|
    .field (parses_i64 _) <| .field (parses_i64 _) <| .field (parses_flag _) <|
    .field (parses_ident _) <| .cons (parses_plain _ ident_ne_nil parses_ident _) <|
    .cons (parses_plain _ en_ne_nil parses_en _) <| .field (parses_ident _) <|
    .field (parses_u64 _) <| .cons (parses_plain _ deltaBytes_ne_nil parses_delta _) <|
    .field (parses_f64 _) <| .field (parses_f64 _) <| .field (parses_en _) <|
    .field (parses_en _) <| .field (parses_en _) <| .field (parses_ident _) <|
    .cons hevidence (parses_pure e)) ?_
  simp only [EpisodeFits, and_true]

theorem parses_comparison (e : ComparisonId × PairwiseInterference Double) :
    Parses comparison (comparisonBytes e) e id (ComparisonFits e) := by
  refine Parses.congr (.field (parses_ident _) <| .field (parses_ident _) <|
    .field (parses_ident _) <| .field (parses_en _) <| .field (parses_ident _) <|
    .field (parses_u64 _) <| .cons (parses_plain _ deltaBytes_ne_nil parses_delta _) <|
    .field (parses_f64 _) <| .field (parses_f64 _) <| .field (parses_u64 _) <|
    .field (parses_en _) <| .field (parses_en _) <| .field (parses_en _) <|
    .field (parses_ident _) <| .field (parses_ident _) <| .field (parses_ident _) <|
    .field (parses_ident _) <| .cons (parses_plain _ en_ne_nil parses_en _) <|
    .field (parses_flag _) <| .cons (parses_plain _ en_ne_nil parses_en _) (parses_pure e)) ?_
  simp only [ComparisonFits, and_true]

theorem parses_recovery (k : CellKey) : Parses recovery (recoveryBytes k) k id True :=
  .field (parses_ident _) <| .field (parses_ident _) <| .field (parses_en _) (parses_pure k)

end Records

/-- The states whose payload the reader accepts. -/
structure Impl.Fits (st : Impl Double) : Prop where
  sources : ListFits SourceFits st.sources.toList
  workers : ListFits WorkerFits st.workers.toList
  workloads : ListFits WorkloadFits st.workloads.values
  baselines : ListFits BaselineFits st.baselines.values
  observations : ListFits ObservationFits st.observations.values
  episodes : ListFits EpisodeFits st.episodes.values
  comparisons : ListFits ComparisonFits st.comparisons.toList
  recoveries : ListFits (fun _ => True) st.recoveries.toList

theorem Impl.fits_iff (st : Impl Double) : st.Fits ↔ ListFits SourceFits st.sources.toList ∧
    ListFits WorkerFits st.workers.toList ∧ ListFits WorkloadFits st.workloads.values ∧
    ListFits BaselineFits st.baselines.values ∧ ListFits ObservationFits st.observations.values ∧
    ListFits EpisodeFits st.episodes.values ∧ ListFits ComparisonFits st.comparisons.toList ∧
    ListFits (fun _ => True) st.recoveries.toList := by
  constructor
  · rintro ⟨h₁, h₂, h₃, h₄, h₅, h₆, h₇, h₈⟩
    exact ⟨h₁, h₂, h₃, h₄, h₅, h₆, h₇, h₈⟩
  · rintro ⟨h₁, h₂, h₃, h₄, h₅, h₆, h₇, h₈⟩
    exact ⟨h₁, h₂, h₃, h₄, h₅, h₆, h₇, h₈⟩

instance (st : Impl Double) : Decidable st.Fits := decidable_of_iff _ st.fits_iff.symm

def replaySections {σ : Type} (sink : Sink σ) (st : Impl Double) (s : σ) : σ :=
  let s := st.sources.toList.foldl (fun s e => sink.source e s) s
  let s := st.workers.toList.foldl (fun s e => sink.worker e s) s
  let s := st.workloads.values.foldl (fun s w => sink.workload w s) s
  let s := st.baselines.values.foldl (fun s b => sink.baseline b s) s
  let s := st.observations.values.foldl (fun s o => sink.observation o s) s
  let s := st.episodes.values.foldl (fun s e => sink.episode e s) s
  let s := st.comparisons.toList.foldl (fun s e => sink.comparison e s) s
  st.recoveries.toList.foldl (fun s k => sink.recovery k s) s

def replay {σ : Type} (sink : Sink σ) (st : Impl Double) (s : σ) : σ :=
  replaySections sink st (sink.header st.id st.generation st.epoch s)

theorem parses_part {σ α : Type} {p : Parser Unit α} {enc : α → List UInt8} {fits : α → Prop}
    (reason : String) (put : α → σ → σ) (hne : ∀ a, enc a ≠ [])
    (h : ∀ a, Parses p (enc a) a id (fits a)) (l : List α) :
    Parses (counted reason Reader.kCountBound (lift p) put) (ByteFormat.Writer.list enc l) ()
      (fun s => l.foldl (fun s a => put a s) s) (ListFits fits l) :=
  parses_section (by decide) l (fun a _ => hne a) fun a _ => (h a).lift

theorem parses_sections {σ : Type} (sink : Sink σ) (st : Impl Double) :
    Parses (sections sink) (sectionBytes st).flatten () (replaySections sink st) st.Fits := by
  have h : Parses (sections sink) (sectionBytes st).flatten () _ _ :=
    .seq (parses_part _ sink.source (fun _ => List.cons_ne_nil _ _) parses_source _) <|
    .seq (parses_part _ sink.worker (fun _ => List.cons_ne_nil _ _) parses_worker _) <|
    .seq (parses_part _ sink.workload (fun _ => List.cons_ne_nil _ _) parses_workload _) <|
    .seq (parses_part _ sink.baseline (fun _ => List.cons_ne_nil _ _) parses_baseline _) <|
    .seq (parses_part _ sink.observation (fun _ => List.cons_ne_nil _ _) parses_observation _) <|
    .seq (parses_part _ sink.episode (fun _ => List.cons_ne_nil _ _) parses_episode _) <|
    .seq (parses_part _ sink.comparison (fun _ => List.cons_ne_nil _ _) parses_comparison _) <|
    .seq (parses_part _ sink.recovery (fun _ => List.cons_ne_nil _ _) parses_recovery _)
      (parses_pure ())
  apply Parses.congr h
  rw [st.fits_iff, and_true]

theorem parses_body {σ : Type} (sink : Sink σ) (st : Impl Double) :
    Parses (body sink) (bodyBytes st) () (replay sink st) st.Fits := by
  have h : Parses (body sink) (bodyBytes st) () _ _ :=
    .field (parses_ident _).lift <| .field (parses_ident _).lift <|
    .field (parses_ident _).lift <| .update (parses_sections sink st)
  exact h

theorem rest_serialized (st : Impl Double) :
    (ByteFormat.Reader.mk (serializeState st) 1 true).rest = bodyBytes st ++ [] :=
  (List.append_nil (bodyBytes st)).symm

theorem readBody_serializeState {σ : Type} (sink : Sink σ) {st : Impl Double} (h : st.Fits) :
    readBody sink (serializeState st) = (.ok (), replay sink st) := by
  have hrun := (parses_body sink st).reads h ⟨serializeState st, 1, true⟩ [] rfl
    (rest_serialized st)
  unfold readBody
  rw [hrun]
  rfl

theorem readBody_of_fails {σ : Type} {sink : Sink σ} {payload : List UInt8}
    (h : (body sink).Fails ⟨payload, 1, true⟩) :
    ∃ reason, (readBody sink payload).1 = .error reason := by
  unfold readBody
  rcases hrun : (body sink).run ⟨payload, 1, true⟩ with ⟨e | ⟨⟩, r, u⟩
  · exact ⟨e, rfl⟩
  · rw [Fails, hrun] at h
    obtain ⟨e, he⟩ | hok := h
    · cases he
    · dsimp only at hok ⊢
      rw [hok]
      exact ⟨_, rfl⟩

theorem readBody_serializeState_fails {σ : Type} (sink : Sink σ) {st : Impl Double}
    (h : ¬ st.Fits) (hlen : (serializeState st).length < 2 ^ 32) :
    (readBody sink (serializeState st)).1 ≠ .ok () := by
  have hbody : (bodyBytes st).length < 2 ^ 32 := Nat.lt_of_succ_lt hlen
  obtain ⟨reason, hreason⟩ := readBody_of_fails ((parses_body sink st).fails h
    ⟨serializeState st, 1, true⟩ [] rfl (rest_serialized st) hbody)
  rw [hreason]
  intro hok
  cases hok

section Field

variable {σ α β : Type} (get : σ → β) (set : β → σ → σ)

theorem foldl_field (get_set : ∀ b s, get (set b s) = b)
    (set_set : ∀ b c s, set b (set c s) = set b s) (set_get : ∀ s, set (get s) s = s)
    (f : β → α → β) (l : List α) (s : σ) :
    l.foldl (fun s a => set (f (get s) a) s) s = set (l.foldl f (get s)) s := by
  induction l generalizing s with
  | nil => exact (set_get s).symm
  | cons a l ih =>
    rw [List.foldl_cons, ih, get_set, set_set]
    rfl

end Field

section Refill

variable {σ K V : Type} [Ord K] [TransOrd K] [LawfulEqOrd K]

theorem refill_map (get : σ → ExtTreeMap K V) (set : ExtTreeMap K V → σ → σ)
    (get_set : ∀ b s, get (set b s) = b) (set_set : ∀ b c s, set b (set c s) = set b s)
    (set_get : ∀ s, set (get s) s = s) (m : ExtTreeMap K V) {s : σ} (h : get s = ∅) :
    m.toList.foldl (fun s e => set ((get s).insertIfNew e.1 e.2) s) s = set m s := by
  have hfold := foldl_field get set get_set set_set set_get
    (fun m (e : K × V) => m.insertIfNew e.1 e.2) m.toList s
  rw [hfold, h, foldl_insertIfNew_toList]

theorem refill_keyed {key : V → K} (get : σ → KeyedMap K V key) (set : KeyedMap K V key → σ → σ)
    (get_set : ∀ b s, get (set b s) = b) (set_set : ∀ b c s, set b (set c s) = set b s)
    (set_get : ∀ s, set (get s) s = s) (m : KeyedMap K V key) {s : σ} (h : get s = ∅) :
    m.values.foldl (fun s v => set ((get s).emplace v) s) s = set m s := by
  have hfold := foldl_field get set get_set set_set set_get KeyedMap.emplace m.values s
  rw [hfold, h, KeyedMap.foldl_emplace_values]

end Refill

section Rebuild

variable (st : Impl Double) {s : Impl Double}

theorem replay_sources (h : s.sources = ∅) :
    st.sources.toList.foldl (fun s e => Impl.sink.source e s) s =
      { s with sources := st.sources } :=
  refill_map Impl.sources (fun m s => { s with sources := m }) (fun _ _ => rfl) (fun _ _ _ => rfl)
    (fun _ => rfl) st.sources h

theorem replay_workers (h : s.workers = ∅) :
    st.workers.toList.foldl (fun s e => Impl.sink.worker e s) s =
      { s with workers := st.workers } :=
  refill_map Impl.workers (fun m s => { s with workers := m }) (fun _ _ => rfl) (fun _ _ _ => rfl)
    (fun _ => rfl) st.workers h

theorem replay_workloads (h : s.workloads = ∅) :
    st.workloads.values.foldl (fun s w => Impl.sink.workload w s) s =
      { s with workloads := st.workloads } :=
  refill_keyed Impl.workloads (fun m s => { s with workloads := m }) (fun _ _ => rfl)
    (fun _ _ _ => rfl) (fun _ => rfl) st.workloads h

theorem replay_baselines (h : s.baselines = ∅) :
    st.baselines.values.foldl (fun s b => Impl.sink.baseline b s) s =
      { s with baselines := st.baselines } :=
  refill_keyed Impl.baselines (fun m s => { s with baselines := m }) (fun _ _ => rfl)
    (fun _ _ _ => rfl) (fun _ => rfl) st.baselines h

theorem replay_observations (h : s.observations = ∅) :
    st.observations.values.foldl (fun s o => Impl.sink.observation o s) s =
      { s with observations := st.observations } :=
  refill_keyed Impl.observations (fun m s => { s with observations := m }) (fun _ _ => rfl)
    (fun _ _ _ => rfl) (fun _ => rfl) st.observations h

theorem replay_episodes (h : s.episodes = ∅) :
    st.episodes.values.foldl (fun s e => Impl.sink.episode e s) s =
      { s with episodes := st.episodes } :=
  refill_keyed Impl.episodes (fun m s => { s with episodes := m }) (fun _ _ => rfl)
    (fun _ _ _ => rfl) (fun _ => rfl) st.episodes h

theorem replay_recoveries (h : s.recoveries = ∅) :
    st.recoveries.toList.foldl (fun s k => Impl.sink.recovery k s) s =
      { s with recoveries := st.recoveries } := by
  refine (foldl_field Impl.recoveries (fun b s => { s with recoveries := b }) (fun _ _ => rfl)
    (fun _ _ _ => rfl) (fun _ => rfl) (fun m k => m.insert k) _ s).trans ?_
  rw [h, foldl_insert_toList]

def replayedCells : List (CellKey × PairwiseInterference Double) :=
  st.comparisons.toList.map fun e => (e.2.cellKey, e.2)

theorem foldl_comparisons (l : List (ComparisonId × PairwiseInterference Double))
    (s : Impl Double) :
    l.foldl (fun s e => Impl.sink.comparison e s) s =
      { s with
        comparisons := l.foldl (fun m e => m.insertIfNew e.1 e.2) s.comparisons
        matrix := overlay (l.map fun e => (e.2.cellKey, e.2)) s.matrix } := by
  induction l generalizing s with
  | nil => rfl
  | cons e l ih =>
    rw [List.foldl_cons, ih]
    rfl

theorem replay_comparisons (h : s.comparisons = ∅) :
    st.comparisons.toList.foldl (fun s e => Impl.sink.comparison e s) s =
      { s with comparisons := st.comparisons, matrix := overlay (replayedCells st) s.matrix } := by
  rw [foldl_comparisons, h, foldl_insertIfNew_toList]
  rfl

theorem replay_clear (S : Impl Double) :
    replay Impl.sink st S.clear = { st with matrix := overlay (replayedCells st) S.matrix } := by
  unfold replay replaySections
  dsimp only
  -- every section finds its own container empty and leaves the others alone
  rw [replay_sources st rfl, replay_workers st rfl, replay_workloads st rfl,
    replay_baselines st rfl, replay_observations st rfl, replay_episodes st rfl,
    replay_comparisons st rfl, replay_recoveries st rfl]
  rfl

end Rebuild

theorem deserializeState_version (S : Impl Double) (rest : List UInt8) :
    deserializeState S (1 :: rest) = ((readBody Impl.sink (1 :: rest)).1,
      (readBody Impl.sink (1 :: rest)).2 S.clear) := by
  rw [deserializeState, if_neg (not_not.mpr rfl)]

theorem deserializeState_serializeState {st : Impl Double} (h : st.Fits) (S : Impl Double) :
    deserializeState S (serializeState st) =
      (.ok (), { st with matrix := overlay (replayedCells st) S.matrix }) := by
  have hread := readBody_serializeState Impl.sink h
  rw [← replay_clear st S, show serializeState st = 1 :: bodyBytes st from rfl] at *
  rw [deserializeState_version, hread]

end Iobs
