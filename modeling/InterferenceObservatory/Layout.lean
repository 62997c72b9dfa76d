import InterferenceObservatory.Listing
import InterferenceObservatory.Lib.Scan

/-! The layout of a state payload, and what reading one says about its bytes: a payload
that is accepted is as long as the bytes of the records read from it, and differs from
them only in flag bytes and capability masks. -/

namespace Iobs
open ByteFormat ByteFormat.Parser Std

namespace Layout
open ByteFormat.Scan

def ident : Scan := fixed 8
def word : Scan := fixed 8
def en : Scan := fixed 1

def caps : Scan := mask 17

def source : Scan := seq [ident, ident, str, caps, en]

def worker : Scan := seq [ident, ident, str, flag]

def workload : Scan :=
  seq [ident, ident, str, str, str, ident, ident, ident, ident, str, str, str, ident, word, word,
    word, str]

def baseline : Scan :=
  seq [ident, ident, en, ident, ident, ident, ident, ident, ident, str, str, str, str, str, ident,
    ident, ident, word, word, en, en, word, word, word, word, en, flag]

def observation : Scan :=
  seq [ident, ident, ident, ident, ident, ident, ident, ident, ident, ident, word, en, word, str,
    word, word, word, flag, en, en, en, caps, list ident, list en]

def delta : Scan := seq [en, word, word, word, word]

def evidence : Scan := seq [ident, ident, en, en, en, str]

def episode : Scan :=
  seq [ident, ident, word, word, flag, ident, list ident, list en, ident, word, list delta, word,
    word, en, en, en, ident, list evidence]

def comparison : Scan :=
  seq [ident, ident, ident, en, ident, word, list delta, word, word, word, en, en, en, ident,
    ident, ident, ident, list en, flag, list en]

def recovery : Scan := seq [ident, ident, en]

def body : Scan :=
  seq [ident, ident, ident, list source, list worker, list workload, list baseline,
    list observation, list episode, list comparison, list recovery]

end Layout

class Enumerated (E : Type) [ByteEnum E] where
  count : UInt8
  toByte_ofByte : ∀ b : UInt8, ByteEnum.toByte (ByteEnum.ofByte b : E) = b

theorem forall_byte {P : UInt8 → Prop} (h : ∀ n : Fin 256, P (UInt8.ofNat n)) (b : UInt8) :
    P b := by
  have hb := h ⟨b.toNat, b.toNat_lt⟩
  rwa [UInt8.ofNat_toNat] at hb

instance : Enumerated InterferenceDomain := ⟨14, forall_byte (by decide +kernel)⟩
instance : Enumerated Outcome := ⟨9, forall_byte (by decide +kernel)⟩
instance : Enumerated AttributionStrength := ⟨6, forall_byte (by decide +kernel)⟩
instance : Enumerated Provenance := ⟨7, forall_byte (by decide +kernel)⟩
instance : Enumerated Freshness := ⟨6, forall_byte (by decide +kernel)⟩
instance : Enumerated SourceHealth := ⟨7, forall_byte (by decide +kernel)⟩
instance : Enumerated MetricKind := ⟨9, forall_byte (by decide +kernel)⟩
instance : Enumerated BaselineType := ⟨6, forall_byte (by decide +kernel)⟩
instance : Enumerated Confounder := ⟨17, forall_byte (by decide +kernel)⟩

section Fields

variable {σ : Type}

theorem exact_ident {tag : IdTag} : Exact (Reader.ident : Parser σ (Id tag)) Layout.ident
    (Coded Writer.ident fun _ => True) := exact_u64.convert Id.mk fun _ => rfl

theorem exact_i64 : Exact (Reader.i64 : Parser σ Int64) Layout.word
    (Coded ByteFormat.Writer.i64 fun _ => True) := exact_u64.convert UInt64.toInt64 fun _ => rfl

theorem exact_f64 : Exact (Reader.f64 : Parser σ Double) Layout.word
    (Coded Writer.f64 fun _ => True) := exact_u64.convert Double.mk fun _ => rfl

theorem exact_word : Exact (u64 : Parser σ UInt64) Layout.word
    (Coded ByteFormat.Writer.u64 fun _ => True) := exact_u64

theorem exact_en {E : Type} [ByteEnum E] [Enumerated E] : Exact (Reader.en : Parser σ E) Layout.en
    (Coded Writer.en fun _ => True) := by
  apply exact_u8.convert
  intro b
  rw [Writer.en, Enumerated.toByte_ofByte]

theorem exact_string : Exact (Reader.str : Parser σ ByteString) Scan.str
    (Coded ByteFormat.Writer.str StringFits) := exact_str (by decide)

theorem packCaps_unpackCaps (m : UInt32) : packCaps (unpackCaps m) = m ↔ m.toNat < 2 ^ 17 := by
  have hbit (j : Nat) : (packCaps (unpackCaps m)).toNat.testBit j =
      (decide (j < 17) && m.toNat.testBit j) := by
    have hflags : (unpackCaps m).flags = (List.range 17).map (hasBit m) := rfl
    rw [packCaps, testBit_packFrom _ _ _ (by simp [hflags]), hflags, Nat.sub_zero,
      List.getElem?_map]
    by_cases hj : j < 17
    · simp [hj, hasBit_eq (Nat.lt_trans hj (by decide))]
    · simp [hj]
  constructor
  · intro h
    apply Nat.lt_pow_two_of_testBit
    intro j hj
    rw [← h, hbit, decide_eq_false (Nat.not_lt.mpr hj), Bool.false_and]
  · intro h
    apply UInt32.toNat_inj.mp
    apply Nat.eq_of_testBit_eq
    intro j
    rw [hbit]
    by_cases hj : j < 17
    · rw [decide_eq_true hj, Bool.true_and]
    · rw [decide_eq_false hj, Bool.false_and, Nat.testBit_lt_two_pow]
      exact Nat.lt_of_lt_of_le h (Nat.pow_le_pow_right (by decide) (Nat.not_lt.mp hj))

theorem exact_caps : Exact (u32 : Parser σ UInt32) Layout.caps
    (Coded (fun m => ByteFormat.Writer.u32 (packCaps (unpackCaps m))) fun _ => True) :=
  exact_mask packCaps_unpackCaps

end Fields

section Records

theorem exact_source : Exact source Layout.source (Coded sourceBytes SourceFits) :=
  .field exact_ident fun _ => .field exact_ident fun _ => .cons exact_string fun _ hname =>
    .field exact_caps fun _ => .field exact_en fun _ => exact_pure ⟨rfl, rfl, hname⟩

theorem exact_worker : Exact worker Layout.worker (Coded workerBytes WorkerFits) :=
  .field exact_ident fun _ => .field exact_ident fun _ => .cons exact_string fun _ hname =>
    .field exact_flag fun _ => exact_pure ⟨rfl, rfl, hname⟩

theorem exact_workload : Exact workload Layout.workload (Coded workloadBytes WorkloadFits) := by
  refine .field exact_ident fun _ => .field exact_ident fun _ => .cons exact_string fun _ h₁ =>
    .cons exact_string fun _ h₂ => .cons exact_string fun _ h₃ => .field exact_ident fun _ =>
    .field exact_ident fun _ => .field exact_ident fun _ => .field exact_ident fun _ =>
    .cons exact_string fun _ h₄ => .cons exact_string fun _ h₅ => .cons exact_string fun _ h₆ =>
    .field exact_ident fun _ => .field exact_i64 fun _ => .field exact_i64 fun _ =>
    .field exact_word fun _ => .cons exact_string fun _ h₇ => exact_pure ⟨rfl, rfl, ?_⟩
  simp only [WorkloadFits, List.forall_mem_cons, h₁, h₂, h₃, h₄, h₅, h₆, h₇, List.not_mem_nil,
    false_imp_iff, implies_true, and_self]

theorem exact_baseline : Exact baseline Layout.baseline (Coded baselineBytes BaselineFits) := by
  refine .field exact_ident fun _ => .field exact_ident fun _ => .field exact_en fun _ =>
    .field exact_ident fun _ => .field exact_ident fun _ => .field exact_ident fun _ =>
    .field exact_ident fun _ => .field exact_ident fun _ => .field exact_ident fun _ =>
    .cons exact_string fun _ h₁ => .cons exact_string fun _ h₂ => .cons exact_string fun _ h₃ =>
    .cons exact_string fun _ h₄ => .cons exact_string fun _ h₅ => .field exact_ident fun _ =>
    .field exact_ident fun _ => .field exact_ident fun _ => .field exact_i64 fun _ =>
    .field exact_i64 fun _ => .field exact_en fun _ => .field exact_en fun _ =>
    .field exact_word fun _ => .field exact_f64 fun _ => .field exact_f64 fun _ =>
    .field exact_f64 fun _ => .field exact_en fun _ => .field exact_flag fun _ =>
    exact_pure ⟨rfl, rfl, ?_⟩
  simp only [BaselineFits, List.forall_mem_cons, h₁, h₂, h₃, h₄, h₅, List.not_mem_nil,
    false_imp_iff, implies_true, and_self]

theorem exact_plain {α : Type} {p : Parser Unit α} {s : Scan} {enc : α → List UInt8}
    {fits : α → Prop} (reason : String) (h : Exact p s (Coded enc fits)) :
    Exact (list reason Reader.kCountBound p) (.list s)
      (Coded (ByteFormat.Writer.list enc) (ListFits fits)) := exact_list h

theorem exact_observation :
    Exact observation Layout.observation (Coded observationBytes ObservationFits) :=
  .field exact_ident fun _ => .field exact_ident fun _ => .field exact_ident fun _ =>
    .field exact_ident fun _ => .field exact_ident fun _ => .field exact_ident fun _ =>
    .field exact_ident fun _ => .field exact_ident fun _ => .field exact_ident fun _ =>
    .field exact_ident fun _ => .field exact_i64 fun _ => .field exact_en fun _ =>
    .field exact_f64 fun _ => .cons exact_string fun _ h₁ => .field exact_word fun _ =>
    .field exact_f64 fun _ => .field exact_f64 fun _ => .field exact_flag fun _ =>
    .field exact_en fun _ => .field exact_en fun _ => .field exact_en fun _ =>
    .field exact_caps fun _ => .cons (exact_plain _ exact_ident) fun _ h₂ =>
    .cons (exact_plain _ exact_en) fun _ h₃ => exact_pure ⟨rfl, rfl, h₁, h₂, h₃⟩

theorem exact_delta : Exact delta Layout.delta (Coded deltaBytes fun _ => True) :=
  .field exact_en fun _ => .field exact_f64 fun _ => .field exact_f64 fun _ =>
    .field exact_word fun _ => .field exact_f64 fun _ => exact_pure ⟨rfl, rfl, trivial⟩

theorem exact_evidence :
    Exact evidence Layout.evidence (Coded evidenceBytes fun e => StringFits e.summary) :=
  .field exact_ident fun _ => .field exact_ident fun _ => .field exact_en fun _ =>
    .field exact_en fun _ => .field exact_en fun _ => .cons exact_string fun _ h =>
    exact_pure ⟨rfl, rfl, h⟩

theorem exact_episode : Exact episode Layout.episode (Coded episodeBytes EpisodeFits) :=
  .field exact_ident fun _ => .field exact_ident fun _ => .field exact_i64 fun _ =>
    .field exact_i64 fun _ => .field exact_flag fun _ => .field exact_ident fun _ =>
    .cons (exact_plain _ exact_ident) fun _ h₁ => .cons (exact_plain _ exact_en) fun _ h₂ =>
    .field exact_ident fun _ => .field exact_word fun _ =>
    .cons (exact_plain _ exact_delta) fun _ h₃ => .field exact_f64 fun _ =>
    .field exact_f64 fun _ => .field exact_en fun _ => .field exact_en fun _ =>
    .field exact_en fun _ => .field exact_ident fun _ =>
    .cons (exact_plain _ exact_evidence) fun _ h₄ => exact_pure ⟨rfl, rfl, h₁, h₂, h₃, h₄⟩

theorem exact_comparison :
    Exact comparison Layout.comparison (Coded comparisonBytes ComparisonFits) :=
  .field exact_ident fun _ => .field exact_ident fun _ => .field exact_ident fun _ =>
    .field exact_en fun _ => .field exact_ident fun _ => .field exact_word fun _ =>
    .cons (exact_plain _ exact_delta) fun _ h₁ => .field exact_f64 fun _ =>
    .field exact_f64 fun _ => .field exact_word fun _ => .field exact_en fun _ =>
    .field exact_en fun _ => .field exact_en fun _ => .field exact_ident fun _ =>
    .field exact_ident fun _ => .field exact_ident fun _ => .field exact_ident fun _ =>
    .cons (exact_plain _ exact_en) fun _ h₂ => .field exact_flag fun _ =>
    .cons (exact_plain _ exact_en) fun _ h₃ => exact_pure ⟨rfl, rfl, h₁, h₂, h₃⟩

theorem exact_recovery : Exact recovery Layout.recovery (Coded recoveryBytes fun _ => True) :=
  .field exact_ident fun _ => .field exact_ident fun _ => .field exact_en fun _ =>
    exact_pure ⟨rfl, rfl, trivial⟩

end Records

namespace Listing

def bytes (L : Listing) : List UInt8 :=
  [Writer.ident L.id, Writer.ident L.generation, Writer.ident L.epoch,
    ByteFormat.Writer.list sourceBytes L.sources, ByteFormat.Writer.list workerBytes L.workers,
    ByteFormat.Writer.list workloadBytes L.workloads,
    ByteFormat.Writer.list baselineBytes L.baselines,
    ByteFormat.Writer.list observationBytes L.observations,
    ByteFormat.Writer.list episodeBytes L.episodes,
    ByteFormat.Writer.list comparisonBytes L.comparisons,
    ByteFormat.Writer.list recoveryBytes L.recoveries].flatten

structure Fits (L : Listing) : Prop where
  sources : ListFits SourceFits L.sources
  workers : ListFits WorkerFits L.workers
  workloads : ListFits WorkloadFits L.workloads
  baselines : ListFits BaselineFits L.baselines
  observations : ListFits ObservationFits L.observations
  episodes : ListFits EpisodeFits L.episodes
  comparisons : ListFits ComparisonFits L.comparisons
  recoveries : ListFits (fun _ => True) L.recoveries

def replay {σ : Type} (sink : Sink σ) (L : Listing) (s : σ) : σ :=
  let s := sink.header L.id L.generation L.epoch s
  let s := L.sources.foldl (fun s e => sink.source e s) s
  let s := L.workers.foldl (fun s e => sink.worker e s) s
  let s := L.workloads.foldl (fun s w => sink.workload w s) s
  let s := L.baselines.foldl (fun s b => sink.baseline b s) s
  let s := L.observations.foldl (fun s o => sink.observation o s) s
  let s := L.episodes.foldl (fun s e => sink.episode e s) s
  let s := L.comparisons.foldl (fun s e => sink.comparison e s) s
  L.recoveries.foldl (fun s k => sink.recovery k s) s

def ofState (st : Impl Double) : Listing where
  id := st.id
  generation := st.generation
  epoch := st.epoch
  sources := st.sources.toList
  workers := st.workers.toList
  workloads := st.workloads.values
  baselines := st.baselines.values
  observations := st.observations.values
  episodes := st.episodes.values
  comparisons := st.comparisons.toList
  recoveries := st.recoveries.toList

theorem foldl_appended {α : Type} (get : Listing → List α) (set : List α → Listing → Listing)
    (get_set : ∀ b s, get (set b s) = b) (set_set : ∀ b c s, set b (set c s) = set b s)
    (set_get : ∀ s, set (get s) s = s) (l : List α) {s : Listing} (h : get s = []) :
    l.foldl (fun s a => set (get s ++ [a]) s) s = set l s := by
  have hfold := foldl_field get set get_set set_set set_get (fun l a => l ++ [a]) l s
  have hl : l.foldl (fun l a => l ++ [a]) [] = l := by
    rw [List.foldl_append_eq_append, List.nil_append, ← List.flatMap_def, List.flatMap_singleton']
  rw [hfold, h, hl]

theorem replay_listingSink (L : Listing) : L.replay listingSink .empty = L := by
  unfold replay
  dsimp only [listingSink]
  rw [foldl_appended sources (fun l s => { s with sources := l }) (fun _ _ => rfl)
      (fun _ _ _ => rfl) (fun _ => rfl) L.sources rfl,
    foldl_appended workers (fun l s => { s with workers := l }) (fun _ _ => rfl)
      (fun _ _ _ => rfl) (fun _ => rfl) L.workers rfl,
    foldl_appended workloads (fun l s => { s with workloads := l }) (fun _ _ => rfl)
      (fun _ _ _ => rfl) (fun _ => rfl) L.workloads rfl,
    foldl_appended baselines (fun l s => { s with baselines := l }) (fun _ _ => rfl)
      (fun _ _ _ => rfl) (fun _ => rfl) L.baselines rfl,
    foldl_appended observations (fun l s => { s with observations := l }) (fun _ _ => rfl)
      (fun _ _ _ => rfl) (fun _ => rfl) L.observations rfl,
    foldl_appended episodes (fun l s => { s with episodes := l }) (fun _ _ => rfl)
      (fun _ _ _ => rfl) (fun _ => rfl) L.episodes rfl,
    foldl_appended comparisons (fun l s => { s with comparisons := l }) (fun _ _ => rfl)
      (fun _ _ _ => rfl) (fun _ => rfl) L.comparisons rfl,
    foldl_appended recoveries (fun l s => { s with recoveries := l }) (fun _ _ => rfl)
      (fun _ _ _ => rfl) (fun _ => rfl) L.recoveries rfl]

end Listing

theorem exact_body {σ : Type} (sink : Sink σ) : Exact (body sink) Layout.body fun _ g w =>
    ∃ L : Listing, g = L.replay sink ∧ w = L.bytes ∧ L.Fits := by
  refine .field exact_ident.lift fun i => .field exact_ident.lift fun g =>
    .field exact_ident.lift fun e => .after (fun _ _ => rfl) ?_
  unfold sections
  refine .bind (exact_section exact_source.lift) ?_
  rintro ⟨⟩ _ _ ⟨l₁, rfl, rfl, h₁⟩
  refine .bind (exact_section exact_worker.lift) ?_
  rintro ⟨⟩ _ _ ⟨l₂, rfl, rfl, h₂⟩
  refine .bind (exact_section exact_workload.lift) ?_
  rintro ⟨⟩ _ _ ⟨l₃, rfl, rfl, h₃⟩
  refine .bind (exact_section exact_baseline.lift) ?_
  rintro ⟨⟩ _ _ ⟨l₄, rfl, rfl, h₄⟩
  refine .bind (exact_section exact_observation.lift) ?_
  rintro ⟨⟩ _ _ ⟨l₅, rfl, rfl, h₅⟩
  refine .bind (exact_section exact_episode.lift) ?_
  rintro ⟨⟩ _ _ ⟨l₆, rfl, rfl, h₆⟩
  refine .bind (exact_section exact_comparison.lift) ?_
  rintro ⟨⟩ _ _ ⟨l₇, rfl, rfl, h₇⟩
  refine .bind (exact_section exact_recovery.lift) ?_
  rintro ⟨⟩ _ _ ⟨l₈, rfl, rfl, h₈⟩
  exact exact_pure ⟨⟨i, g, e, l₁, l₂, l₃, l₄, l₅, l₆, l₇, l₈⟩, rfl, rfl,
    ⟨h₁, h₂, h₃, h₄, h₅, h₆, h₇, h₈⟩⟩

theorem accepted_layout {version : UInt8} {rest : List UInt8} (h : Accepted (version :: rest)) :
    ∃ bs, rest = bs ++ (Layout.body rest).2 ∧
      bs.length = (listing (version :: rest)).bytes.length ∧
      ((Layout.body rest).1 = true ↔ bs = (listing (version :: rest)).bytes) ∧
      (listing (version :: rest)).Fits := by
  rw [Accepted, ← readBody_fst listingSink] at h
  have hsnd := readBody_snd listingSink (version :: rest)
  unfold listing
  unfold readBody at h
  rcases hrun : (body listingSink).run ⟨version :: rest, 1, true⟩ with ⟨e | ⟨⟩, r', g⟩
  · rw [hrun] at h
    cases h
  · rw [hrun] at h hsnd
    have hok : r'.ok = true := by
      by_contra hn
      simp only [hn, if_false, reduceCtorEq] at h
    obtain ⟨bs, w, hrest, hlen, hafter, hcanon, L, hg, rfl, hfits⟩ :=
      exact_body listingSink _ () r' g hrun hok
    have hlisting : (readBody listingSink (version :: rest)).2 .empty = L := by
      rw [hsnd, hg]
      exact L.replay_listingSink
    rw [hlisting]
    rw [← hafter] at hrest
    exact ⟨bs, hrest, hlen, hcanon, hfits⟩

end Iobs
