import InterferenceObservatory.Steps
import Mathlib.Tactic.Linarith
import Mathlib.Tactic.NormNum
import Mathlib.Algebra.Order.Field.Basic

/-! The observatory never over-claims: in every state a run reaches, the confidence and
the attribution of what is stored stay within what the named baseline, the unresolved
confounders and the recorded recoveries allow. -/

namespace Iobs
open DoubleOps Runs

def Unresolved.Sorted (u : Unresolved) : Prop :=
  (∀ c ∈ u.hard, isHardConfounder c = true) ∧ ∀ c ∈ u.soft, isHardConfounder c = false

theorem noteConfounder_sorted {u : Unresolved} (h : u.Sorted) (c : Confounder) :
    (noteConfounder u c).Sorted := by
  unfold noteConfounder
  split_ifs with _ hc
  · refine ⟨fun d hd => ?_, h.2⟩
    rcases List.mem_append.mp hd with hd | hd
    · exact h.1 d hd
    · rw [List.mem_singleton.mp hd, hc]
  · refine ⟨h.1, fun d hd => ?_⟩
    rcases List.mem_append.mp hd with hd | hd
    · exact h.2 d hd
    · rw [List.mem_singleton.mp hd, Bool.eq_false_iff]
      exact hc
  · exact h

theorem foldl_sorted {α : Type} {f : Unresolved → α → Unresolved}
    (hf : ∀ u a, u.Sorted → (f u a).Sorted) (l : List α) {u : Unresolved} (h : u.Sorted) :
    (l.foldl f u).Sorted := by
  induction l generalizing u with
  | nil => exact h
  | cons a l ih => exact ih (hf u a h)

theorem unresolvedConfounders_sorted {F : Type} (affected : WorkloadId)
    (obs : List (Observation F)) : (unresolvedConfounders affected obs).Sorted := by
  have hempty : Unresolved.Sorted ⟨[], []⟩ := ⟨by simp, by simp⟩
  apply foldl_sorted _ obs hempty
  intro u o hu
  split_ifs
  · exact hu
  · exact foldl_sorted (fun u c hu => noteConfounder_sorted hu c) o.confounders hu

theorem Unresolved.Sorted.hard_iff {u : Unresolved} (h : u.Sorted) :
    (!u.hard.isEmpty) = true ↔ ∃ c ∈ u.hard ++ u.soft, isHardConfounder c = true := by
  rw [Bool.not_eq_true', ← Bool.not_eq_true, List.isEmpty_iff]
  constructor
  · intro hne
    obtain ⟨c, hc⟩ := List.exists_mem_of_ne_nil _ hne
    exact ⟨c, List.mem_append_left _ hc, h.1 c hc⟩
  · rintro ⟨c, hc, hhard⟩ hnil
    rw [hnil, List.nil_append] at hc
    rw [h.2 c hc] at hhard
    cases hhard

theorem foldl_discount (l : List Confounder) {x : ℚ} (hx : 0 ≤ x) :
    0 ≤ l.foldl (fun c _ => c * 0.85) x ∧ l.foldl (fun c _ => c * 0.85) x ≤ x := by
  induction l generalizing x with
  | nil => exact ⟨hx, le_rfl⟩
  | cons _ l ih =>
    have hy : 0 ≤ x * 0.85 := mul_nonneg hx (by norm_num)
    have hle : x * 0.85 ≤ x := mul_le_of_le_one_right hx (by norm_num)
    exact ⟨(ih hy).1, (ih hy).2.trans hle⟩

theorem clamp_rat {x : ℚ} (hx : 0 ≤ x) :
    0 ≤ clamp x 0.0 1.0 ∧ clamp x 0.0 1.0 ≤ x := by
  unfold clamp
  simp only [lit_zero, lit_one, ltb_rat, decide_eq_true_eq, if_neg (not_lt.mpr hx)]
  split_ifs with h
  · exact ⟨zero_le_one, h.le⟩
  · exact ⟨hx, le_rfl⟩

theorem discipline_bounds (n m : UInt64) :
    0 ≤ DoubleOps.min (1.0 : ℚ) (ofUInt64 n / ofUInt64 m) ∧
      DoubleOps.min (1.0 : ℚ) (ofUInt64 n / ofUInt64 m) ≤ 1 := by
  rw [min_rat, lit_one, ofUInt64_rat, ofUInt64_rat]
  exact ⟨le_inf zero_le_one (div_nonneg (Nat.cast_nonneg _) (Nat.cast_nonneg _)), inf_le_left⟩

theorem confidenceOf_bounds {usable : Baseline ℚ} (hb : 0 ≤ usable.confidence) (n : UInt64)
    (policy : Policy ℚ) (u : Unresolved) :
    let conf := confidenceOf usable .current true n policy u
    0 ≤ conf ∧ conf ≤ usable.confidence ∧
      (u.hard.isEmpty = false → conf ≤ usable.confidence / 5) := by
  obtain ⟨hd, hd1⟩ := discipline_bounds n (policy.minSamples * 2)
  have hx : 0 ≤ usable.confidence *
      DoubleOps.min 1.0 (ofUInt64 n / ofUInt64 (policy.minSamples * 2)) := mul_nonneg hb hd
  have hle := mul_le_of_le_one_right hb hd1
  have hfresh : (true && (Freshness.current == Freshness.stale)) = false := rfl
  unfold confidenceOf
  simp only [hfresh, Bool.false_eq_true, if_false]
  cases hh : u.hard.isEmpty with
  | true =>
    -- soft confounders only: every factor is at most one
    obtain ⟨h0, h1⟩ := foldl_discount u.soft hx
    have hc := clamp_rat h0
    rw [if_pos rfl]
    exact ⟨hc.1, hc.2.trans (h1.trans hle), fun h => by cases h⟩
  | false =>
    have hfifth : (0.2 : ℚ) = 1 / 5 := by norm_num
    have hc := clamp_rat (mul_nonneg hx (show (0 : ℚ) ≤ 0.2 by norm_num))
    rw [if_neg (by simp)]
    refine ⟨hc.1, hc.2.trans ?_, fun _ => hc.2.trans ?_⟩
    · rw [hfifth]
      linarith
    · rw [hfifth]
      linarith

structure Restrained (p : PairwiseInterference ℚ) (b : Baseline ℚ) : Prop where
  nonneg : 0 ≤ p.confidence
  le_baseline : p.confidence ≤ b.confidence
  confounded_iff : p.confounded = true ↔ ∃ c ∈ p.unresolvedConfounders, isHardConfounder c = true
  attribution_of_confounded : p.confounded = true →
    p.attribution = .unknown ∨ p.attribution = .temporallyAssociated ∨ p.attribution = .correlated
  le_fifth : p.confounded = true → p.confidence ≤ b.confidence / 5
  unconfounded : p.attribution = .controlledComparison ∨
      p.attribution = .strongCounterfactualEvidence →
    ∀ c ∈ p.unresolvedConfounders, isHardConfounder c = false
  not_direct : p.attribution ≠ .directResourceEvidence

section Ladder

variable (overlap : Bool) (u : Unresolved) (hasRecovery : Bool)

theorem attributionOf_confounded (h : u.hard.isEmpty = false) :
    attributionOf overlap u hasRecovery = .unknown ∨
      attributionOf overlap u hasRecovery = .temporallyAssociated ∨
      attributionOf overlap u hasRecovery = .correlated := by
  unfold attributionOf
  rw [h]
  cases overlap
  · exact .inl rfl
  · simp only [Bool.not_true, Bool.not_false, Bool.false_eq_true, if_false, if_true]
    split_ifs
    · exact .inr (.inl rfl)
    · exact .inr (.inr rfl)

theorem attributionOf_unconfounded
    (h : attributionOf overlap u hasRecovery = .controlledComparison ∨
      attributionOf overlap u hasRecovery = .strongCounterfactualEvidence) :
    u.hard.isEmpty = true := by
  by_contra hne
  have hhard : u.hard.isEmpty = false := Bool.eq_false_iff.mpr hne
  rcases attributionOf_confounded overlap u hasRecovery hhard with hl | hl | hl
  all_goals
    rw [hl] at h
    rcases h with h | h <;> cases h

theorem attributionOf_strong
    (h : attributionOf overlap u hasRecovery = .strongCounterfactualEvidence) :
    hasRecovery = true := by
  have hu := attributionOf_unconfounded overlap u hasRecovery (.inr h)
  unfold attributionOf at h
  rw [hu] at h
  cases overlap
  · cases h
  · cases hasRecovery
    · cases h
    · rfl

theorem attributionOf_ne_direct :
    attributionOf overlap u hasRecovery ≠ .directResourceEvidence := by
  unfold attributionOf
  split_ifs <;> exact fun h => by cases h

end Ladder

section Verdict

variable {st : Impl ℚ} {affected associated : WorkloadDescriptor} {obs : List (Observation ℚ)}
  {policy : Policy ℚ} {usable : Baseline ℚ}

theorem Impl.Admitted.confidence_pos (h : st.Admitted affected associated obs policy usable) :
    0 < usable.confidence := by
  have hu := h.candidate.usable
  simp only [Baseline.isUsable, ltb_rat, lit_zero, Bool.and_eq_true, decide_eq_true_eq] at hu
  exact hu.1.2

theorem verdictOn_restrained (h : st.Admitted affected associated obs policy usable)
    (domain : InterferenceDomain) :
    Restrained (st.verdictOn affected associated domain obs policy usable) usable := by
  have hsorted := unresolvedConfounders_sorted affected.id obs
  have hnil {u : Unresolved} (hu : (!u.hard.isEmpty) = true) : u.hard.isEmpty = false := by
    simpa only [Bool.not_eq_true'] using hu
  obtain ⟨h0, hle, hfifth⟩ := confidenceOf_bounds h.confidence_pos.le
    (aggregate affected.id usable.metricKind associated.id obs).n policy
    (unresolvedConfounders affected.id obs)
  refine ⟨h0, hle, hsorted.hard_iff, ?_, fun hc => hfifth (hnil hc), ?_, ?_⟩
  · intro hc
    exact attributionOf_confounded _ _ _ (hnil hc)
  · intro hattr c hc
    rw [Bool.eq_false_iff]
    intro hhard
    have hempty := attributionOf_unconfounded _ _ _ hattr
    rw [hnil (hsorted.hard_iff.mpr ⟨c, hc, hhard⟩)] at hempty
    cases hempty
  · exact attributionOf_ne_direct _ _ _

theorem verdictOn_recovered (domain : InterferenceDomain)
    (h : (st.verdictOn affected associated domain obs policy usable).attribution =
      .strongCounterfactualEvidence) :
    CellKey.mk affected.id associated.id domain ∈ st.recoveries :=
  Std.ExtTreeSet.mem_iff_contains.mpr (attributionOf_strong _ _ _ h)

end Verdict

def Recovered (hist : List (Op ℚ)) (p : PairwiseInterference ℚ) : Prop :=
  ∃ before after affected associated obs policy,
    hist = before ++ .compare affected associated p.domain obs policy :: after ∧
    affected.id = p.victim ∧ associated.id = p.neighbor ∧
    .recordRecovery p.victim p.neighbor p.domain ∈ before

structure Accounted (hist : List (Op ℚ)) (st : Impl ℚ) (p : PairwiseInterference ℚ) : Prop where
  restrained : ∃ b, st.baselines.find? p.baselineId = some b ∧ Restrained p b
  recovered : p.attribution = .strongCounterfactualEvidence → Recovered hist p

structure NeverOverClaims (hist : List (Op ℚ)) (st : Impl ℚ) : Prop where
  recoveries : ∀ k ∈ st.recoveries, Op.recordRecovery k.victim k.neighbor k.domain ∈ hist
  cells : ∀ (k : CellKey) p, st.matrix[k]? = some p → p.cellKey = k ∧ Accounted hist st p
  comparisons : ∀ (c : ComparisonId) p, st.comparisons[c]? = some p → Accounted hist st p

theorem Restrained.congr {p : PairwiseInterference ℚ} {b b' : Baseline ℚ} (h : Restrained p b)
    (hc : b'.confidence = b.confidence) : Restrained p b' :=
  ⟨h.nonneg, hc ▸ h.le_baseline, h.confounded_iff, h.attribution_of_confounded,
    fun hp => hc ▸ h.le_fifth hp, h.unconfounded, h.not_direct⟩

theorem demoteBaseline_confidence (b : Baseline ℚ) :
    (Impl.demoteBaseline b).confidence = b.confidence := by
  unfold Impl.demoteBaseline
  split_ifs <;> rfl

theorem Accounted.step {hist : List (Op ℚ)} {st st' : Impl ℚ} {op : Op ℚ}
    {p : PairwiseInterference ℚ} (h : Accounted hist st p) (he : Effect st op st') :
    Accounted (hist ++ [op]) st' p := by
  obtain ⟨⟨b, hb, hr⟩, hrec⟩ := h
  refine ⟨?_, fun hs => ?_⟩
  · rcases he.baseline_kept hb with hb' | hb'
    · exact ⟨b, hb', hr⟩
    · exact ⟨_, hb', hr.congr (demoteBaseline_confidence b)⟩
  · obtain ⟨before, after, a, n, obs, policy, rfl, ha, hn, hmem⟩ := hrec hs
    refine ⟨before, after ++ [op], a, n, obs, policy, ?_, ha, hn, hmem⟩
    rw [List.append_assoc, List.cons_append]

theorem verdictOn_accounted {hist : List (Op ℚ)} {st st' : Impl ℚ}
    {affected associated : WorkloadDescriptor} {obs : List (Observation ℚ)} {policy : Policy ℚ}
    {usable : Baseline ℚ} (h : NeverOverClaims hist st)
    (hadm : st.Admitted affected associated obs policy usable) (domain : InterferenceDomain)
    (hb : st'.baselines = st.baselines) :
    Accounted (hist ++ [.compare affected associated domain obs policy]) st'
      (st.verdictOn affected associated domain obs policy usable) := by
  refine ⟨⟨usable, ?_, verdictOn_restrained hadm domain⟩, fun hs => ?_⟩
  · rw [hb]
    exact KeyedMap.mem_values.mp hadm.mem
  · exact ⟨hist, [], affected, associated, obs, policy, rfl, rfl, rfl,
      h.recoveries _ (verdictOn_recovered domain hs)⟩

theorem NeverOverClaims.step {hist : List (Op ℚ)} {st st' : Impl ℚ} {op : Op ℚ}
    (h : NeverOverClaims hist st) (hs : Iobs.step st op = some st') :
    NeverOverClaims (hist ++ [op]) st' := by
  have he := step_effect hs
  have hrec : ∀ k ∈ st'.recoveries,
      Op.recordRecovery k.victim k.neighbor k.domain ∈ hist ++ [op] := by
    intro k hk
    rcases he.recoveries with heq | ⟨v, n, d, rfl, heq⟩
    · rw [heq] at hk
      exact List.mem_append_left _ (h.recoveries k hk)
    · rw [heq, Std.ExtTreeSet.mem_insert, Std.LawfulEqOrd.compare_eq_iff_eq] at hk
      rcases hk with rfl | hk
      · exact List.mem_append_right _ (List.mem_singleton_self _)
      · exact List.mem_append_left _ (h.recoveries k hk)
  rcases he.stores with ⟨hcmp, hmat⟩ | ⟨a, n, d, obs, policy, u, rfl, hadm, hcmp, hmat⟩
  · refine ⟨hrec, fun k p hp => ?_, fun c p hp => ?_⟩
    · rw [hmat] at hp
      exact ⟨(h.cells k p hp).1, (h.cells k p hp).2.step he⟩
    · rw [hcmp] at hp
      exact (h.comparisons c p hp).step he
  · have hbase : st'.baselines = st.baselines := by
      rcases he.baselines with hb | ⟨_, hop, -⟩ | ⟨_, hop, -⟩
      · exact hb
      · cases hop
      · cases hop
    -- the written cell and comparison hold the new verdict, all others are old
    have hnew := verdictOn_accounted h hadm d hbase
    refine ⟨hrec, fun k p hp => ?_, fun c p hp => ?_⟩
    · rw [hmat] at hp
      rcases getElem?_insert_cases hp with ⟨rfl, rfl⟩ | hold
      · exact ⟨rfl, hnew⟩
      · exact ⟨(h.cells k p hold).1, (h.cells k p hold).2.step he⟩
    · rw [hcmp] at hp
      rcases getElem?_insert_cases hp with ⟨-, rfl⟩ | hold
      · exact hnew
      · exact (h.comparisons c p hold).step he

/-- In every run, whatever is stored claims no more than its evidence. -/
theorem run_never_over_claims {id : ObservatoryId} {gen : ObservatoryGeneration}
    {hist : List (Op ℚ)} {st : Impl ℚ}
    (hr : Run step (fun _ _ => True) (Impl.fresh id gen) hist st) : NeverOverClaims hist st := by
  refine hr.history_invariant ⟨fun k hk => ?_, fun k p hp => ?_, fun c p hp => ?_⟩
    (fun _ _ _ _ _ hs h => h.step hs)
  · exact absurd hk Std.ExtTreeSet.not_mem_empty
  · rw [Impl.fresh, Std.ExtTreeMap.getElem?_empty] at hp
    cases hp
  · rw [Impl.fresh, Std.ExtTreeMap.getElem?_empty] at hp
    cases hp

theorem run_never_over_claims_recovery :
    let ops : List (Op ℚ) := [.publishBaseline Demo.baseline, .recordRecovery ⟨1⟩ ⟨2⟩ .cache,
      .compare Demo.victim Demo.neighbor .cache Demo.slowdown .init]
    ∃ st, exec step (Impl.fresh ⟨1⟩ ⟨1⟩) ops = some st ∧
      st.matrix[CellKey.mk ⟨1⟩ ⟨2⟩ .cache]?.map (·.attribution) =
        some .strongCounterfactualEvidence ∧ NeverOverClaims ops st :=
  ⟨_, rfl, by decide +kernel, run_never_over_claims (.of_exec (fun _ _ => trivial) rfl)⟩

end Iobs
