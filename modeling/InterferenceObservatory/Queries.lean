import InterferenceObservatory.History
import InterferenceObservatory.Threads

/-! Comparisons as queries. What `compare` returns depends on the epoch, on the baselines of the
affected workload on its device and on whether a recovery was recorded, and a comparison writes
none of these. So a comparison made again later says the same, up to what the new evidence
allows, and comparisons of different cells may be made in any order and from several threads. -/

namespace Iobs
open DoubleOps Std Runs Calls

variable {F : Type} [DoubleOps F]

structure Comparison (F : Type) where
  affected : WorkloadDescriptor
  associated : WorkloadDescriptor
  domain : InterferenceDomain
  obs : List (Observation F)
  policy : Policy F

namespace Comparison

def run (st : Impl F) (a : Comparison F) : PairwiseInterference F × Impl F :=
  st.compare a.affected a.associated a.domain a.obs a.policy

def cell (a : Comparison F) : CellKey := ⟨a.affected.id, a.associated.id, a.domain⟩

def concerns (affected : WorkloadDescriptor) (b : Baseline F) : Bool :=
  b.workloadId = affected.id ∧ b.deviceId = affected.deviceId

theorem selectBaseline_filter (affected : WorkloadDescriptor) (l : List (Baseline F)) :
    selectBaseline (l.filter (concerns affected)) affected = selectBaseline l affected := by
  rw [selectBaseline, List.foldl_filter]
  apply congrArg (fun f => l.foldl f _)
  funext s b
  unfold selectStep concerns
  by_cases hb : b.workloadId = affected.id ∧ b.deviceId = affected.deviceId
  · simp only [hb, and_self, decide_true, if_true]
  · simp only [hb, decide_false, Bool.false_eq_true, if_false]

structure Alike (a : Comparison F) (st st' : Impl F) : Prop where
  epoch : st'.epoch = st.epoch
  baselines : st'.baselines.values.filter (concerns a.affected) =
    st.baselines.values.filter (concerns a.affected)

variable {a : Comparison F} {st st' : Impl F}

theorem Alike.selection (h : a.Alike st st') :
    selectBaseline st'.baselines.values a.affected =
      selectBaseline st.baselines.values a.affected := by
  rw [← selectBaseline_filter, h.baselines, selectBaseline_filter]

theorem Alike.compareInit (h : a.Alike st st') :
    st'.compareInit a.affected a.associated a.domain =
      st.compareInit a.affected a.associated a.domain := by
  rw [Impl.compareInit, h.epoch]
  rfl

theorem Alike.admitted (h : a.Alike st st') {usable : Baseline F}
    (hadm : st.Admitted a.affected a.associated a.obs a.policy usable) :
    st'.Admitted a.affected a.associated a.obs a.policy usable := by
  refine ⟨hadm.policyValid, ?_, hadm.current, hadm.inWindow, hadm.nonempty, hadm.enough⟩
  rw [h.selection]
  exact hadm.selected

def upgrade (recovered : Bool) (r : PairwiseInterference F) : PairwiseInterference F :=
  { r with
    attribution := if r.attribution = .controlledComparison ∧ recovered = true then
      .strongCounterfactualEvidence else r.attribution }

theorem attributionOf_upgrade (overlap : Bool) (u : Unresolved) {before after : Bool}
    (h : before = true → after = true) :
    attributionOf overlap u after =
      if attributionOf overlap u before = .controlledComparison ∧ after = true then
        .strongCounterfactualEvidence
      else attributionOf overlap u before := by
  unfold attributionOf
  rcases overlap with _ | _
  · simp
  · by_cases hu : u.hard.isEmpty = true
    · rcases before with _ | _ <;> rcases after with _ | _ <;> simp_all
    · simp only [hu, Bool.not_true, Bool.not_false, Bool.false_eq_true, if_false, if_true]
      split_ifs <;> simp_all

theorem Alike.verdictOn (h : a.Alike st st') (usable : Baseline F)
    (hrec : st.recoveries.contains a.cell = true → st'.recoveries.contains a.cell = true) :
    st'.verdictOn a.affected a.associated a.domain a.obs a.policy usable =
      upgrade (st'.recoveries.contains a.cell)
        (st.verdictOn a.affected a.associated a.domain a.obs a.policy usable) := by
  have hattribution :
      (st'.verdictOn a.affected a.associated a.domain a.obs a.policy usable).attribution = _ :=
    attributionOf_upgrade _ _ hrec
  have hrest : st'.verdictOn a.affected a.associated a.domain a.obs a.policy usable =
      { st.verdictOn a.affected a.associated a.domain a.obs a.policy usable with
        attribution :=
          (st'.verdictOn a.affected a.associated a.domain a.obs a.policy usable).attribution } := by
    unfold Impl.verdictOn Impl.verdict
    rw [h.compareInit]
  rw [hrest, hattribution]
  rfl

omit [DoubleOps F] in
theorem recordVerdict_named (v : PairwiseInterference F) :
    (st.recordVerdict a.affected a.associated a.domain a.obs v).1 =
      if v.outcome.isInterference = true then
        { v with episodeId := episodeIdOf a.affected.id a.domain v.baselineId }
      else v := by
  unfold Impl.recordVerdict
  dsimp only
  split_ifs
  · rfl
  · rfl

omit [DoubleOps F] in
theorem recordVerdict_upgrade (recovered : Bool) (v : PairwiseInterference F) :
    (st'.recordVerdict a.affected a.associated a.domain a.obs (upgrade recovered v)).1 =
      upgrade recovered (st.recordVerdict a.affected a.associated a.domain a.obs v).1 := by
  rw [recordVerdict_named, recordVerdict_named]
  by_cases hint : v.outcome.isInterference = true
  · simp only [upgrade, hint, if_true]
  · simp only [upgrade, hint, Bool.false_eq_true, if_false]

omit [DoubleOps F] in
theorem upgrade_of_unknown {r : PairwiseInterference F} (h : r.attribution = .unknown)
    (recovered : Bool) : upgrade recovered r = r := by
  unfold upgrade
  rw [if_neg]
  rintro ⟨hc, -⟩
  rw [h] at hc
  cases hc

theorem Alike.run_fst (h : a.Alike st st')
    (hrec : st.recoveries.contains a.cell = true → st'.recoveries.contains a.cell = true) :
    (a.run st').1 = upgrade (st'.recoveries.contains a.cell) (a.run st).1 := by
  unfold run
  by_cases hex : ∃ usable, st.Admitted a.affected a.associated a.obs a.policy usable
  · obtain ⟨usable, hadm⟩ := hex
    rw [Impl.compare_of_admitted hadm, Impl.compare_of_admitted (h.admitted hadm),
      h.verdictOn usable hrec]
    exact recordVerdict_upgrade _ _
  · unfold Impl.compare
    rw [h.selection, h.compareInit]
    dsimp only
    split_ifs with hp ha
    · exact (upgrade_of_unknown rfl _).symm
    · exact (upgrade_of_unknown rfl _).symm
    · rcases hu : (selectBaseline st.baselines.values a.affected).usable with _ | usable
      · exact (upgrade_of_unknown rfl _).symm
      · dsimp only
        split_ifs with hf
        · exact (upgrade_of_unknown rfl _).symm
        · unfold Impl.compareAgainst
          rw [h.compareInit]
          dsimp only
          split_ifs with hn
          · exact (upgrade_of_unknown rfl _).symm
          · rw [Bool.not_eq_true, Bool.not_eq_false'] at hf
            have hagg : st.Aggregates a.affected a.obs a.policy usable :=
              ⟨by simpa using hp, hu, hf⟩
            exact absurd ⟨usable, hagg.admitted hn⟩ hex

/-- The call neither changes the epoch nor stores a baseline the comparison looks at. -/
def Undisturbed (a : Comparison F) (st : Impl F) (op : Op F) : Prop :=
  (∀ epoch, op = .setCoordinatorEpoch epoch → epoch = st.epoch) ∧
  ∀ b, op = .publishBaseline b → concerns a.affected b = true →
    (st.publishBaseline b).1 = .ok → st.baselines.find? b.id ≠ none

omit [DoubleOps F] in
theorem concerns_stampFreshness (affected : WorkloadDescriptor) (b : Baseline F) :
    concerns affected (Impl.stampFreshness b) = concerns affected b := by
  unfold Impl.stampFreshness
  split_ifs
  · rfl
  · rfl

omit [DoubleOps F] in
theorem filter_values_emplace {b : Baseline F} (hnew : st.baselines.find? b.id = none)
    (hb : concerns a.affected b = false) :
    (st.baselines.emplace (Impl.stampFreshness b)).values.filter (concerns a.affected) =
      st.baselines.values.filter (concerns a.affected) := by
  apply eq_of_ordered Baseline.id
  · exact (KeyedMap.ordered_values _).filter _
  · exact (KeyedMap.ordered_values _).filter _
  · intro c
    have hkey : st.baselines.find? (Impl.stampFreshness b).id = none := by
      rw [Impl.stampFreshness_id]
      exact hnew
    rw [List.mem_filter, List.mem_filter, KeyedMap.mem_values_emplace hkey]
    constructor
    · rintro ⟨rfl | hmem, hc⟩
      · rw [concerns_stampFreshness, hb] at hc
        cases hc
      · exact ⟨hmem, hc⟩
    · rintro ⟨hmem, hc⟩
      exact ⟨.inr hmem, hc⟩

theorem Alike.effect {s s' : Impl F} {op : Op F} (h : a.Alike st s) (hu : a.Undisturbed s op)
    (he : Effect s op s') : a.Alike st s' := by
  cases he with
  | epochAdvanced hne => exact absurd (hu.1 _ rfl) hne
  | @baselineStored b hcheck hnew =>
    refine ⟨h.epoch, ?_⟩
    have hok : (s.publishBaseline b).1 = .ok := by
      rw [Impl.publishBaseline, if_neg (not_not.mpr hcheck), hnew]
    have hother : concerns a.affected b = false := by
      rw [Bool.eq_false_iff]
      intro hb
      exact hu.2 b rfl hb hok hnew
    exact (filter_values_emplace hnew hother).trans h.baselines
  | @verdictStored affected associated domain obs policy usable hadm =>
    obtain ⟨episodes, heq⟩ := s.recordVerdict_snd affected associated domain obs
      (s.verdictOn affected associated domain obs policy usable)
    rw [heq]
    exact ⟨h.epoch, h.baselines⟩
  | _ => exact ⟨h.epoch, h.baselines⟩

def Recovers (k : CellKey) (op : Op F) : Prop :=
  op = .recordRecovery k.victim k.neighbor k.domain ∧
    k.victim.isNil = false ∧ k.neighbor.isNil = false

theorem mem_recoveries_step {s s' : Impl F} {op : Op F} (h : step s op = some s') (k : CellKey) :
    k ∈ s'.recoveries ↔ k ∈ s.recoveries ∨ Recovers k op := by
  by_cases hop : ∃ v n d, op = .recordRecovery v n d
  · obtain ⟨v, n, d, rfl⟩ := hop
    obtain rfl := Option.some.inj h
    unfold Impl.recordRecovery Recovers
    split_ifs with hnil
    · rw [Bool.or_eq_true] at hnil
      refine ⟨.inl, fun hk => hk.resolve_right ?_⟩
      rintro ⟨heq, hv, hn⟩
      injection heq with heq₁ heq₂
      rw [heq₁, heq₂, hv, hn] at hnil
      simp at hnil
    · rw [Bool.or_eq_true, not_or, Bool.not_eq_true, Bool.not_eq_true] at hnil
      dsimp only
      rw [ExtTreeSet.mem_insert, LawfulEqCmp.compare_eq_iff_eq, or_comm]
      apply or_congr_right
      constructor
      · rintro rfl
        exact ⟨rfl, hnil⟩
      · rintro ⟨heq, -⟩
        injection heq with heq₁ heq₂ heq₃
        rw [heq₁, heq₂, heq₃]
  · have hsame : s'.recoveries = s.recoveries := by
      rcases (step_effect h).recoveries with heq | ⟨v, n, d, heq, -⟩
      · exact heq
      · exact absurd ⟨v, n, d, heq⟩ hop
    rw [hsame]
    refine ⟨.inl, fun hk => hk.resolve_right ?_⟩
    rintro ⟨heq, -⟩
    exact hop ⟨_, _, _, heq⟩

theorem mem_recoveries_run {allowed : Impl F → Op F → Prop} {hist : List (Op F)}
    (hr : Run step allowed st hist st') (k : CellKey) :
    k ∈ st'.recoveries ↔ k ∈ st.recoveries ∨ ∃ op ∈ hist, Recovers k op := by
  refine hr.history_invariant
    (I := fun hist s => k ∈ s.recoveries ↔ k ∈ st.recoveries ∨ ∃ op ∈ hist, Recovers k op) ?_ ?_
  · simp
  · intro hist s op s' _ hs ih
    rw [mem_recoveries_step hs, ih, or_assoc]
    apply or_congr_right
    constructor
    · rintro (⟨op', hmem, hop'⟩ | hop)
      · exact ⟨op', List.mem_append_left _ hmem, hop'⟩
      · exact ⟨op, by simp, hop⟩
    · rintro ⟨op', hmem, hop'⟩
      rcases List.mem_append.mp hmem with hmem | hmem
      · exact .inl ⟨op', hmem, hop'⟩
      · obtain rfl := List.mem_singleton.mp hmem
        exact .inr hop'

theorem attributionOf_recovered (overlap : Bool) (u : Unresolved) :
    attributionOf overlap u true ≠ .controlledComparison := by
  unfold attributionOf
  split_ifs <;> simp_all

theorem not_recovered_of_controlled (h : (a.run st).1.attribution = .controlledComparison) :
    a.cell ∉ st.recoveries := by
  intro hmem
  have hcontains : st.recoveries.contains ⟨a.affected.id, a.associated.id, a.domain⟩ = true :=
    ExtTreeSet.contains_iff_mem.mpr hmem
  rcases st.compare_inversion a.affected a.associated a.domain a.obs a.policy with
    ⟨u, hadm, -⟩ | ⟨baseline, n, fresh, outcome, -, heq⟩
  · obtain ⟨e, he⟩ := hadm.compare_fst a.domain
    unfold run at h
    rw [he] at h
    change attributionOf _ _ _ = _ at h
    rw [hcontains] at h
    exact attributionOf_recovered _ _ h
  · unfold run at h
    rw [heq] at h
    cases h

theorem run_again {hist : List (Op F)} (hr : Run step a.Undisturbed st hist st') :
    (a.run st').1 = upgrade (st'.recoveries.contains a.cell) (a.run st).1 := by
  have halike : a.Alike st st' := by
    refine hr.invariant (I := a.Alike st) ⟨rfl, rfl⟩ ?_
    intro s op s' hu hs h
    exact h.effect hu (step_effect hs)
  apply halike.run_fst
  rw [ExtTreeSet.contains_iff_mem, ExtTreeSet.contains_iff_mem, mem_recoveries_run hr a.cell]
  exact .inl

/-- A comparison made again after any run of calls other than `load` in which the epoch stays and
no baseline of the affected workload on its device comes in returns what it returned the first
time, except that a controlled comparison has become strong counterfactual evidence exactly if the
recovery of its own cell was recorded in the meantime. -/
theorem compare_again {hist : List (Op F)} (hr : Run step a.Undisturbed st hist st') :
    ((a.run st).1.attribution = .controlledComparison ∧ (∃ op ∈ hist, Recovers a.cell op) →
      (a.run st').1 = { (a.run st).1 with attribution := .strongCounterfactualEvidence }) ∧
    (¬ ((a.run st).1.attribution = .controlledComparison ∧ ∃ op ∈ hist, Recovers a.cell op) →
      (a.run st').1 = (a.run st).1) := by
  have hrecoveries := mem_recoveries_run hr a.cell
  rw [run_again hr]
  constructor
  · rintro ⟨hattr, hrec⟩
    have hnow : st'.recoveries.contains a.cell = true := by
      rw [ExtTreeSet.contains_iff_mem, hrecoveries]
      exact .inr hrec
    unfold upgrade
    rw [if_pos ⟨hattr, hnow⟩]
  · intro hnot
    unfold upgrade
    rw [if_neg]
    rintro ⟨hattr, hnow⟩
    rw [ExtTreeSet.contains_iff_mem, hrecoveries] at hnow
    exact hnot ⟨hattr, hnow.resolve_left (not_recovered_of_controlled hattr)⟩

namespace Demo

def slowed : Comparison Double where
  affected := Iobs.Demo.victim
  associated := Iobs.Demo.neighbor
  domain := .cache
  obs := Iobs.Demo.slowdown
  policy := .init

end Demo

theorem compare_again_recovered :
    ∃ st', Run step Demo.slowed.Undisturbed Iobs.Demo.published
        [.recordRecovery Demo.slowed.cell.victim Demo.slowed.cell.neighbor .cache] st' ∧
      (Demo.slowed.run st').1 = { (Demo.slowed.run Iobs.Demo.published).1 with
        attribution := .strongCounterfactualEvidence } := by
  have hrun (st : Impl Double) (v n : WorkloadId) : Run step Demo.slowed.Undisturbed st
      [.recordRecovery v n .cache] (st.recordRecovery v n .cache).2 :=
    .next (h := []) .start ⟨fun _ hop => (by cases hop), fun _ hop => (by cases hop)⟩ rfl
  have hcontrolled : (Demo.slowed.run Iobs.Demo.published).1.attribution =
      .controlledComparison := by decide +kernel
  have hrecovers : Recovers (F := Double) Demo.slowed.cell
      (.recordRecovery Demo.slowed.cell.victim Demo.slowed.cell.neighbor .cache) :=
    ⟨rfl, rfl, rfl⟩
  have hagain := compare_again (hrun Iobs.Demo.published Demo.slowed.cell.victim
    Demo.slowed.cell.neighbor)
  exact ⟨_, hrun _ _ _, hagain.1 ⟨hcontrolled, _, List.mem_singleton.mpr rfl, hrecovers⟩⟩

theorem Alike.run_fst_eq (h : a.Alike st st') (hrec : st'.recoveries = st.recoveries) :
    (a.run st').1 = (a.run st).1 := by
  rw [h.run_fst (by rw [hrec]; exact id), hrec]
  unfold upgrade
  rw [if_neg]
  rintro ⟨hattr, hnow⟩
  exact not_recovered_of_controlled hattr (ExtTreeSet.contains_iff_mem.mp hnow)

@[ext] structure Ledger (F : Type) where
  comparisons : ExtTreeMap ComparisonId (PairwiseInterference F)
  matrix : ExtTreeMap CellKey (PairwiseInterference F)
  episodes : KeyedMap EpisodeId (InterferenceEpisode F) InterferenceEpisode.id

def ledger (st : Impl F) : Ledger F := ⟨st.comparisons, st.matrix, st.episodes⟩

def withLedger (st : Impl F) (w : Ledger F) : Impl F :=
  { st with comparisons := w.comparisons, matrix := w.matrix, episodes := w.episodes }

def stored (st : Impl F) (a : Comparison F) : PairwiseInterference F := (a.run st).1.withoutEpisode

def episode (st : Impl F) (a : Comparison F) : InterferenceEpisode F :=
  st.episodeOf a.affected a.associated a.domain a.obs (a.stored st)

def enter (st : Impl F) (w : Ledger F) (a : Comparison F) : PairwiseInterference F × Ledger F :=
  ((a.run st).1, if (a.stored st).outcome.isVerdict = true then
    { comparisons := w.comparisons.insert (a.stored st).comparisonId (a.stored st)
      matrix := w.matrix.insert a.cell (a.stored st)
      episodes := if (a.stored st).outcome.isInterference = true then
          w.episodes.insert (a.episode st)
        else w.episodes }
    else w)

theorem run_snd (st : Impl F) (a : Comparison F) :
    (a.run st).2 = withLedger st (enter st (ledger st) a).2 := by
  unfold enter
  dsimp only
  rcases st.compare_cases a.affected a.associated a.domain a.obs a.policy with
    ⟨u, hadm, heq⟩ | ⟨hsame, hnot⟩
  · have hstored : a.stored st = _ := compare_withoutEpisode hadm a.domain
    unfold episode
    rw [hstored, if_pos (Impl.verdictOn_isVerdict ..)]
    unfold run
    rw [heq]
    unfold Impl.recordVerdict
    dsimp only
    split_ifs
    · rfl
    · rfl
  · have hno : ¬ (a.stored st).outcome.isVerdict = true := by
      rw [Bool.not_eq_true]
      exact hnot
    rw [if_neg hno]
    exact hsame

theorem run_withLedger (st : Impl F) (w : Ledger F) (a : Comparison F) :
    a.run (withLedger st w) = ((enter st w a).1, withLedger st (enter st w a).2) := by
  have halike : a.Alike st (withLedger st w) := ⟨rfl, rfl⟩
  have hfst := halike.run_fst_eq rfl
  have hstored : a.stored (withLedger st w) = a.stored st :=
    congrArg PairwiseInterference.withoutEpisode hfst
  have hepisode : a.episode (withLedger st w) = a.episode st := by
    unfold episode
    rw [hstored]
    rfl
  refine Prod.ext hfst ?_
  rw [run_snd]
  unfold enter
  dsimp only
  rw [hstored, hepisode]
  rfl

/-- If both comparisons come to a verdict, they enter it in different places. -/
def Apart (st : Impl F) (a b : Comparison F) : Prop :=
  (a.run st).1.outcome.isVerdict = true → (b.run st).1.outcome.isVerdict = true →
    a.cell ≠ b.cell ∧ (a.run st).1.comparisonId ≠ (b.run st).1.comparisonId ∧
      ((a.run st).1.outcome.isInterference = true → (b.run st).1.outcome.isInterference = true →
        (a.run st).1.episodeId ≠ (b.run st).1.episodeId)

theorem run_episodeId (h : (a.run st).1.outcome.isInterference = true) :
    (a.run st).1.episodeId = (a.episode st).id := by
  have hverdict : (a.run st).1.outcome.isVerdict = true := by
    unfold Outcome.isVerdict
    rw [h, Bool.or_true]
  obtain ⟨u, hadm, -⟩ := Impl.compare_verdict hverdict
  have hstored : a.stored st = _ := compare_withoutEpisode hadm a.domain
  have hout : (st.verdictOn a.affected a.associated a.domain a.obs a.policy
      u).outcome.isInterference = true := by
    rw [← hstored]
    exact h
  unfold episode
  rw [hstored]
  unfold run
  rw [Impl.compare_of_admitted hadm, recordVerdict_named, if_pos hout]
  rfl

theorem enter_comm (w : Ledger F) {b : Comparison F} (h : Apart st a b) :
    (enter st (enter st w a).2 b).2 = (enter st (enter st w b).2 a).2 := by
  unfold enter
  dsimp only
  by_cases ha : (a.stored st).outcome.isVerdict = true
  · by_cases hb : (b.stored st).outcome.isVerdict = true
    · obtain ⟨hcell, hid, hepisode⟩ := h ha hb
      rw [if_pos ha, if_pos ha, if_pos hb, if_pos hb]
      apply Ledger.ext
      · exact insert_comm _ hid
      · exact insert_comm _ hcell
      · dsimp only
        split_ifs with hb' ha'
        · refine KeyedMap.insert_comm _ ?_
          have hne := hepisode ha' hb'
          rw [run_episodeId ha', run_episodeId hb'] at hne
          exact hne
        · rfl
        · rfl
        · rfl
    · rw [if_neg hb, if_neg hb]
  · rw [if_neg ha, if_neg ha]

theorem enter_again (w : Ledger F) : enter st (enter st w a).2 a = enter st w a := by
  unfold enter
  dsimp only
  split_ifs
  · simp only [insert_insert_self, KeyedMap.insert_insert_self]
  · simp only [insert_insert_self]
  · rfl

theorem enter_harmonious {l : List (Comparison F)}
    (h : ∀ a ∈ l, ∀ b ∈ l, a ≠ b → Apart st a b) : Harmonious (enter st) l where
  repeatable := fun _ _ w => enter_again w
  independent := fun a ha b hb hab => ⟨fun _ => rfl, fun w => enter_comm w (h a ha b hb hab)⟩

theorem runAll_comparisons {l l' : List (Comparison F)} (hp : l'.Perm l)
    (h : ∀ a ∈ l, ∀ b ∈ l, a ≠ b → Apart st a b) :
    runAll run st l' = (l'.map fun a => (a.run st).1, (runAll run st l).2) := by
  have hmap (l : List (Comparison F)) : runAll run st l =
      ((runAll (enter st) (ledger st) l).1, withLedger st (runAll (enter st) (ledger st) l).2) :=
    runAll_map (withLedger st) (run_withLedger st) (ledger st) l
  have hrun := enter_harmonious h
  rw [hmap, hmap, hrun.runAll_fst hp.subset, hrun.runAll_perm hp]
  rfl

section Threads

open Monitors

def request (a : Comparison Double) : Request :=
  .compare a.affected a.associated a.domain a.obs a.policy

theorem locked : Locked request .comparison run where
  injective := by
    rintro ⟨⟩ ⟨⟩ h
    cases h
    rfl
  invoke := by
    intro st a
    exact Method.map_free _ (Method.lockGuard_update _ st)
  notPeek := by
    intro a view
    simp [request, Request.code]

/-- Comparisons of different entries made from several threads: when all of the threads are
done, whatever the schedule was, the state is the one the calls lead to one after the other, and
each call has returned the verdict it would have returned had it been the only one. -/
theorem concurrent_comparisons {τ : Type} [DecidableEq τ] {st : Impl Double}
    {moves : List (Move τ Request (Impl Double))} {c : Config τ Request (Impl Double) Response}
    {l : List (Comparison Double)} (h : Schedule Request.code (initial st) moves c)
    (hidle : ∀ t, c.threads t = .idle) (hl : (calls c.trace).map Prod.snd = l.map request)
    (hapart : ∀ a ∈ l, ∀ b ∈ l, a ≠ b → Apart st a b) :
    c.state = (runAll run st l).2 ∧ ((results c.trace).map Prod.snd).Perm
      (l.map fun a => (a.request, .comparison (a.run st).1)) := by
  obtain ⟨l', hp, hstate, hresults⟩ := locked.serial h hidle hl
  have hrun := runAll_comparisons hp hapart
  rw [hrun] at hstate hresults
  refine ⟨hstate, ?_⟩
  rw [List.map_map, List.zip_map'] at hresults
  exact hresults.trans (hp.map _)

namespace Demo

def starved : Comparison Double := { slowed with domain := .memoryBandwidth }

def both : List (Move Bool Request (Impl Double)) :=
  [.start true slowed.request, .start false starved.request] ++
    List.replicate 7 (.advance true) ++ List.replicate 7 (.advance false)

end Demo

theorem concurrent_comparisons_both :
    ∃ c : Config Bool Request (Impl Double) Response,
      Schedule Request.code (initial Iobs.Demo.published) Demo.both c ∧
      (∀ t, c.threads t = .idle) ∧
      (calls c.trace).map Prod.snd = [Demo.slowed, Demo.starved].map request ∧
      c.state = (runAll run Iobs.Demo.published [Demo.slowed, Demo.starved]).2 := by
  obtain ⟨c, hc, hfacts⟩ := exists_schedule (s := Iobs.Demo.published) (m := Demo.both)
    (f := fun c => (c.threads true, c.threads false, (calls c.trace).map Prod.snd))
    (a := (.idle, .idle, [Demo.slowed, Demo.starved].map request)) rfl
  obtain ⟨htrue, hfalse, hcalls⟩ : c.threads true = _ ∧ c.threads false = _ ∧ _ = _ := by
    simpa only [Prod.mk.injEq] using hfacts
  have hidle : ∀ t, c.threads t = .idle := Bool.forall_bool.mpr ⟨hfalse, htrue⟩
  have hids : (Demo.slowed.run Iobs.Demo.published).1.comparisonId ≠
      (Demo.starved.run Iobs.Demo.published).1.comparisonId ∧
      (Demo.slowed.run Iobs.Demo.published).1.episodeId ≠
        (Demo.starved.run Iobs.Demo.published).1.episodeId := by decide +kernel
  have hcells : Demo.slowed.cell ≠ Demo.starved.cell := by decide
  have hapart : ∀ a ∈ [Demo.slowed, Demo.starved], ∀ b ∈ [Demo.slowed, Demo.starved], a ≠ b →
      Apart Iobs.Demo.published a b := by
    intro a ha b hb hab
    rcases List.mem_pair.mp ha with rfl | rfl
    · rcases List.mem_pair.mp hb with rfl | rfl
      · exact absurd rfl hab
      · exact fun _ _ => ⟨hcells, hids.1, fun _ _ => hids.2⟩
    · rcases List.mem_pair.mp hb with rfl | rfl
      · exact fun _ _ => ⟨hcells.symm, hids.1.symm, fun _ _ => hids.2.symm⟩
      · exact absurd rfl hab
  exact ⟨c, hc, hidle, hcalls, (concurrent_comparisons hc hidle hcalls hapart).1⟩

end Threads

end Comparison
end Iobs
