import InterferenceObservatory.SaveLoad
import InterferenceObservatory.Steps

/-! The matrix after a restart. A load replays the comparisons in the order of their
identities, while at run time a cell holds the comparison made last; the two agree in
runs whose comparisons of a cell are made in the order of their identities. -/

namespace Iobs
open Std Runs

def Latest (st : Impl Double) (k : CellKey) (p : PairwiseInterference Double) : Prop :=
  ∃ c : ComparisonId, st.comparisons[c]? = some p ∧ p.cellKey = k ∧
    ∀ (c' : ComparisonId) p', st.comparisons[c']? = some p' → p'.cellKey = k → c'.value ≤ c.value

theorem isLE_compare_iff {tag : IdTag} {a b : Id tag} :
    (compare a b).isLE = true ↔ a.value ≤ b.value :=
  Std.LawfulOrderOrd.isLE_compare (a := a.value) (b := b.value)

theorem replayed_eq_some_iff {st : Impl Double} {k : CellKey} {p : PairwiseInterference Double} :
    (overlay (replayedCells st) (∅ : ExtTreeMap CellKey _))[k]? = some p ↔ Latest st k p := by
  rw [replayedCells, overlay_latest ExtTreeMap.ordered_keys_toList]
  simp only [ExtTreeMap.mem_toList_iff_getElem?_eq_some, Prod.forall, isLE_compare_iff, Latest]

theorem exists_latest {st : Impl Double} {c : ComparisonId} {p : PairwiseInterference Double}
    (h : st.comparisons[c]? = some p) : ∃ q, Latest st p.cellKey q := by
  have hmem : p.cellKey ∈ (replayedCells st).map Prod.fst := by
    rw [replayedCells, List.map_map, List.mem_map]
    exact ⟨(c, p), ExtTreeMap.mem_toList_iff_getElem?_eq_some.mpr h, rfl⟩
  rcases hq : (overlay (replayedCells st) (∅ : ExtTreeMap CellKey _))[p.cellKey]? with _ | q
  · exact absurd hmem (overlay_empty_eq_none_iff.mp hq)
  · exact ⟨q, replayed_eq_some_iff.mp hq⟩

def Replayable (st : Impl Double) : Prop := ∀ k p, st.matrix[k]? = some p ↔ Latest st k p

theorem Replayable.matrix_eq {st : Impl Double} (h : Replayable st) :
    overlay (replayedCells st) ∅ = st.matrix := by
  apply ExtTreeMap.ext_getElem?
  intro k
  apply Option.ext
  intro p
  rw [replayed_eq_some_iff, h k p]

structure InOrder (st : Impl Double) (k : CellKey) (c : ComparisonId) : Prop where
  above : ∀ (c' : ComparisonId) p, st.comparisons[c']? = some p → p.cellKey = k → c'.value ≤ c.value
  unshared : ∀ p, st.comparisons[c]? = some p → p.cellKey ≠ k → ¬ Latest st p.cellKey p

/-- A call that stores no comparison out of order. -/
def Chronological (st : Impl Double) : Op Double → Prop
  | .compare affected associated domain obs policy =>
    ∀ usable, st.Admitted affected associated obs policy usable →
      InOrder st ⟨affected.id, associated.id, domain⟩
        (comparisonIdOf ⟨affected.id, associated.id, domain⟩ usable.id
          (aggregate affected.id usable.metricKind associated.id obs).n)
  | _ => True

section Insert

variable {st st' : Impl Double} {c : ComparisonId} {v : PairwiseInterference Double}

theorem getElem?_stored (hcmp : st'.comparisons = st.comparisons.insert c v) {c' : ComparisonId}
    (hne : c' ≠ c) : st'.comparisons[c']? = st.comparisons[c']? := by
  rw [hcmp, ExtTreeMap.getElem?_insert, if_neg]
  intro h
  exact hne (LawfulEqOrd.eq_of_compare h).symm

theorem getElem?_stored_self (hcmp : st'.comparisons = st.comparisons.insert c v) :
    st'.comparisons[c]? = some v := by
  rw [hcmp, ExtTreeMap.getElem?_insert_self]

theorem latest_stored_self (hcmp : st'.comparisons = st.comparisons.insert c v)
    (ho : InOrder st v.cellKey c) {p : PairwiseInterference Double} :
    Latest st' v.cellKey p ↔ v = p := by
  constructor
  · rintro ⟨i, hi, hkey, hmax⟩
    by_cases hic : i = c
    · rw [hic, getElem?_stored_self hcmp] at hi
      exact Option.some.inj hi
    · rw [getElem?_stored hcmp hic] at hi
      have hle := ho.above i p hi hkey
      have hge := hmax c v (getElem?_stored_self hcmp) rfl
      have hval : i.value = c.value := UInt64.le_antisymm hle hge
      exact absurd (congrArg Id.mk hval) hic
  · rintro rfl
    refine ⟨c, getElem?_stored_self hcmp, rfl, fun c' p' hp' hkey => ?_⟩
    by_cases hc : c' = c
    · rw [hc]
      exact UInt64.le_refl _
    · rw [getElem?_stored hcmp hc] at hp'
      exact ho.above c' p' hp' hkey

theorem latest_stored_other (hcmp : st'.comparisons = st.comparisons.insert c v)
    (ho : InOrder st v.cellKey c) {k : CellKey} (hk : k ≠ v.cellKey)
    {p : PairwiseInterference Double} :
    Latest st' k p ↔ Latest st k p := by
  have hold : ∀ {c' : ComparisonId} {p' : PairwiseInterference Double},
      st'.comparisons[c']? = some p' → p'.cellKey = k → c' ≠ c ∧ st.comparisons[c']? = some p' := by
    intro c' p' hp' hkey
    have hne : c' ≠ c := by
      rintro rfl
      rw [getElem?_stored_self hcmp] at hp'
      exact hk (by rw [← hkey, ← Option.some.inj hp'])
    exact ⟨hne, by rwa [getElem?_stored hcmp hne] at hp'⟩
  constructor
  · rintro ⟨i, hi, hkey, hmax⟩
    obtain ⟨hic, hi⟩ := hold hi hkey
    refine ⟨i, hi, hkey, fun c' p' hp' hkey' => ?_⟩
    by_cases hc : c' = c
    · -- the replaced comparison was below the latest of its cell, which is still there
      subst hc
      obtain ⟨q, j, hj, hqkey, hqmax⟩ := exists_latest hp'
      have hjne : j ≠ c' := by
        rintro rfl
        have hq : p' = q := Option.some.inj (hp'.symm.trans hj)
        apply ho.unshared p' hp' (hkey'.trans_ne hk)
        exact ⟨j, hp', rfl, hqmax⟩
      have hle : c'.value ≤ j.value := hqmax c' p' hp' rfl
      have hjmax := hmax j q (by rwa [getElem?_stored hcmp hjne]) (hqkey.trans hkey')
      exact UInt64.le_trans hle hjmax
    · exact hmax c' p' (by rwa [getElem?_stored hcmp hc]) hkey'
  · rintro ⟨i, hi, hkey, hmax⟩
    have hic : i ≠ c := by
      rintro rfl
      apply ho.unshared p hi (hkey.trans_ne hk)
      rw [hkey]
      exact ⟨i, hi, hkey, hmax⟩
    refine ⟨i, by rwa [getElem?_stored hcmp hic], hkey, fun c' p' hp' hkey' => ?_⟩
    exact hmax c' p' (hold hp' hkey').2 hkey'

end Insert

theorem Latest.congr {st st' : Impl Double} (h : st'.comparisons = st.comparisons) {k : CellKey}
    {p : PairwiseInterference Double} : Latest st' k p ↔ Latest st k p := by
  unfold Latest
  rw [h]

theorem Replayable.step {st st' : Impl Double} {op : Op Double} (h : Replayable st)
    (ha : Chronological st op) (hs : Iobs.step st op = some st') : Replayable st' := by
  rcases (step_effect hs).stores with
    ⟨hcmp, hmat⟩ | ⟨a, n, d, obs, policy, u, rfl, hadm, hcmp, hmat⟩
  · intro k p
    rw [hmat, Latest.congr hcmp]
    exact h k p
  · have ho := ha u hadm
    intro k p
    rw [hmat, ExtTreeMap.getElem?_insert]
    by_cases hk : k = (st.verdictOn a n d obs policy u).cellKey
    · rw [if_pos (LawfulEqOrd.compare_eq_iff_eq.mpr hk.symm), Option.some.injEq, hk]
      exact (latest_stored_self hcmp ho).symm
    · rw [if_neg fun hc => hk (LawfulEqOrd.eq_of_compare hc).symm, h k p]
      exact (latest_stored_other hcmp ho hk).symm

theorem replayable_fresh (id : ObservatoryId) (generation : ObservatoryGeneration) :
    Replayable (Impl.fresh id generation) := by
  intro k p
  constructor
  · intro h
    rw [Impl.fresh, ExtTreeMap.getElem?_empty] at h
    cases h
  · rintro ⟨c, hc, -⟩
    rw [Impl.fresh, ExtTreeMap.getElem?_empty] at hc
    cases hc

theorem explain_congr {st st' : Impl Double} (h : st'.matrix = st.matrix) (v n : WorkloadId)
    (d : InterferenceDomain) (policy : Policy Double) :
    st'.explain v n d policy = st.explain v n d policy := by
  unfold Impl.explain
  rw [h]

/-- In every run that stores no comparison out of order, a saved and reloaded state has
the matrix and gives the explanations of the saved one. -/
theorem run_matrix_restored {id : ObservatoryId} {generation : ObservatoryGeneration}
    {hist : List (Op Double)} {st : Impl Double}
    (hr : Run step Chronological (Impl.fresh id generation) hist st) {path : String} {io : Io}
    {fs : Files} (hsave : (st.save path io fs).1 = .ok) {id' : ObservatoryId}
    {generation' : ObservatoryGeneration} {st' : Impl Double}
    (hload : (Impl.fresh id' generation').load (st.saved path io fs path) = (.ok, st')) :
    st'.matrix = st.matrix ∧
      ∀ v n d policy, st'.explain v n d policy = st.explain v n d policy := by
  have hrep : Replayable st := hr.invariant (replayable_fresh id generation)
    fun _ _ _ ha hs h => h.step ha hs
  obtain ⟨encoded, henc, hfile⟩ := Impl.saved_ok hsave
  rw [hfile] at hload
  have hfits : st.Fits := by
    rw [← Impl.load_encoded_status henc (Impl.fresh id' generation'), hload]
  rw [Impl.load_encoded hfits henc, Prod.mk.injEq] at hload
  have hmat : st'.matrix = st.matrix := by
    rw [← hload.2]
    exact hrep.matrix_eq
  exact ⟨hmat, explain_congr hmat⟩

theorem chronological_of_empty {st : Impl Double} (h : st.comparisons = ∅)
    (affected associated : WorkloadDescriptor) (domain : InterferenceDomain)
    (obs : List (Observation Double)) (policy : Policy Double) :
    Chronological st (.compare affected associated domain obs policy) := by
  intro u _
  refine ⟨fun c p hp => ?_, fun p hp => ?_⟩
  all_goals
    rw [h, ExtTreeMap.getElem?_empty] at hp
    cases hp

theorem published_comparisons : (Demo.published : Impl Double).comparisons = ∅ := by
  have hs : step (Impl.fresh ⟨1⟩ ⟨1⟩) (.publishBaseline Demo.baseline) =
    some (Demo.published : Impl Double) := rfl
  rcases (step_effect hs).stores with ⟨hcmp, -⟩ | ⟨_, _, _, _, _, _, hop, -⟩
  · exact hcmp
  · cases hop

def Demo.broad : Impl Double :=
  (Demo.published.compare Demo.victim Demo.neighbor .cache
    (Demo.observation 150.0 :: Demo.slowdown) .init).2

def Demo.narrowed : Impl Double :=
  (Demo.broad.compare Demo.victim Demo.neighbor .cache Demo.slowdown .init).2

theorem comparisonId_of_first {st : Impl Double} (hnone : st.comparisons = ∅)
    {affected associated : WorkloadDescriptor} {domain : InterferenceDomain}
    {obs : List (Observation Double)} {policy : Policy Double} {c : ComparisonId}
    {p : PairwiseInterference Double}
    (hp : (st.compare affected associated domain obs policy).2.comparisons[c]? = some p) :
    c = (st.compare affected associated domain obs policy).1.comparisonId := by
  rcases st.compare_cases affected associated domain obs policy with ⟨u, hadm, heq⟩ | ⟨hsame, -⟩
  · obtain ⟨episode, hfst⟩ := hadm.compare_fst domain
    rw [heq, Impl.recordVerdict_comparisons, hnone, ExtTreeMap.getElem?_insert] at hp
    split_ifs at hp with hc
    · rw [hfst]
      exact (LawfulEqOrd.eq_of_compare hc).symm
    · rw [ExtTreeMap.getElem?_empty] at hp
      cases hp
  · rw [hsame, hnone, ExtTreeMap.getElem?_empty] at hp
    cases hp

theorem chronological_narrowed : Chronological Demo.broad
    (.compare Demo.victim Demo.neighbor .cache Demo.slowdown .init) := by
  intro u hadm
  have hid : comparisonIdOf ⟨Demo.victim.id, Demo.neighbor.id, .cache⟩ u.id
      (aggregate Demo.victim.id u.metricKind Demo.neighbor.id
        (Demo.slowdown : List (Observation Double))).n =
      (Demo.broad.compare Demo.victim Demo.neighbor .cache Demo.slowdown .init).1.comparisonId := by
    obtain ⟨episode, hfst⟩ := hadm.compare_fst .cache
    rw [hfst]
    rfl
  have hbelow : ((Demo.published : Impl Double).compare Demo.victim Demo.neighbor .cache
      (Demo.observation 150.0 :: Demo.slowdown) .init).1.comparisonId.value <
      (Demo.broad.compare Demo.victim Demo.neighbor .cache
        Demo.slowdown .init).1.comparisonId.value := by
    decide +kernel
  -- the only comparison on record is the one with four samples
  have hfirst : ∀ (c : ComparisonId) p, Demo.broad.comparisons[c]? = some p →
      c = ((Demo.published : Impl Double).compare Demo.victim Demo.neighbor .cache
        (Demo.observation 150.0 :: Demo.slowdown) .init).1.comparisonId := by
    intro c p hp
    rw [Demo.broad] at hp
    exact comparisonId_of_first published_comparisons hp
  rw [hid]
  refine ⟨fun c p hp _ => ?_, fun p hp => ?_⟩
  · rw [hfirst c p hp]
    exact UInt64.le_of_lt hbelow
  · rw [hfirst _ p hp] at hbelow
    exact absurd hbelow (UInt64.lt_irrefl _)

theorem run_matrix_restored_narrowed :
    ∃ st', (Impl.fresh ⟨9⟩ ⟨9⟩).load (Demo.narrowed.saved "state" ⟨true, true, 0, true⟩
      (fun _ => none) "state") = (.ok, st') ∧ st'.matrix = Demo.narrowed.matrix := by
  have hsave : (Demo.narrowed.save "state" ⟨true, true, 0, true⟩ fun _ => none).1 = .ok := by
    decide +kernel
  have hload := Impl.load_saved hsave (by decide +kernel) (Impl.fresh ⟨9⟩ ⟨9⟩)
  have horder := chronological_of_empty published_comparisons Demo.victim Demo.neighbor .cache
    (Demo.observation 150.0 :: Demo.slowdown) .init
  have hrun : Run step Chronological (Impl.fresh ⟨1⟩ ⟨1⟩)
      ([.publishBaseline Demo.baseline] ++
        [.compare Demo.victim Demo.neighbor .cache (Demo.observation 150.0 :: Demo.slowdown)
          .init] ++
        [.compare Demo.victim Demo.neighbor .cache Demo.slowdown .init]) Demo.narrowed :=
    .next (.next (.next .start trivial rfl) horder rfl) chronological_narrowed rfl
  exact ⟨_, hload, (run_matrix_restored hrun hsave hload).1⟩

def Demo.grown : Impl Double :=
  (Demo.compared.compare Demo.victim Demo.neighbor .cache
    (Demo.observation 150.0 :: Demo.slowdown) .init).2

theorem restart_restores_older_comparison :
    ¬ ∀ (id : ObservatoryId) (generation : ObservatoryGeneration) (hist : List (Op Double))
      (st : Impl Double), Run step (fun _ _ => True) (Impl.fresh id generation) hist st →
      ∀ path io fs id' generation' st', (st.save path io fs).1 = .ok →
      (Impl.fresh id' generation').load (st.saved path io fs path) = (.ok, st') →
      st'.matrix = st.matrix ∧
        ∀ v n d policy, st'.explain v n d policy = st.explain v n d policy := by
  intro h
  have hrun : Run step (fun _ _ => True) (Impl.fresh ⟨1⟩ ⟨1⟩)
      [.publishBaseline Demo.baseline,
        .compare Demo.victim Demo.neighbor .cache Demo.slowdown .init,
        .compare Demo.victim Demo.neighbor .cache (Demo.observation 150.0 :: Demo.slowdown) .init]
      Demo.grown := .of_exec (fun _ _ => trivial) rfl
  have hsave : (Demo.grown.save "state" ⟨true, true, 0, true⟩ fun _ => none).1 = .ok := by
    decide +kernel
  have hload := Impl.load_saved hsave (by decide +kernel) (Impl.fresh ⟨9⟩ ⟨9⟩)
  have hmat := (h _ _ _ _ hrun _ _ _ _ _ _ hsave hload).1
  have hcount := congrArg (fun m => m[CellKey.mk ⟨1⟩ ⟨2⟩ .cache]?.map (·.sampleCount)) hmat
  exact absurd hcount (by decide +kernel)

end Iobs
