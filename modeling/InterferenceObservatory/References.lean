import InterferenceObservatory.Listing
import InterferenceObservatory.Episodes

/-! References from stored verdicts to episodes. `compare` stores a verdict before it
attaches the episode to it, so a stored verdict of interference names no episode; the
references are intact exactly as long as no interference is found. -/

namespace Iobs
open Std Runs

def NamesEpisode (st : Impl Double) (v : PairwiseInterference Double) : Prop :=
  v.episodeId.isNil = false ∧ ∃ e, st.episodes.find? v.episodeId = some e ∧
    e.affected = v.victim ∧ e.baselineId = v.baselineId ∧ v.neighbor ∈ e.coRunning

structure Impl.ReferencesIntact (st : Impl Double) : Prop where
  comparison : ∀ (c : ComparisonId) v, st.comparisons[c]? = some v →
    v.outcome.isInterference = true → NamesEpisode st v
  cell : ∀ (k : CellKey) v, st.matrix[k]? = some v →
    v.outcome.isInterference = true → NamesEpisode st v

def Impl.CellAsReturned (st : Impl Double) (affected associated : WorkloadDescriptor)
    (domain : InterferenceDomain) (obs : List (Observation Double)) (policy : Policy Double) :
    Prop :=
  (st.compare affected associated domain obs policy).1.outcome.isVerdict = true →
    (st.compare affected associated domain obs policy).2.matrix[CellKey.mk affected.id associated.id
      domain]? = some (st.compare affected associated domain obs policy).1

/-- A call that brings no verdict of interference into the stores. -/
def Quiet (st : Impl Double) : Call → Prop
  | .op (.compare affected associated _ obs policy) =>
    ∀ usable, ¬ st.Interferes affected associated obs policy usable
  | .op _ => True
  | .load file => ∀ payload, Impl.payloadOf file = some payload → payload.head? = some 1 →
    ∀ e ∈ (listing payload).comparisons, e.2.outcome.isInterference = false

structure Impl.Unaffected (st : Impl Double) : Prop where
  comparison : ∀ (c : ComparisonId) v, st.comparisons[c]? = some v →
    v.outcome.isInterference = false
  cell : ∀ (k : CellKey) v, st.matrix[k]? = some v → v.outcome.isInterference = false

theorem Impl.Unaffected.intact {st : Impl Double} (h : st.Unaffected) : st.ReferencesIntact := by
  constructor
  · intro c v hv hint
    rw [h.comparison c v hv] at hint
    cases hint
  · intro k v hv hint
    rw [h.cell k v hv] at hint
    cases hint

theorem unaffected_fresh (id : ObservatoryId) (generation : ObservatoryGeneration) :
    (Impl.fresh id generation : Impl Double).Unaffected := by
  constructor
  · intro c v hv
    rw [show (Impl.fresh id generation : Impl Double).comparisons = ∅ from rfl,
      ExtTreeMap.getElem?_empty] at hv
    cases hv
  · intro k v hv
    rw [show (Impl.fresh id generation : Impl Double).matrix = ∅ from rfl,
      ExtTreeMap.getElem?_empty] at hv
    cases hv

theorem insert_unaffected {K : Type} [Ord K] [TransOrd K] [LawfulEqOrd K]
    {m : ExtTreeMap K (PairwiseInterference Double)} {v : PairwiseInterference Double}
    (hm : ∀ (k : K) (v : PairwiseInterference Double), m[k]? = some v →
      v.outcome.isInterference = false)
    (hv : v.outcome.isInterference = false) (k₀ k : K) (w : PairwiseInterference Double)
    (hw : (m.insert k₀ v)[k]? = some w) : w.outcome.isInterference = false := by
  rcases getElem?_insert_cases hw with ⟨-, rfl⟩ | hold
  · exact hv
  · exact hm k w hold

theorem step_unaffected {st st' : Impl Double} {op : Op Double} (ha : Quiet st (.op op))
    (hs : step st op = some st') (h : st.Unaffected) : st'.Unaffected := by
  rcases (step_effect hs).stores with
    ⟨hc, hm⟩ | ⟨affected, associated, domain, obs, policy, u, rfl, hadm, hc, hm⟩
  · constructor
    · rw [hc]
      exact h.comparison
    · rw [hm]
      exact h.cell
  · have hv : (st.verdictOn affected associated domain obs policy u).outcome.isInterference =
        false := by
      rw [← Bool.not_eq_true, interferes_iff hadm]
      exact ha u
    constructor
    · rw [hc]
      exact insert_unaffected h.comparison hv _
    · rw [hm]
      exact insert_unaffected h.cell hv _

theorem restore_unaffected {L : Listing} {m : ExtTreeMap CellKey (PairwiseInterference Double)}
    (hL : ∀ e ∈ L.comparisons, e.2.outcome.isInterference = false)
    (hm : ∀ (k : CellKey) (v : PairwiseInterference Double), m[k]? = some v →
      v.outcome.isInterference = false) :
    (L.restore m).Unaffected := by
  constructor
  · intro c v hv
    rcases mem_of_foldl_insertIfNew hv with hmem | hnone
    · exact hL _ hmem
    · rw [ExtTreeMap.getElem?_empty] at hnone
      cases hnone
  · intro k v hv
    rcases mem_of_overlay hv with hmem | hold
    · obtain ⟨e, he, heq⟩ := List.mem_map.mp hmem
      obtain rfl : e.2 = v := congrArg Prod.snd heq
      exact hL e he
    · exact hm k v hold

theorem call_unaffected {st st' : Impl Double} {c : Call} (ha : Quiet st c)
    (hs : call st c = some st') (h : st.Unaffected) : st'.Unaffected := by
  cases c with
  | op op => exact step_unaffected ha hs h
  | load file =>
    obtain rfl := Option.some.inj hs
    rcases st.load_cases file with ⟨payload, hp, hv, heq⟩ | heq
    · rw [heq]
      exact restore_unaffected (ha payload hp hv) h.cell
    · rw [heq]
      exact h

section Comparison

variable {st : Impl Double} {affected associated : WorkloadDescriptor}
  {domain : InterferenceDomain} {obs : List (Observation Double)} {policy : Policy Double}

theorem cellAsReturned_of_quiet
    (h : ∀ usable, ¬ st.Interferes affected associated obs policy usable) :
    st.CellAsReturned affected associated domain obs policy := by
  intro hv
  rcases st.compare_cases affected associated domain obs policy with ⟨u, hadm, heq⟩ | ⟨-, hno⟩
  · have hint : (st.verdictOn affected associated domain obs policy u).outcome.isInterference ≠
        true := by
      rw [ne_eq, interferes_iff hadm]
      exact h u
    have hfst : (st.recordVerdict affected associated domain obs
        (st.verdictOn affected associated domain obs policy u)).1 =
          st.verdictOn affected associated domain obs policy u := by
      unfold Impl.recordVerdict
      dsimp only
      rw [if_neg hint]
    rw [heq, Impl.recordVerdict_matrix, ExtTreeMap.getElem?_insert_self, hfst]
  · rw [hv] at hno
    cases hno

theorem not_intact_of_interferes {usable : Baseline Double}
    (h : st.Interferes affected associated obs policy usable) :
    ¬ (st.compare affected associated domain obs policy).2.ReferencesIntact := by
  intro hintact
  rw [compare_of_interferes h] at hintact
  have hcell := hintact.cell
    (st.verdictOn affected associated domain obs policy usable).cellKey _
    ExtTreeMap.getElem?_insert_self ((interferes_iff h.admitted domain).mpr h)
  have hnil : (st.verdictOn affected associated domain obs policy usable).episodeId.isNil = true :=
    rfl
  cases hnil.symm.trans hcell.1

end Comparison

/-- In every run without a verdict of interference all references are intact, and the next
comparison keeps them so, with a cell that holds what was returned, exactly if it finds no
interference either. -/
theorem run_references_intact {id : ObservatoryId} {generation : ObservatoryGeneration}
    {hist : List Call} {st : Impl Double}
    (hr : Run call Quiet (Impl.fresh id generation) hist st) :
    st.ReferencesIntact ∧ ∀ affected associated domain obs policy,
      ((st.compare affected associated domain obs policy).2.ReferencesIntact ∧
        st.CellAsReturned affected associated domain obs policy) ↔
      ∀ usable, ¬ st.Interferes affected associated obs policy usable := by
  have hun : st.Unaffected := by
    apply hr.invariant (unaffected_fresh id generation)
    intro s c s' ha hs h
    exact call_unaffected ha hs h
  refine ⟨hun.intact, ?_⟩
  intro affected associated domain obs policy
  constructor
  · intro h usable hint
    exact not_intact_of_interferes hint h.1
  · intro h
    have hstep : step st (.compare affected associated domain obs policy) =
        some (st.compare affected associated domain obs policy).2 := rfl
    have hquiet : Quiet st (.op (.compare affected associated domain obs policy)) := h
    exact ⟨(step_unaffected hquiet hstep hun).intact, cellAsReturned_of_quiet h⟩

def Demo.undisturbed : List (Observation Double) := List.replicate 3 (Demo.observation 100.0)

def Demo.steadied : Impl Double :=
  (Demo.published.compare Demo.victim Demo.neighbor .cache Demo.undisturbed .init).2

theorem run_references_intact_steadied :
    Demo.steadied.ReferencesIntact ∧
      (Demo.steadied.matrix[CellKey.mk ⟨1⟩ ⟨2⟩ .cache]?).isSome = true ∧
      ¬ ((Demo.steadied.compare Demo.victim Demo.neighbor .cache Demo.slowdown
          .init).2.ReferencesIntact ∧
        Demo.steadied.CellAsReturned Demo.victim Demo.neighbor .cache Demo.slowdown .init) := by
  have hno : ¬ ((Demo.published : Impl Double).compare Demo.victim Demo.neighbor .cache
      Demo.undisturbed .init).1.outcome.isInterference = true := by decide +kernel
  have hint : (Demo.steadied.compare Demo.victim Demo.neighbor .cache
      Demo.slowdown .init).1.outcome.isInterference = true := by decide +kernel
  have hquiet : Quiet Demo.published
      (.op (.compare Demo.victim Demo.neighbor .cache Demo.undisturbed .init)) :=
    fun usable h => hno (compare_interference_iff.mpr ⟨usable, h⟩)
  have hrun : Run call Quiet (Impl.fresh ⟨1⟩ ⟨1⟩) ([.op (.publishBaseline Demo.baseline)] ++
      [.op (.compare Demo.victim Demo.neighbor .cache Demo.undisturbed .init)]) Demo.steadied :=
    .next (.next .start trivial rfl) hquiet rfl
  obtain ⟨hintact, hnext⟩ := run_references_intact hrun
  refine ⟨hintact, by decide +kernel, fun h => ?_⟩
  obtain ⟨usable, hinterferes⟩ := compare_interference_iff.mp hint
  exact (hnext _ _ _ _ _).mp h usable hinterferes

theorem stored_interference_names_no_episode :
    let returned := ((Demo.published : Impl Double).compare Demo.victim Demo.neighbor .cache
      Demo.slowdown .init).1
    returned.outcome.isInterference = true ∧ returned.episodeId.isNil = false ∧
    (Demo.compared : Impl Double).comparisons.toList.map (·.2.episodeId) = [⟨0⟩] ∧
    ((Demo.compared : Impl Double).matrix[CellKey.mk ⟨1⟩ ⟨2⟩ .cache]?).map (·.episodeId) =
      some ⟨0⟩ ∧
    (Demo.compared : Impl Double).matrix[CellKey.mk ⟨1⟩ ⟨2⟩ .cache]? ≠ some returned ∧
    ¬ (Demo.compared : Impl Double).ReferencesIntact := by
  have hint : ((Demo.published : Impl Double).compare Demo.victim Demo.neighbor .cache
      Demo.slowdown .init).1.outcome.isInterference = true := by decide +kernel
  have hcell : ((Demo.compared : Impl Double).matrix[CellKey.mk ⟨1⟩ ⟨2⟩ .cache]?).map
      (·.episodeId) = some ⟨0⟩ := by decide +kernel
  have hret : ((Demo.published : Impl Double).compare Demo.victim Demo.neighbor .cache
      Demo.slowdown .init).1.episodeId ≠ ⟨0⟩ := by decide +kernel
  refine ⟨hint, by decide +kernel, by decide +kernel, hcell, ?_, ?_⟩
  · intro heq
    rw [heq, Option.map_some, Option.some.injEq] at hcell
    exact hret hcell
  · obtain ⟨usable, h⟩ := compare_interference_iff.mp hint
    exact not_intact_of_interferes h

end Iobs
