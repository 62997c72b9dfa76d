import InterferenceObservatory.Grounds
import InterferenceObservatory.Queries
import InterferenceObservatory.Representation

/-! The guidance of an explanation. Which of its texts can come out of a run at all, when there
is nothing left to advise, and that the advice to confirm a recovery can be followed. -/

namespace Iobs
open DoubleOps Std Runs

/-- A verdict that a comparison came to. -/
def PairwiseInterference.Reached {F : Type} [DoubleOps F] (p : PairwiseInterference F) : Prop :=
  ∃ (st : Impl F) (affected associated : WorkloadDescriptor) (domain : InterferenceDomain)
    (obs : List (Observation F)) (policy : Policy F) (usable : Baseline F),
    p = st.verdictOn affected associated domain obs policy usable

theorem cells_reached {F : Type} [DoubleOps F] {id : ObservatoryId}
    {generation : ObservatoryGeneration} {allowed : Impl F → Op F → Prop} {hist : List (Op F)}
    {st : Impl F} (hr : Run step allowed (Impl.fresh id generation) hist st) :
    ∀ (k : CellKey) p, st.matrix[k]? = some p → p.Reached := by
  refine hr.invariant (I := fun st => ∀ (k : CellKey) p, st.matrix[k]? = some p → p.Reached) ?_ ?_
  · intro k p hp
    cases hp.symm.trans ExtTreeMap.getElem?_empty
  · intro s op s' _ hs h k p hp
    rcases (step_effect hs).stores with
      ⟨-, heq⟩ | ⟨affected, associated, domain, obs, policy, u, -, -, -, heq⟩
    · rw [heq] at hp
      exact h k p hp
    · rw [heq] at hp
      rcases getElem?_insert_cases hp with ⟨-, rfl⟩ | hold
      · exact ⟨s, affected, associated, domain, obs, policy, u, rfl⟩
      · exact h k p hold

theorem attributionOf_resolved {overlap : Bool} {u : Unresolved} (h : u.hard = [])
    (hasRecovery : Bool) :
    attributionOf overlap u hasRecovery = .unknown ∨
      attributionOf overlap u hasRecovery = .controlledComparison ∨
      attributionOf overlap u hasRecovery = .strongCounterfactualEvidence := by
  unfold attributionOf
  rw [h]
  rcases overlap with _ | _
  · exact .inl rfl
  · rcases hasRecovery with _ | _
    · exact .inr (.inl rfl)
    · exact .inr (.inr rfl)

theorem PairwiseInterference.Reached.attribution {F : Type} [DoubleOps F]
    {p : PairwiseInterference F} (h : p.Reached) (hnone : p.unresolvedConfounders = []) :
    p.attribution = .unknown ∨ p.attribution = .controlledComparison ∨
      p.attribution = .strongCounterfactualEvidence := by
  obtain ⟨st, affected, associated, domain, obs, policy, usable, rfl⟩ := h
  exact attributionOf_resolved (List.append_eq_nil_iff.mp hnone).1 _

/-- In every run of calls other than `load` a cell is explained with a baseline and as current, so
that two of the five texts never come up; and nothing is advised exactly if the samples suffice
for the policy, no confounder is unresolved, and the cell shows a confirmed recovery or no overlap
at all. -/
theorem guidance_of_run {id : ObservatoryId} {generation : ObservatoryGeneration}
    {allowed : Impl Double → Op Double → Prop} {hist : List (Op Double)} {st : Impl Double}
    (hr : Run step allowed (Impl.fresh id generation) hist st) {k : CellKey}
    {p : PairwiseInterference Double} (hp : st.matrix[k]? = some p) (policy : Policy Double) :
    let ex := st.explain k.victim k.neighbor k.domain policy
    ex.hasBaseline = true ∧ ex.freshness = .current ∧
    ex.whatWouldStrengthenEvidence =
      (if p.sampleCount < policy.minSamples then ["increase repetitions"] else []) ++
        p.unresolvedConfounders.map (fun c => "control " ++ c.toString) ++
        (if p.attribution = .controlledComparison then
          ["remove neighbor workload and confirm recovery"] else []) ∧
    (ex.whatWouldStrengthenEvidence = [] ↔ policy.minSamples ≤ p.sampleCount ∧
      p.unresolvedConfounders = [] ∧
      (p.attribution = .strongCounterfactualEvidence ∨ p.attribution = .unknown)) := by
  have hrepresented : st.Represented := by
    refine hr.invariant (I := Impl.Represented) (represented_fresh id generation) ?_
    intro s op s' _ hs h
    exact h.step hs
  have hreached := cells_reached hr k p hp
  obtain ⟨b, hb, -⟩ := (hrepresented.cells k p hp).baseline
  have hnil : p.baselineId.isNil = false := (hrepresented.baselines _ b hb).1
  have hcurrent : p.freshness = .current := by
    obtain ⟨st₀, affected, associated, domain, obs, policy₀, usable, rfl⟩ := hreached
    rfl
  have hguidance : (st.explain k.victim k.neighbor k.domain policy).whatWouldStrengthenEvidence =
      (if p.sampleCount < policy.minSamples then ["increase repetitions"] else []) ++
        p.unresolvedConfounders.map (fun c => "control " ++ c.toString) ++
        (if p.attribution = .controlledComparison then
          ["remove neighbor workload and confirm recovery"] else []) := by
    simp [Impl.explain, hp, Impl.strengthenEvidence, hnil, hcurrent]
  refine ⟨?_, ?_, hguidance, ?_⟩
  · simp only [Impl.explain, hp, hnil, Bool.not_false]
  · simp only [Impl.explain, hp, hcurrent]
  · rw [hguidance, List.append_eq_nil_iff, List.append_eq_nil_iff, List.map_eq_nil_iff, and_assoc,
      ite_eq_right_iff, ite_eq_right_iff]
    simp only [List.cons_ne_nil, imp_false, UInt64.not_lt]
    refine and_congr_right fun _ => and_congr_right fun hnone => ?_
    rcases hreached.attribution hnone with h | h | h
    · simp [h]
    · simp [h]
    · simp [h]

theorem guidance_of_run_compared :
    ∃ p, (Demo.compared : Impl Double).matrix[Comparison.Demo.slowed.cell]? = some p ∧
      ((Demo.compared : Impl Double).explain Comparison.Demo.slowed.cell.victim
        Comparison.Demo.slowed.cell.neighbor Comparison.Demo.slowed.cell.domain .init).freshness =
        .current := by
  have hrun : Run step (fun _ _ => True) (Impl.fresh ⟨1⟩ ⟨1⟩ : Impl Double)
      [.publishBaseline Demo.baseline,
        .compare Demo.victim Demo.neighbor .cache Demo.slowdown .init] Demo.compared :=
    .of_exec (fun _ _ => trivial) rfl
  have hsome : ((Demo.compared : Impl Double).matrix[Comparison.Demo.slowed.cell]?).isSome =
      true := by decide +kernel
  obtain ⟨p, hp⟩ := Option.isSome_iff_exists.mp hsome
  exact ⟨p, hp, (guidance_of_run hrun hp .init).2.1⟩

namespace Comparison

variable {F : Type} [DoubleOps F] {a : Comparison F} {st st' : Impl F}

theorem explain_run (h : (a.run st).1.outcome.isVerdict = true) (policy : Policy F) :
    (a.run st).2.explain a.affected.id a.associated.id a.domain policy =
      { Impl.explainInit a.affected.id a.associated.id a.domain with
        degradation := (a.run st).1.degradation
        sampleCount := (a.run st).1.sampleCount
        confidence := (a.run st).1.confidence
        attribution := (a.run st).1.attribution
        outcome := if (a.run st).1.sampleCount < policy.minSamples then .insufficientEvidence
          else (a.run st).1.outcome
        provenance := (a.run st).1.evidenceSources.head?.getD .unknown
        freshness := (a.run st).1.freshness
        baselineId := (a.run st).1.baselineId
        hasBaseline := !(a.run st).1.baselineId.isNil
        confoundersUnresolved := (a.run st).1.unresolvedConfounders
        variance := ((a.run st).1.degradation.deltas.head?.map (·.variance)).getD 0.0
        whatWouldStrengthenEvidence := Impl.strengthenEvidence (a.run st).1 policy } := by
  have hcell : (a.run st).2.matrix[CellKey.mk a.affected.id a.associated.id a.domain]? =
      some (a.stored st) := by
    rw [run_snd]
    unfold enter withLedger
    dsimp only
    rw [if_pos (show (a.stored st).outcome.isVerdict = true from h)]
    exact ExtTreeMap.getElem?_insert_self
  unfold Impl.explain
  rw [hcell]
  rfl

theorem isVerdict_of_controlled (h : (a.run st).1.attribution = .controlledComparison) :
    (a.run st).1.outcome.isVerdict = true := by
  rcases st.compare_inversion a.affected a.associated a.domain a.obs a.policy with
    ⟨u, hadm, -⟩ | ⟨baseline, n, fresh, outcome, -, heq⟩
  · exact compare_isVerdict hadm a.domain
  · unfold run at h
    rw [heq] at h
    cases h

omit [DoubleOps F] in
theorem strengthenEvidence_controlled {r : PairwiseInterference F}
    (h : r.attribution = .controlledComparison) (policy : Policy F) :
    Impl.strengthenEvidence r policy =
      Impl.strengthenEvidence { r with attribution := .strongCounterfactualEvidence } policy ++
        ["remove neighbor workload and confirm recovery"] := by
  unfold Impl.strengthenEvidence
  simp only [h, reduceCtorEq, if_true, if_false, List.append_nil]

/-- A controlled comparison is advised to confirm the recovery. If the recovery of its cell is
recorded, in whatever run of calls other than `load` that neither change the epoch nor bring a
baseline for it, the same comparison made again is explained with the same evidence, as
counterfactually strong, and with this one advice gone. -/
theorem advice_followed {hist : List (Op F)}
    (hctl : (a.run st).1.attribution = .controlledComparison)
    (hr : Run step a.Undisturbed (a.run st).2 hist st')
    (hrec : ∃ op ∈ hist, Recovers a.cell op) (policy : Policy F) :
    ∃ rest, ((a.run st).2.explain a.affected.id a.associated.id a.domain
        policy).whatWouldStrengthenEvidence =
          rest ++ ["remove neighbor workload and confirm recovery"] ∧
      (a.run st').2.explain a.affected.id a.associated.id a.domain policy =
        { (a.run st).2.explain a.affected.id a.associated.id a.domain policy with
          attribution := .strongCounterfactualEvidence
          whatWouldStrengthenEvidence := rest } := by
  have hsame : (a.run (a.run st).2).1 = (a.run st).1 := by
    rw [run_snd]
    exact Alike.run_fst_eq ⟨rfl, rfl⟩ rfl
  have hnow : st'.recoveries.contains a.cell = true := by
    rw [ExtTreeSet.contains_iff_mem, mem_recoveries_run hr a.cell]
    exact .inr hrec
  have hagain : (a.run st').1 =
      { (a.run st).1 with attribution := .strongCounterfactualEvidence } := by
    rw [run_again hr, hsame, hnow]
    unfold upgrade
    rw [if_pos ⟨hctl, rfl⟩]
  have hverdict := isVerdict_of_controlled hctl
  have hverdict' : (a.run st').1.outcome.isVerdict = true := by
    rw [hagain]
    exact hverdict
  refine ⟨Impl.strengthenEvidence { (a.run st).1 with
    attribution := .strongCounterfactualEvidence } policy, ?_, ?_⟩
  · rw [explain_run hverdict]
    exact strengthenEvidence_controlled hctl policy
  · rw [explain_run hverdict', explain_run hverdict, hagain]

theorem advice_followed_slowed :
    ∃ st', Run step Demo.slowed.Undisturbed (Demo.slowed.run Iobs.Demo.published).2
        [.recordRecovery Demo.slowed.cell.victim Demo.slowed.cell.neighbor .cache] st' ∧
      ((Demo.slowed.run st').2.explain Demo.slowed.affected.id Demo.slowed.associated.id
        Demo.slowed.domain .init).attribution = .strongCounterfactualEvidence := by
  have hrun (st : Impl Double) (v n : WorkloadId) : Run step Demo.slowed.Undisturbed st
      [.recordRecovery v n .cache] (st.recordRecovery v n .cache).2 :=
    .next (h := []) .start ⟨fun _ hop => (by cases hop), fun _ hop => (by cases hop)⟩ rfl
  have hcontrolled : (Demo.slowed.run Iobs.Demo.published).1.attribution =
      .controlledComparison := by decide +kernel
  have hrecovers : Recovers (F := Double) Demo.slowed.cell
      (.recordRecovery Demo.slowed.cell.victim Demo.slowed.cell.neighbor .cache) :=
    ⟨rfl, rfl, rfl⟩
  obtain ⟨rest, -, hafter⟩ := advice_followed hcontrolled (hrun _ _ _)
    ⟨_, List.mem_singleton.mpr rfl, hrecovers⟩ .init
  exact ⟨_, hrun _ _ _, congrArg InterferenceExplanation.attribution hafter⟩

end Comparison

end Iobs
