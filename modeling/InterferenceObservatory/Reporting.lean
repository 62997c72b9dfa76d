import InterferenceObservatory.Selectivity

/-! What comparisons and explanations say about their evidence. The provenance of a verdict is
one label, written to the cell, the comparison, the episode and its evidence and repeated by
the explanation. A comparison that stops at a gate claims nothing; an explanation that finds
too few samples takes back the outcome only. -/

namespace Iobs
open DoubleOps Std

section Provenance

variable {F : Type} [DoubleOps F] (st : Impl F) (affected associated : WorkloadDescriptor)
  (domain : InterferenceDomain) (obs : List (Observation F)) (policy query : Policy F)

/-- The labels of provenance that a comparison which reached a verdict leaves behind: in the
returned record, the stored comparison, the cell, the episode and its evidence, and in the
explanation under the policy `query` afterwards. -/
def Impl.provenanceLabels : List Provenance :=
  let r := st.compare affected associated domain obs policy
  if r.1.outcome.isVerdict then
    r.1.evidenceSources ++
    (r.2.comparisons[r.1.comparisonId]?).toList.flatMap (·.evidenceSources) ++
    (r.2.matrix[CellKey.mk affected.id associated.id domain]?).toList.flatMap
      (·.evidenceSources) ++
    (if r.1.outcome.isInterference then
      (r.2.episodes.find? r.1.episodeId).toList.flatMap fun e =>
        e.provenance :: e.evidence.map (·.provenance)
    else []) ++
    [(r.2.explain affected.id associated.id domain query).provenance]
  else []

variable {st affected associated obs policy}

theorem eq_of_mem_provenanceLabels {p : Provenance}
    (hp : p ∈ st.provenanceLabels affected associated domain obs policy query) :
    p = evidenceProvenance affected.id obs := by
  unfold Impl.provenanceLabels at hp
  dsimp only at hp
  rcases st.compare_cases affected associated domain obs policy with ⟨u, hadm, heq⟩ | ⟨-, hno⟩
  · obtain ⟨e, he⟩ := hadm.compare_fst domain
    have hcell : (st.compare affected associated domain obs policy).2.matrix[CellKey.mk affected.id
        associated.id domain]? = some (st.verdictOn affected associated domain obs policy u) := by
      rw [heq, Impl.recordVerdict_matrix, ExtTreeMap.getElem?_insert_self]
    have hcmp : (st.compare affected associated domain obs policy).2.comparisons[(st.compare
        affected associated domain obs policy).1.comparisonId]? =
          some (st.verdictOn affected associated domain obs policy u) := by
      rw [he, heq, Impl.recordVerdict_comparisons, ExtTreeMap.getElem?_insert_self]
    have hexplain : ((st.compare affected associated domain obs policy).2.explain affected.id
        associated.id domain query).provenance = evidenceProvenance affected.id obs := by
      rw [Impl.explain, hcell]
      rfl
    have hsources : (st.verdictOn affected associated domain obs policy u).evidenceSources =
        [evidenceProvenance affected.id obs] := rfl
    rw [if_pos (compare_isVerdict hadm domain), hcell, hcmp, hexplain] at hp
    simp only [List.mem_append, List.mem_singleton] at hp
    rcases hp with (((hp | hp) | hp) | hp) | hp
    · rw [he] at hp
      exact List.mem_singleton.mp hp
    · simpa [hsources] using hp
    · simpa [hsources] using hp
    · split_ifs at hp with hint
      · obtain ⟨u', hu'⟩ := compare_interference_iff.mp hint
        rw [compare_of_interferes hu'] at hp
        dsimp only at hp
        rw [KeyedMap.find?_insert, if_pos rfl] at hp
        simpa [Impl.episodeOf] using hp
      · cases hp
    · exact hp
  · rw [if_neg (Bool.not_eq_true _ ▸ hno)] at hp
    cases hp

/-- A verdict is labelled as measured exactly if every entry of the affected workload was
measured or controlled, in each of the places where the label stands. -/
theorem verdict_measured_iff (st : Impl F) (affected associated : WorkloadDescriptor)
    (domain : InterferenceDomain) (obs : List (Observation F)) (policy query : Policy F)
    (p : Provenance) (hp : p ∈ st.provenanceLabels affected associated domain obs policy query) :
    p = .measured ↔
      ∀ o ∈ entriesOf affected.id obs, o.provenance = .measured ∨ o.provenance = .controlled := by
  rw [eq_of_mem_provenanceLabels domain query hp, ← allMeasured_iff]
  unfold evidenceProvenance
  split_ifs with hall
  · exact ⟨fun _ => hall, fun _ => rfl⟩
  · constructor
    · intro h
      cases h
    · intro h
      exact absurd h hall

end Provenance

def Demo.labelledSlowdown {F : Type} [DoubleOps F] (p : Provenance) : List (Observation F) :=
  List.replicate 3 { Demo.observation 150.0 with provenance := p }

theorem verdict_measured_iff_controlled :
    (Demo.published : Impl Double).provenanceLabels Demo.victim Demo.neighbor .cache
      (Demo.labelledSlowdown .controlled) .init .init = List.replicate 6 .measured ∧
    ∀ o ∈ entriesOf Demo.victim.id
        (Demo.labelledSlowdown .controlled : List (Observation Double)),
      o.provenance = .measured ∨ o.provenance = .controlled := by
  have hlabels : (Demo.published : Impl Double).provenanceLabels Demo.victim Demo.neighbor .cache
      (Demo.labelledSlowdown .controlled) .init .init = List.replicate 6 .measured := by
    decide +kernel
  refine ⟨hlabels, ?_⟩
  refine (verdict_measured_iff (Demo.published : Impl Double) Demo.victim Demo.neighbor .cache
    (Demo.labelledSlowdown .controlled) .init .init .measured ?_).mp rfl
  rw [hlabels]
  exact List.mem_replicate.mpr ⟨by decide, rfl⟩

theorem provenance_upgraded :
    (¬ ∀ (st : Impl Double) (affected associated : WorkloadDescriptor)
      (domain : InterferenceDomain) (obs : List (Observation Double))
      (policy query : Policy Double),
      .measured ∈ st.provenanceLabels affected associated domain obs policy query →
      ∀ o ∈ entriesOf affected.id obs, o.provenance = .measured) ∧
    ¬ ∀ (st : Impl Double) (affected associated : WorkloadDescriptor)
      (domain : InterferenceDomain) (obs : List (Observation Double))
      (policy query : Policy Double),
      .controlled ∈ st.provenanceLabels affected associated domain obs policy query →
      ∀ o ∈ entriesOf affected.id obs, o.provenance = .measured ∨ o.provenance = .controlled := by
  constructor
  · intro h
    have hmeasured := h Demo.published Demo.victim Demo.neighbor .cache
      (Demo.labelledSlowdown .controlled) .init .init (by decide +kernel)
    exact absurd hmeasured (by decide +kernel)
  · intro h
    have hcontrolled := h Demo.published Demo.victim Demo.neighbor .cache
      (Demo.labelledSlowdown .synthetic) .init .init (by decide +kernel)
    exact absurd hcontrolled (by decide +kernel)

structure ClaimsNothing (attribution : AttributionStrength) (confidence : Double) : Prop where
  attribution : attribution = .unknown
  confidence : eqb confidence 0.0 = true

theorem claimsNothing_init : ClaimsNothing .unknown 0.0 := ⟨rfl, by decide +kernel⟩

theorem compare_claims (st : Impl Double) (affected associated : WorkloadDescriptor)
    (domain : InterferenceDomain) (obs : List (Observation Double)) (policy : Policy Double)
    (h : (st.compare affected associated domain obs policy).1.outcome.isVerdict = false) :
    ClaimsNothing (st.compare affected associated domain obs policy).1.attribution
      (st.compare affected associated domain obs policy).1.confidence := by
  rcases st.compare_inversion affected associated domain obs policy with
    ⟨u, hadm, -⟩ | ⟨baseline, n, fresh, outcome, -, heq⟩
  · rw [compare_isVerdict hadm domain] at h
    cases h
  · rw [heq]
    exact claimsNothing_init

/-- A comparison without a verdict never claims anything. An explanation without one claims
nothing exactly if its cell is missing or claims nothing itself, or has a verdict and as many
samples as the policy of the explanation asks for. -/
theorem no_confident_claim_iff (st : Impl Double) (affected associated : WorkloadDescriptor)
    (domain : InterferenceDomain) (obs : List (Observation Double)) (policy : Policy Double)
    (v n : WorkloadId) (d : InterferenceDomain) (query : Policy Double) :
    ((st.compare affected associated domain obs policy).1.outcome.isVerdict = false →
      ClaimsNothing (st.compare affected associated domain obs policy).1.attribution
        (st.compare affected associated domain obs policy).1.confidence) ∧
    (((st.explain v n d query).outcome.isVerdict = false →
        ClaimsNothing (st.explain v n d query).attribution (st.explain v n d query).confidence) ↔
      ∀ p, st.matrix[CellKey.mk v n d]? = some p →
        query.minSamples ≤ p.sampleCount ∧ p.outcome.isVerdict = true ∨
          ClaimsNothing p.attribution p.confidence) := by
  refine ⟨compare_claims st affected associated domain obs policy, ?_⟩
  unfold Impl.explain
  rcases hcell : st.matrix[CellKey.mk v n d]? with _ | p
  · constructor
    · intro _ p hp
      cases hp
    · intro _ _
      exact claimsNothing_init
  · dsimp only
    constructor
    · intro h p' hp
      obtain rfl := Option.some.inj hp
      by_cases hfew : p.sampleCount < query.minSamples
      · rw [if_pos hfew] at h
        exact .inr (h rfl)
      · rw [if_neg hfew] at h
        rcases hv : p.outcome.isVerdict with _ | _
        · exact .inr (h hv)
        · exact .inl ⟨UInt64.not_lt.mp hfew, rfl⟩
    · intro h hno
      rcases h p rfl with ⟨hcount, hv⟩ | hnothing
      · rw [if_neg (UInt64.not_lt.mpr hcount), hv] at hno
        cases hno
      · exact hnothing

theorem confident_without_evidence :
    let ex := (Demo.compared : Impl Double).explain ⟨1⟩ ⟨2⟩ .cache
      { Policy.init with minSamples := 5 }
    ex.outcome = .insufficientEvidence ∧ ex.attribution = .controlledComparison ∧
      ¬ (ex.outcome.isVerdict = false → ClaimsNothing ex.attribution ex.confidence) := by
  refine ⟨by decide +kernel, by decide +kernel, ?_⟩
  intro h
  have hnothing := h (by decide +kernel)
  exact absurd hnothing.attribution (by decide +kernel)

end Iobs
