import InterferenceObservatory.Ingest

/-! Accepted evidence. A second submission under a stored identity is acknowledged if it
agrees with the stored record in the few fields the source compares, so a caller can be told
that evidence was accepted which the store does not hold. -/

namespace Iobs
open DoubleOps Std

section Offer

variable {K V : Type} [Ord K] [TransOrd K] [LawfulEqOrd K] {key : V → K}

def OfferFaithful (check : Status) (repeats : V → Bool) (v : V) (m : KeyedMap K V key) : Prop :=
  ((offer check repeats v m).1 = .ok → (offer check repeats v m).2.find? (key v) = some v) ∧
  ∀ w, m.find? (key v) = some w → w ≠ v → (offer check repeats v m).1 = .invalidInput ∧
    (offer check repeats v m).2 = m

theorem offer_stored (check : Status) (repeats : V → Bool) {v w : V} {m : KeyedMap K V key}
    (hw : m.find? (key v) = some w) : (offer check repeats v m).1 =
      (if check ≠ .ok then check else if repeats w then .ok else .invalidInput) ∧
      (offer check repeats v m).2 = m := by
  unfold offer
  split_ifs with hc hr
  · exact ⟨rfl, rfl⟩
  · simp only [hw, hr, if_true, and_self]
  · simp only [hw, hr, Bool.false_eq_true, if_false, and_self]

variable [DecidableEq K] in
theorem offerFaithful_iff (check : Status) (repeats : V → Bool) (v : V) (m : KeyedMap K V key) :
    OfferFaithful check repeats v m ↔ ∀ w, m.find? (key v) = some w →
      w = v ∨ check = .invalidInput ∨ check = .ok ∧ repeats w = false := by
  constructor
  · intro h w hw
    by_cases heq : w = v
    · exact .inl heq
    · right
      have hstatus := (h.2 w hw heq).1
      rw [(offer_stored check repeats hw).1] at hstatus
      by_cases hc : check = .ok
      · have hr : repeats w ≠ true := by
          intro hr
          rw [if_neg (not_not.mpr hc), if_pos hr] at hstatus
          cases hstatus
        exact .inr ⟨hc, Bool.eq_false_iff.mpr hr⟩
      · rw [if_pos hc] at hstatus
        exact .inl hstatus
  · intro h
    refine ⟨?_, ?_⟩
    · intro hok
      rcases hw : m.find? (key v) with _ | w
      · have hcheck : check = .ok := by
          by_contra hc
          rw [offer_fst, if_pos hc] at hok
          exact hc hok
        rw [offer_snd, if_pos hcheck, KeyedMap.find?_emplace, if_pos rfl, hw, Option.getD_none]
      · obtain ⟨hstatus, hmap⟩ := offer_stored check repeats hw
        rw [hmap, hw]
        rcases h w hw with rfl | hc | ⟨hc, hr⟩
        · rfl
        · rw [hstatus, hc] at hok
          cases hok
        · rw [hstatus, hc, hr] at hok
          cases hok
    · intro w hw hne
      obtain ⟨hstatus, hmap⟩ := offer_stored check repeats hw
      refine ⟨?_, hmap⟩
      rcases h w hw with heq | hc | ⟨hc, hr⟩
      · exact absurd heq hne
      · rw [hstatus, hc]
        rfl
      · rw [hstatus, hc, hr]
        rfl

theorem offerFaithful_iff_of_part {S : Type} {check : Status} {repeats : V → Bool} {v : V} {st : S}
    {out : Status × S} (get : S → KeyedMap K V key) (put : KeyedMap K V key → S)
    (hget : ∀ m, get (put m) = m) (hput : put (get st) = st)
    (hout : out = ((offer check repeats v (get st)).1, put (offer check repeats v (get st)).2)) :
    OfferFaithful check repeats v (get st) ↔
      (out.1 = .ok → (get out.2).find? (key v) = some v) ∧
      ∀ w, (get st).find? (key v) = some w → w ≠ v → out = (.invalidInput, st) := by
  rw [hout, hget]
  apply and_congr_right
  intro _
  constructor
  · intro h w hw hne
    obtain ⟨hstatus, hmap⟩ := h w hw hne
    rw [hstatus, hmap, hput]
  · intro h w hw hne
    obtain ⟨hstatus, hstate⟩ := Prod.mk.inj (h w hw hne)
    have hmap := congrArg get hstate
    rw [hget] at hmap
    exact ⟨hstatus, hmap⟩

end Offer

namespace Impl

variable (st : Impl Double)

/-- An accepted baseline is looked up as it was published, and one that differs from the
stored baseline of its identity is refused and changes nothing. -/
structure StoresBaseline (b : Baseline Double) : Prop where
  accepted : (st.publishBaseline b).1 = .ok →
    (st.publishBaseline b).2.lookupBaseline b.id = some (stampFreshness b)
  conflicting : ∀ w, st.lookupBaseline b.id = some w → w ≠ stampFreshness b →
    st.publishBaseline b = (.invalidInput, st)

structure StoresObservation (o : Observation Double) : Prop where
  accepted : (st.recordObservation o).1 = .ok →
    (st.recordObservation o).2.observations.find? o.id = some o
  conflicting : ∀ w, st.observations.find? o.id = some w → w ≠ o →
    st.recordObservation o = (.invalidInput, st)

theorem storesBaseline_iff (b : Baseline Double) : st.StoresBaseline b ↔
    OfferFaithful (checkBaseline b) (repeatsBaseline b) (stampFreshness b) st.baselines := by
  have hpart := offerFaithful_iff_of_part Impl.baselines (fun m => { st with baselines := m })
    (fun _ => rfl) rfl (Ingest.publishBaseline_eq st b)
  rw [stampFreshness_id] at hpart
  refine Iff.trans ?_ hpart.symm
  constructor
  · intro h
    exact ⟨h.accepted, h.conflicting⟩
  · intro h
    exact ⟨h.1, h.2⟩

theorem storesObservation_iff (o : Observation Double) : st.StoresObservation o ↔
    OfferFaithful (checkObservation o) (repeatsObservation o) o st.observations := by
  have hpart := offerFaithful_iff_of_part Impl.observations (fun m => { st with observations := m })
    (fun _ => rfl) rfl (Ingest.recordObservation_eq st o)
  refine Iff.trans ?_ hpart.symm
  constructor
  · intro h
    exact ⟨h.accepted, h.conflicting⟩
  · intro h
    exact ⟨h.1, h.2⟩

/-- Accepted means stored exactly if the identity is new, or is stored with the very same
content, or the submission fails its check as invalid or differs from the stored record in
one of the compared fields. -/
theorem accepted_is_stored_iff (b : Baseline Double) (o : Observation Double) :
    (st.StoresBaseline b ↔ ∀ w, st.baselines.find? b.id = some w → w = stampFreshness b ∨
      checkBaseline b = .invalidInput ∨ checkBaseline b = .ok ∧ repeatsBaseline b w = false) ∧
    (st.StoresObservation o ↔ ∀ w, st.observations.find? o.id = some w → w = o ∨
      checkObservation o = .invalidInput ∨
      checkObservation o = .ok ∧ repeatsObservation o w = false) := by
  constructor
  · rw [storesBaseline_iff, offerFaithful_iff, stampFreshness_id]
  · rw [storesObservation_iff, offerFaithful_iff]

end Impl

theorem accepted_and_dropped :
    ¬ (Demo.published : Impl Double).StoresBaseline { Demo.baseline with confidence := 0.5 } ∧
    ¬ ((Impl.fresh ⟨1⟩ ⟨1⟩ : Impl Double).recordObservation
        (Demo.observation 150.0)).2.StoresObservation
      { Demo.observation 150.0 with coRunPeers := [], confounders := [.thermalThrottling] } := by
  constructor
  · intro h
    have hacc := h.accepted (by decide +kernel)
    have hconf := congrArg (Option.map Baseline.confidence) hacc
    exact absurd hconf (by decide +kernel)
  · intro h
    have hacc := h.accepted (by decide +kernel)
    have hpeers := congrArg (Option.map Observation.coRunPeers) hacc
    exact absurd hpeers (by decide +kernel)

end Iobs
