import InterferenceObservatory.History

/-! The footprint of a comparison: the cell, the comparison and the episode it writes, and
nothing else. What it writes depends on nothing it has written, so the same call made again
finds its own entries in place. -/

namespace Iobs
open DoubleOps Std

variable {F : Type}

/-- From `st` to `st'` nothing changes but the cell `k`, the comparison `c` and the episode
`e`. -/
structure Impl.WritesOnly (st st' : Impl F) (k : CellKey) (c : ComparisonId) (e : EpisodeId) :
    Prop where
  elsewhere : st' = { st with
    comparisons := st'.comparisons, matrix := st'.matrix, episodes := st'.episodes }
  cells : ∀ k' : CellKey, k' ≠ k → st'.matrix[k']? = st.matrix[k']?
  comparisons : ∀ c' : ComparisonId, c' ≠ c → st'.comparisons[c']? = st.comparisons[c']?
  episodes : ∀ e', e' ≠ e → st'.episodes.find? e' = st.episodes.find? e'

theorem Impl.WritesOnly.refl (st : Impl F) (k : CellKey) (c : ComparisonId) (e : EpisodeId) :
    st.WritesOnly st k c e := by
  refine ⟨rfl, ?_, ?_, ?_⟩
  · intro k' _
    rfl
  · intro c' _
    rfl
  · intro e' _
    rfl

namespace Impl

variable (st : Impl F) (affected associated : WorkloadDescriptor) (domain : InterferenceDomain)
  (obs : List (Observation F)) (v : PairwiseInterference F)

theorem recordVerdict_writesOnly :
    st.WritesOnly (st.recordVerdict affected associated domain obs v).2
      ⟨affected.id, associated.id, domain⟩ v.comparisonId
      (st.recordVerdict affected associated domain obs v).1.episodeId := by
  refine ⟨?_, ?_, ?_, ?_⟩
  · obtain ⟨episodes, heq⟩ := st.recordVerdict_snd affected associated domain obs v
    rw [heq]
  · intro k' hk
    rw [recordVerdict_matrix]
    exact getElem?_insert_of_ne hk
  · intro c' hc
    rw [recordVerdict_comparisons]
    exact getElem?_insert_of_ne hc
  · intro e' he
    rw [recordVerdict_episodes]
    unfold recordVerdict at he
    dsimp only at he
    split_ifs at he ⊢ with hint
    · rw [KeyedMap.find?_insert, if_neg]
      exact Ne.symm he
    · rfl

theorem recordVerdict_again :
    (st.recordVerdict affected associated domain obs v).2.recordVerdict affected associated domain
      obs v = st.recordVerdict affected associated domain obs v := by
  unfold recordVerdict
  dsimp only
  split_ifs with hint
  · have hep : ∀ st' : Impl F, st'.epoch = st.epoch →
        st'.episodeOf affected associated domain obs v =
          st.episodeOf affected associated domain obs v := by
      intro st' hepoch
      simp only [episodeOf, hepoch]
    rw [hep]
    · simp only [insert_insert_self, KeyedMap.insert_insert_self]
    · rfl
  · simp only [insert_insert_self]

variable [DoubleOps F] (policy : Policy F)

variable {st affected associated obs policy} in
theorem Admitted.again {usable : Baseline F}
    (h : st.Admitted affected associated obs policy usable) :
    (st.recordVerdict affected associated domain obs v).2.Admitted affected associated obs policy
        usable ∧
      (st.recordVerdict affected associated domain obs v).2.verdictOn affected associated domain
        obs policy usable = st.verdictOn affected associated domain obs policy usable := by
  obtain ⟨episodes, heq⟩ := st.recordVerdict_snd affected associated domain obs v
  rw [heq]
  exact ⟨⟨h.policyValid, h.selected, h.current, h.inWindow, h.nonempty, h.enough⟩, rfl⟩

/-- A comparison that stops at a gate changes nothing; any other changes at most its cell, its
comparison and its episode; and made again at once it returns the same and changes nothing
more. -/
theorem compare_footprint :
    ((st.compare affected associated domain obs policy).1.outcome ∈ gateOutcomes →
      (st.compare affected associated domain obs policy).2 = st) ∧
    st.WritesOnly (st.compare affected associated domain obs policy).2
      ⟨affected.id, associated.id, domain⟩
      (st.compare affected associated domain obs policy).1.comparisonId
      (st.compare affected associated domain obs policy).1.episodeId ∧
    (st.compare affected associated domain obs policy).2.compare affected associated domain obs
      policy = st.compare affected associated domain obs policy := by
  rcases st.compare_gates affected associated domain obs policy with ⟨u, hadm, heq⟩ | ⟨hst, -⟩
  · refine ⟨?_, ?_, ?_⟩
    · intro hgate
      exact absurd hgate (compare_passed hadm domain)
    · obtain ⟨e, he⟩ := hadm.compare_fst domain
      have hid : (st.compare affected associated domain obs policy).1.comparisonId =
          (st.verdictOn affected associated domain obs policy u).comparisonId := by rw [he]
      rw [hid, heq]
      exact st.recordVerdict_writesOnly affected associated domain obs _
    · obtain ⟨hagain, hverdict⟩ := hadm.again domain
        (st.verdictOn affected associated domain obs policy u)
      rw [heq, compare_of_admitted hagain, hverdict]
      exact st.recordVerdict_again affected associated domain obs _
  · refine ⟨fun _ => hst, ?_, ?_⟩
    · rw [hst]
      exact .refl ..
    · rw [hst]

end Impl
end Iobs
