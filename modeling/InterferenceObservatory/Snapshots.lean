import InterferenceObservatory.ConcurrentIngest
import InterferenceObservatory.Durability

/-! A save while other threads go on. The file holds a state between two calls: with all the
evidence that had been accepted when the save took effect, so also with all that had been
acknowledged before the save was called, and with nothing of a later call. -/

namespace Iobs
open Std Monitors

section Offer

variable {K V : Type} [Ord K] [TransOrd K] [LawfulEqOrd K] [DecidableEq K] {key : V → K}
  {check : Status} {repeats : V → Bool} {v : V} {m : KeyedMap K V key}

theorem offer_settled_iff : offer check repeats v m = (.ok, m) ↔
    check = .ok ∧ ∃ w, m.find? (key v) = some w ∧ repeats w = true := by
  unfold offer
  by_cases hc : check = .ok
  · simp only [hc, ne_eq, not_true_eq_false, if_false, true_and]
    rcases hf : m.find? (key v) with _ | w
    · constructor
      · intro h
        have hsame : m.emplace v = m := (Prod.mk.inj h).2
        have hthere : (m.emplace v).find? (key v) = some ((m.find? (key v)).getD v) := by
          rw [KeyedMap.find?_emplace, if_pos rfl]
        rw [hsame, hf] at hthere
        cases hthere
      · rintro ⟨w, hw, -⟩
        cases hw
    · simp
  · constructor
    · intro h
      rw [if_pos hc] at h
      exact absurd (Prod.mk.inj h).1 hc
    · rintro ⟨h, -⟩
      exact absurd h hc

end Offer

namespace Ingest

/-- The call made again is accepted and changes nothing. -/
def OnRecord (a : Ingest) (st : Impl Double) : Prop := run st a = (.ok, st)

/-- A workload may be registered anew with other content; all other records are final. -/
def Evidence : Ingest → Prop
  | registerWorkload _ => False
  | _ => True

variable {st st' : Impl Double}

theorem onRecord_publishBaseline {b : Baseline Double} : (publishBaseline b).OnRecord st ↔
    Impl.checkBaseline b = .ok ∧
      ∃ w, st.baselines.find? b.id = some w ∧ Impl.repeatsBaseline b w = true := by
  have hoffer := @offer_settled_iff _ _ _ _ _ _ _ (Impl.checkBaseline b) (Impl.repeatsBaseline b)
    (Impl.stampFreshness b) st.baselines
  rw [Impl.stampFreshness_id] at hoffer
  rw [← hoffer, OnRecord, run, publishBaseline_eq, Prod.mk.injEq, Prod.ext_iff]
  refine and_congr_right fun _ => ⟨fun h => congrArg Impl.baselines h, fun h => ?_⟩
  rw [show (offerBaseline b st.baselines).2 = st.baselines from h]

theorem onRecord_recordObservation {o : Observation Double} : (recordObservation o).OnRecord st ↔
    Impl.checkObservation o = .ok ∧
      ∃ w, st.observations.find? o.id = some w ∧ Impl.repeatsObservation o w = true := by
  have hoffer := @offer_settled_iff _ _ _ _ _ _ _ (Impl.checkObservation o)
    (Impl.repeatsObservation o) o st.observations
  rw [← hoffer, OnRecord, run, recordObservation_eq, Prod.mk.injEq, Prod.ext_iff]
  refine and_congr_right fun _ => ⟨fun h => congrArg Impl.observations h, fun h => ?_⟩
  rw [show (offerObservation o st.observations).2 = st.observations from h]

theorem onRecord_recordRecovery {v n : WorkloadId} {d : InterferenceDomain} :
    (recordRecovery v n d).OnRecord st ↔
      (v.isNil || n.isNil) = false ∧ (⟨v, n, d⟩ : CellKey) ∈ st.recoveries := by
  rw [OnRecord, run, recordRecovery_eq, Prod.mk.injEq]
  constructor
  · rintro ⟨hok, hst⟩
    have hnil : (v.isNil || n.isNil) = false := by
      rw [← Bool.not_eq_true]
      intro h
      rw [if_pos h] at hok
      cases hok
    have hrec : storeRecovery ⟨v, n, d⟩ st.recoveries = st.recoveries :=
      congrArg Impl.recoveries hst
    refine ⟨hnil, ?_⟩
    rw [← hrec]
    exact mem_storeRecovery.mpr (.inl ⟨hnil, rfl⟩)
  · rintro ⟨hnil, hmem⟩
    have hrec : storeRecovery ⟨v, n, d⟩ st.recoveries = st.recoveries := by
      apply ExtTreeSet.ext_mem
      intro c
      rw [mem_storeRecovery]
      constructor
      · rintro (⟨-, rfl⟩ | hc)
        · exact hmem
        · exact hc
      · exact .inr
    rw [hrec, if_neg (by simp [hnil])]
    exact ⟨rfl, rfl⟩

theorem OnRecord.kept {a : Ingest} (h : a.OnRecord st) (ha : a.Evidence) (hk : st.KeptIn st') :
    a.OnRecord st' := by
  cases a with
  | registerWorkload w => exact ha.elim
  | publishBaseline b =>
    obtain ⟨hcheck, w, hw, hrepeats⟩ := onRecord_publishBaseline.mp h
    obtain ⟨w', hw', heq⟩ := hk.baselines b.id w hw
    refine onRecord_publishBaseline.mpr ⟨hcheck, w', hw', ?_⟩
    -- the freshness is not part of what makes a repetition
    rcases heq with rfl | rfl
    · exact hrepeats
    · exact hrepeats
  | recordObservation o =>
    obtain ⟨hcheck, w, hw, hrepeats⟩ := onRecord_recordObservation.mp h
    exact onRecord_recordObservation.mpr ⟨hcheck, w, hk.observations o.id w hw, hrepeats⟩
  | recordRecovery v n d =>
    obtain ⟨hnil, hmem⟩ := onRecord_recordRecovery.mp h
    exact onRecord_recordRecovery.mpr ⟨hnil, hk.recoveries _ hmem⟩

theorem onRecord_of_accepted {a : Ingest}
    (h : a.request.code.run st = some (.status .ok, st')) : a.OnRecord st' := by
  have hinvoke := locked.invoke st a
  rw [invoke_code, h] at hinvoke
  obtain ⟨hok, hst⟩ : Status.ok = (run st a).1 ∧ st' = (run st a).2 := by
    simpa using hinvoke
  have hrun : run st a = (.ok, st') := Prod.ext hok.symm hst.symm
  rw [OnRecord, ← hrun, hst]
  exact run_repeatable a st

end Ingest

theorem keptIn_of_run {st st' : Impl Double} {q : Request} {r : Response}
    (h : q.code.run st = some (r, st')) (hq : ∀ file, q ≠ .load file) : st.KeptIn st' := by
  have hcall := Method.invoke_call st q
  rw [invoke_code, h] at hcall
  have hstep : call st q.call = some st' := by
    rcases hs : call st q.call with _ | s
    · rw [hs] at hcall
      cases hcall
    · rw [hs] at hcall
      simpa using hcall.symm
  rcases hk : q.call with op | file
  · rw [hk] at hstep
    have heffect : Effect st op st' := step_effect hstep
    exact heffect.keptIn
  · have hload : q = .load file := by
      cases q <;> cases hk
      rfl
    exact absurd hload (hq file)

theorem keptIn_of_replays {st st' : Impl Double} {l : List (Request × Response)}
    (h : Replays Request.code st l st') (hno : ∀ e ∈ l, ∀ file, e.1 ≠ .load file) :
    st.KeptIn st' := by
  induction l generalizing st with
  | nil =>
    obtain rfl : st = st' := h
    exact .refl st
  | cons e l ih =>
    obtain ⟨st₁, hrun, hl⟩ := h
    have hfirst := keptIn_of_run hrun (hno e (List.mem_cons_self ..))
    exact hfirst.trans (ih hl fun e' he' => hno e' (List.mem_cons_of_mem _ he'))

theorem onRecord_of_replays {st st' : Impl Double} {l : List (Request × Response)}
    (h : Replays Request.code st l st') (hno : ∀ e ∈ l, ∀ file, e.1 ≠ .load file) {a : Ingest}
    (ha : a.Evidence) (hmem : (a.request, .status .ok) ∈ l) : a.OnRecord st' := by
  obtain ⟨l₁, l₂, rfl⟩ := List.append_of_mem hmem
  obtain ⟨s, -, s', hrun, hlater⟩ := h.split
  have hkept : s'.KeptIn st' := keptIn_of_replays hlater fun e he =>
    hno e (List.mem_append_right _ (List.mem_cons_of_mem _ he))
  exact (Ingest.onRecord_of_accepted hrun).kept ha hkept

section Schedules

variable {τ : Type} [DecidableEq τ] {st : Impl Double} {moves : List (Move τ Request (Impl Double))}
  {c : Config τ Request (Impl Double) Response}

/-- A save that succeeds while other threads go on has written a state of the serial order, and
if the reader has room for it, it can be loaded. Unless a load came before the save, all
evidence that any thread had acknowledged by then is on record in the file. -/
theorem saved_while_ingesting (h : Schedule Request.code (initial st) moves c)
    {pre post : List (Event τ Request Response)} {t : τ} {path : String} {io : Io} {fs : Files}
    {files : List Files}
    (htrace : c.trace = pre ++ .took t (.save path io fs) (.saved .ok files) :: post) :
    ∃ snap, Serves st (effects pre) snap ∧
      (snap.Fits → ∀ id generation, (Impl.fresh id generation).load
        ((files.getLast?.getD fs) path) = (.ok, snap.replayed)) ∧
      ((∀ e ∈ effects pre, ∀ file, e.1 ≠ .load file) → st.KeptIn snap ∧
        ∀ (t' : τ) (a : Ingest), a.Evidence → (t', a.request, .status .ok) ∈ results pre →
          a.OnRecord snap.replayed) := by
  obtain ⟨base, hreplays, -⟩ := Schedule.settled h
  rw [htrace, effects_append] at hreplays
  obtain ⟨snap, hpre, s', hsave, -⟩ := hreplays.split
  -- the save itself, at its place in the serial order
  obtain ⟨⟨hok, hfiles⟩, -⟩ : ((snap.save path io fs).1 = .ok ∧ (snap.save path io fs).2 = files) ∧
      snap = s' := by
    simpa using Option.some.inj hsave
  refine ⟨snap, serves_of_replays hpre, ?_, ?_⟩
  · intro hfits id generation
    have hload := Impl.load_saved hok hfits (Impl.fresh id generation)
    rwa [Impl.saved, hfiles] at hload
  · intro hno
    refine ⟨keptIn_of_replays hpre hno, ?_⟩
    intro t' a ha hreturned
    -- ingest never looks at the state without the mutex
    have heffect := Schedule.effect_of_result h htrace hreturned (Ingest.locked.notPeek a)
    exact (onRecord_of_replays hpre hno ha heffect).kept ha (keptIn_matrix snap _)

end Schedules

namespace Demo

def recovered : Impl Double := ((Impl.fresh ⟨1⟩ ⟨1⟩).recordRecovery ⟨1⟩ ⟨2⟩ .cache).2

def saveState : Request := .save "state" ⟨true, true, 0, true⟩ fun _ => none

def saving : List (Move Bool Request (Impl Double)) :=
  [.start true (.recordRecovery ⟨1⟩ ⟨2⟩ .cache), .advance true, .advance true, .advance true,
    .advance true, .start false (.recordRecovery ⟨2⟩ ⟨1⟩ .cache), .start true saveState,
    .advance true, .advance true, .advance true]

def beforeSave : List (Event Bool Request Response) :=
  [.invoked true (.recordRecovery ⟨1⟩ ⟨2⟩ .cache),
    .took true (.recordRecovery ⟨1⟩ ⟨2⟩ .cache) (.status .ok),
    .returned true (.recordRecovery ⟨1⟩ ⟨2⟩ .cache) (.status .ok),
    .invoked false (.recordRecovery ⟨2⟩ ⟨1⟩ .cache), .invoked true saveState]

end Demo

theorem saved_while_ingesting_recovery :
    ∃ c, Schedule Request.code (initial (Impl.fresh ⟨1⟩ ⟨1⟩)) Demo.saving c ∧
      ∃ snap, Serves (Impl.fresh ⟨1⟩ ⟨1⟩) (effects Demo.beforeSave) snap ∧
        (Ingest.recordRecovery ⟨1⟩ ⟨2⟩ .cache).OnRecord snap.replayed := by
  obtain ⟨c, hc, htrace⟩ := exists_schedule (s := Impl.fresh ⟨1⟩ ⟨1⟩) (m := Demo.saving)
    (f := fun c => c.trace) (a := Demo.beforeSave ++ [.took true Demo.saveState
      (.saved (Demo.recovered.save "state" ⟨true, true, 0, true⟩ fun _ => none).1
        (Demo.recovered.save "state" ⟨true, true, 0, true⟩ fun _ => none).2)]) rfl
  have hok : (Demo.recovered.save "state" ⟨true, true, 0, true⟩ fun _ => none).1 = .ok := by
    decide +kernel
  rw [hok] at htrace
  have hno : ∀ e ∈ effects Demo.beforeSave, ∀ file, e.1 ≠ .load file := by
    intro e he file
    obtain rfl := List.mem_singleton.mp he
    exact fun h => (by cases h)
  obtain ⟨snap, hserves, -, hrecord⟩ := saved_while_ingesting hc htrace
  refine ⟨c, hc, snap, hserves, ?_⟩
  exact (hrecord hno).2 true (.recordRecovery ⟨1⟩ ⟨2⟩ .cache) trivial (List.mem_singleton_self _)

end Iobs
