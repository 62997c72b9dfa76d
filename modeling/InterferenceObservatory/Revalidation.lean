import InterferenceObservatory.Steps
import InterferenceObservatory.SaveLoad

/-! Epoch changes. A baseline that an epoch change demotes stays demoted, whatever is
called afterwards, and a coordinator that was restarted from a file draws its verdicts
from the baselines its epoch change passed over. -/

namespace Iobs
open Std Runs

variable {F : Type}

namespace Impl

theorem demoteBaseline_of_dynamic {b : Baseline F} (ht : b.type ≠ .historicalIsolated)
    (hf : b.freshness ≠ .historical) :
    demoteBaseline b = { b with freshness := .revalidationRequired } := if_neg (not_or.mpr ⟨ht, hf⟩)

theorem demoteBaseline_idem (b : Baseline F) :
    demoteBaseline (demoteBaseline b) = demoteBaseline b := by
  by_cases h : b.type = .historicalIsolated ∨ b.freshness = .historical
  · have hb : demoteBaseline b = b := if_pos h
    rw [hb, hb]
  · rw [not_or] at h
    rw [demoteBaseline_of_dynamic h.1 h.2]
    have hf : Freshness.revalidationRequired ≠ .historical := by decide
    exact demoteBaseline_of_dynamic h.1 hf

theorem demoteBaseline_current {b : Baseline F} (h : (demoteBaseline b).freshness = .current) :
    demoteBaseline b = b ∧ b.type = .historicalIsolated := by
  by_cases hx : b.type = .historicalIsolated ∨ b.freshness = .historical
  · have hb : demoteBaseline b = b := if_pos hx
    refine ⟨hb, hx.resolve_right fun hf => ?_⟩
    rw [hb, hf] at h
    cases h
  · rw [not_or] at hx
    rw [demoteBaseline_of_dynamic hx.1 hx.2] at h
    cases h

theorem setCoordinatorEpoch_current {st : Impl F} {epoch : CoordinatorEpoch} {id : BaselineId}
    {b : Baseline F} (hb : (st.setCoordinatorEpoch epoch).baselines.find? id = some b)
    (hcur : b.freshness = .current) :
    st.baselines.find? id = some b ∧ (epoch = st.epoch ∨ b.type = .historicalIsolated) := by
  by_cases he : epoch = st.epoch
  · rw [setCoordinatorEpoch, if_pos he] at hb
    exact ⟨hb, .inl he⟩
  · rw [setCoordinatorEpoch, if_neg he, KeyedMap.find?_mapValues, Option.map_eq_some_iff] at hb
    obtain ⟨b₀, hb₀, rfl⟩ := hb
    obtain ⟨heq, htype⟩ := demoteBaseline_current hcur
    rw [heq]
    exact ⟨hb₀, .inr htype⟩

def demoteSource (s : SourceRec) : SourceRec :=
  if s.freshness ≠ .historical then { s with freshness := .revalidationRequired } else s

def disconnect (w : WorkerRec) : WorkerRec := { w with connected := false }

def advanced (st : Impl F) (epoch : CoordinatorEpoch) : Impl F :=
  { st with
    epoch := epoch
    baselines := st.baselines.mapValues demoteBaseline demoteBaseline_id
    sources := st.sources.map fun _ s => demoteSource s
    workers := st.workers.map fun _ w => disconnect w }

theorem setCoordinatorEpoch_eq (st : Impl F) (epoch : CoordinatorEpoch) :
    st.setCoordinatorEpoch epoch = if epoch = st.epoch then st else st.advanced epoch := rfl

theorem demoteSource_idem (s : SourceRec) : demoteSource (demoteSource s) = demoteSource s := by
  unfold demoteSource
  split_ifs <;> rfl

theorem advanced_advanced (st : Impl F) (epoch epoch' : CoordinatorEpoch) :
    (st.advanced epoch).advanced epoch' = st.advanced epoch' := by
  have hbaselines : ((st.advanced epoch).advanced epoch').baselines =
      (st.advanced epoch').baselines := by
    apply KeyedMap.ext
    intro id
    simp only [advanced, KeyedMap.find?_mapValues, Option.map_map]
    congr 1
    funext b
    exact demoteBaseline_idem b
  have hsources : ((st.advanced epoch).advanced epoch').sources =
      (st.advanced epoch').sources := by
    apply ExtTreeMap.ext_getElem?
    intro id
    simp only [advanced, ExtTreeMap.getElem?_map, Option.map_map]
    congr 1
    funext s
    exact demoteSource_idem s
  have hworkers : ((st.advanced epoch).advanced epoch').workers =
      (st.advanced epoch').workers := by
    apply ExtTreeMap.ext_getElem?
    intro id
    simp only [advanced, ExtTreeMap.getElem?_map, Option.map_map]
    rfl
  change { st with
    epoch := epoch'
    baselines := ((st.advanced epoch).advanced epoch').baselines
    sources := ((st.advanced epoch).advanced epoch').sources
    workers := ((st.advanced epoch).advanced epoch').workers } = _
  rw [hbaselines, hsources, hworkers]
  rfl

end Impl

variable [DoubleOps F] {st st' : Impl F} {hist : List (Op F)} {allowed : Impl F → Op F → Prop}

theorem run_demoted (hr : Run step allowed st hist st') {id : BaselineId} {b : Baseline F}
    (hb : st.baselines.find? id = some (Impl.demoteBaseline b)) :
    st'.baselines.find? id = some (Impl.demoteBaseline b) := by
  apply hr.invariant hb
  intro s op s' _ hs hfind
  rcases (step_effect hs).baseline_kept hfind with h | h
  · exact h
  · rw [h, Impl.demoteBaseline_idem]

theorem run_disconnected (hr : Run step allowed st hist st') {w : WorkerId} {r : Option WorkerRec}
    (hw : st.workers[w]? = r.map fun r => { r with connected := false })
    (hno : ∀ boot name connected, Op.registerWorker w boot name connected ∉ hist) :
    st'.workers[w]? = r.map fun r => { r with connected := false } := by
  refine hr.history_invariant (I := fun hist s =>
    (∀ boot name connected, Op.registerWorker w boot name connected ∉ hist) →
      s.workers[w]? = r.map fun r => { r with connected := false }) (fun _ => hw) ?_ hno
  intro h s op s' _ hs ih hno
  have hold := ih fun boot name connected hmem =>
    hno boot name connected (List.mem_append_left _ hmem)
  have hop : ∀ boot name connected, op ≠ .registerWorker w boot name connected := by
    rintro boot name connected rfl
    exact hno boot name connected (List.mem_append_right _ (List.mem_singleton_self _))
  rcases (step_effect hs).workers hop with heq | heq
  · rw [heq, hold]
  · rw [heq, hold, Option.map_map]
    rfl

theorem verdict_current {affected associated : WorkloadDescriptor} {domain : InterferenceDomain}
    {obs : List (Observation F)} {policy : Policy F}
    (h : (st.compare affected associated domain obs policy).1.outcome.isVerdict = true) :
    ∃ b, st.baselines.find? (st.compare affected associated domain obs policy).1.baselineId =
      some b ∧ b.freshness = .current := by
  obtain ⟨u, hadm, hid⟩ := Impl.compare_verdict h
  have hmem := KeyedMap.mem_values.mp hadm.mem
  exact ⟨u, by rw [hid, hmem], hadm.current⟩

/-- After a change of the epoch, in every later state until a `load`: the baselines it demoted
still require revalidation and no verdict rests on one of them, and the workers are disconnected
until they register again. -/
theorem epoch_change_requires_revalidation {epoch : CoordinatorEpoch} (he : epoch ≠ st.epoch)
    (hr : Run step (fun _ _ => True) (st.setCoordinatorEpoch epoch) hist st') :
    (∀ id b, st.baselines.find? id = some b → b.type ≠ .historicalIsolated →
      b.freshness ≠ .historical →
      st'.baselines.find? id = some { b with freshness := .revalidationRequired } ∧
      ∀ affected associated domain obs policy,
        (st'.compare affected associated domain obs policy).1.outcome.isVerdict = true →
        (st'.compare affected associated domain obs policy).1.baselineId ≠ id) ∧
    ∀ w, (∀ boot name connected, Op.registerWorker w boot name connected ∉ hist) →
      st'.workers[w]? = st.workers[w]?.map fun r => { r with connected := false } := by
  constructor
  · intro id b hb ht hf
    have hdemoted : (st.setCoordinatorEpoch epoch).baselines.find? id =
        some (Impl.demoteBaseline b) := by
      rw [Impl.setCoordinatorEpoch, if_neg he, KeyedMap.find?_mapValues, hb]
      rfl
    have hkept := run_demoted hr hdemoted
    rw [Impl.demoteBaseline_of_dynamic ht hf] at hkept
    refine ⟨hkept, fun affected associated domain obs policy hv hid => ?_⟩
    obtain ⟨u, hu, hcur⟩ := verdict_current hv
    rw [hid, hkept] at hu
    rw [← Option.some.inj hu] at hcur
    cases hcur
  · intro w hno
    refine run_disconnected hr ?_ hno
    rw [Impl.setCoordinatorEpoch, if_neg he]
    exact ExtTreeMap.getElem?_map

theorem epoch_change_requires_revalidation_compared :
    ((Demo.published.setCoordinatorEpoch ⟨2⟩).compare Demo.victim Demo.neighbor .cache
      Demo.slowdown .init).2.baselines.find? ⟨1⟩ =
        some { (Demo.baseline : Baseline ℚ) with freshness := .revalidationRequired } := by
  have hb : (Demo.published : Impl ℚ).baselines.find? ⟨1⟩ = some Demo.baseline := by
    decide +kernel
  have hrun : Run step (fun _ _ => True) ((Demo.published : Impl ℚ).setCoordinatorEpoch ⟨2⟩)
      [.compare Demo.victim Demo.neighbor .cache Demo.slowdown .init] _ := .next .start trivial rfl
  have he : (⟨2⟩ : CoordinatorEpoch) ≠ (Demo.published : Impl ℚ).epoch := by
    decide +kernel
  exact ((epoch_change_requires_revalidation he hrun).1 ⟨1⟩ _ hb (by decide +kernel)
    (by decide +kernel)).1

/-- What republishing a demoted baseline is for: it is current again, and a comparison that
selects it in its window no longer asks for revalidation. -/
def Revalidated (st : Impl F) (id : BaselineId) : Prop :=
  ∃ b, st.lookupBaseline id = some b ∧ b.freshness = .current ∧
    ∀ affected associated domain obs policy,
      (selectBaseline st.baselines.values affected).usable = some b →
      nowOf obs - b.timestampMs ≤ policy.staleAfterMs →
      (st.compare affected associated domain obs policy).1.outcome ≠ .revalidationRequired

theorem publishBaseline_of_stored {b c : Baseline F} (hb : st.baselines.find? c.id = some b) :
    (st.publishBaseline c).2 = st := by
  unfold Impl.publishBaseline
  rw [hb]
  dsimp only
  split_ifs <;> rfl

omit [DoubleOps F] in
theorem demoteBaseline_of_revalidationRequired {b : Baseline F}
    (hf : b.freshness = .revalidationRequired) : Impl.demoteBaseline b = b := by
  by_cases ht : b.type = .historicalIsolated
  · exact if_pos (.inl ht)
  · have hh : b.freshness ≠ .historical := by
      rw [hf]
      decide
    rw [Impl.demoteBaseline_of_dynamic ht hh, ← hf]

theorem compare_of_not_current {affected associated : WorkloadDescriptor}
    {domain : InterferenceDomain} {obs : List (Observation F)} {policy : Policy F}
    {usable : Baseline F} (hp : policy.isValid = true)
    (hsel : (selectBaseline st.baselines.values affected).usable = some usable)
    (hcur : usable.freshness ≠ .current) :
    (st.compare affected associated domain obs policy).1.outcome = .revalidationRequired := by
  have hgate : freshnessGate usable (nowOf obs) policy = (usable.freshness, false) := if_neg hcur
  have hstale : (freshnessGate usable (nowOf obs) policy).2 = false := by rw [hgate]
  rw [Impl.compare_of_stale hp hsel hstale]

/-- Whatever is published under the identity of a baseline that requires revalidation, and
whatever but `load` is called afterwards, the baseline requires revalidation still, and so does
every comparison that selects it. -/
theorem republication_never_revalidates {b c : Baseline F} (hb : st.lookupBaseline c.id = some b)
    (hf : b.freshness = .revalidationRequired)
    (hr : Run step (fun _ _ => True) (st.publishBaseline c).2 hist st') :
    ¬ Revalidated st' c.id ∧ st'.lookupBaseline c.id = some b ∧
    ∀ affected associated domain obs policy, policy.isValid = true →
      (selectBaseline st'.baselines.values affected).usable = some b →
      (st'.compare affected associated domain obs policy).1.outcome = .revalidationRequired := by
  have hne : b.freshness ≠ .current := by
    rw [hf]
    decide
  have hkept : st'.lookupBaseline c.id = some b := by
    rw [publishBaseline_of_stored hb] at hr
    rw [← demoteBaseline_of_revalidationRequired hf] at hb ⊢
    exact run_demoted hr hb
  refine ⟨?_, hkept, ?_⟩
  · rintro ⟨b', hb', hcur, -⟩
    rw [hkept] at hb'
    rw [← Option.some.inj hb'] at hcur
    exact hne hcur
  · intro affected associated domain obs policy hp hsel
    exact compare_of_not_current hp hsel hne

def Demo.demoted : Impl Double := Demo.published.setCoordinatorEpoch ⟨2⟩

theorem republication_never_revalidates_demoted :
    (Demo.demoted.publishBaseline Demo.baseline).1 = .ok ∧
      ¬ Revalidated (Demo.demoted.publishBaseline Demo.baseline).2 ⟨1⟩ := by
  have hb : Demo.demoted.lookupBaseline ⟨1⟩ =
      some { (Demo.baseline : Baseline Double) with freshness := .revalidationRequired } := by
    decide +kernel
  have hok : (Demo.demoted.publishBaseline Demo.baseline).1 = .ok := by decide +kernel
  exact ⟨hok, (republication_never_revalidates (c := Demo.baseline) hb rfl .start).1⟩

theorem republished_baseline_not_current :
    (Demo.demoted.publishBaseline Demo.baseline).1 = .ok ∧
    ((Demo.demoted.publishBaseline Demo.baseline).2.lookupBaseline ⟨1⟩).map (·.freshness) =
      some .revalidationRequired ∧
    ((Demo.demoted.publishBaseline Demo.baseline).2.compare Demo.victim Demo.neighbor .cache
      Demo.slowdown .init).1.outcome = .revalidationRequired := by
  decide +kernel

def Unpublished (st : Impl F) : Op F → Prop
  | .publishBaseline b => (st.publishBaseline b).1 ≠ .ok
  | _ => True

theorem run_origin (hr : Run step Unpublished st hist st') {id : BaselineId} {b : Baseline F}
    (hb : st'.baselines.find? id = some b) :
    ∃ b₀, st.baselines.find? id = some b₀ ∧ (b = b₀ ∨ b = Impl.demoteBaseline b₀) := by
  refine hr.invariant (I := fun s => ∀ b, s.baselines.find? id = some b →
    ∃ b₀, st.baselines.find? id = some b₀ ∧ (b = b₀ ∨ b = Impl.demoteBaseline b₀))
    (fun b hb => ⟨b, hb, .inl rfl⟩) ?_ b hb
  intro s op s' ha hs ih b hb
  have hop : ∀ c, op = .publishBaseline c → (s.publishBaseline c).1 ≠ .ok := by
    rintro c rfl
    exact ha
  obtain ⟨b₁, hb₁, hstep⟩ := (step_effect hs).baseline_origin hop hb
  obtain ⟨b₀, hb₀, rfl | rfl⟩ := ih b₁ hb₁
  · exact ⟨b₁, hb₀, hstep⟩
  · refine ⟨b₀, hb₀, .inr ?_⟩
    rcases hstep with rfl | rfl
    · rfl
    · exact Impl.demoteBaseline_idem b₀

/-- The restart of the coordinator from a state file; it gives up if the file cannot be
loaded. -/
def restart (id : ObservatoryId) (generation : ObservatoryGeneration) (file : Option (List UInt8))
    (epoch : CoordinatorEpoch) : Option (Impl Double) :=
  match (Impl.fresh id generation).load file with
  | (.ok, st) => some (st.setCoordinatorEpoch epoch)
  | _ => none

/-- After a restart, and until a baseline is published, every verdict names a baseline of
the file that is current there and that the epoch change passed over: the epoch was the
one in the file, or the baseline is a historical isolated one. -/
theorem restart_verdict_passed_over {id : ObservatoryId} {generation : ObservatoryGeneration}
    {file : Option (List UInt8)} {epoch : CoordinatorEpoch} {st st' : Impl Double}
    {hist : List (Op Double)} (hstart : restart id generation file epoch = some st)
    (hr : Run step Unpublished st hist st') {affected associated : WorkloadDescriptor}
    {domain : InterferenceDomain} {obs : List (Observation Double)} {policy : Policy Double}
    (hv : (st'.compare affected associated domain obs policy).1.outcome.isVerdict = true) :
    ∃ loaded b, (Impl.fresh id generation).load file = (.ok, loaded) ∧
      loaded.baselines.find? (st'.compare affected associated domain obs policy).1.baselineId =
        some b ∧
      b.freshness = .current ∧ (epoch = loaded.epoch ∨ b.type = .historicalIsolated) := by
  obtain ⟨b, hb, hcur⟩ := verdict_current hv
  obtain ⟨b₀, hb₀, horigin⟩ := run_origin hr hb
  -- a demoted baseline is not current, so the baseline has not changed since the restart
  have heq : b = b₀ := by
    rcases horigin with heq | rfl
    · exact heq
    · exact (Impl.demoteBaseline_current hcur).1
  rw [← heq] at hb₀
  unfold restart at hstart
  split at hstart
  · rename_i loaded hload
    rw [← Option.some.inj hstart] at hb₀
    obtain ⟨hfile, hpassed⟩ := Impl.setCoordinatorEpoch_current hb₀ hcur
    exact ⟨loaded, b, hload, hfile, hcur, hpassed⟩
  · cases hstart

def Demo.historical : Impl Double :=
  ((Impl.fresh ⟨1⟩ ⟨1⟩).publishBaseline { Demo.baseline with type := .historicalIsolated }).2

def Demo.file (st : Impl Double) : Option (List UInt8) :=
  st.saved "state" ⟨true, true, 0, true⟩ (fun _ => none) "state"

def Demo.restarted (st : Impl Double) (epoch : CoordinatorEpoch) : Impl Double :=
  { st with matrix := overlay (replayedCells st) ∅ }.setCoordinatorEpoch epoch

theorem restart_saved {st : Impl Double}
    (hsave : (st.save "state" ⟨true, true, 0, true⟩ fun _ => none).1 = .ok) (hfit : st.Fits)
    (epoch : CoordinatorEpoch) :
    restart ⟨1⟩ ⟨1⟩ (Demo.file st) epoch = some (Demo.restarted st epoch) := by
  rw [restart, Demo.file, Impl.load_saved hsave hfit]
  rfl

theorem restart_verdict_passed_over_historical :
    ∃ st loaded b, restart ⟨1⟩ ⟨1⟩ (Demo.file Demo.historical) ⟨2⟩ = some st ∧
      (Impl.fresh ⟨1⟩ ⟨1⟩).load (Demo.file Demo.historical) = (.ok, loaded) ∧
      loaded.baselines.find?
        (st.compare Demo.victim Demo.neighbor .cache Demo.slowdown .init).1.baselineId = some b ∧
      b.freshness = .current ∧ (⟨2⟩ = loaded.epoch ∨ b.type = .historicalIsolated) := by
  have hsave : (Demo.historical.save "state" ⟨true, true, 0, true⟩ fun _ => none).1 = .ok := by
    decide +kernel
  have hstart := restart_saved hsave (by decide +kernel) ⟨2⟩
  have hv : ((Demo.restarted Demo.historical ⟨2⟩).compare Demo.victim Demo.neighbor .cache
      Demo.slowdown .init).1.outcome.isVerdict = true := by decide +kernel
  obtain ⟨loaded, b, h⟩ := restart_verdict_passed_over hstart .start hv
  exact ⟨_, loaded, b, hstart, h⟩

def SilentRestart (file : Option (List UInt8)) (epoch : CoordinatorEpoch) : Prop :=
  ∀ id generation st hist st', restart id generation file epoch = some st →
    Run step Unpublished st hist st' → ∀ affected associated domain obs policy,
      (st'.compare affected associated domain obs policy).1.outcome.isVerdict = false

theorem restart_not_silent :
    ¬ SilentRestart (Demo.file Demo.published) ⟨1⟩ ∧
      ¬ SilentRestart (Demo.file Demo.historical) ⟨2⟩ := by
  constructor
  · intro h
    have hsave : (Demo.published.save "state" ⟨true, true, 0, true⟩ fun _ => none).1 = .ok := by
      decide +kernel
    have hstart := restart_saved hsave (by decide +kernel) ⟨1⟩
    have hno := h _ _ _ _ _ hstart .start Demo.victim Demo.neighbor .cache Demo.slowdown .init
    exact absurd hno (by decide +kernel)
  · intro h
    have hsave : (Demo.historical.save "state" ⟨true, true, 0, true⟩ fun _ => none).1 = .ok := by
      decide +kernel
    have hstart := restart_saved hsave (by decide +kernel) ⟨2⟩
    have hno := h _ _ _ _ _ hstart .start Demo.victim Demo.neighbor .cache Demo.slowdown .init
    exact absurd hno (by decide +kernel)

end Iobs
