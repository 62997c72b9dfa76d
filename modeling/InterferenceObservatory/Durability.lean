import InterferenceObservatory.History
import InterferenceObservatory.Revalidation
import InterferenceObservatory.Saving

/-! A coordinator over its whole life: it works, it saves its state, it may end at any point,
also in the middle of a save, and it is started again from the file. The evidence that a save has
written once, and the identities of its episodes and comparisons, are there in every state that
follows. -/

namespace Iobs
open Runs Std

structure Deployment where
  memory : Option (Impl Double)
  files : Files

inductive Incident where
  | operate (op : Op Double)
  /-- A call of `save` up to its return. -/
  | save (events : List SaveEvent)
  /-- The process ends, after a part of a call of `save` or outside of one. -/
  | crash (events : List SaveEvent)
  /-- `--restart-from` the state file; the coordinator gives up if it cannot be loaded. -/
  | restart (id : ObservatoryId) (generation : ObservatoryGeneration) (epoch : CoordinatorEpoch)

namespace Deployment

def step (path : String) (d : Deployment) : Incident → Option Deployment
  | .operate op =>
    match d.memory with
    | none => none
    | some st => (Iobs.step st op).map fun st' => ⟨some st', d.files⟩
  | .save events =>
    match d.memory with
    | none => none
    | some st =>
      match exec (st.saveStep path) (.serializing, d.files) events with
      | some (.returned _, files) => some ⟨some st, files⟩
      | _ => none
  | .crash events =>
    match d.memory with
    | none => none
    | some st =>
      (exec (st.saveStep path) (.serializing, d.files) events).map fun c => ⟨none, c.2⟩
  | .restart id generation epoch =>
    match d.memory with
    | none => some ⟨Iobs.restart id generation (d.files path) epoch, d.files⟩
    | some _ => none

def Bounded (d : Deployment) : Incident → Prop
  | .save _ => ∀ st ∈ d.memory, st.Fits
  | .crash _ => ∀ st ∈ d.memory, st.Fits
  | _ => True

variable {path : String} {d d' : Deployment} {e : Incident}

inductive Happens (path : String) (d : Deployment) : Incident → Deployment → Prop
  | operate {op st st'} : d.memory = some st → Iobs.step st op = some st' →
      Happens path d (.operate op) ⟨some st', d.files⟩
  | save {events st status files} : d.memory = some st →
      st.SaveRun path d.files events (.returned status, files) →
      Happens path d (.save events) ⟨some st, files⟩
  | crash {events st point files} : d.memory = some st →
      st.SaveRun path d.files events (point, files) →
      Happens path d (.crash events) ⟨none, files⟩
  | restart {id generation epoch} : d.memory = none →
      Happens path d (.restart id generation epoch)
        ⟨Iobs.restart id generation (d.files path) epoch, d.files⟩

theorem step_happens (h : d.step path e = some d') : Happens path d e d' := by
  have hrun {st : Impl Double} {events : List SaveEvent} {c : SavePoint × Files}
      (hexec : exec (st.saveStep path) (.serializing, d.files) events = some c) :
      st.SaveRun path d.files events c := Run.of_exec (fun _ _ => trivial) hexec
  rcases hmem : d.memory with _ | st
  · cases e with
    | restart id generation epoch =>
      simp only [step, hmem, Option.some.injEq] at h
      subst h
      exact .restart hmem
    | _ =>
      simp only [step, hmem] at h
      cases h
  · cases e with
    | operate op =>
      simp only [step, hmem, Option.map_eq_some_iff] at h
      obtain ⟨st', hstep, rfl⟩ := h
      exact .operate hmem hstep
    | save events =>
      simp only [step, hmem] at h
      split at h
      · obtain rfl := Option.some.inj h
        exact .save hmem (hrun ‹_›)
      · cases h
    | crash events =>
      simp only [step, hmem, Option.map_eq_some_iff] at h
      obtain ⟨⟨point, files⟩, hexec, rfl⟩ := h
      exact .crash hmem (hrun hexec)
    | restart id generation epoch =>
      simp only [step, hmem] at h
      cases h

def Keeps (path : String) (st : Impl Double) (d : Deployment) : Prop :=
  ∃ saved : Impl Double, saved.Fits ∧ saved.Complete (d.files path) ∧ st.KeptIn saved ∧
    ∀ mem ∈ d.memory, saved.KeptIn mem

end Deployment

theorem Impl.SaveRun.file {st : Impl Double} {path : String} {fs fs' : Files}
    {events : List SaveEvent} {point : SavePoint} (h : st.SaveRun path fs events (point, fs')) :
    fs' path = fs path ∨ st.Complete (fs' path) := by
  have hholds := h.holds
  cases point with
  | returned status =>
    simp only [SaveHolds] at hholds
    split_ifs at hholds
    · exact .inr hholds
    · exact .inl hholds
  | serializing => exact .inl hholds
  | cleaning => exact .inl hholds
  | _ => exact .inl hholds.1

theorem setCoordinatorEpoch_keptIn (st : Impl Double) (epoch : CoordinatorEpoch) :
    st.KeptIn (st.setCoordinatorEpoch epoch) :=
  have heffect : Effect st (.setCoordinatorEpoch epoch) (st.setCoordinatorEpoch epoch) :=
    step_effect rfl
  heffect.keptIn

theorem restart_complete {st : Impl Double} {file : Option (List UInt8)} (hfit : st.Fits)
    (h : st.Complete file) (id : ObservatoryId) (generation : ObservatoryGeneration)
    (epoch : CoordinatorEpoch) : restart id generation file epoch =
      some ({ st with matrix := overlay (replayedCells st) ∅ }.setCoordinatorEpoch epoch) := by
  obtain ⟨encoded, henc, rfl⟩ := h
  rw [restart, Impl.load_encoded hfit henc]
  rfl

theorem keptIn_matrix (st : Impl Double) (m : ExtTreeMap CellKey (PairwiseInterference Double)) :
    st.KeptIn { st with matrix := m } :=
  have h := Impl.KeptIn.refl st
  ⟨h.observations, h.baselines, h.recoveries, h.episodes, h.comparisons⟩

namespace Deployment

variable {path : String} {d d' : Deployment} {e : Incident} {st : Impl Double}

theorem Keeps.saving {mem : Impl Double} {files : Files} {events : List SaveEvent}
    {point : SavePoint} (h : d.Keeps path st) (hmem : d.memory = some mem) (hfit : mem.Fits)
    (hr : mem.SaveRun path d.files events (point, files)) :
    Keeps path st ⟨some mem, files⟩ := by
  obtain ⟨saved, hfits, hcomplete, hkept, hup⟩ := h
  have hmemory : saved.KeptIn mem := hup mem hmem
  rcases hr.file with hold | hnew
  · refine ⟨saved, hfits, ?_, hkept, ?_⟩
    · change saved.Complete (files path)
      rw [hold]
      exact hcomplete
    · rintro _ ⟨⟩
      exact hmemory
  · refine ⟨mem, hfit, hnew, hkept.trans hmemory, ?_⟩
    rintro _ ⟨⟩
    exact .refl mem

theorem Keeps.happens (h : d.Keeps path st) (hb : d.Bounded e) (hh : Happens path d e d') :
    d'.Keeps path st := by
  cases hh with
  | @operate op mem mem' hmem hstep =>
    obtain ⟨saved, hfits, hcomplete, hkept, hup⟩ := h
    refine ⟨saved, hfits, hcomplete, hkept, ?_⟩
    rintro _ ⟨⟩
    exact (hup mem hmem).trans (step_effect hstep).keptIn
  | @save events mem status files hmem hr => exact h.saving hmem (hb mem hmem) hr
  | @crash events mem point files hmem hr =>
    obtain ⟨saved, hfits, hcomplete, hkept, -⟩ := h.saving hmem (hb mem hmem) hr
    refine ⟨saved, hfits, hcomplete, hkept, ?_⟩
    rintro _ ⟨⟩
  | @restart id generation epoch hdown =>
    obtain ⟨saved, hfits, hcomplete, hkept, -⟩ := h
    refine ⟨saved, hfits, hcomplete, hkept, ?_⟩
    dsimp only
    rw [restart_complete hfits hcomplete]
    rintro _ ⟨⟩
    exact (keptIn_matrix saved _).trans (setCoordinatorEpoch_keptIn _ epoch)

/-- Once the file is a complete envelope of the state `st`, whatever happens then: as long as only
states within the bounds of the reader are saved, `st` is kept in the state whose complete
envelope the file is, in the one a restart from it leads to, which succeeds, and in the one a
running coordinator holds. -/
theorem saved_never_lost {hist : List Incident} (hmem : d.memory = some st)
    (hfile : st.Complete (d.files path)) (hfit : st.Fits)
    (hr : Run (step path) Bounded d hist d') :
    (∃ saved : Impl Double, saved.Complete (d'.files path) ∧ st.KeptIn saved) ∧
    (∀ id generation epoch,
      ∃ mem, Iobs.restart id generation (d'.files path) epoch = some mem ∧ st.KeptIn mem) ∧
    ∀ mem, d'.memory = some mem → st.KeptIn mem := by
  have hstart : d.Keeps path st := by
    refine ⟨st, hfit, hfile, .refl st, ?_⟩
    rw [hmem]
    rintro _ ⟨⟩
    exact .refl st
  obtain ⟨saved, hfits, hcomplete, hkept, hup⟩ := hr.invariant (I := Keeps path st) hstart
    fun d e d' hb hs h => h.happens hb (step_happens hs)
  refine ⟨⟨saved, hcomplete, hkept⟩, ?_, fun mem hmem => hkept.trans (hup mem hmem)⟩
  intro id generation epoch
  refine ⟨_, restart_complete hfits hcomplete id generation epoch, ?_⟩
  exact hkept.trans ((keptIn_matrix saved _).trans (setCoordinatorEpoch_keptIn _ epoch))

end Deployment

namespace Demo

def afterSave (st : Impl Double) : Deployment :=
  ⟨some st, st.saved "state" ⟨true, true, 0, true⟩ fun _ => none⟩

theorem afterSave_complete {st : Impl Double}
    (h : (st.save "state" ⟨true, true, 0, true⟩ fun _ => none).1 = .ok) :
    st.Complete ((afterSave st).files "state") := Impl.saved_ok h

def incidents : List Incident :=
  [.operate (.recordRecovery ⟨1⟩ ⟨2⟩ .cache), .crash [.succeeds, .succeeds, .arrives 7],
    .restart ⟨1⟩ ⟨1⟩ ⟨2⟩]

end Demo

theorem saved_never_lost_crashed :
    ∃ d', Run (Deployment.step "state") Deployment.Bounded (Demo.afterSave Demo.compared)
        Demo.incidents d' ∧
      ∀ mem, d'.memory = some mem → (Demo.compared : Impl Double).KeptIn mem := by
  have hok : ((Demo.compared : Impl Double).save "state" ⟨true, true, 0, true⟩ fun _ => none).1 =
      .ok := by decide +kernel
  have hfit : (Demo.compared : Impl Double).Fits := by decide +kernel
  have hrecovered : ((Demo.compared : Impl Double).recordRecovery ⟨1⟩ ⟨2⟩ .cache).2.Fits := by
    decide +kernel
  have hsome : (exec (Deployment.step "state") (Demo.afterSave Demo.compared)
      Demo.incidents).isSome = true := by decide +kernel
  obtain ⟨d', hexec⟩ := Option.isSome_iff_exists.mp hsome
  simp only [Demo.incidents, exec] at hexec
  obtain ⟨d₁, hd₁, hexec⟩ := Option.bind_eq_some_iff.mp hexec
  obtain ⟨d₂, hd₂, hexec⟩ := Option.bind_eq_some_iff.mp hexec
  obtain ⟨d₃, hd₃, -⟩ := Option.bind_eq_some_iff.mp hexec
  have hbounded : d₁.Bounded (.crash [.succeeds, .succeeds, .arrives 7]) := by
    have hd : d₁.memory = some (Demo.compared.recordRecovery ⟨1⟩ ⟨2⟩ .cache).2 :=
      congrArg Deployment.memory (Option.some.inj hd₁).symm
    intro st hst
    have hmem : some st = some _ := (Option.mem_def.mp hst).symm.trans hd
    rw [Option.some.inj hmem]
    exact hrecovered
  have hstart : (Demo.afterSave Demo.compared).memory = some Demo.compared := rfl
  have hrun : Run (Deployment.step "state") Deployment.Bounded (Demo.afterSave Demo.compared)
      Demo.incidents d₃ := .next (.next (.next .start trivial hd₁) hbounded hd₂) trivial hd₃
  have hfile := Demo.afterSave_complete hok
  exact ⟨d₃, hrun, (Deployment.saved_never_lost hstart hfile hfit hrun).2.2⟩

section Cycles

variable {id : ObservatoryId} {generation : ObservatoryGeneration}

def cycle (id : ObservatoryId) (generation : ObservatoryGeneration) (st : Impl Double)
    (epoch : CoordinatorEpoch) : Option (Impl Double) :=
  match Persist.encode (serializeState st) with
  | .ok encoded => restart id generation (some encoded) epoch
  | .error _ => none

def Impl.replayed (st : Impl Double) : Impl Double :=
  { st with matrix := overlay (replayedCells st) ∅ }

theorem cycle_eq {st st' : Impl Double} {epoch : CoordinatorEpoch}
    (h : cycle id generation st epoch = some st') :
    st' = st.replayed.setCoordinatorEpoch epoch := by
  unfold cycle at h
  rcases henc : Persist.encode (serializeState st) with e | encoded
  · rw [henc] at h
    cases h
  · rw [henc] at h
    dsimp only at h
    -- the file was loaded, so the state is within the bounds of the reader
    have hok : ((Impl.fresh id generation).load (some encoded)).1 = .ok := by
      unfold restart at h
      split at h
      · rename_i loaded hload
        rw [hload]
      · cases h
    have hfit := (Impl.load_encoded_status henc _).mp hok
    rw [restart_complete hfit ⟨encoded, henc, rfl⟩] at h
    exact (Option.some.inj h).symm

theorem cycle_some {st : Impl Double} (hfit : st.Fits)
    (hlen : (serializeState st).length ≤ Persist.kMaxPayload) (epoch : CoordinatorEpoch) :
    cycle id generation st epoch = some (st.replayed.setCoordinatorEpoch epoch) := by
  unfold cycle
  rw [Persist.encode_ok hlen]
  exact restart_complete hfit ⟨_, Persist.encode_ok hlen, rfl⟩ id generation epoch

theorem replayed_replayed (st : Impl Double) (epoch : CoordinatorEpoch) :
    (st.replayed.setCoordinatorEpoch epoch).replayed = st.replayed.setCoordinatorEpoch epoch := by
  rw [Impl.setCoordinatorEpoch_eq]
  split_ifs
  · rfl
  · rfl

/-- Any number of restarts is one: the matrix is replayed from the comparisons, and if one of the
restarts brought a new epoch, everything dynamic is demoted, and the last epoch holds. -/
theorem restarts_eq_one {st st' : Impl Double} {epochs : List CoordinatorEpoch}
    {epoch : CoordinatorEpoch}
    (h : exec (cycle id generation) st (epochs ++ [epoch]) = some st') :
    st' = if ∀ e ∈ epochs ++ [epoch], e = st.epoch then st.replayed
      else st.replayed.advanced epoch := by
  induction epochs generalizing st with
  | nil =>
    obtain ⟨st₁, h₁, hrest⟩ := Option.bind_eq_some_iff.mp h
    obtain rfl := Option.some.inj hrest
    rw [cycle_eq h₁, Impl.setCoordinatorEpoch_eq]
    simp only [List.nil_append, List.mem_singleton, forall_eq]
    rfl
  | cons e epochs ih =>
    obtain ⟨st₁, h₁, hrest⟩ := Option.bind_eq_some_iff.mp h
    have hst₁ := cycle_eq h₁
    have hreplayed : st₁.replayed = st₁ := by
      rw [hst₁]
      exact replayed_replayed st e
    rw [ih hrest, hreplayed, hst₁, Impl.setCoordinatorEpoch_eq]
    simp only [List.cons_append, List.forall_mem_cons]
    by_cases he : e = st.epoch
    · have he' : e = st.replayed.epoch := he
      rw [if_pos he']
      simp only [he, true_and]
      rfl
    · have he' : ¬ e = st.replayed.epoch := he
      rw [if_neg he', if_neg (fun hall : e = st.epoch ∧ _ => he hall.1),
        Impl.advanced_advanced]
      split_ifs with hall
      · have hlast : epoch = e := hall epoch (by simp)
        rw [hlast]
      · rfl

end Cycles

theorem restarts_eq_one_compared :
    ∃ st', exec (cycle ⟨1⟩ ⟨1⟩) Demo.compared ([⟨1⟩] ++ [⟨2⟩]) = some st' ∧
      st' = (Demo.compared : Impl Double).replayed.advanced ⟨2⟩ := by
  let first : Impl Double := (Demo.compared : Impl Double).replayed.setCoordinatorEpoch ⟨1⟩
  have hfirst : cycle ⟨1⟩ ⟨1⟩ Demo.compared ⟨1⟩ = some first :=
    cycle_some (by decide +kernel) (by decide +kernel) ⟨1⟩
  have hsecond : cycle ⟨1⟩ ⟨1⟩ first ⟨2⟩ = some (first.replayed.setCoordinatorEpoch ⟨2⟩) :=
    cycle_some (by decide +kernel) (by decide +kernel) ⟨2⟩
  have hrun : Run (cycle ⟨1⟩ ⟨1⟩) (fun _ _ => True) Demo.compared ([⟨1⟩] ++ [⟨2⟩])
      (first.replayed.setCoordinatorEpoch ⟨2⟩) :=
    .next (.next .start trivial hfirst) trivial hsecond
  refine ⟨_, hrun.exec_eq, (restarts_eq_one hrun.exec_eq).trans (if_neg ?_)⟩
  decide +kernel

end Iobs
