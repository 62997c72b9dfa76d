import InterferenceObservatory.Cluster
import InterferenceObservatory.Ingest

/-! Evidence that comes from the workers. The coordinator stores what each command left in a new
record and does not ask whether the command succeeded. What it has stored is nevertheless the
evidence of the commands that reached a running worker, as if it had been measured and ingested
on the spot. -/

namespace Iobs.Proto
open Exchanges Runs Calls

variable {ι : Type} [DecidableEq ι]

def Result.store : Result → Ingest
  | .baseline _ out => .publishBaseline out
  | .corun _ out => .recordObservation out

def ingest (st : Impl Double) (r : Result) : Impl Double := (Ingest.run st r.store).2

def Result.evidence : Result → Option Ingest
  | .baseline ok out => if ok then some (.publishBaseline out) else none
  | .corun ok out => if ok then some (.recordObservation out) else none

def Action.Fresh : Action → Prop
  | .baseline _ out => out.id.isNil = true
  | .corun _ out => out = .init
  | .exitProcess => True

def measured (ws : ι → Worker) : ι × Action → Option Ingest
  | (i, .baseline b _) =>
    if Arrives (ws i) (baselineCommand b) (encodeBaseline ((ws i).baseline b)) then
      some (.publishBaseline ((ws i).baseline b))
    else none
  | (i, .corun o _) =>
    if Arrives (ws i) (corunCommand o) (encodeObservation ((ws i).observation o)) then
      some (.recordObservation ((ws i).observation o))
    else none
  | (_, .exitProcess) => none

def evidenceOf : (ι → Worker) → List (ι × Action) → List Ingest
  | _, [] => []
  | ws, e :: plan => (measured ws e).toList ++ evidenceOf (after ws e) plan

def Result.Harmless (r : Result) : Prop := r.evidence = none → ∀ st, ingest st r = st

theorem harmless_baseline {ok : Bool} {out : Baseline Double}
    (h : ok = false → out.id.isNil = true) : (Result.baseline ok out).Harmless := by
  intro hnone st
  cases ok with
  | true => cases hnone
  | false =>
    have hcheck : Impl.checkBaseline out = .invalidInput := by
      rw [Impl.checkBaseline, h rfl]
      rfl
    have hpublish : st.publishBaseline out = (.invalidInput, st) := by
      rw [Impl.publishBaseline, hcheck]
      rfl
    change (st.publishBaseline out).2 = st
    rw [hpublish]

theorem harmless_corun {ok : Bool} {out : Observation Double}
    (h : ok = false → out = .init) : (Result.corun ok out).Harmless := by
  intro hnone st
  cases ok with
  | true => cases hnone
  | false =>
    rw [h rfl]
    rfl

theorem store_of_evidence {r : Result} {a : Ingest} (h : r.evidence = some a) : r.store = a := by
  cases r with
  | baseline ok out =>
    cases ok <;> cases h
    rfl
  | corun ok out =>
    cases ok <;> cases h
    rfl

theorem foldl_ingest {rs : List Result} (h : ∀ r ∈ rs, r.Harmless) (st : Impl Double) :
    rs.foldl ingest st = (runAll Ingest.run st (rs.filterMap Result.evidence)).2 := by
  induction rs generalizing st with
  | nil => rfl
  | cons r rs ih =>
    have hrest := ih fun r' hr' => h r' (List.mem_cons_of_mem _ hr')
    rw [List.foldl_cons, hrest]
    rcases hr : r.evidence with _ | a
    · rw [h r (List.mem_cons_self ..) hr, List.filterMap_cons_none hr]
    · rw [List.filterMap_cons_some hr, ← store_of_evidence hr]
      rfl

theorem serially_cons {l : Link} (hl : l.Reliable) (ws : ι → Worker) {e : ι × Action}
    (hfresh : e.2.Fresh) (plan : List (ι × Action)) :
    ∃ r : List Result, (serially l (drained ws) (e :: plan)).1 =
        r ++ (serially l (drained (after ws e)) plan).1 ∧
      r.filterMap Result.evidence = (measured ws e).toList ∧ ∀ x ∈ r, x.Harmless := by
  obtain ⟨i, a⟩ := e
  cases a with
  | baseline b out =>
    refine ⟨_, congrArg Prod.fst ((agrees_baseline hl ws i b out).serially plan), ?_, ?_⟩
    · rw [measured]
      split_ifs
      · rfl
      · rfl
    · intro x hx
      rw [List.mem_singleton.mp hx]
      refine harmless_baseline fun hok => ?_
      split_ifs at hok ⊢
      exact hfresh
  | corun o out =>
    obtain rfl : out = .init := hfresh
    refine ⟨_, congrArg Prod.fst ((agrees_corun hl ws i o .init).serially plan), ?_, ?_⟩
    · rw [measured]
      split_ifs
      · rfl
      · rfl
    · intro x hx
      rw [List.mem_singleton.mp hx]
      refine harmless_corun fun hok => ?_
      split_ifs at hok ⊢
      rfl
  | exitProcess =>
    refine ⟨[], congrArg Prod.fst ((agrees_exitProcess hl ws i).serially plan), rfl, ?_⟩
    exact fun _ hx => (by cases hx)

theorem serially_evidence {l : Link} (hl : l.Reliable) (ws : ι → Worker)
    {plan : List (ι × Action)} (hfresh : ∀ e ∈ plan, e.2.Fresh) :
    (serially l (drained ws) plan).1.filterMap Result.evidence = evidenceOf ws plan ∧
      ∀ r ∈ (serially l (drained ws) plan).1, r.Harmless := by
  induction plan generalizing ws with
  | nil => exact ⟨rfl, fun _ hr => (by cases hr)⟩
  | cons e plan ih =>
    obtain ⟨r, hserially, hevidence, hharmless⟩ :=
      serially_cons hl ws (hfresh e (List.mem_cons_self ..)) plan
    obtain ⟨hrest, hrestHarmless⟩ := ih (after ws e) fun e' he' =>
      hfresh e' (List.mem_cons_of_mem _ he')
    rw [hserially]
    refine ⟨?_, ?_⟩
    · rw [List.filterMap_append, hevidence, hrest]
      rfl
    · intro x hx
      rcases List.mem_append.mp hx with hx | hx
      · exact hharmless x hx
      · exact hrestHarmless x hx

section Schedules

variable {ws : ι → Worker} {plan : List (ι × Action)} {moves : List (Move ι)}
  {c : Config ι Worker Frame Frame}

/-- However the processes run, what the coordinator has stored at any time is what the first part
of the evidence of the plan amounts to when it is ingested on the spot. When the plan has been
worked off, it is all of the evidence, and if that is consistent, the results may also be stored
in another order. -/
theorem distributed_ingest (h : Schedule loop (cluster ws plan) moves c)
    (hfresh : ∀ e ∈ plan, e.2.Fresh) (st : Impl Double) :
    (∃ done, done <+: evidenceOf ws plan ∧
      (results plan c.log).foldl ingest st = (runAll Ingest.run st done).2) ∧
    (Quiet loop c → c.client = .ready →
      (results plan c.log).foldl ingest st = (runAll Ingest.run st (evidenceOf ws plan)).2 ∧
      (Ingest.Consistent (evidenceOf ws plan) →
        ∀ rs : List Result, rs.Perm (results plan c.log) →
        rs.foldl ingest st = (runAll Ingest.run st (evidenceOf ws plan)).2)) := by
  obtain ⟨l, hl⟩ : ∃ l : Link, l.Reliable :=
    ⟨Demo.link, fun _ h => (by cases h), fun _ h => (by cases h)⟩
  obtain ⟨hevidence, hharmless⟩ := serially_evidence hl ws hfresh
  have hfirst := results_prefix h hl
  have hresults : ∀ r ∈ results plan c.log, r.Harmless := fun r hr =>
    hharmless r (hfirst.subset hr)
  refine ⟨⟨(results plan c.log).filterMap Result.evidence, ?_, foldl_ingest hresults st⟩, ?_⟩
  · rw [← hevidence]
    exact hfirst.filterMap _
  · intro hq hready
    obtain ⟨-, -, hexec⟩ : _ ∧ _ ∧ exec (serialStep loop) (ws, []) _ = _ := by
      rcases (Schedule.refines (unanswered_plan plan) h).quiet hq with
        hdone | ⟨⟨i, hwait⟩, -⟩ | ⟨hkilled, -⟩
      · exact hdone
      · exact absurd (hready.symm.trans hwait) nofun
      · exact absurd (hready.symm.trans hkilled) nofun
    have hall : (results plan c.log).filterMap Result.evidence = evidenceOf ws plan := by
      rw [(results_whole hl hexec).1, hevidence]
    refine ⟨?_, fun hconsistent rs hperm => ?_⟩
    · rw [foldl_ingest hresults, hall]
    · have hrs : ∀ r ∈ rs, r.Harmless := fun r hr => hresults r (hperm.subset hr)
      have hpermuted : (rs.filterMap Result.evidence).Perm (evidenceOf ws plan) := by
        rw [← hall]
        exact hperm.filterMap _
      rw [foldl_ingest hrs]
      exact hconsistent.harmonious.runAll_perm hpermuted st

end Schedules

namespace Demo

def got : Baseline Double := { Iobs.Demo.baseline with id := ⟨0⟩ }

def renewed : List (Bool × Action) :=
  [(true, .baseline Iobs.Demo.baseline got), (true, .exitProcess),
    (false, .corun (Iobs.Demo.observation 150.0) .init)]

theorem renewed_fresh : ∀ e ∈ renewed, e.2.Fresh := by
  intro e he
  simp only [renewed, List.mem_cons, List.not_mem_nil, or_false] at he
  rcases he with rfl | rfl | rfl
  · exact rfl
  · exact trivial
  · exact rfl

theorem renewed_consistent : Ingest.Consistent (evidenceOf workers renewed) := by
  have hevidence : evidenceOf workers renewed =
      [.publishBaseline ((workers true).baseline Iobs.Demo.baseline),
        .recordObservation ((workers false).observation (Iobs.Demo.observation 150.0))] := by
    have hbaseline : Arrives (workers true) (baselineCommand Iobs.Demo.baseline)
        (encodeBaseline ((workers true).baseline Iobs.Demo.baseline)) := by decide +kernel
    have hcorun : Arrives (workers false) (corunCommand (Iobs.Demo.observation 150.0))
        (encodeObservation ((workers false).observation (Iobs.Demo.observation 150.0))) := by
      decide +kernel
    have hafter : after workers (true, .exitProcess) false = workers false := rfl
    simp only [evidenceOf, renewed, measured]
    rw [if_pos hbaseline, show after workers (true, .baseline _ _) = workers from rfl, hafter,
      if_pos hcorun]
    rfl
  intro a ha b hb hkey
  rw [hevidence] at ha hb
  simp only [List.mem_cons, List.not_mem_nil, or_false] at ha hb
  rcases ha with rfl | rfl <;> rcases hb with rfl | rfl
  · rfl
  · cases hkey
  · cases hkey
  · rfl

end Demo

theorem distributed_ingest_demo :
    ∃ c, Schedule loop (cluster Demo.workers Demo.renewed) Demo.order c ∧ Quiet loop c ∧
      c.client = .ready ∧
      (results Demo.renewed c.log).reverse.foldl ingest (Impl.fresh ⟨1⟩ ⟨1⟩) =
        (runAll Ingest.run (Impl.fresh ⟨1⟩ ⟨1⟩) (evidenceOf Demo.workers Demo.renewed)).2 := by
  have hfacts : (exec (Exchanges.step loop) (cluster Demo.workers Demo.renewed) Demo.order).map
      (fun c => (c.script.isEmpty, decide (c.client = .ready), (c.servers true).inbox.isEmpty,
        (c.servers false).inbox.isEmpty)) = some (true, true, true, true) := by decide +kernel
  obtain ⟨c, hc, hend⟩ := Option.map_eq_some_iff.mp hfacts
  obtain ⟨hscript, hready, htrue, hfalse⟩ : c.script = [] ∧ c.client = .ready ∧
      (c.servers true).inbox = [] ∧ (c.servers false).inbox = [] := by
    simpa only [Prod.mk.injEq, List.isEmpty_iff, decide_eq_true_eq] using hend
  have hrun : Schedule loop (cluster Demo.workers Demo.renewed) Demo.order c :=
    Run.of_exec (fun _ _ => trivial) hc
  have hquiet : Quiet loop c := quiet_of_idle hscript hready (Bool.forall_bool.mpr ⟨hfalse, htrue⟩)
  obtain ⟨-, hall⟩ := distributed_ingest hrun Demo.renewed_fresh (Impl.fresh ⟨1⟩ ⟨1⟩)
  exact ⟨c, hrun, hquiet, hready,
    (hall hquiet hready).2 Demo.renewed_consistent _ (List.reverse_perm _)⟩

end Iobs.Proto
