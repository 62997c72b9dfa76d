import InterferenceObservatory.Commands
import InterferenceObservatory.Lib.Exchange

/-! The coordinator and its workers as processes that run at their own pace. The coordinator
works through a plan of commands, one connection each, and blocks on the answer to every
measurement; the workers serve the frames in their sockets whenever they come to it. The
results are those of the commands made one after the other, as far as a send to a worker that is
gone does not kill the coordinator. -/

namespace Iobs.Proto
open Exchanges Runs

variable {ι : Type} [DecidableEq ι]

/-- The command loop as a server: an answer that is too large for a frame is not sent. -/
def loop : Protocol Worker Frame Frame where
  serve w f := ((w.handle f).1, (w.handle f).2.filter fun g => g.payload.length ≤ kMaxFrame)
  alive w := w.running

def sending (i : ι) (f : Frame) : Task ι Frame :=
  if f.payload.length > kMaxFrame then .skip else .call i f

def Action.task (i : ι) : Action → Task ι Frame
  | .baseline b _ => sending i ⟨.measureBaseline, baselineCommand b⟩
  | .corun o _ => sending i ⟨.measureCorun, corunCommand o⟩
  -- the coordinator does not wait for a worker that it tells to exit
  | .exitProcess => .post i ⟨.exitProcess, []⟩

inductive Result where
  | baseline (ok : Bool) (out : Baseline Double)
  | corun (ok : Bool) (out : Observation Double)

def answerOf {α : Type} (answer : MsgType) (decode : List UInt8 → α → Bool × α) (out : α) :
    Option Frame → Bool × α
  | none => (false, out)
  | some f => if f.type ≠ answer then (false, out) else decode f.payload out

def results : List (ι × Action) → List (Option Frame) → List Result
  | [], _ => []
  | (_, .exitProcess) :: plan, log => results plan log
  | _ :: _, [] => []
  | (_, .baseline _ out) :: plan, r :: log =>
    let a := answerOf .publishBaseline decodeBaseline out r
    .baseline a.1 a.2 :: results plan log
  | (_, .corun _ out) :: plan, r :: log =>
    let a := answerOf .publishObservation decodeObservation out r
    .corun a.1 a.2 :: results plan log

def cluster (ws : ι → Worker) (plan : List (ι × Action)) : Config ι Worker Frame Frame :=
  start ws (plan.map fun e => e.2.task e.1)

def serially (l : Link) : (ι → Connection) → List (ι × Action) → List Result × (ι → Connection)
  | cs, [] => ([], cs)
  | cs, (i, .baseline b out) :: plan =>
    let r := cmdBaseline (cs i) l b out
    let rest := serially l (Function.update cs i r.2.2) plan
    (.baseline r.1 r.2.1 :: rest.1, rest.2)
  | cs, (i, .corun o out) :: plan =>
    let r := cmdCorun (cs i) l o out
    let rest := serially l (Function.update cs i r.2.2) plan
    (.corun r.1 r.2.1 :: rest.1, rest.2)
  | cs, (i, .exitProcess) :: plan =>
    serially l (Function.update cs i ((cs i).request l .exitProcess []).2) plan

def drained (ws : ι → Worker) (i : ι) : Connection := ⟨ws i, []⟩

theorem update_drained (ws : ι → Worker) (i : ι) (w : Worker) :
    Function.update (drained ws) i ⟨w, []⟩ = drained (Function.update ws i w) := by
  funext j
  by_cases hj : j = i
  · subst hj
    rw [Function.update_self, drained, Function.update_self]
  · rw [Function.update_of_ne hj, drained, drained, Function.update_of_ne hj]

section Ask

variable {w : Worker} {type answer : MsgType} {payload reply : List UInt8}

theorem ask_measure (h : w.handle ⟨type, payload⟩ = (w, some ⟨answer, reply⟩)) :
    loop.ask w ⟨type, payload⟩ =
      (w, if w.running = true ∧ reply.length ≤ kMaxFrame then some ⟨answer, reply⟩ else none) := by
  unfold Protocol.ask loop
  dsimp only
  rw [h]
  by_cases hw : w.running = true
  · by_cases hr : reply.length ≤ kMaxFrame
    · simp [hw, hr, Option.filter]
    · simp [hw, hr, Option.filter]
  · simp [hw]

theorem ask_exitProcess (w : Worker) :
    loop.ask w ⟨.exitProcess, []⟩ = ({ w with running := false }, none) := by
  unfold Protocol.ask loop
  dsimp only
  by_cases hw : w.running = true
  · rw [if_pos hw]
    rfl
  · rw [if_neg hw]
    rw [Bool.not_eq_true] at hw
    rw [← hw]

theorem handle_baselineCommand {b : Baseline Double} (h : (baselineCommand b).length ≤ kMaxFrame) :
    w.handle ⟨.measureBaseline, baselineCommand b⟩ =
      (w, some ⟨.publishBaseline, encodeBaseline (w.baseline b)⟩) := by
  rw [Worker.handle]
  dsimp only
  rw [readCommand_baseline h]
  rfl

theorem handle_corunCommand {o : Observation Double} (h : (corunCommand o).length ≤ kMaxFrame) :
    w.handle ⟨.measureCorun, corunCommand o⟩ =
      (w, some ⟨.publishObservation, encodeObservation (w.observation o)⟩) := by
  rw [Worker.handle]
  dsimp only
  rw [readCommand_corun h]
  rfl

end Ask

section Serial

variable {ws ws' : ι → Worker} {log log' : List (Option Frame)} {i : ι} {type answer : MsgType}
  {payload reply : List UInt8}

def Arrives (w : Worker) (payload reply : List UInt8) : Prop :=
  w.running = true ∧ payload.length ≤ kMaxFrame ∧ reply.length ≤ kMaxFrame

instance (w : Worker) (payload reply : List UInt8) : Decidable (Arrives w payload reply) :=
  inferInstanceAs (Decidable (_ ∧ _ ∧ _))

def Overflows (w : Worker) (payload reply : List UInt8) : Prop :=
  w.running = true ∧ payload.length ≤ kMaxFrame ∧ kMaxFrame < reply.length

instance (w : Worker) (payload reply : List UInt8) : Decidable (Overflows w payload reply) :=
  inferInstanceAs (Decidable (_ ∧ _ ∧ _))

theorem serialStep_sending (h : payload.length ≤ kMaxFrame →
      (ws i).handle ⟨type, payload⟩ = (ws i, some ⟨answer, reply⟩)) :
    serialStep loop (ws, log) (sending i ⟨type, payload⟩) =
      if Overflows (ws i) payload reply then none
      else some (ws,
        log ++ [if Arrives (ws i) payload reply then some ⟨answer, reply⟩ else none]) := by
  unfold sending Overflows Arrives
  by_cases hp : payload.length ≤ kMaxFrame
  · rw [if_neg (Nat.not_lt.mpr hp), serialStep, ask_measure (h hp), Function.update_eq_self]
    by_cases hw : (ws i).running = true
    · by_cases hr : reply.length ≤ kMaxFrame
      · simp [hw, hp, hr, Nat.not_lt.mpr hr]
      · simp [hw, hp, hr, Nat.lt_of_not_le hr, loop]
    · simp [hw, loop]
  · rw [if_pos (Nat.lt_of_not_le hp), serialStep]
    simp [hp]

theorem answerOf_arrives {α : Type} {decode : List UInt8 → α → Bool × α} {out a : α} {w : Worker}
    (hdecode : reply.length ≤ kMaxFrame → decode reply out = (true, a)) :
    answerOf answer decode out (if Arrives w payload reply then some ⟨answer, reply⟩ else none) =
      if Arrives w payload reply then (true, a) else (false, out) := by
  by_cases h : Arrives w payload reply
  · rw [if_pos h, if_pos h, answerOf, if_neg (not_not.mpr rfl), hdecode h.2.2]
  · rw [if_neg h, if_neg h, answerOf]

structure Agrees (l : Link) (ws : ι → Worker) (e : ι × Action) (ws' : ι → Worker)
    (new : List (Option Frame)) (r : List Result) : Prop where
  results : ∀ plan extra, results (e :: plan) (new ++ extra) = r ++ results plan extra
  serially : ∀ plan, serially l (drained ws) (e :: plan) =
    (r ++ (serially l (drained ws') plan).1, (serially l (drained ws') plan).2)

theorem update_drained_self (ws : ι → Worker) (i : ι) :
    Function.update (drained ws) i ⟨ws i, []⟩ = drained ws := Function.update_eq_self i (drained ws)

theorem agrees_baseline {l : Link} (hl : l.Reliable) (ws : ι → Worker) (i : ι)
    (b out : Baseline Double) :
    let w := ws i
    let reply := encodeBaseline (w.baseline b)
    let r := if Arrives w (baselineCommand b) reply then (true, w.baseline b) else (false, out)
    Agrees l ws (i, .baseline b out) ws
      [if Arrives w (baselineCommand b) reply then some ⟨.publishBaseline, reply⟩ else none]
      [.baseline r.1 r.2] := by
  intro w reply r
  refine ⟨fun plan extra => ?_, fun plan => ?_⟩
  · rw [List.singleton_append, results, answerOf_arrives fun hr => decodeBaseline_encode hr out]
    rfl
  · have hcmd : cmdBaseline (drained ws i) l b out = (r.1, r.2, ⟨w, []⟩) := by
      rw [drained, cmdBaseline_drained (ws i) hl]
      by_cases h : Arrives w (baselineCommand b) reply
      · simp only [r, if_pos h]
        exact if_pos h
      · simp only [r, if_neg h]
        exact if_neg h
    rw [Proto.serially, hcmd]
    dsimp only
    rw [update_drained_self]
    rfl

theorem agrees_corun {l : Link} (hl : l.Reliable) (ws : ι → Worker) (i : ι)
    (o out : Observation Double) :
    let w := ws i
    let reply := encodeObservation (w.observation o)
    let r := if Arrives w (corunCommand o) reply then (true, writtenOver out (w.observation o))
      else (false, out)
    Agrees l ws (i, .corun o out) ws
      [if Arrives w (corunCommand o) reply then some ⟨.publishObservation, reply⟩ else none]
      [.corun r.1 r.2] := by
  intro w reply r
  refine ⟨fun plan extra => ?_, fun plan => ?_⟩
  · rw [List.singleton_append, results, answerOf_arrives fun hr => decodeObservation_into hr out]
    rfl
  · have hcmd : cmdCorun (drained ws i) l o out = (r.1, r.2, ⟨w, []⟩) := by
      rw [drained, cmdCorun_drained (ws i) hl]
      by_cases h : Arrives w (corunCommand o) reply
      · simp only [r, if_pos h]
        exact if_pos h
      · simp only [r, if_neg h]
        exact if_neg h
    rw [Proto.serially, hcmd]
    dsimp only
    rw [update_drained_self]
    rfl

theorem request_exitProcess {l : Link} (hl : l.Reliable) (w : Worker) :
    (Connection.request ⟨w, []⟩ l .exitProcess []).2 = ⟨{ w with running := false }, []⟩ := by
  by_cases hw : w.running = true
  · rw [request_served hl hw (Nat.zero_le _)]
    rfl
  · rw [Bool.not_eq_true] at hw
    rw [request_stopped hl hw (Nat.zero_le _), ← hw]

theorem agrees_exitProcess {l : Link} (hl : l.Reliable) (ws : ι → Worker) (i : ι) :
    Agrees l ws (i, .exitProcess) (Function.update ws i { ws i with running := false }) [] [] := by
  refine ⟨fun plan extra => rfl, fun plan => ?_⟩
  rw [Proto.serially, drained, request_exitProcess hl, update_drained]
  rfl

theorem agrees_of_serialStep {l : Link} (hl : l.Reliable) {a : Action}
    (h : serialStep loop (ws, log) (a.task i) = some (ws', log')) :
    ∃ new r, log' = log ++ new ∧ Agrees l ws (i, a) ws' new r := by
  cases a with
  | baseline b out =>
    rw [Action.task, serialStep_sending (fun hp => handle_baselineCommand hp)] at h
    by_cases hover : Overflows (ws i) (baselineCommand b) (encodeBaseline ((ws i).baseline b))
    · rw [if_pos hover] at h
      cases h
    · rw [if_neg hover] at h
      cases h
      exact ⟨_, _, rfl, agrees_baseline hl ws i b out⟩
  | corun o out =>
    rw [Action.task, serialStep_sending (fun hp => handle_corunCommand hp)] at h
    by_cases hover : Overflows (ws i) (corunCommand o) (encodeObservation ((ws i).observation o))
    · rw [if_pos hover] at h
      cases h
    · rw [if_neg hover] at h
      cases h
      exact ⟨_, _, rfl, agrees_corun hl ws i o out⟩
  | exitProcess =>
    rw [Action.task, serialStep, ask_exitProcess] at h
    cases h
    exact ⟨[], [], (List.append_nil _).symm, agrees_exitProcess hl ws i⟩

theorem exec_serially {l : Link} (hl : l.Reliable) {plan : List (ι × Action)}
    (h : exec (serialStep loop) (ws, log) (plan.map fun e => e.2.task e.1) = some (ws', log')) :
    ∃ new r, log' = log ++ new ∧
      (∀ plan' extra, results (plan ++ plan') (new ++ extra) = r ++ results plan' extra) ∧
      ∀ plan', serially l (drained ws) (plan ++ plan') =
        (r ++ (serially l (drained ws') plan').1, (serially l (drained ws') plan').2) := by
  induction plan generalizing ws log with
  | nil =>
    cases h
    exact ⟨[], [], (List.append_nil _).symm, fun _ _ => rfl, fun _ => rfl⟩
  | cons e plan ih =>
    rw [List.map_cons, exec] at h
    obtain ⟨⟨ws₁, log₁⟩, hstep, h⟩ := Option.bind_eq_some_iff.mp h
    obtain ⟨new₁, r₁, rfl, hagrees⟩ := agrees_of_serialStep hl hstep
    obtain ⟨new₂, r₂, rfl, hresults, hserially⟩ := ih h
    refine ⟨new₁ ++ new₂, r₁ ++ r₂, List.append_assoc .., ?_, ?_⟩
    · intro plan' extra
      rw [List.cons_append, List.append_assoc, hagrees.results, hresults, List.append_assoc]
    · intro plan'
      rw [List.cons_append, hagrees.serially, hserially, List.append_assoc]

omit [DecidableEq ι] in
theorem results_nil (plan : List (ι × Action)) : results plan [] = [] := by
  induction plan with
  | nil => rfl
  | cons e plan ih =>
    obtain ⟨i, a⟩ := e
    cases a with
    | exitProcess => exact ih
    | _ => rfl

end Serial

section Blocking

variable {ws ws' : ι → Worker} {log log' : List (Option Frame)} {plan : List (ι × Action)}

def Action.Overflows (w : Worker) : Action → Prop
  | .baseline b _ => Proto.Overflows w (baselineCommand b) (encodeBaseline (w.baseline b))
  | .corun o _ => Proto.Overflows w (corunCommand o) (encodeObservation (w.observation o))
  | .exitProcess => False

def after (ws : ι → Worker) : ι × Action → ι → Worker
  | (i, .exitProcess) => Function.update ws i { ws i with running := false }
  | _ => ws

theorem Action.Overflows.running {a : Action} {w : Worker} (h : a.Overflows w) :
    w.running = true := by
  cases a with
  | baseline b out => exact h.1
  | corun o out => exact h.1
  | exitProcess => exact h.elim

end Blocking

section Schedules

variable {ws : ι → Worker} {plan : List (ι × Action)} {moves : List (Move ι)}
  {c : Config ι Worker Frame Frame}

omit [DecidableEq ι] in
theorem unanswered_plan (plan : List (ι × Action)) :
    Unanswered loop (plan.map fun e => e.2.task e.1) := by
  intro i f hmem w
  obtain ⟨⟨j, a⟩, -, htask⟩ := List.mem_map.mp hmem
  cases a with
  | baseline b out =>
    simp only [Action.task, sending] at htask
    split_ifs at htask
  | corun o out =>
    simp only [Action.task, sending] at htask
    split_ifs at htask
  | exitProcess =>
    cases htask
    rfl

theorem results_prefix (h : Schedule loop (cluster ws plan) moves c) {l : Link}
    (hl : l.Reliable) : results plan c.log <+: (serially l (drained ws) plan).1 := by
  obtain ⟨done, rest, ws', hscript, hexec⟩ : ∃ done rest ws',
      plan.map (fun e => e.2.task e.1) = done ++ rest ∧
      exec (serialStep loop) (ws, []) done = some (ws', c.log) := by
    cases Schedule.refines (unanswered_plan plan) h with
    | ready _ _ _ hscript hexec _ => exact ⟨_, _, _, hscript, hexec⟩
    | waiting _ _ _ hscript hexec _ _ => exact ⟨_, _, _, hscript, hexec⟩
    | killed _ _ _ hscript hexec _ _ => exact ⟨_, _, _, hscript, hexec⟩
  obtain ⟨plan₁, plan₂, rfl, rfl, -⟩ := List.map_eq_append_iff.mp hscript
  obtain ⟨new, r, hlog, hresults, hserially⟩ := exec_serially hl hexec
  have hthis := hresults plan₂ []
  rw [List.append_nil, results_nil, List.append_nil, ← List.nil_append new, ← hlog] at hthis
  rw [hthis, hserially plan₂]
  exact List.prefix_append r _

/-- Whatever the order in which the processes take their steps, there are at most three steps
for each command, and the results the coordinator has are the first ones of the commands made
one after the other. -/
theorem cluster_results [Fintype ι] (h : Schedule loop (cluster ws plan) moves c) {l : Link}
    (hl : l.Reliable) :
    moves.length ≤ 3 * plan.length ∧
      results plan c.log <+: (serially l (drained ws) plan).1 := by
  refine ⟨?_, ?_⟩
  · have hlen := Schedule.length_le h
    rwa [List.length_map] at hlen
  · exact results_prefix h hl

end Schedules

namespace Demo

def workers (i : Bool) : Worker := ⟨⟨if i then 100 else 200⟩, ⟨1000⟩, true⟩

def plan : List (Bool × Action) :=
  [(true, .baseline Iobs.Demo.baseline Iobs.Demo.baseline), (true, .exitProcess),
    (false, .corun (Iobs.Demo.observation 150.0) .init)]

def order : List (Move Bool) :=
  [.issue, .serve true, .receive, .issue, .issue, .serve false, .receive, .serve true]

end Demo

theorem cluster_results_demo :
    ∃ c, Schedule loop (cluster Demo.workers Demo.plan) Demo.order c ∧
      results Demo.plan c.log <+: (serially Demo.link (drained Demo.workers) Demo.plan).1 := by
  have hsome : (exec (Exchanges.step loop) (cluster Demo.workers Demo.plan) Demo.order).isSome =
      true := by decide +kernel
  obtain ⟨c, hc⟩ := Option.isSome_iff_exists.mp hsome
  have hrun : Schedule loop (cluster Demo.workers Demo.plan) Demo.order c :=
    Run.of_exec (fun _ _ => trivial) hc
  have hl : Demo.link.Reliable := ⟨fun _ h => (by cases h), fun _ h => (by cases h)⟩
  exact ⟨c, hrun, (cluster_results hrun hl).2⟩

section Quiet

variable {ws : ι → Worker} {plan : List (ι × Action)} {moves : List (Move ι)}
  {c : Config ι Worker Frame Frame}

theorem results_whole {ws' : ι → Worker} {log : List (Option Frame)} {l : Link} (hl : l.Reliable)
    (hexec : exec (serialStep loop) (ws, []) (plan.map fun e => e.2.task e.1) = some (ws', log)) :
    results plan log = (serially l (drained ws) plan).1 ∧
      (serially l (drained ws) plan).2 = drained ws' := by
  obtain ⟨new, r, hlog, hresults, hserially⟩ := exec_serially hl hexec
  have hlast := hresults [] []
  rw [List.append_nil, List.append_nil, results_nil, List.append_nil, ← List.nil_append new,
    ← hlog] at hlast
  have hplan := hserially []
  rw [List.append_nil] at hplan
  rw [hplan, hlast]
  exact ⟨(List.append_nil r).symm, rfl⟩

end Quiet

end Iobs.Proto
