import InterferenceObservatory.Lib.Run
import Mathlib.Algebra.BigOperators.Fin
import Mathlib.Logic.Function.Basic
import Mathlib.Tactic.SplitIfs

/-! One client and some servers that exchange messages over queues. The client works through a
script and waits for an answer where it expects one; the servers take their messages when they
get to it. Whatever the order of the steps, the client sees what it would see if every message
were served at once, as long as no failed send kills it. -/

namespace Exchanges
open Runs

variable {ι ω α β : Type}

structure Protocol (ω α β : Type) where
  serve : ω → α → ω × Option β
  alive : ω → Bool

inductive Task (ι α : Type) where
  | post (i : ι) (a : α)
  | call (i : ι) (a : α)
  | skip

def Task.target : Task ι α → Option ι
  | .post i _ => some i
  | .call i _ => some i
  | .skip => none

inductive Client (ι : Type) where
  | ready
  | awaits (i : ι)
  | killed
deriving DecidableEq

structure Server (ω α β : Type) where
  state : ω
  inbox : List α
  outbox : List β

structure Config (ι ω α β : Type) where
  servers : ι → Server ω α β
  script : List (Task ι α)
  client : Client ι
  log : List (Option β)

inductive Move (ι : Type) where
  | issue
  /-- Sending fails, which it only does when the server is gone. -/
  | refuse
  /-- The same, where the signal is not ignored. -/
  | kill
  | serve (i : ι)
  | receive
  /-- The end of the stream of a server that is gone. -/
  | hangUp

section Semantics

variable [DecidableEq ι] (P : Protocol ω α β)

def Config.put (c : Config ι ω α β) (i : ι) (s : Server ω α β) : Config ι ω α β :=
  { c with servers := Function.update c.servers i s }

def Server.deliver (s : Server ω α β) (a : α) : Server ω α β := { s with inbox := s.inbox ++ [a] }

def Config.issue (c : Config ι ω α β) : Option (Config ι ω α β) :=
  match c.client, c.script with
  | .ready, .post i a :: ts => some { c.put i ((c.servers i).deliver a) with script := ts }
  | .ready, .call i a :: ts =>
    some { c.put i ((c.servers i).deliver a) with script := ts, client := .awaits i }
  | .ready, .skip :: ts => some { c with script := ts, log := c.log ++ [none] }
  | _, _ => none

def Config.refuse (c : Config ι ω α β) : Option (Config ι ω α β) :=
  match c.client, c.script with
  | .ready, .post i _ :: ts =>
    if P.alive (c.servers i).state then none else some { c with script := ts }
  | .ready, .call i _ :: ts =>
    if P.alive (c.servers i).state then none
    else some { c with script := ts, log := c.log ++ [none] }
  | _, _ => none

def Config.kill (c : Config ι ω α β) : Option (Config ι ω α β) :=
  match c.client, c.script with
  | .ready, t :: ts =>
    match t.target with
    | some i =>
      if P.alive (c.servers i).state then none
      else some { c with script := ts, client := .killed }
    | none => none
  | _, _ => none

def Config.serve (c : Config ι ω α β) (i : ι) : Option (Config ι ω α β) :=
  match (c.servers i).inbox with
  | a :: as =>
    if P.alive (c.servers i).state then
      some (c.put i ⟨(P.serve (c.servers i).state a).1, as,
        (c.servers i).outbox ++ (P.serve (c.servers i).state a).2.toList⟩)
    else none
  | [] => none

def Config.receive (c : Config ι ω α β) : Option (Config ι ω α β) :=
  match c.client with
  | .awaits i =>
    match (c.servers i).outbox with
    | b :: bs => some { c.put i { c.servers i with outbox := bs } with
        client := .ready, log := c.log ++ [some b] }
    | [] => none
  | _ => none

def Config.hangUp (c : Config ι ω α β) : Option (Config ι ω α β) :=
  match c.client with
  | .awaits i =>
    if (c.servers i).outbox.isEmpty && !P.alive (c.servers i).state then
      some { c with client := .ready, log := c.log ++ [none] }
    else none
  | _ => none

def step (c : Config ι ω α β) : Move ι → Option (Config ι ω α β)
  | .issue => c.issue
  | .refuse => c.refuse P
  | .kill => c.kill P
  | .serve i => c.serve P i
  | .receive => c.receive
  | .hangUp => c.hangUp P

def start (ws : ι → ω) (script : List (Task ι α)) : Config ι ω α β :=
  ⟨fun i => ⟨ws i, [], []⟩, script, .ready, []⟩

abbrev Schedule (c : Config ι ω α β) (moves : List (Move ι)) (c' : Config ι ω α β) : Prop :=
  Run (step P) (fun _ _ => True) c moves c'

def Protocol.ask (w : ω) (a : α) : ω × Option β := if P.alive w then P.serve w a else (w, none)

def serialStep (s : (ι → ω) × List (Option β)) : Task ι α → Option ((ι → ω) × List (Option β))
  | .post i a => some (Function.update s.1 i (P.ask (s.1 i) a).1, s.2)
  | .call i a =>
    if (P.ask (s.1 i) a).2.isNone && P.alive (P.ask (s.1 i) a).1 then none
    else some (Function.update s.1 i (P.ask (s.1 i) a).1, s.2 ++ [(P.ask (s.1 i) a).2])
  | .skip => some (s.1, s.2 ++ [none])

def drain : ω → List α → ω × List β
  | w, [] => (w, [])
  | w, a :: as =>
    if P.alive w then
      ((drain (P.serve w a).1 as).1, (P.serve w a).2.toList ++ (drain (P.serve w a).1 as).2)
    else (w, [])

def Server.outcome (s : Server ω α β) : ω × List β :=
  ((drain P s.state s.inbox).1, s.outbox ++ (drain P s.state s.inbox).2)

end Semantics

section Outcome

variable {P : Protocol ω α β}

theorem drain_dead {w : ω} (h : P.alive w = false) (as : List α) : drain P w as = (w, []) := by
  cases as with
  | nil => rfl
  | cons a as => rw [drain, h, if_neg Bool.false_ne_true]

theorem drain_append (w : ω) (as : List α) (a : α) : drain P w (as ++ [a]) =
    ((P.ask (drain P w as).1 a).1, (drain P w as).2 ++ (P.ask (drain P w as).1 a).2.toList) := by
  induction as generalizing w with
  | nil =>
    by_cases h : P.alive w
    · simp [drain, Protocol.ask, h]
    · simp [drain, Protocol.ask, h]
  | cons a' as ih =>
    by_cases h : P.alive w
    · simp [drain, h, ih]
    · simp [drain, Protocol.ask, h]

theorem outcome_deliver (s : Server ω α β) (a : α) : (s.deliver a).outcome P =
    ((P.ask (s.outcome P).1 a).1, (s.outcome P).2 ++ (P.ask (s.outcome P).1 a).2.toList) := by
  unfold Server.outcome Server.deliver
  rw [drain_append, List.append_assoc]

theorem outcome_serve {s : Server ω α β} {a : α} {as : List α} (hin : s.inbox = a :: as)
    (halive : P.alive s.state = true) :
    Server.outcome P ⟨(P.serve s.state a).1, as, s.outbox ++ (P.serve s.state a).2.toList⟩ =
      s.outcome P := by
  unfold Server.outcome
  rw [hin, drain, if_pos halive, List.append_assoc]

theorem outcome_dead {s : Server ω α β} (h : P.alive s.state = false) :
    s.outcome P = (s.state, s.outbox) := by
  rw [Server.outcome, drain_dead h, List.append_nil]

theorem outcome_idle {s : Server ω α β} (h : s.inbox = []) : s.outcome P = (s.state, s.outbox) := by
  rw [Server.outcome, h, drain, List.append_nil]

end Outcome

section Refinement

variable [DecidableEq ι] {P : Protocol ω α β} {c c' : Config ι ω α β}

inductive Moves (P : Protocol ω α β) (c : Config ι ω α β) : Config ι ω α β → Prop
  | post {i a ts} : c.client = .ready → c.script = .post i a :: ts →
      Moves P c { c.put i ((c.servers i).deliver a) with script := ts }
  | call {i a ts} : c.client = .ready → c.script = .call i a :: ts →
      Moves P c { c.put i ((c.servers i).deliver a) with script := ts, client := .awaits i }
  | skip {ts} : c.client = .ready → c.script = .skip :: ts →
      Moves P c { c with script := ts, log := c.log ++ [none] }
  | lose {i a ts} : c.client = .ready → c.script = .post i a :: ts →
      P.alive (c.servers i).state = false → Moves P c { c with script := ts }
  | refuse {i a ts} : c.client = .ready → c.script = .call i a :: ts →
      P.alive (c.servers i).state = false →
      Moves P c { c with script := ts, log := c.log ++ [none] }
  | kill {t i ts} : c.client = .ready → c.script = t :: ts → t.target = some i →
      P.alive (c.servers i).state = false → Moves P c { c with script := ts, client := .killed }
  | serve {i a as} : (c.servers i).inbox = a :: as → P.alive (c.servers i).state = true →
      Moves P c (c.put i ⟨(P.serve (c.servers i).state a).1, as,
        (c.servers i).outbox ++ (P.serve (c.servers i).state a).2.toList⟩)
  | receive {i b bs} : c.client = .awaits i → (c.servers i).outbox = b :: bs →
      Moves P c { c.put i { c.servers i with outbox := bs } with
        client := .ready, log := c.log ++ [some b] }
  | hangUp {i} : c.client = .awaits i → (c.servers i).outbox = [] →
      P.alive (c.servers i).state = false →
      Moves P c { c with client := .ready, log := c.log ++ [none] }

theorem step_moves {m : Move ι} (h : step P c m = some c') : Moves P c c' := by
  cases m with
  | issue =>
    simp only [step, Config.issue] at h
    split at h
    · obtain rfl := Option.some.inj h
      exact .post ‹_› ‹_›
    · obtain rfl := Option.some.inj h
      exact .call ‹_› ‹_›
    · obtain rfl := Option.some.inj h
      exact .skip ‹_› ‹_›
    · cases h
  | refuse =>
    simp only [step, Config.refuse] at h
    split at h
    · split_ifs at h with halive
      obtain rfl := Option.some.inj h
      exact .lose ‹_› ‹_› (Bool.not_eq_true _ ▸ halive)
    · split_ifs at h with halive
      obtain rfl := Option.some.inj h
      exact .refuse ‹_› ‹_› (Bool.not_eq_true _ ▸ halive)
    · cases h
  | kill =>
    simp only [step, Config.kill] at h
    split at h
    · split at h
      · split_ifs at h with halive
        obtain rfl := Option.some.inj h
        exact .kill ‹_› ‹_› ‹_› (Bool.not_eq_true _ ▸ halive)
      · cases h
    · cases h
  | serve i =>
    simp only [step, Config.serve] at h
    split at h
    · split_ifs at h with halive
      obtain rfl := Option.some.inj h
      exact .serve ‹_› halive
    · cases h
  | receive =>
    simp only [step, Config.receive] at h
    split at h
    · split at h
      · obtain rfl := Option.some.inj h
        exact .receive ‹_› ‹_›
      · cases h
    · cases h
  | hangUp =>
    simp only [step, Config.hangUp] at h
    split at h
    · split_ifs at h with hend
      obtain rfl := Option.some.inj h
      rw [Bool.and_eq_true, List.isEmpty_iff, Bool.not_eq_true'] at hend
      exact .hangUp ‹_› hend.1 hend.2
    · cases h

inductive Refines (P : Protocol ω α β) (ws₀ : ι → ω) (script₀ : List (Task ι α))
    (c : Config ι ω α β) : Prop
  | ready (done : List (Task ι α)) (ws : ι → ω) : c.client = .ready → script₀ = done ++ c.script →
      exec (serialStep P) (ws₀, []) done = some (ws, c.log) →
      (∀ i, (c.servers i).outcome P = (ws i, [])) → Refines P ws₀ script₀ c
  | waiting (done : List (Task ι α)) (ws : ι → ω) {i : ι} {a : α} : c.client = .awaits i →
      script₀ = done ++ .call i a :: c.script →
      exec (serialStep P) (ws₀, []) done = some (ws, c.log) →
      (c.servers i).outcome P = ((P.ask (ws i) a).1, (P.ask (ws i) a).2.toList) →
      (∀ j, j ≠ i → (c.servers j).outcome P = (ws j, [])) → Refines P ws₀ script₀ c
  | killed (done : List (Task ι α)) (ws : ι → ω) {t : Task ι α} {ts : List (Task ι α)} {i : ι} :
      c.client = .killed → script₀ = done ++ t :: ts →
      exec (serialStep P) (ws₀, []) done = some (ws, c.log) → t.target = some i →
      P.alive (ws i) = false → Refines P ws₀ script₀ c

variable {ws₀ : ι → ω} {script₀ : List (Task ι α)}

theorem refines_start : Refines P ws₀ script₀ (start ws₀ script₀) :=
  .ready [] ws₀ rfl rfl rfl fun _ => rfl

theorem exec_concat {s s' s'' : (ι → ω) × List (Option β)} {done : List (Task ι α)}
    {t : Task ι α} (h : exec (serialStep P) s done = some s')
    (ht : serialStep P s' t = some s'') : exec (serialStep P) s (done ++ [t]) = some s'' := by
  rw [exec_append, h, Option.bind_some, exec, ht]
  rfl

theorem ask_dead {w : ω} (h : P.alive w = false) (a : α) : P.ask w a = (w, none) := by
  rw [Protocol.ask, h, if_neg Bool.false_ne_true]

theorem put_self (c : Config ι ω α β) (i : ι) (s : Server ω α β) : (c.put i s).servers i = s :=
  Function.update_self ..

theorem put_of_ne (c : Config ι ω α β) {i j : ι} (s : Server ω α β) (h : j ≠ i) :
    (c.put i s).servers j = c.servers j := Function.update_of_ne h ..

theorem outcome_put {i : ι} {s : Server ω α β} {r : ω × List β} {ws : ι → ω}
    (hi : s.outcome P = r) (hothers : ∀ j, j ≠ i → (c.servers j).outcome P = (ws j, [])) :
    ((c.put i s).servers i).outcome P = r ∧
      ∀ j, j ≠ i → ((c.put i s).servers j).outcome P = (ws j, []) := by
  refine ⟨?_, fun j hne => ?_⟩
  · rw [put_self]
    exact hi
  · rw [put_of_ne c s hne]
    exact hothers j hne

def Unanswered (P : Protocol ω α β) (script : List (Task ι α)) : Prop :=
  ∀ i a, .post i a ∈ script → ∀ w, (P.serve w a).2 = none

omit [DecidableEq ι] in
theorem Unanswered.ask {i : ι} {a : α} (h : Unanswered P script₀) (hmem : .post i a ∈ script₀)
    (w : ω) : (P.ask w a).2 = none := by
  unfold Protocol.ask
  split_ifs
  · exact h i a hmem w
  · rfl

theorem Refines.moves (hun : Unanswered P script₀) (h : Refines P ws₀ script₀ c)
    (hm : Moves P c c') : Refines P ws₀ script₀ c' := by
  cases h with
  | @ready done ws hready hscript hexec houtcome =>
    cases hm with
    | @post i a ts _ hts =>
      rw [hts] at hscript
      have hmem : .post i a ∈ script₀ := by
        rw [hscript]
        simp
      have hdeliver : ((c.servers i).deliver a).outcome P = ((P.ask (ws i) a).1, []) := by
        rw [outcome_deliver, houtcome i, hun.ask hmem]
        rfl
      obtain ⟨hself, hothers⟩ := outcome_put (c := c) hdeliver fun j _ => houtcome j
      refine .ready (done ++ [.post i a]) (Function.update ws i (P.ask (ws i) a).1) hready ?_
        (exec_concat hexec rfl) ?_
      · rw [hscript, List.append_assoc]
        rfl
      · intro j
        by_cases hj : j = i
        · subst hj
          rw [Function.update_self]
          exact hself
        · rw [Function.update_of_ne hj]
          exact hothers j hj
    | @call i a ts _ hts =>
      rw [hts] at hscript
      have hdeliver : ((c.servers i).deliver a).outcome P =
          ((P.ask (ws i) a).1, (P.ask (ws i) a).2.toList) := by
        rw [outcome_deliver, houtcome i]
        rfl
      obtain ⟨hself, hothers⟩ := outcome_put (c := c) hdeliver fun j _ => houtcome j
      exact .waiting done ws rfl hscript hexec hself hothers
    | @skip ts _ hts =>
      rw [hts] at hscript
      refine .ready (done ++ [.skip]) ws hready ?_ (exec_concat hexec rfl) houtcome
      rw [hscript, List.append_assoc]
      rfl
    | @lose i a ts _ hts hdead =>
      rw [hts] at hscript
      have hstate : (c.servers i).state = ws i :=
        congrArg Prod.fst ((outcome_dead hdead).symm.trans (houtcome i))
      have hsame : Function.update ws i (P.ask (ws i) a).1 = ws := by
        rw [ask_dead (hstate ▸ hdead), Function.update_eq_self]
      refine .ready (done ++ [.post i a]) ws hready ?_ (exec_concat hexec ?_) houtcome
      · rw [hscript, List.append_assoc]
        rfl
      · rw [serialStep, hsame]
    | @refuse i a ts _ hts hdead =>
      rw [hts] at hscript
      have hstate : (c.servers i).state = ws i :=
        congrArg Prod.fst ((outcome_dead hdead).symm.trans (houtcome i))
      have hdead' : P.alive (ws i) = false := hstate ▸ hdead
      refine .ready (done ++ [.call i a]) ws hready ?_ (exec_concat hexec ?_) houtcome
      · rw [hscript, List.append_assoc]
        rfl
      · rw [serialStep, ask_dead hdead', Function.update_eq_self, hdead', Bool.and_false,
          if_neg Bool.false_ne_true]
    | @kill t i ts _ hts htarget hdead =>
      have hstate : (c.servers i).state = ws i :=
        congrArg Prod.fst ((outcome_dead hdead).symm.trans (houtcome i))
      rw [hts] at hscript
      exact .killed done ws rfl hscript hexec htarget (hstate ▸ hdead)
    | @serve i a as hin halive =>
      refine .ready done ws hready hscript hexec fun j => ?_
      by_cases hj : j = i
      · subst hj
        rw [put_self, outcome_serve hin halive]
        exact houtcome j
      · rw [put_of_ne c _ hj]
        exact houtcome j
    | receive hwait _ => exact absurd (hready.symm.trans hwait) nofun
    | hangUp hwait _ _ => exact absurd (hready.symm.trans hwait) nofun
  | @waiting done ws i a hwait hscript hexec hself hothers =>
    cases hm with
    | post hready _ => exact absurd (hready.symm.trans hwait) nofun
    | call hready _ => exact absurd (hready.symm.trans hwait) nofun
    | skip hready _ => exact absurd (hready.symm.trans hwait) nofun
    | lose hready _ _ => exact absurd (hready.symm.trans hwait) nofun
    | refuse hready _ _ => exact absurd (hready.symm.trans hwait) nofun
    | kill hready _ _ _ => exact absurd (hready.symm.trans hwait) nofun
    | @serve k a' as hin halive =>
      refine .waiting done ws hwait hscript hexec ?_ fun j hj => ?_
      · by_cases hk : i = k
        · subst hk
          rw [put_self, outcome_serve hin halive]
          exact hself
        · rw [put_of_ne c _ hk]
          exact hself
      · by_cases hk : j = k
        · subst hk
          rw [put_self, outcome_serve hin halive]
          exact hothers j hj
        · rw [put_of_ne c _ hk]
          exact hothers j hj
    | @receive k b bs hwait' hout =>
      obtain rfl := Client.awaits.inj (hwait.symm.trans hwait')
      -- the answer read is the only one there will be
      have hlist : b :: (bs ++ (drain P (c.servers i).state (c.servers i).inbox).2) =
          (P.ask (ws i) a).2.toList := by
        have hsnd := congrArg Prod.snd hself
        simpa only [Server.outcome, hout, List.cons_append] using hsnd
      obtain ⟨hans, hrest⟩ : (P.ask (ws i) a).2 = some b ∧
          bs ++ (drain P (c.servers i).state (c.servers i).inbox).2 = [] := by
        rcases hask : (P.ask (ws i) a).2 with _ | b'
        · rw [hask] at hlist
          cases hlist
        · rw [hask] at hlist
          obtain ⟨rfl, hnil⟩ := List.cons.inj hlist
          exact ⟨rfl, hnil⟩
      have hstate : (drain P (c.servers i).state (c.servers i).inbox).1 = (P.ask (ws i) a).1 :=
        congrArg Prod.fst hself
      have hserver : Server.outcome P { c.servers i with outbox := bs } =
          ((P.ask (ws i) a).1, []) := Prod.ext hstate hrest
      obtain ⟨hself', hothers'⟩ := outcome_put (c := c) hserver hothers
      refine .ready (done ++ [.call i a]) (Function.update ws i (P.ask (ws i) a).1) rfl ?_
        (exec_concat hexec ?_) ?_
      · rw [hscript, List.append_assoc]
        rfl
      · rw [serialStep, hans, Option.isNone_some, Bool.false_and, if_neg Bool.false_ne_true]
      · intro j
        by_cases hj : j = i
        · subst hj
          rw [Function.update_self]
          exact hself'
        · rw [Function.update_of_ne hj]
          exact hothers' j hj
    | @hangUp k hwait' hout hdead =>
      obtain rfl := Client.awaits.inj (hwait.symm.trans hwait')
      rw [outcome_dead hdead, hout] at hself
      obtain ⟨hstate, hnil⟩ := Prod.ext_iff.mp hself
      have hnone : (P.ask (ws i) a).2 = none := by
        rcases hask : (P.ask (ws i) a).2 with _ | b
        · rfl
        · rw [hask] at hnil
          cases hnil
      refine .ready (done ++ [.call i a]) (Function.update ws i (P.ask (ws i) a).1) rfl ?_
        (exec_concat hexec ?_) ?_
      · rw [hscript, List.append_assoc]
        rfl
      · have hgone : P.alive (P.ask (ws i) a).1 = false := hstate ▸ hdead
        rw [serialStep, hnone, hgone, Bool.and_false, if_neg Bool.false_ne_true]
      · intro j
        by_cases hj : j = i
        · subst hj
          rw [Function.update_self, outcome_dead hdead, hout, ← hstate]
        · rw [Function.update_of_ne hj]
          exact hothers j hj

  | @killed done ws t ts i hkilled hscript hexec htarget hgone =>
    cases hm with
    | serve _ _ => exact .killed done ws hkilled hscript hexec htarget hgone
    | post hready _ => exact absurd (hready.symm.trans hkilled) nofun
    | call hready _ => exact absurd (hready.symm.trans hkilled) nofun
    | skip hready _ => exact absurd (hready.symm.trans hkilled) nofun
    | lose hready _ _ => exact absurd (hready.symm.trans hkilled) nofun
    | refuse hready _ _ => exact absurd (hready.symm.trans hkilled) nofun
    | kill hready _ _ _ => exact absurd (hready.symm.trans hkilled) nofun
    | receive hwait _ => exact absurd (hwait.symm.trans hkilled) nofun
    | hangUp hwait _ _ => exact absurd (hwait.symm.trans hkilled) nofun

theorem Schedule.refines {moves : List (Move ι)} (hun : Unanswered P script₀)
    (h : Schedule P (start ws₀ script₀) moves c) : Refines P ws₀ script₀ c := by
  refine h.invariant (I := Refines P ws₀ script₀) refines_start ?_
  intro c m c' _ hs hrefines
  exact hrefines.moves hun (step_moves hs)

/-- Nothing can happen any more. -/
def Quiet (P : Protocol ω α β) (c : Config ι ω α β) : Prop := ∀ m, step P c m = none

theorem Quiet.outcome (h : Quiet P c) (i : ι) :
    (c.servers i).outcome P = ((c.servers i).state, (c.servers i).outbox) := by
  have hserve := h (.serve i)
  simp only [step, Config.serve] at hserve
  rcases hin : (c.servers i).inbox with _ | ⟨a, as⟩
  · exact outcome_idle hin
  · rw [hin] at hserve
    dsimp only at hserve
    split_ifs at hserve with halive
    exact outcome_dead (Bool.not_eq_true _ ▸ halive)

theorem quiet_of_idle (hscript : c.script = []) (hready : c.client = .ready)
    (hinbox : ∀ i, (c.servers i).inbox = []) : Quiet P c := by
  intro m
  cases m with
  | issue => simp only [step, Config.issue, hscript, hready]
  | refuse => simp only [step, Config.refuse, hscript, hready]
  | kill => simp only [step, Config.kill, hscript, hready]
  | serve i => simp only [step, Config.serve, hinbox i]
  | receive => simp only [step, Config.receive, hready]
  | hangUp => simp only [step, Config.hangUp, hready]

theorem Refines.quiet (h : Refines P ws₀ script₀ c) (hq : Quiet P c) :
    (c.client = .ready ∧ c.script = [] ∧ exec (serialStep P) (ws₀, []) script₀ =
      some (fun i => (c.servers i).state, c.log)) ∨
    ((∃ i, c.client = .awaits i) ∧ exec (serialStep P) (ws₀, []) script₀ = none) ∨
    (c.client = .killed ∧ ∃ done t ts ws i, script₀ = done ++ t :: ts ∧
      exec (serialStep P) (ws₀, []) done = some (ws, c.log) ∧ t.target = some i ∧
      P.alive (ws i) = false) := by
  cases h with
  | @ready done ws hready hscript hexec houtcome =>
    have hissue := hq .issue
    simp only [step, Config.issue, hready] at hissue
    rcases hts : c.script with _ | ⟨t, ts⟩
    · rw [hts, List.append_nil] at hscript
      have hws : ws = fun i => (c.servers i).state := by
        funext i
        have hi := (hq.outcome i).symm.trans (houtcome i)
        exact (congrArg Prod.fst hi).symm
      rw [hscript, hexec, hws]
      exact .inl ⟨hready, rfl, rfl⟩
    · rw [hts] at hissue
      cases t <;> cases hissue
  | @waiting done ws i a hwait hscript hexec hself hothers =>
    refine .inr (.inl ⟨⟨i, hwait⟩, ?_⟩)
    have hreceive := hq .receive
    have hend := hq .hangUp
    simp only [step, Config.receive, Config.hangUp, hwait] at hreceive hend
    rcases hout : (c.servers i).outbox with _ | ⟨b, bs⟩
    · rw [hout] at hend
      rw [hq.outcome, hout] at hself
      obtain ⟨hstate, hnil⟩ := Prod.ext_iff.mp hself
      have hnone : (P.ask (ws i) a).2 = none := by
        rcases hask : (P.ask (ws i) a).2 with _ | b
        · rfl
        · rw [hask] at hnil
          cases hnil
      have halive : P.alive (P.ask (ws i) a).1 = true := by
        rw [← hstate]
        by_contra hdead
        rw [Bool.not_eq_true] at hdead
        rw [hdead] at hend
        cases hend
      rw [hscript, exec_append, hexec, Option.bind_some, exec, serialStep, hnone, halive]
      rfl
    · rw [hout] at hreceive
      cases hreceive
  | @killed done ws t ts i hkilled hscript hexec htarget hgone =>
    exact .inr (.inr ⟨hkilled, done, t, ts, ws, i, hscript, hexec, htarget, hgone⟩)

section Bound

variable [Fintype ι]

def Client.owed : Client ι → Nat
  | .awaits _ => 1
  | _ => 0

def Config.work (c : Config ι ω α β) : Nat :=
  3 * c.script.length + ∑ i, (c.servers i).inbox.length + c.client.owed

theorem inbox_put (c : Config ι ω α β) (i : ι) (s : Server ω α β) :
    ∑ j, ((c.put i s).servers j).inbox.length + (c.servers i).inbox.length =
      ∑ j, (c.servers j).inbox.length + s.inbox.length := by
  have hput (j : ι) : ((c.put i s).servers j).inbox.length =
      Function.update (fun j => (c.servers j).inbox.length) i s.inbox.length j := by
    by_cases hj : j = i
    · subst hj
      rw [put_self, Function.update_self]
    · rw [put_of_ne c s hj, Function.update_of_ne hj]
  have hsum := Finset.sum_update_of_mem (Finset.mem_univ i)
    (fun j => (c.servers j).inbox.length) s.inbox.length
  have hsplit := Finset.add_sum_erase Finset.univ (fun j => (c.servers j).inbox.length)
    (Finset.mem_univ i)
  simp only [hput]
  rw [hsum, Finset.sdiff_singleton_eq_erase, ← hsplit]
  omega

theorem Moves.work_lt (hm : Moves P c c') : c'.work < c.work := by
  unfold Config.work
  cases hm with
  | @post i a ts hready hts =>
    have hput := inbox_put c i ((c.servers i).deliver a)
    have hlen : ((c.servers i).deliver a).inbox.length = (c.servers i).inbox.length + 1 := by
      simp [Server.deliver]
    rw [hts, List.length_cons]
    change 3 * ts.length + ∑ j, ((c.put i _).servers j).inbox.length + c.client.owed < _
    omega
  | @call i a ts hready hts =>
    have hput := inbox_put c i ((c.servers i).deliver a)
    have hlen : ((c.servers i).deliver a).inbox.length = (c.servers i).inbox.length + 1 := by
      simp [Server.deliver]
    rw [hts, List.length_cons, hready]
    change 3 * ts.length + ∑ j, ((c.put i _).servers j).inbox.length + 1 < _
    have howed : (Client.ready : Client ι).owed = 0 := rfl
    omega
  | @kill t i ts hready hts =>
    rw [hts, List.length_cons]
    have howed : (Client.killed : Client ι).owed = 0 := rfl
    dsimp only
    omega
  | skip hready hts | lose hready hts | refuse hready hts =>
    rw [hts, List.length_cons]
    dsimp only
    omega
  | @serve i a as hin halive =>
    have hput := inbox_put c i ⟨(P.serve (c.servers i).state a).1, as,
      (c.servers i).outbox ++ (P.serve (c.servers i).state a).2.toList⟩
    rw [hin, List.length_cons] at hput
    dsimp only at hput
    change 3 * c.script.length + ∑ j, ((c.put i _).servers j).inbox.length +
      c.client.owed < _
    omega
  | @receive i b bs hwait hout =>
    have hput := inbox_put c i ⟨(c.servers i).state, (c.servers i).inbox, bs⟩
    dsimp only at hput
    rw [hwait]
    change 3 * c.script.length + ∑ j, ((c.put i ⟨(c.servers i).state, (c.servers i).inbox,
      bs⟩).servers j).inbox.length + 0 < 3 * c.script.length + _ + 1
    omega
  | @hangUp i hwait hout hdead =>
    rw [hwait]
    exact Nat.lt_succ_self _

theorem Schedule.length_le {moves : List (Move ι)} (h : Schedule P (start ws₀ script₀) moves c) :
    moves.length ≤ 3 * script₀.length := by
  have hwork : moves.length + c.work ≤ 3 * script₀.length := by
    refine h.history_invariant (I := fun moves c => moves.length + c.work ≤ 3 * script₀.length)
      ?_ ?_
    · simp [Config.work, start, Client.owed]
    · intro moves c m c' _ hs hle
      have hlt := (step_moves hs).work_lt
      rw [List.length_append, List.length_singleton]
      omega
  omega

end Bound

end Refinement

end Exchanges
