import InterferenceObservatory.Lib.Run
import Mathlib.Logic.Function.Basic
import Mathlib.Tactic.SplitIfs

/-! Threads that call the methods of an object with one mutex. A call works on the state in
small steps, and any thread may take the next step at any time. The code of a call is typed so
that it writes only while it holds the mutex; the calls then take effect one after the other,
in the order in which they give the mutex back. -/

namespace Monitors
open Runs

variable {τ κ σ ρ : Type}

inductive Body (σ ρ : Type) where
  | leave (r : ρ)
  | act (write : σ → σ) (next : σ → Body σ ρ)
  /-- The mutex is to be taken a second time. -/
  | relock

inductive Code (σ ρ : Type) where
  | ret (r : ρ)
  /-- A look without the mutex. Nothing orders it with the stores of other threads, so beside
  them it may show anything. -/
  | peek (view : σ → ρ)
  | guarded (body : Body σ ρ)

namespace Body

def run : Body σ ρ → σ → Option (ρ × σ)
  | leave r, s => some (r, s)
  | act write next, s => (next s).run (write s)
  | relock, _ => none

def visits : Body σ ρ → σ → List σ
  | leave _, s => [s]
  | act write next, s => s :: (next s).visits (write s)
  | relock, s => [s]

theorem self_mem_visits (b : Body σ ρ) (s : σ) : s ∈ b.visits s := by
  cases b <;> simp [visits]

def writes : List (σ → σ) → Body σ ρ → Body σ ρ
  | [], b => b
  | f :: fs, b => act f fun _ => writes fs b

theorem run_writes (fs : List (σ → σ)) (b : Body σ ρ) (s : σ) :
    (writes fs b).run s = b.run (fs.foldl (fun s f => f s) s) := by
  induction fs generalizing s with
  | nil => rfl
  | cons f fs ih => exact ih (f s)

end Body

def Code.run : Code σ ρ → σ → Option (ρ × σ)
  | .ret r, s => some (r, s)
  | .peek view, s => some (view s, s)
  | .guarded b, s => b.run s

inductive Thread (κ σ ρ : Type) where
  | idle
  | peeking (k : κ) (view : σ → ρ)
  | waiting (k : κ) (body : Body σ ρ)
  | inside (k : κ) (body : Body σ ρ)
  | leaving (k : κ) (r : ρ)

inductive Event (τ κ ρ : Type) where
  | invoked (t : τ) (k : κ)
  | took (t : τ) (k : κ) (r : ρ)
  | peeked (t : τ) (k : κ) (r : ρ)
  | returned (t : τ) (k : κ) (r : ρ)

def Event.thread : Event τ κ ρ → τ
  | .invoked t _ => t
  | .took t _ _ => t
  | .peeked t _ _ => t
  | .returned t _ _ => t

structure Config (τ κ σ ρ : Type) where
  state : σ
  holder : Option τ
  threads : τ → Thread κ σ ρ
  trace : List (Event τ κ ρ)

inductive Move (τ κ σ : Type) where
  | start (t : τ) (k : κ)
  | advance (t : τ)
  /-- A look that sees something other than the state. -/
  | stray (t : τ) (seen : σ)

section Semantics

variable [DecidableEq τ] (code : κ → Code σ ρ)

def Config.set (c : Config τ κ σ ρ) (t : τ) (p : Thread κ σ ρ) (events : List (Event τ κ ρ)) :
    Config τ κ σ ρ :=
  { c with threads := Function.update c.threads t p, trace := c.trace ++ events }

def Config.start (c : Config τ κ σ ρ) (t : τ) (k : κ) : Config τ κ σ ρ :=
  match code k with
  -- such a call does not depend on the state, so it may take effect at once
  | .ret r => c.set t (.leaving k r) [.invoked t k, .took t k r]
  | .peek view => c.set t (.peeking k view) [.invoked t k]
  | .guarded b => c.set t (.waiting k b) [.invoked t k]

def Config.advance (c : Config τ κ σ ρ) (t : τ) : Option (Config τ κ σ ρ) :=
  match c.threads t with
  | .idle => none
  | .peeking k view => some (c.set t (.leaving k (view c.state)) [.peeked t k (view c.state)])
  | .waiting k b =>
    if c.holder.isSome then none else some { c.set t (.inside k b) [] with holder := some t }
  | .inside k (.act write next) =>
    some { c.set t (.inside k (next c.state)) [] with state := write c.state }
  | .inside k (.leave r) => some { c.set t (.leaving k r) [.took t k r] with holder := none }
  | .inside _ .relock => none
  | .leaving k r => some (c.set t .idle [.returned t k r])

/-- Another thread has made a call. -/
def Config.Contended (c : Config τ κ σ ρ) (t : τ) : Prop := ∃ e ∈ c.trace, e.thread ≠ t

instance (c : Config τ κ σ ρ) (t : τ) : Decidable (c.Contended t) :=
  inferInstanceAs (Decidable (∃ e ∈ c.trace, e.thread ≠ t))

def Config.stray (c : Config τ κ σ ρ) (t : τ) (seen : σ) : Option (Config τ κ σ ρ) :=
  match c.threads t with
  | .peeking k view =>
    if c.Contended t then some (c.set t (.leaving k (view seen)) [.peeked t k (view seen)])
    else none
  | _ => none

def step (c : Config τ κ σ ρ) : Move τ κ σ → Option (Config τ κ σ ρ)
  | .start t k =>
    match c.threads t with
    | .idle => some (c.start code t k)
    | _ => none
  | .advance t => c.advance t
  | .stray t seen => c.stray t seen

def initial (s : σ) : Config τ κ σ ρ := ⟨s, none, fun _ => .idle, []⟩

abbrev Schedule (c : Config τ κ σ ρ) (moves : List (Move τ κ σ)) (c' : Config τ κ σ ρ) : Prop :=
  Run (step code) (fun _ _ => True) c moves c'

inductive Moves (c : Config τ κ σ ρ) : Config τ κ σ ρ → Prop
  | answer {t k r} : c.threads t = .idle → code k = .ret r →
      Moves c (c.set t (.leaving k r) [.invoked t k, .took t k r])
  | approach {t k view} : c.threads t = .idle → code k = .peek view →
      Moves c (c.set t (.peeking k view) [.invoked t k])
  | queue {t k b} : c.threads t = .idle → code k = .guarded b →
      Moves c (c.set t (.waiting k b) [.invoked t k])
  | look {t k view seen} : c.threads t = .peeking k view → seen = c.state ∨ c.Contended t →
      Moves c (c.set t (.leaving k (view seen)) [.peeked t k (view seen)])
  | enter {t k b} : c.threads t = .waiting k b → c.holder = none →
      Moves c { c.set t (.inside k b) [] with holder := some t }
  | act {t k write next} : c.threads t = .inside k (.act write next) →
      Moves c { c.set t (.inside k (next c.state)) [] with state := write c.state }
  | leave {t k r} : c.threads t = .inside k (.leave r) →
      Moves c { c.set t (.leaving k r) [.took t k r] with holder := none }
  | back {t k r} : c.threads t = .leaving k r → Moves c (c.set t .idle [.returned t k r])

variable {code}

theorem step_moves {c c' : Config τ κ σ ρ} {m : Move τ κ σ} (h : step code c m = some c') :
    Moves code c c' := by
  cases m with
  | start t k =>
    rw [step] at h
    rcases ht : c.threads t with _ | _ | _ | _ | _
    · rw [ht] at h
      obtain rfl := Option.some.inj h
      unfold Config.start
      rcases hk : code k with r | view | b
      · exact .answer ht hk
      · exact .approach ht hk
      · exact .queue ht hk
    all_goals
      rw [ht] at h
      cases h
  | advance t =>
    rw [step, Config.advance] at h
    rcases ht : c.threads t with _ | ⟨k, view⟩ | ⟨k, b⟩ | ⟨k, b⟩ | ⟨k, r⟩
    · rw [ht] at h
      cases h
    · rw [ht] at h
      obtain rfl := Option.some.inj h
      exact .look ht (.inl rfl)
    · rw [ht] at h
      dsimp only at h
      split_ifs at h with hfree
      obtain rfl := Option.some.inj h
      exact .enter ht (Option.not_isSome_iff_eq_none.mp hfree)
    · rcases b with r | ⟨write, next⟩ | _
      · rw [ht] at h
        obtain rfl := Option.some.inj h
        exact .leave ht
      · rw [ht] at h
        obtain rfl := Option.some.inj h
        exact .act ht
      · rw [ht] at h
        cases h
    · rw [ht] at h
      obtain rfl := Option.some.inj h
      exact .back ht
  | stray t seen =>
    rw [step, Config.stray] at h
    rcases ht : c.threads t with _ | ⟨k, view⟩ | _ | _ | _
    case peeking =>
      rw [ht] at h
      dsimp only at h
      split_ifs at h with hcontended
      obtain rfl := Option.some.inj h
      exact .look ht (.inr hcontended)
    all_goals
      rw [ht] at h
      cases h

end Semantics

def Event.effect : Event τ κ ρ → Option (κ × ρ)
  | .took _ k r => some (k, r)
  | _ => none

def effects (trace : List (Event τ κ ρ)) : List (κ × ρ) := trace.filterMap Event.effect

@[simp] theorem effects_append (l l' : List (Event τ κ ρ)) :
    effects (l ++ l') = effects l ++ effects l' := List.filterMap_append

def Replays (code : κ → Code σ ρ) : σ → List (κ × ρ) → σ → Prop
  | s, [], s' => s = s'
  | s, (k, r) :: l, s' => ∃ s₁, (code k).run s = some (r, s₁) ∧ Replays code s₁ l s'

def Placed (code : κ → Code σ ρ) (holder : Option τ) (t : τ) : Thread κ σ ρ → Prop
  | .inside _ _ => holder = some t
  | .waiting k b => code k = .guarded b
  | .peeking k view => code k = .peek view
  | _ => True

/-- Between two calls the state is the one after the calls that have taken effect; while a call
is inside, what remains of it leads where the whole call leads from there. -/
structure Settled (code : κ → Code σ ρ) (c : Config τ κ σ ρ) (base : σ) : Prop where
  free : c.holder = none → c.state = base
  held : ∀ t, c.holder = some t → ∃ k b b₀, c.threads t = .inside k b ∧ code k = .guarded b₀ ∧
    b.run c.state = b₀.run base ∧ b.visits c.state ⊆ b₀.visits base
  placed : ∀ t, Placed code c.holder t (c.threads t)

theorem settled_initial (code : κ → Code σ ρ) (s : σ) :
    Settled code (initial s : Config τ κ σ ρ) s :=
  ⟨fun _ => rfl, fun _ h => (by cases h), fun _ => trivial⟩

section Linearization

variable {code : κ → Code σ ρ} {c c' : Config τ κ σ ρ} {base : σ} {t : τ}
  {p : Thread κ σ ρ} {events : List (Event τ κ ρ)}

theorem Placed.outside {holder holder' : Option τ} (h : Placed code holder t p)
    (hout : ∀ k b, p ≠ .inside k b) : Placed code holder' t p := by
  rcases p with _ | _ | _ | ⟨k, b⟩ | _
  · trivial
  · exact h
  · exact h
  · exact absurd rfl (hout k b)
  · trivial

theorem Settled.not_holder (h : Settled code c base) (hin : ∀ k b, c.threads t ≠ .inside k b) :
    c.holder ≠ some t := by
  intro ht
  obtain ⟨k, b, -, hthread, -⟩ := h.held t ht
  exact hin k b hthread

theorem Settled.holder {k : κ} {b : Body σ ρ} (h : Settled code c base)
    (hin : c.threads t = .inside k b) : c.holder = some t := by
  have hself := h.placed t
  rwa [hin] at hself

theorem Settled.alone {t' : τ} (h : Settled code c base) (hne : c.holder ≠ some t') (k : κ)
    (b : Body σ ρ) : c.threads t' ≠ .inside k b := by
  intro hin
  exact hne (h.holder hin)

variable [DecidableEq τ]

theorem placed_update {holder holder' : Option τ} {threads : τ → Thread κ σ ρ}
    (h : ∀ t', t' ≠ t → Placed code holder t' (threads t') → Placed code holder' t' (threads t'))
    (hall : ∀ t', Placed code holder t' (threads t')) (hp : Placed code holder' t p) (t' : τ) :
    Placed code holder' t' (Function.update threads t p t') := by
  by_cases hne : t' = t
  · subst hne
    rw [Function.update_self]
    exact hp
  · rw [Function.update_of_ne hne]
    exact h t' hne (hall t')

theorem Settled.set (h : Settled code c base) (hout : c.holder ≠ some t)
    (hp : Placed code c.holder t p) : Settled code (c.set t p events) base := by
  refine ⟨h.free, ?_, placed_update (fun _ _ h => h) h.placed hp⟩
  intro t' ht'
  obtain ⟨k, b, b₀, hthread, hrest⟩ := h.held t' ht'
  have hne : t' ≠ t := by
    rintro rfl
    exact hout ht'
  have hsame : (c.set t p events).threads t' = c.threads t' := Function.update_of_ne hne _ _
  exact ⟨k, b, b₀, hsame.trans hthread, hrest⟩

theorem Settled.moves (h : Settled code c base) (hm : Moves code c c') :
    ∃ l base', effects c'.trace = effects c.trace ++ l ∧ Replays code base l base' ∧
      Settled code c' base' := by
  cases hm with
  | @answer t k r hidle hk =>
    have hout := h.not_holder (t := t) (by simp [hidle])
    refine ⟨[(k, r)], base, effects_append _ _, ⟨base, ?_, rfl⟩, h.set hout trivial⟩
    rw [hk]
    rfl
  | @approach t k view hidle hk =>
    have hout := h.not_holder (t := t) (by simp [hidle])
    exact ⟨[], base, effects_append _ _, rfl, h.set hout hk⟩
  | @queue t k b hidle hk =>
    have hout := h.not_holder (t := t) (by simp [hidle])
    exact ⟨[], base, effects_append _ _, rfl, h.set hout hk⟩
  | @look t k view seen hpeek hseen =>
    have hout := h.not_holder (t := t) (by simp [hpeek])
    exact ⟨[], base, effects_append _ _, rfl, h.set hout trivial⟩
  | @back t k r hleave =>
    have hout := h.not_holder (t := t) (by simp [hleave])
    exact ⟨[], base, effects_append _ _, rfl, h.set hout trivial⟩
  | @enter t k b hwait hfree =>
    have hcode : code k = .guarded b := by
      have hself := h.placed t
      rwa [hwait] at hself
    refine ⟨[], base, effects_append _ _, rfl, ?_, ?_, ?_⟩
    · intro hnone
      cases hnone
    · intro t' ht'
      obtain rfl := Option.some.inj ht'
      refine ⟨k, b, b, Function.update_self .., hcode, ?_⟩
      have hstate : c.state = base := h.free hfree
      change b.run c.state = b.run base ∧ b.visits c.state ⊆ b.visits base
      rw [hstate]
      exact ⟨rfl, List.Subset.refl _⟩
    · refine placed_update ?_ h.placed rfl
      intro t' _ hplaced
      exact hplaced.outside (h.alone (by simp [hfree]))
  | @act t k write next hin =>
    have hholder := h.holder hin
    refine ⟨[], base, effects_append _ _, rfl, ?_, ?_, ?_⟩
    · intro hnone
      exact absurd (hnone.symm.trans hholder) (by simp)
    · intro t' ht'
      obtain rfl := Option.some.inj (hholder.symm.trans ht')
      obtain ⟨k', b, b₀, hthread, hcode, hrun, hvisits⟩ := h.held t hholder
      rw [hin] at hthread
      cases hthread
      refine ⟨k, next c.state, b₀, Function.update_self .., hcode, hrun, ?_⟩
      exact List.Subset.trans (List.subset_cons_self _ _) hvisits
    · exact placed_update (fun _ _ hplaced => hplaced) h.placed hholder
  | @leave t k r hin =>
    have hholder := h.holder hin
    obtain ⟨k', b, b₀, hthread, hcode, hrun, -⟩ := h.held t hholder
    rw [hin] at hthread
    cases hthread
    refine ⟨[(k, r)], c.state, effects_append _ _, ⟨c.state, ?_, rfl⟩, fun _ => rfl, ?_, ?_⟩
    · rw [hcode]
      exact hrun.symm
    · intro t' ht'
      cases ht'
    · refine placed_update ?_ h.placed trivial
      intro t' hne hplaced
      refine hplaced.outside (h.alone ?_)
      rw [hholder]
      exact fun heq => hne (Option.some.inj heq).symm

theorem Replays.append {s s' s'' : σ} {l l' : List (κ × ρ)} (h : Replays code s l s')
    (h' : Replays code s' l' s'') : Replays code s (l ++ l') s'' := by
  induction l generalizing s with
  | nil =>
    obtain rfl : s = s' := h
    exact h'
  | cons e l ih =>
    obtain ⟨s₁, h₁, hl⟩ := h
    exact ⟨s₁, h₁, ih hl⟩

theorem Replays.split {s s'' : σ} {l l' : List (κ × ρ)} (h : Replays code s (l ++ l') s'') :
    ∃ s', Replays code s l s' ∧ Replays code s' l' s'' := by
  induction l generalizing s with
  | nil => exact ⟨s, rfl, h⟩
  | cons e l ih =>
    obtain ⟨s₁, h₁, hl⟩ := h
    obtain ⟨s', hfront, hback⟩ := ih hl
    exact ⟨s', ⟨s₁, h₁, hfront⟩, hback⟩

theorem Schedule.settled {s : σ} {moves : List (Move τ κ σ)}
    (h : Schedule code (initial s : Config τ κ σ ρ) moves c) :
    ∃ base, Replays code s (effects c.trace) base ∧ Settled code c base := by
  have hstart : ∃ base, Replays code s (effects (initial s : Config τ κ σ ρ).trace) base ∧
      Settled code (initial s : Config τ κ σ ρ) base := ⟨s, rfl, settled_initial code s⟩
  refine h.invariant
    (I := fun c => ∃ base, Replays code s (effects c.trace) base ∧ Settled code c base) hstart ?_
  rintro c m c' - hs ⟨base, hreplays, hsettled⟩
  obtain ⟨l, base', heffects, hl, hsettled'⟩ := hsettled.moves (step_moves hs)
  refine ⟨base', ?_, hsettled'⟩
  rw [heffects]
  exact hreplays.append hl

end Linearization

inductive Stage (κ ρ : Type) where
  | idle
  | called (k : κ)
  | answered (k : κ) (r : ρ)

def Thread.stage : Thread κ σ ρ → Stage κ ρ
  | .idle => .idle
  | .peeking k _ => .called k
  | .waiting k _ => .called k
  | .inside k _ => .called k
  | .leaving k r => .answered k r

/-- The events of a thread: each call is invoked, then takes effect or has its look, and then
returns what that gave. -/
inductive Follows (t : τ) : List (Event τ κ ρ) → Stage κ ρ → Prop
  | nothing : Follows t [] .idle
  | invoked {l k} : Follows t l .idle → Follows t (l ++ [.invoked t k]) (.called k)
  | took {l k r} : Follows t l (.called k) → Follows t (l ++ [.took t k r]) (.answered k r)
  | peeked {l k r} : Follows t l (.called k) → Follows t (l ++ [.peeked t k r]) (.answered k r)
  | returned {l k r} : Follows t l (.answered k r) → Follows t (l ++ [.returned t k r]) .idle

section Order

variable [DecidableEq τ] {code : κ → Code σ ρ} {c c' : Config τ κ σ ρ}

def eventsOf (t : τ) (trace : List (Event τ κ ρ)) : List (Event τ κ ρ) :=
  trace.filter fun e => e.thread = t

def Orderly (c : Config τ κ σ ρ) : Prop :=
  ∀ t, Follows t (eventsOf t c.trace) (c.threads t).stage

theorem Orderly.set {t : τ} {p : Thread κ σ ρ} {events : List (Event τ κ ρ)} (h : Orderly c)
    (hown : ∀ e ∈ events, e.thread = t)
    (hp : Follows t (eventsOf t c.trace ++ events) p.stage) : Orderly (c.set t p events) := by
  intro t'
  have htrace : eventsOf t' (c.set t p events).trace =
      eventsOf t' c.trace ++ eventsOf t' events := List.filter_append ..
  have hthreads : (c.set t p events).threads t' = Function.update c.threads t p t' := rfl
  rw [htrace, hthreads]
  by_cases hne : t' = t
  · subst hne
    have hall : eventsOf t' events = events :=
      List.filter_eq_self.mpr fun e he => decide_eq_true (hown e he)
    rw [hall, Function.update_self]
    exact hp
  · have hnone : eventsOf t' events = [] := by
      refine List.filter_eq_nil_iff.mpr fun e he => ?_
      rw [hown e he, decide_eq_true_eq]
      exact fun heq => hne heq.symm
    rw [hnone, List.append_nil, Function.update_of_ne hne]
    exact h t'

theorem Orderly.moves (h : Orderly c) (hm : Moves code c c') : Orderly c' := by
  cases hm with
  | @answer t k r hidle hk =>
    have hstage := h t
    rw [hidle] at hstage
    refine h.set (by simp [Event.thread]) ?_
    have htook := Follows.took (r := r) (Follows.invoked (k := k) hstage)
    rwa [List.append_assoc] at htook
  | @approach t k view hidle hk =>
    have hstage := h t
    rw [hidle] at hstage
    exact h.set (by simp [Event.thread]) (.invoked hstage)
  | @queue t k b hidle hk =>
    have hstage := h t
    rw [hidle] at hstage
    exact h.set (by simp [Event.thread]) (.invoked hstage)
  | @look t k view seen hpeek hseen =>
    have hstage := h t
    rw [hpeek] at hstage
    exact h.set (by simp [Event.thread]) (.peeked hstage)
  | @enter t k b hwait hfree =>
    have hstage := h t
    rw [hwait] at hstage
    refine h.set (by simp) ?_
    rwa [List.append_nil]
  | @act t k write next hin =>
    have hstage := h t
    rw [hin] at hstage
    refine h.set (by simp) ?_
    rwa [List.append_nil]
  | @leave t k r hin =>
    have hstage := h t
    rw [hin] at hstage
    exact h.set (by simp [Event.thread]) (.took hstage)
  | @back t k r hleave =>
    have hstage := h t
    rw [hleave] at hstage
    exact h.set (by simp [Event.thread]) (.returned hstage)

theorem Schedule.orderly {s : σ} {moves : List (Move τ κ σ)}
    (h : Schedule code (initial s : Config τ κ σ ρ) moves c) : Orderly c := by
  refine h.invariant (I := Orderly) (fun _ => .nothing) ?_
  intro c m c' _ hs horderly
  exact horderly.moves (step_moves hs)

def Event.call : Event τ κ ρ → Option (τ × κ)
  | .invoked t k => some (t, k)
  | _ => none

def Event.answer : Event τ κ ρ → Option (τ × κ × ρ)
  | .took t k r => some (t, k, r)
  | .peeked t k r => some (t, k, r)
  | _ => none

def Event.result : Event τ κ ρ → Option (τ × κ × ρ)
  | .returned t k r => some (t, k, r)
  | _ => none

def calls (trace : List (Event τ κ ρ)) : List (τ × κ) := trace.filterMap Event.call

def answers (trace : List (Event τ κ ρ)) : List (τ × κ × ρ) := trace.filterMap Event.answer

def results (trace : List (Event τ κ ρ)) : List (τ × κ × ρ) := trace.filterMap Event.result

def answered (a : τ × κ × ρ) : τ × κ := (a.1, a.2.1)

omit [DecidableEq τ] in
theorem Follows.accounts {t : τ} {l : List (Event τ κ ρ)} {s : Stage κ ρ} (h : Follows t l s) :
    calls l = (answers l).map answered ++ (match s with | .called k => [(t, k)] | _ => []) ∧
      answers l = results l ++ (match s with | .answered k r => [(t, k, r)] | _ => []) := by
  induction h with
  | nothing => exact ⟨rfl, rfl⟩
  | invoked _ ih | took _ ih | peeked _ ih | returned _ ih =>
    obtain ⟨hcalls, hanswers⟩ := ih
    simp_all [calls, answers, results, answered, List.filterMap_cons, Event.call, Event.answer,
      Event.result]

omit [DecidableEq τ] in
theorem Follows.front {t : τ} {l l' : List (Event τ κ ρ)} {s : Stage κ ρ}
    (h : Follows t (l ++ l') s) : ∃ s', Follows t l s' := by
  generalize hall : l ++ l' = all at h
  induction h generalizing l' with
  | nothing => exact ⟨.idle, (List.append_eq_nil_iff.mp hall).1 ▸ .nothing⟩
  | invoked h ih | took h ih | peeked h ih | returned h ih =>
    rcases List.eq_nil_or_concat l' with rfl | ⟨l'', e, rfl⟩
    · rw [List.append_nil] at hall
      subst hall
      constructor
      first | exact .invoked h | exact .took h | exact .peeked h | exact .returned h
    · rw [List.concat_eq_append, ← List.append_assoc] at hall
      exact ih (List.append_inj_left' hall rfl)

theorem Orderly.results_subset (h : Orderly c) {pre post : List (Event τ κ ρ)}
    (htrace : c.trace = pre ++ post) : results pre ⊆ answers pre := by
  rintro ⟨t, k, r⟩ he
  obtain ⟨e, hmem, hresult⟩ := List.mem_filterMap.mp he
  have hthread : e.thread = t := by
    cases e <;> cases hresult
    rfl
  have hfollows : Follows t (eventsOf t pre ++ eventsOf t post) (c.threads t).stage := by
    have hall := h t
    rwa [htrace, eventsOf, List.filter_append] at hall
  obtain ⟨s, hpre⟩ := hfollows.front
  have hown : (t, k, r) ∈ results (eventsOf t pre) :=
    List.mem_filterMap.mpr ⟨e, List.mem_filter.mpr ⟨hmem, by simpa using hthread⟩, hresult⟩
  have hanswer : (t, k, r) ∈ answers (eventsOf t pre) := by
    rw [hpre.accounts.2]
    exact List.mem_append_left _ hown
  obtain ⟨e', hmem', hanswer'⟩ := List.mem_filterMap.mp hanswer
  exact List.mem_filterMap.mpr ⟨e', (List.mem_filter.mp hmem').1, hanswer'⟩

theorem perm_of_threads {α : Type} {l l' : List (τ × α)}
    (h : ∀ t, l.filter (fun e => e.1 = t) = l'.filter fun e => e.1 = t) : l.Perm l' := by
  classical
  refine List.perm_iff_count.mpr fun e => ?_
  have hcount (m : List (τ × α)) : m.count e = (m.filter fun e' => e'.1 = e.1).count e :=
    (List.count_filter (by simp)).symm
  rw [hcount l, hcount l', h]

theorem filterMap_eventsOf {α : Type} {f : Event τ κ ρ → Option (τ × α)}
    (hf : ∀ e a, f e = some a → a.1 = e.thread) (t : τ) (trace : List (Event τ κ ρ)) :
    (trace.filterMap f).filter (fun e => e.1 = t) = (eventsOf t trace).filterMap f := by
  unfold eventsOf
  induction trace with
  | nil => rfl
  | cons e trace ih =>
    rcases he : f e with _ | a
    · by_cases ht : e.thread = t
      · simp [he, ht, ih]
      · simp [he, ht, ih]
    · have ha := hf e a he
      by_cases ht : e.thread = t
      · simp [he, ht, ha, ih]
      · simp [he, ht, ha, ih]

theorem Orderly.idle (h : Orderly c) (hidle : ∀ t, c.threads t = .idle) :
    (calls c.trace).Perm ((answers c.trace).map answered) ∧
      (answers c.trace).Perm (results c.trace) := by
  have hcall : ∀ (e : Event τ κ ρ) a, Event.call e = some a → a.1 = e.thread := by
    intro e a ha
    cases e <;> cases ha
    rfl
  have hanswer : ∀ (e : Event τ κ ρ) a, Event.answer e = some a → a.1 = e.thread := by
    intro e a ha
    cases e <;> cases ha
    · rfl
    · rfl
  have hresult : ∀ (e : Event τ κ ρ) a, Event.result e = some a → a.1 = e.thread := by
    intro e a ha
    cases e <;> cases ha
    rfl
  have hthread : ∀ t, calls (eventsOf t c.trace) = (answers (eventsOf t c.trace)).map answered ∧
      answers (eventsOf t c.trace) = results (eventsOf t c.trace) := by
    intro t
    have hfollows := h t
    rw [hidle t] at hfollows
    simpa [Thread.stage] using hfollows.accounts
  constructor
  · refine perm_of_threads fun t => ?_
    have hmap : ((answers c.trace).map answered).filter (fun e => e.1 = t) =
        ((answers c.trace).filter fun e => e.1 = t).map answered := by
      rw [List.filter_map]
      rfl
    rw [calls, hmap, answers, filterMap_eventsOf hcall, filterMap_eventsOf hanswer]
    exact (hthread t).1
  · refine perm_of_threads fun t => ?_
    rw [answers, results, filterMap_eventsOf hanswer, filterMap_eventsOf hresult]
    exact (hthread t).2

end Order

section Looks

variable {code : κ → Code σ ρ} {c c' : Config τ κ σ ρ}

def Peeks (code : κ → Code σ ρ) (trace : List (Event τ κ ρ)) : Prop :=
  ∀ t k r, .peeked t k r ∈ trace → ∃ view, code k = .peek view

theorem Peeks.append {trace events : List (Event τ κ ρ)} (h : Peeks code trace)
    (h' : Peeks code events) : Peeks code (trace ++ events) := by
  intro t k r hmem
  rcases List.mem_append.mp hmem with hmem | hmem
  · exact h t k r hmem
  · exact h' t k r hmem

variable [DecidableEq τ]

theorem Peeks.moves {base : σ} (h : Peeks code c.trace) (hsettled : Settled code c base)
    (hm : Moves code c c') : Peeks code c'.trace := by
  cases hm with
  | @look t k view seen hpeek hseen =>
    refine h.append ?_
    intro t' k' r hmem
    cases List.mem_singleton.mp hmem
    have hself := hsettled.placed t
    rw [hpeek] at hself
    exact ⟨view, hself⟩
  | _ => exact h.append (by simp [Peeks])

theorem Schedule.peeks {s : σ} {moves : List (Move τ κ σ)}
    (h : Schedule code (initial s : Config τ κ σ ρ) moves c) : Peeks code c.trace := by
  have hstart : Peeks code (initial s : Config τ κ σ ρ).trace := by
    intro t k r hmem
    cases hmem
  induction h with
  | start => exact hstart
  | next hr _ hs ih =>
    obtain ⟨base, -, hsettled⟩ := Schedule.settled hr
    exact ih.moves hsettled (step_moves hs)

theorem Schedule.effect_of_result {s : σ} {moves : List (Move τ κ σ)}
    (h : Schedule code (initial s : Config τ κ σ ρ) moves c) {pre post : List (Event τ κ ρ)}
    (htrace : c.trace = pre ++ post) {t : τ} {k : κ} {r : ρ} (hmem : (t, k, r) ∈ results pre)
    (hcode : ∀ view, code k ≠ .peek view) : (k, r) ∈ effects pre := by
  have hanswer := (Schedule.orderly h).results_subset htrace hmem
  obtain ⟨e, he, heq⟩ := List.mem_filterMap.mp hanswer
  cases e with
  | took t' k' r' =>
    cases heq
    exact List.mem_filterMap.mpr ⟨_, he, rfl⟩
  | peeked t' k' r' =>
    cases heq
    have hall : .peeked t k r ∈ c.trace := by
      rw [htrace]
      exact List.mem_append_left post he
    obtain ⟨view, hview⟩ := Schedule.peeks h t k r hall
    exact absurd hview (hcode view)
  | invoked | returned => cases heq

end Looks

section Doomed

variable {code : κ → Code σ ρ} {c c' c'' : Config τ κ σ ρ} {t : τ}

structure Doomed (c : Config τ κ σ ρ) (t : τ) : Prop where
  holder : c.holder = some t
  inside : ∃ k b, c.threads t = .inside k b ∧ b.run c.state = none
  alone : ∀ t' k b, c.threads t' = .inside k b → t' = t

theorem Settled.doomed {base : σ} {k : κ} {b b₀ : Body σ ρ} (h : Settled code c base)
    (hin : c.threads t = .inside k b) (hcode : code k = .guarded b₀) (hstuck : b₀.run base = none) :
    Doomed c t := by
  have hholder := h.holder hin
  obtain ⟨k', b', b₀', hthread, hcode', hrun, -⟩ := h.held t hholder
  rw [hin] at hthread
  cases hthread
  rw [hcode] at hcode'
  cases hcode'
  refine ⟨hholder, ⟨k, b, hin, hrun.trans hstuck⟩, ?_⟩
  intro t' k' b' hin'
  exact Option.some.inj ((h.holder hin').symm.trans hholder)

/-- From then on no call that takes the mutex takes effect, and those in front of it stay
there. -/
structure FrozenSince (code : κ → Code σ ρ) (c : Config τ κ σ ρ) (t : τ) (c' : Config τ κ σ ρ) :
    Prop where
  doomed : Doomed c' t
  waiting : ∀ t' k b, c.threads t' = .waiting k b → c'.threads t' = .waiting k b
  taken : ∃ l, effects c'.trace = effects c.trace ++ l ∧ ∀ e ∈ l, code e.1 = .ret e.2

theorem Doomed.frozenSince (h : Doomed c t) : FrozenSince code c t c :=
  ⟨h, fun _ _ _ h => h, [], (List.append_nil _).symm, fun _ he => absurd he List.not_mem_nil⟩

variable [DecidableEq τ]

theorem Doomed.set {t' : τ} {p : Thread κ σ ρ} {events : List (Event τ κ ρ)} (h : Doomed c t)
    (hout : ∀ k b, c.threads t' ≠ .inside k b) (hp : ∀ k b, p ≠ .inside k b) :
    Doomed (c.set t' p events) t := by
  obtain ⟨k, b, hin, hstuck⟩ := h.inside
  have hne : t ≠ t' := by
    rintro rfl
    exact hout k b hin
  refine ⟨h.holder, ⟨k, b, (Function.update_of_ne hne ..).trans hin, hstuck⟩, ?_⟩
  intro t'' k' b' hin'
  change Function.update c.threads t' p t'' = _ at hin'
  by_cases heq : t'' = t'
  · subst heq
    rw [Function.update_self] at hin'
    exact absurd hin' (hp k' b')
  · rw [Function.update_of_ne heq] at hin'
    exact h.alone t'' k' b' hin'

theorem FrozenSince.set {t' : τ} {p : Thread κ σ ρ} {events : List (Event τ κ ρ)}
    (h : FrozenSince code c t c') (hout : ∀ k b, c'.threads t' ≠ .inside k b)
    (hwait : ∀ k b, c'.threads t' ≠ .waiting k b) (hp : ∀ k b, p ≠ .inside k b)
    (hret : ∀ e ∈ effects events, code e.1 = .ret e.2) :
    FrozenSince code c t (c'.set t' p events) := by
  obtain ⟨l, heffects, hl⟩ := h.taken
  refine ⟨h.doomed.set hout hp, ?_, l ++ effects events, ?_, ?_⟩
  · intro t'' k b hw
    have hw' := h.waiting t'' k b hw
    have hne : t'' ≠ t' := by
      rintro rfl
      exact hwait k b hw'
    exact (Function.update_of_ne hne ..).trans hw'
  · have htrace : (c'.set t' p events).trace = c'.trace ++ events := rfl
    rw [htrace, effects_append, heffects, List.append_assoc]
  · intro e he
    rcases List.mem_append.mp he with he | he
    · exact hl e he
    · exact hret e he

theorem FrozenSince.moves (h : FrozenSince code c t c') (hm : Moves code c' c'') :
    FrozenSince code c t c'' := by
  obtain ⟨k, b, hin, hstuck⟩ := h.doomed.inside
  cases hm with
  | @answer t' k' r hidle hk =>
    refine h.set (by simp [hidle]) (by simp [hidle]) (by simp) ?_
    intro e he
    obtain rfl : e = (k', r) := List.mem_singleton.mp he
    exact hk
  | @approach t' k' view hidle hk =>
    exact h.set (by simp [hidle]) (by simp [hidle]) (by simp) (by simp [effects, Event.effect])
  | @queue t' k' b' hidle hk =>
    exact h.set (by simp [hidle]) (by simp [hidle]) (by simp) (by simp [effects, Event.effect])
  | @look t' k' view seen hpeek hseen =>
    exact h.set (by simp [hpeek]) (by simp [hpeek]) (by simp) (by simp [effects, Event.effect])
  | @back t' k' r hleave =>
    exact h.set (by simp [hleave]) (by simp [hleave]) (by simp) (by simp [effects, Event.effect])
  | @enter t' k' b' hwait hfree =>
    exact absurd (hfree.symm.trans h.doomed.holder) (by simp)
  | @leave t' k' r hin' =>
    obtain rfl := h.doomed.alone t' k' _ hin'
    rw [hin] at hin'
    cases hin'
    cases hstuck
  | @act t' k' write next hin' =>
    obtain rfl := h.doomed.alone t' k' _ hin'
    rw [hin] at hin'
    cases hin'
    refine ⟨⟨h.doomed.holder, ⟨k, _, Function.update_self .., hstuck⟩, ?_⟩, ?_, ?_⟩
    · intro t'' k'' b'' hin''
      by_contra hne
      exact hne (h.doomed.alone t'' k'' b'' ((Function.update_of_ne hne ..).symm.trans hin''))
    · intro t'' k'' b'' hw
      have hw' := h.waiting t'' k'' b'' hw
      have hne : t'' ≠ t' := by
        rintro rfl
        rw [hin] at hw'
        cases hw'
      exact (Function.update_of_ne hne ..).trans hw'
    · obtain ⟨l, heffects, hl⟩ := h.taken
      exact ⟨l, by simpa [Config.set] using heffects, hl⟩

theorem Doomed.frozen {moves : List (Move τ κ σ)} (h : Doomed c t) (hs : Schedule code c moves c') :
    FrozenSince code c t c' := by
  refine hs.invariant (I := FrozenSince code c t) h.frozenSince ?_
  intro c' m c'' _ hstep hfrozen
  exact hfrozen.moves (step_moves hstep)

theorem inside_completes {k : κ} {b : Body σ ρ} {r : ρ} {s : σ} (hin : c.threads t = .inside k b)
    (hrun : b.run c.state = some (r, s)) :
    ∃ moves c', Schedule code c moves c' ∧ c'.holder = none ∧
      ∀ t', t' ≠ t → c'.threads t' = c.threads t' := by
  induction b generalizing c with
  | leave r' =>
    have hstep : step code c (.advance t) =
        some { c.set t (.leaving k r') [.took t k r'] with holder := none } := by
      simp only [step, Config.advance, hin]
    exact ⟨_, _, .next .start trivial hstep, rfl, fun t' hne => Function.update_of_ne hne ..⟩
  | act write next ih =>
    have hstep : step code c (.advance t) =
        some { c.set t (.inside k (next c.state)) [] with state := write c.state } := by
      simp only [step, Config.advance, hin]
    obtain ⟨moves, c', hs, hfree, hothers⟩ := ih c.state
      (c := { c.set t (.inside k (next c.state)) [] with state := write c.state })
      (Function.update_self ..) hrun
    refine ⟨_, c', (Run.next .start trivial hstep).trans hs, hfree, ?_⟩
    intro t' hne
    exact (hothers t' hne).trans (Function.update_of_ne hne ..)
  | relock => cases hrun

theorem Settled.enters_iff {base : σ} {k : κ} {b : Body σ ρ} (h : Settled code c base)
    (hwait : c.threads t = .waiting k b) :
    (∃ moves c', Schedule code c moves c' ∧ c'.threads t = .inside k b) ↔
      ∀ t', ¬ Doomed c t' := by
  constructor
  · rintro ⟨moves, c', hs, hin⟩ t' hdoomed
    have hstill := (hdoomed.frozen hs).waiting t k b hwait
    rw [hin] at hstill
    cases hstill
  · intro hnone
    have hfreed : ∃ moves c', Schedule code c moves c' ∧ c'.holder = none ∧
        c'.threads t = .waiting k b := by
      rcases hholder : c.holder with _ | t'
      · exact ⟨[], c, .start, hholder, hwait⟩
      · obtain ⟨k', b', b₀, hin, hcode, hrun, -⟩ := h.held t' hholder
        rcases hres : b'.run c.state with _ | ⟨r, s⟩
        · exact absurd (h.doomed hin hcode (hrun.symm.trans hres)) (hnone t')
        · obtain ⟨moves, c', hs, hfree, hothers⟩ := inside_completes hin hres
          have hne : t ≠ t' := by
            rintro rfl
            rw [hwait] at hin
            cases hin
          exact ⟨moves, c', hs, hfree, (hothers t hne).trans hwait⟩
    obtain ⟨moves, c', hs, hfree, hwait'⟩ := hfreed
    have hstep : step code c' (.advance t) =
        some { c'.set t (.inside k b) [] with holder := some t } := by
      simp only [step, Config.advance, hwait', hfree]
      rfl
    exact ⟨_, _, .next hs trivial hstep, Function.update_self ..⟩

end Doomed

end Monitors
