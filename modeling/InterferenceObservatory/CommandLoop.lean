import InterferenceObservatory.Commands

/-! The command loop of a worker over any sequence of frames: which identity its answers carry,
and what a command that is too short or too long does. -/

namespace Iobs.Proto
open ByteFormat ByteFormat.Parser Runs

theorem readCommand_returns {α : Type} {p : Parser Unit α} {P : α → Prop} (h : Returns p P)
    {payload : List UInt8} {a : α} (ha : readCommand p payload = some a) : P a := by
  unfold readCommand at ha
  rcases hp : p.run ⟨payload, 0, true⟩ with ⟨e | b, r, g⟩
  · rw [hp] at ha
    cases ha
  · rw [hp] at ha
    dsimp only at ha
    split_ifs at ha
    obtain rfl := Option.some.inj ha
    exact h _ b (by rw [hp])

theorem measureBaseline_returns (w : Worker) : Returns (measureBaseline w) fun b =>
    b.workerId = w.id ∧ b.workerBoot = w.currentBoot := by
  unfold measureBaseline
  repeat refine .bind fun _ => ?_
  exact returns_pure ⟨rfl, rfl⟩

theorem measureCorun_returns (w : Worker) : Returns (measureCorun w) fun o =>
    o.workerId = w.id ∧ o.workerBoot = w.currentBoot := by
  unfold measureCorun
  repeat refine .bind fun _ => ?_
  exact returns_pure ⟨rfl, rfl⟩

def wholeCommand {α : Type} (p : Parser Unit α) (payload : List UInt8) : Bool :=
  match p.run ⟨payload, 0, true⟩ with
  | (.ok _, r, _) => r.ok && r.pos == payload.length
  | (.error _, _, _) => false

def Worker.wellFormed (w : Worker) (f : Frame) : Bool :=
  match f.type with
  | .measureBaseline => wholeCommand (measureBaseline w) f.payload
  | .measureCorun => wholeCommand (measureCorun w) f.payload
  | .revalidate => f.payload.length == 8
  | .exitProcess => f.payload.isEmpty
  | _ => true

/-- The frames on which the loop does what it should: a measurement may be truncated but has
nothing after it, and the other two commands have their own length. -/
def Worker.Proper (w : Worker) (f : Frame) : Prop :=
  match f.type with
  | .measureBaseline => (readCommand (measureBaseline w) f.payload).isSome →
      wholeCommand (measureBaseline w) f.payload = true
  | .measureCorun => (readCommand (measureCorun w) f.payload).isSome →
      wholeCommand (measureCorun w) f.payload = true
  | .revalidate => f.payload.length = 8
  | .exitProcess => f.payload = []
  | _ => True

def announced (boot : WorkerBootId) (frames : List Frame) : WorkerBootId :=
  frames.foldl (fun boot f => if f.type = .revalidate ∧ f.payload.length = 8 then
    ⟨(ByteFormat.Reader.mk f.payload 0 true).u64.1⟩ else boot) boot

structure Frame.Carries (g : Frame) (id : WorkerId) (boot : WorkerBootId) : Prop where
  baseline : g.type = .publishBaseline →
    ∃ b, g.payload = encodeBaseline b ∧ b.workerId = id ∧ b.workerBoot = boot
  observation : g.type = .publishObservation →
    ∃ o, g.payload = encodeObservation o ∧ o.workerId = id ∧ o.workerBoot = boot

def Frame.Silent (g : Frame) : Prop :=
  g.type ≠ .publishBaseline ∧ g.type ≠ .publishObservation ∧ g.type ≠ .ack

def Worker.step (w : Worker) (f : Frame) : Option Worker :=
  if w.running then some (w.handle f).1 else none

def Worker.answers (w : Worker) (frames : List Frame) : List Frame :=
  outputs Worker.step (fun w f => (w.handle f).2.toList) w frames

theorem serve_received {w : Worker} (hw : w.running = true) {f : Frame} {s s' : Socket}
    (hrecv : recvFrame ⟨.hello, []⟩ s = (.ok (), f, s')) (sigpipe : Nat → Bool) (fuel : Nat)
    (out : Sender) :
    let out' := (w.handle f).2.toList.foldl (fun out g => (sendFrame g.type g.payload out).2) out
    serve sigpipe (fuel + 1) w s out = serve sigpipe fuel (w.handle f).1 s' out' ∨
      (∃ g, (sendReply sigpipe g out).1 = true) ∧
        serve sigpipe (fuel + 1) w s out = ((w.handle f).1, s', out') := by
  rw [serve, hw, Bool.not_true, if_neg Bool.false_ne_true, hrecv]
  dsimp only
  rcases (w.handle f).2 with _ | g
  · exact .inl rfl
  · dsimp only
    rw [sendReply_snd]
    split_ifs with hkilled
    · exact .inr ⟨⟨g, hkilled⟩, rfl⟩
    · exact .inl rfl

theorem serve_run (sigpipe : Nat → Bool) (fuel : Nat) (w : Worker) (s : Socket) (out : Sender) :
    ∃ frames, exec Worker.step w frames = some (serve sigpipe fuel w s out).1 ∧
      (serve sigpipe fuel w s out).2.2 =
        (w.answers frames).foldl (fun out g => (sendFrame g.type g.payload out).2) out := by
  induction fuel generalizing w s out with
  | zero => exact ⟨[], rfl, rfl⟩
  | succ fuel ih =>
    by_cases hw : w.running = true
    · rcases hrecv : recvFrame ⟨.hello, []⟩ s with ⟨e | ⟨⟩, f, s'⟩
      · refine ⟨[], ?_⟩
        rw [serve, hw, Bool.not_true, if_neg Bool.false_ne_true, hrecv]
        exact ⟨rfl, rfl⟩
      · have hstep : w.step f = some (w.handle f).1 := if_pos hw
        rcases serve_received hw hrecv sigpipe fuel out with hserve | ⟨-, hserve⟩
        · obtain ⟨frames, hexec, hsent⟩ := ih (w.handle f).1 s'
            ((w.handle f).2.toList.foldl (fun out g => (sendFrame g.type g.payload out).2) out)
          rw [hserve]
          refine ⟨f :: frames, ?_, ?_⟩
          · rw [exec, hstep, Option.bind_some]
            exact hexec
          · rw [hsent, Worker.answers, Worker.answers, outputs, hstep, List.foldl_append]
        · rw [hserve]
          refine ⟨[f], ?_, ?_⟩
          · rw [exec, hstep, Option.bind_some]
            rfl
          · rw [Worker.answers, outputs, hstep, List.foldl_append]
            rfl
    · rw [Bool.not_eq_true] at hw
      refine ⟨[], ?_⟩
      rw [serve, hw]
      exact ⟨rfl, rfl⟩

section Round

variable {w : Worker} {f : Frame}

theorem handle_id (w : Worker) (f : Frame) : (w.handle f).1.id = w.id := by
  unfold Worker.handle
  split <;> rfl

theorem handle_measureBaseline (w : Worker) (payload : List UInt8) :
    w.handle ⟨.measureBaseline, payload⟩ =
      (w, (readCommand (measureBaseline w) payload).map fun b =>
        ⟨.publishBaseline, encodeBaseline b⟩) := rfl

theorem handle_measureCorun (w : Worker) (payload : List UInt8) :
    w.handle ⟨.measureCorun, payload⟩ =
      (w, (readCommand (measureCorun w) payload).map fun o =>
        ⟨.publishObservation, encodeObservation o⟩) := rfl

theorem handle_boot (h : w.Proper f) :
    (w.handle f).1.currentBoot = announced w.currentBoot [f] := by
  obtain ⟨type, payload⟩ := f
  cases type with
  | revalidate => exact (if_pos ⟨rfl, h⟩).symm
  | _ => rfl

theorem handle_carries {g : Frame} (h : (w.handle f).2 = some g) :
    g.Carries w.id w.currentBoot := by
  obtain ⟨type, payload⟩ := f
  cases type with
  | measureBaseline =>
    simp only [handle_measureBaseline, Option.map_eq_some_iff] at h
    obtain ⟨b, hb, rfl⟩ := h
    have hown := readCommand_returns (measureBaseline_returns w) hb
    refine ⟨fun _ => ⟨b, rfl, hown⟩, ?_⟩
    intro htype
    cases htype
  | measureCorun =>
    simp only [handle_measureCorun, Option.map_eq_some_iff] at h
    obtain ⟨o, ho, rfl⟩ := h
    have hown := readCommand_returns (measureCorun_returns w) ho
    refine ⟨?_, fun _ => ⟨o, rfl, hown⟩⟩
    intro htype
    cases htype
  | exitProcess => cases h
  | _ =>
    obtain rfl := Option.some.inj h
    refine ⟨?_, ?_⟩ <;> (intro htype; cases htype)

def Worker.Ignores (w : Worker) (f : Frame) : Prop :=
  w.wellFormed f = false →
    (w.handle f).1 = w ∧ ∀ g, (w.handle f).2 = some g → g.Silent

theorem ignores_measure_iff {α : Type} (p : Parser Unit α) (payload : List UInt8)
    (answer : α → Frame) (hanswer : ∀ a, ¬ (answer a).Silent) :
    (wholeCommand p payload = false → ∀ g, (readCommand p payload).map answer = some g → g.Silent) ↔
      ((readCommand p payload).isSome → wholeCommand p payload = true) := by
  rcases hread : readCommand p payload with _ | a
  · simp
  · simp only [Option.map_some, Option.some.injEq, forall_eq', Option.isSome_some, true_imp_iff,
      hanswer a, imp_false, Bool.not_eq_false]

theorem ignores_iff (hw : w.running = true) : w.Ignores f ↔ w.Proper f := by
  obtain ⟨type, payload⟩ := f
  cases type with
  | measureBaseline =>
    have hiff := ignores_measure_iff (measureBaseline w) payload
      (fun b => ⟨.publishBaseline, encodeBaseline b⟩) fun b h => h.1 rfl
    unfold Worker.Ignores Worker.Proper Worker.wellFormed
    rw [handle_measureBaseline]
    simpa only [true_and] using hiff
  | measureCorun =>
    have hiff := ignores_measure_iff (measureCorun w) payload
      (fun o => ⟨.publishObservation, encodeObservation o⟩) fun o h => h.2.1 rfl
    unfold Worker.Ignores Worker.Proper Worker.wellFormed
    rw [handle_measureCorun]
    simpa only [true_and] using hiff
  | revalidate =>
    constructor
    · intro h
      by_contra hlen
      have hmal : w.wellFormed ⟨.revalidate, payload⟩ = false := beq_eq_false_iff_ne.mpr hlen
      exact ((h hmal).2 _ rfl).2.2 rfl
    · intro hlen hmal
      exact absurd hlen (beq_eq_false_iff_ne.mp hmal)
  | exitProcess =>
    constructor
    · intro h
      by_contra hne
      have hmal : w.wellFormed ⟨.exitProcess, payload⟩ = false := by
        simpa [Worker.wellFormed, Worker.Proper] using hne
      -- the loop would end
      have hstop : (w.handle ⟨.exitProcess, payload⟩).1.running = w.running :=
        congrArg Worker.running (h hmal).1
      rw [hw] at hstop
      cases hstop
    · intro hnil hmal
      simp only [Worker.Proper] at hnil
      rw [hnil] at hmal
      cases hmal
  | _ =>
    constructor
    · intro _
      trivial
    · intro _ hmal
      cases hmal

end Round

structure Round (w₀ : Worker) (frames h : List Frame) (w : Worker) (f : Frame) : Prop where
  next : h ++ [f] <+: frames
  reached : Run Worker.step (fun _ _ => True) w₀ h w
  running : w.running = true

/-- In every round of the loop over `frames` an answer carries the identity of the worker and
the boot that was last announced, and a malformed command is ignored. -/
def Worker.Obeys (w₀ : Worker) (frames : List Frame) : Prop :=
  ∀ h w f, Round w₀ frames h w f →
    (∀ g, (w.handle f).2 = some g → g.Carries w₀.id (announced w₀.currentBoot h)) ∧ w.Ignores f

theorem announced_concat (boot : WorkerBootId) (h : List Frame) (f : Frame) :
    announced boot (h ++ [f]) = announced (announced boot h) [f] := List.foldl_append

theorem run_identity {w₀ w : Worker} {frames h : List Frame} (hpre : h <+: frames)
    (hproper : ∀ h w f, Round w₀ frames h w f → w.Proper f)
    (hr : Run Worker.step (fun _ _ => True) w₀ h w) :
    w.id = w₀.id ∧ w.currentBoot = announced w₀.currentBoot h := by
  induction hr with
  | start => exact ⟨rfl, rfl⟩
  | @next h w w' f hr _ hs ih =>
    obtain ⟨hid, hboot⟩ := ih ((List.prefix_append h [f]).trans hpre)
    unfold Worker.step at hs
    split_ifs at hs with hw
    obtain rfl := Option.some.inj hs
    rw [announced_concat, ← hboot, handle_id]
    exact ⟨hid, handle_boot (hproper h w f ⟨hpre, hr, hw⟩)⟩

/-- The loop obeys on a sequence of frames exactly if all frames it takes of them are proper. -/
theorem obeys_iff (w₀ : Worker) (frames : List Frame) :
    w₀.Obeys frames ↔ ∀ h w f, Round w₀ frames h w f → w.Proper f := by
  constructor
  · intro hobeys h w f hround
    exact (ignores_iff hround.running).mp (hobeys h w f hround).2
  · intro hproper h w f hround
    refine ⟨?_, (ignores_iff hround.running).mpr (hproper h w f hround)⟩
    intro g hg
    have hpre : h <+: frames := (List.prefix_append h [f]).trans hround.next
    obtain ⟨hid, hboot⟩ := run_identity hpre hproper hround.reached
    rw [← hid, ← hboot]
    exact handle_carries hg

theorem malformed_commands_obeyed :
    let w : Worker := ⟨⟨1⟩, ⟨1⟩, true⟩
    let short : Frame := ⟨.revalidate, [7, 7, 7]⟩
    let measure : Frame := ⟨.measureBaseline, baselineCommand Demo.baseline⟩
    (¬ w.Obeys [short, measure] ∧ ∃ b, w.answers [short, measure] =
      [⟨.ack, []⟩, ⟨.publishBaseline, encodeBaseline b⟩] ∧ b.workerBoot = ⟨0x070707⟩) ∧
    ¬ w.Obeys [⟨.measureBaseline, measure.payload ++ [0]⟩] ∧ ¬ w.Obeys [⟨.exitProcess, [0]⟩] := by
  dsimp only
  have hround : ∀ f frames, Round ⟨⟨1⟩, ⟨1⟩, true⟩ (f :: frames) [] ⟨⟨1⟩, ⟨1⟩, true⟩ f := by
    intro f frames
    exact ⟨List.prefix_append [f] frames, .start, rfl⟩
  refine ⟨⟨?_, Worker.baseline ⟨⟨1⟩, ⟨0x070707⟩, true⟩ Demo.baseline, ?_, rfl⟩, ?_, ?_⟩
  · intro h
    have hsame := ((h _ _ _ (hround _ _)).2 rfl).1
    exact absurd (congrArg Worker.currentBoot hsame) (by decide +kernel)
  · decide +kernel
  · intro h
    have hsilent := ((h _ _ _ (hround _ _)).2 (by decide +kernel)).2
      ⟨.publishBaseline, encodeBaseline (Worker.baseline ⟨⟨1⟩, ⟨1⟩, true⟩ Demo.baseline)⟩
      (by decide +kernel)
    exact hsilent.1 rfl
  · intro h
    have hsame := ((h _ _ _ (hround _ _)).2 rfl).1
    exact absurd (congrArg Worker.running hsame) (by decide +kernel)

end Iobs.Proto
