import InterferenceObservatory.CommandLoop
import Mathlib.Data.Nat.Digits.Lemmas

/-! A worker at the end of an arbitrary byte stream. Whatever arrives, and however the two ends
cut it into chunks, the loop acts on the complete frames at the front of the stream and on
nothing after them; and what the coordinator reads on its side is the greeting of the worker and
then the answers to exactly these frames, as far as a signal or a reset does not cut it off. -/

namespace Iobs.Proto
open ByteFormat Persist Runs

theorem frameBytes_inj {f g : Frame} (hf : f.payload.length ≤ kMaxFrame)
    (hg : g.payload.length ≤ kMaxFrame) {rest rest' : List UInt8}
    (h : frameBytes f ++ rest = frameBytes g ++ rest') : f = g ∧ rest = rest' := by
  -- both are what `recv_frame` makes of the same bytes
  let s : Socket := ⟨frameBytes f ++ rest, false, fun _ => 1, 0⟩
  have hs : s.incoming = frameBytes g ++ rest' := h
  obtain ⟨calls, hrecv⟩ := recvFrame_sent hf (show s.incoming = _ from rfl) ⟨.hello, []⟩
  obtain ⟨calls', hrecv'⟩ := recvFrame_sent hg hs ⟨.hello, []⟩
  rw [hrecv] at hrecv'
  obtain ⟨-, hframe, hsocket⟩ : _ ∧ f = g ∧ _ = _ := by
    simpa only [Prod.mk.injEq] using hrecv'
  exact ⟨hframe, congrArg Socket.incoming hsocket⟩

def Exhausted (bytes : List UInt8) : Prop :=
  ∀ f : Frame, f.payload.length ≤ kMaxFrame → ¬ frameBytes f <+: bytes

theorem recvFrame_exhausted {s : Socket} {out : Frame} {e : String} {s' : Socket} {f : Frame}
    (h : recvFrame out s = (.error e, f, s')) : Exhausted s.incoming := by
  rintro g hg ⟨rest, hrest⟩
  obtain ⟨calls, hrecv⟩ := recvFrame_sent hg hrest.symm out
  rw [hrecv] at h
  cases h

/-- The frames that stand at the front of the stream one after the other, as far as the loop
goes: it ends with a command to exit or where no further frame is complete. -/
structure Worker.Takes (w : Worker) (bytes : List UInt8) (frames : List Frame) (w' : Worker) :
    Prop where
  fits : ∀ f ∈ frames, f.payload.length ≤ kMaxFrame
  front : ∃ rest, bytes = frames.flatMap frameBytes ++ rest ∧
    (w'.running = true → Exhausted rest)
  run : exec Worker.step w frames = some w'

theorem step_running {w w' : Worker} {f : Frame} (h : w.step f = some w') :
    w.running = true ∧ w' = (w.handle f).1 := by
  unfold Worker.step at h
  split_ifs at h with hw
  exact ⟨hw, (Option.some.inj h).symm⟩

namespace Worker.Takes

variable {w w' w₁ w₂ : Worker} {bytes : List UInt8} {f : Frame}
  {frames frames₁ frames₂ : List Frame}

theorem nil_iff : w.Takes bytes [] w' ↔ w' = w ∧ (w.running = true → Exhausted bytes) := by
  constructor
  · intro h
    obtain rfl := Option.some.inj h.run
    obtain ⟨rest, rfl, hend⟩ := h.front
    exact ⟨rfl, hend⟩
  · rintro ⟨rfl, hend⟩
    exact ⟨nofun, ⟨bytes, rfl, hend⟩, rfl⟩

theorem cons_iff : w.Takes bytes (f :: frames) w' ↔ w.running = true ∧
    f.payload.length ≤ kMaxFrame ∧
    ∃ tail, bytes = frameBytes f ++ tail ∧ (w.handle f).1.Takes tail frames w' := by
  constructor
  · intro h
    obtain ⟨w₁, hstep, hrun⟩ := Option.bind_eq_some_iff.mp h.run
    obtain ⟨hw, rfl⟩ := step_running hstep
    obtain ⟨rest, rfl, hend⟩ := h.front
    refine ⟨hw, h.fits f (List.mem_cons_self ..), frames.flatMap frameBytes ++ rest, ?_, ?_⟩
    · rw [List.flatMap_cons, List.append_assoc]
    · exact ⟨fun g hg => h.fits g (List.mem_cons_of_mem _ hg), ⟨rest, rfl, hend⟩, hrun⟩
  · rintro ⟨hw, hf, tail, rfl, h⟩
    obtain ⟨rest, rfl, hend⟩ := h.front
    refine ⟨List.forall_mem_cons.mpr ⟨hf, h.fits⟩, ⟨rest, ?_, hend⟩, ?_⟩
    · rw [List.flatMap_cons, List.append_assoc]
    · have hstep : w.step f = some (w.handle f).1 := if_pos hw
      rw [exec, hstep, Option.bind_some]
      exact h.run

theorem unique (h₁ : w.Takes bytes frames₁ w₁) (h₂ : w.Takes bytes frames₂ w₂) :
    frames₁ = frames₂ ∧ w₁ = w₂ := by
  induction frames₁ generalizing w bytes frames₂ with
  | nil =>
    obtain ⟨rfl, hend⟩ := nil_iff.mp h₁
    rcases frames₂ with _ | ⟨g, frames₂⟩
    · exact ⟨rfl, (nil_iff.mp h₂).1.symm⟩
    · obtain ⟨hw, hg, tail, rfl, -⟩ := cons_iff.mp h₂
      exact absurd (List.prefix_append ..) (hend hw g hg)
  | cons f frames₁ ih =>
    obtain ⟨hw, hf, tail, rfl, htail⟩ := cons_iff.mp h₁
    rcases frames₂ with _ | ⟨g, frames₂⟩
    · obtain ⟨rfl, hend⟩ := nil_iff.mp h₂
      exact absurd (List.prefix_append ..) (hend hw f hf)
    · obtain ⟨-, hg, tail', hbytes, htail'⟩ := cons_iff.mp h₂
      obtain ⟨rfl, rfl⟩ := frameBytes_inj hf hg hbytes
      obtain ⟨rfl, rfl⟩ := ih htail htail'
      exact ⟨rfl, rfl⟩

end Worker.Takes

def sendAll (out : Sender) (answers : List Frame) : Sender :=
  answers.foldl (fun out g => (sendFrame g.type g.payload out).2) out

theorem writeLoop_takes (fuel : Nat) (data : List UInt8) (s : Sender) :
    (writeLoop fuel data s).2.takes = s.takes := by
  induction fuel generalizing data s with
  | zero => cases data <;> rfl
  | succ fuel ih =>
    rcases data with _ | ⟨b, data⟩
    · rfl
    · rw [writeLoop, Sender.send]
      · rcases s.takes s.calls with _ | k
        · rfl
        · exact ih _ _
      · exact List.cons_ne_nil b data

theorem sendFrame_takes (g : Frame) (s : Sender) :
    (sendFrame g.type g.payload s).2.takes = s.takes := by
  unfold sendFrame
  split_ifs
  · rfl
  · exact writeLoop_takes ..

theorem sendAll_takes (answers : List Frame) (out : Sender) :
    (sendAll out answers).takes = out.takes := by
  induction answers generalizing out with
  | nil => rfl
  | cons g answers ih => exact (ih _).trans (sendFrame_takes g out)

/-- The loop is not ended by a signal: no `send` fails, or the signal is ignored. -/
def Spared (sigpipe : Nat → Bool) (out : Sender) : Prop :=
  (∀ i, out.takes i ≠ none) ∨ ∀ i, sigpipe i = false

/-- What the loop has done when it ends: it took the first of the frames at the front of `bytes`,
all of them if no signal ended it, and nothing is unread if nothing follows them. -/
structure Served (sigpipe : Nat → Bool) (w : Worker) (bytes : List UInt8) (out : Sender)
    (frames taken : List Frame) (r : Worker × Socket × Sender) : Prop where
  front : taken <+: frames
  run : exec Worker.step w taken = some r.1
  sent : r.2.2 = sendAll out (w.answers taken)
  all : Spared sigpipe out → taken = frames
  unread : taken = frames → bytes = frames.flatMap frameBytes → r.2.1.incoming = []

theorem serve_takes (sigpipe : Nat → Bool) (fuel : Nat) (w : Worker) (s : Socket) (out : Sender)
    (hfuel : s.incoming.length < fuel) :
    ∃ frames w' taken, w.Takes s.incoming frames w' ∧
      Served sigpipe w s.incoming out frames taken (serve sigpipe fuel w s out) := by
  induction fuel generalizing w s out with
  | zero => exact absurd hfuel (Nat.not_lt_zero _)
  | succ fuel ih =>
    by_cases hw : w.running = true
    · rcases hrecv : recvFrame ⟨.hello, []⟩ s with ⟨e | ⟨⟩, f, s'⟩
      · have hserve : serve sigpipe (fuel + 1) w s out = (w, s', out) := by
          rw [serve, hw, Bool.not_true, if_neg Bool.false_ne_true, hrecv]
        refine ⟨[], w, [], Worker.Takes.nil_iff.mpr ⟨rfl, fun _ => recvFrame_exhausted hrecv⟩, ?_⟩
        rw [hserve]
        refine ⟨List.prefix_refl [], rfl, rfl, fun _ => rfl, fun _ hempty => ?_⟩
        obtain ⟨e', calls, hrecv'⟩ := recvFrame_empty hempty ⟨.hello, []⟩
        rw [hrecv'] at hrecv
        obtain rfl : _ = s' := congrArg (fun r => r.2.2) hrecv
        exact hempty
      · obtain ⟨hf, hin⟩ := recvFrame_ok hrecv
        have hshort : s'.incoming.length < fuel := by
          have hlen := congrArg List.length hin
          rw [List.length_append] at hlen
          have hpos : 0 < (frameBytes f).length := by
            simp [frameBytes]
          omega
        have hstep : w.step f = some (w.handle f).1 := if_pos hw
        have hanswers (l : List Frame) : sendAll out (w.answers (f :: l)) =
            sendAll (sendAll out (w.handle f).2.toList) ((w.handle f).1.answers l) := by
          rw [Worker.answers, Worker.answers, outputs, hstep, sendAll, List.foldl_append]
          rfl
        obtain ⟨frames, w', taken, htakes, hserved⟩ := ih (w.handle f).1 s'
          (sendAll out (w.handle f).2.toList) hshort
        refine ⟨f :: frames, w', ?_⟩
        rcases serve_received hw hrecv sigpipe fuel out with hserve | ⟨⟨g, hkilled⟩, hserve⟩
        · refine ⟨f :: taken, Worker.Takes.cons_iff.mpr ⟨hw, hf, s'.incoming, hin, htakes⟩, ?_⟩
          rw [hserve]
          refine ⟨List.cons_prefix_cons.mpr ⟨rfl, hserved.front⟩, ?_, ?_, ?_, ?_⟩
          · rw [exec, hstep, Option.bind_some]
            exact hserved.run
          · rw [hanswers]
            exact hserved.sent
          · intro hspared
            have hrest : Spared sigpipe (sendAll out (w.handle f).2.toList) := by
              rwa [Spared, sendAll_takes]
            rw [hserved.all hrest]
          · intro htaken hbytes
            refine hserved.unread (List.cons.inj htaken).2 ?_
            rw [hin, List.flatMap_cons] at hbytes
            exact List.append_cancel_left hbytes
        · refine ⟨[f], Worker.Takes.cons_iff.mpr ⟨hw, hf, s'.incoming, hin, htakes⟩, ?_⟩
          rw [hserve]
          refine ⟨List.cons_prefix_cons.mpr ⟨rfl, List.nil_prefix⟩, ?_, hanswers [] |>.symm, ?_, ?_⟩
          · rw [exec, hstep, Option.bind_some]
            rfl
          · intro hspared
            rw [sendReply_goes_on hspared] at hkilled
            cases hkilled
          · intro htaken hbytes
            obtain rfl : [] = frames := (List.cons.inj htaken).2
            rw [hin, List.flatMap_cons] at hbytes
            exact List.append_cancel_left hbytes
    · rw [Bool.not_eq_true] at hw
      have hserve : serve sigpipe (fuel + 1) w s out = (w, s, out) := by
        rw [serve, hw]
        rfl
      refine ⟨[], w, [], Worker.Takes.nil_iff.mpr ⟨rfl, fun hrun => ?_⟩, ?_⟩
      · rw [hw] at hrun
        cases hrun
      · rw [hserve]
        exact ⟨List.prefix_refl [], rfl, rfl, fun _ => rfl, fun _ hempty => hempty⟩

/-- Whatever arrives and in whatever chunks, the loop takes frames that stand complete at the
front of the stream, from the first one on, and hands the answers to them to `send_frame`; it goes
on to the first one that is not complete, or to the command to exit, unless a failed `send` ends
the process. There is only one way to read the stream so. -/
theorem serve_any_stream (w : Worker) (bytes : List UInt8) :
    ∃ frames w', w.Takes bytes frames w' ∧
      (∀ frames₁ w₁, w.Takes bytes frames₁ w₁ → frames₁ = frames ∧ w₁ = w') ∧
      ∀ sigpipe reset gives calls fuel out, bytes.length < fuel →
        let r := serve sigpipe fuel w ⟨bytes, reset, gives, calls⟩ out
        (∃ taken, taken <+: frames ∧ exec Worker.step w taken = some r.1 ∧
          r.2.2 = sendAll out (w.answers taken)) ∧
        (Spared sigpipe out → r.1 = w' ∧ r.2.2 = sendAll out (w.answers frames)) := by
  obtain ⟨frames, w', -, htakes, -⟩ := serve_takes (fun _ => false) (bytes.length + 1) w
    ⟨bytes, false, fun _ => 1, 0⟩ ⟨[], fun _ => none, 0⟩ (Nat.lt_succ_self _)
  refine ⟨frames, w', htakes, fun _ _ h => h.unique htakes, ?_⟩
  intro sigpipe reset gives calls fuel out hfuel r
  obtain ⟨frames', w₁, taken, htakes', hserved⟩ :=
    serve_takes sigpipe fuel w ⟨bytes, reset, gives, calls⟩ out hfuel
  obtain ⟨rfl, rfl⟩ := htakes'.unique htakes
  refine ⟨⟨taken, hserved.front, hserved.run, hserved.sent⟩, fun hspared => ?_⟩
  obtain rfl := hserved.all hspared
  exact ⟨Option.some.inj (hserved.run.symm.trans htakes'.run), hserved.sent⟩

def decimal (n : Nat) : ByteString :=
  if n = 0 then [48] else (Nat.digits 10 n).reverse.map fun d => UInt8.ofNat (d + 48)

def helloPayload (w : Worker) : List UInt8 :=
  Writer.u64 w.id.value ++ Writer.u64 w.currentBoot.value ++
    Writer.str (ascii "worker-" ++ decimal w.id.value.toNat)

def workerMain (sigpipe : Nat → Bool) (w : Worker) (s : Socket) (out : Sender) :
    Worker × Socket × Sender :=
  let hello := sendReply sigpipe ⟨.hello, helloPayload w⟩ out
  if hello.1 then (w, s, hello.2) else serve sigpipe (s.incoming.length + 1) w s hello.2

/-- What reaches the coordinator when the worker has closed its socket. With input unread the
connection is reset, and what the coordinator had not read by then, behind `kept` bytes, is
discarded. -/
def afterClose (r : Worker × Socket × Sender) (kept : Nat) : List UInt8 :=
  if r.2.1.incoming.isEmpty then r.2.2.sent else r.2.2.sent.take kept

structure WorkerProc where
  id : UInt64
  boot : UInt64
  connected : Bool
deriving DecidableEq

/-- `accept_one`: whether the greeting was read to its end is not asked. -/
def acceptOne (s : Socket) : WorkerProc × Socket :=
  match recvFrame ⟨.hello, []⟩ s with
  | (.error _, _, s') => (⟨0, 0, false⟩, s')
  | (.ok (), f, s') =>
    if f.type = .hello then
      let r := Reader.mk f.payload 0 true
      (⟨r.u64.1, r.u64.2.u64.1, true⟩, s')
    else (⟨0, 0, false⟩, s')

theorem length_decimal_le {n k : Nat} (h : n < 10 ^ k) (hk : 0 < k) : (decimal n).length ≤ k := by
  unfold decimal
  split_ifs
  · exact hk
  · rw [List.length_map, List.length_reverse]
    exact (Nat.digits_length_le_iff (by decide) n).mpr h

theorem helloPayload_fits (w : Worker) : (helloPayload w).length ≤ kMaxFrame := by
  have hid : w.id.value.toNat < 10 ^ 20 := Nat.lt_of_lt_of_le (UInt64.toNat_lt _) (by decide)
  have hlen := length_decimal_le hid (by decide)
  have hword (v : UInt64) : (Writer.u64 v).length = 8 := length_le ..
  have hname : (ascii "worker-").length = 7 := rfl
  rw [helloPayload, Writer.str, List.length_append, List.length_append, List.length_append,
    List.length_append, hword, hword, hword, hname]
  have hbound : 51 ≤ kMaxFrame := by decide
  omega

theorem acceptOne_hello {w : Worker} {s : Socket} {rest : List UInt8}
    (hs : s.incoming = frameBytes ⟨.hello, helloPayload w⟩ ++ rest) :
    ∃ calls, acceptOne s = (⟨w.id.value, w.currentBoot.value, true⟩,
      { s with incoming := rest, calls := calls }) := by
  obtain ⟨calls, hrecv⟩ := recvFrame_sent (helloPayload_fits w) hs ⟨.hello, []⟩
  have hpayload : (Reader.mk (helloPayload w) 0 true).rest = Writer.u64 w.id.value ++
      (Writer.u64 w.currentBoot.value ++
        Writer.str (ascii "worker-" ++ decimal w.id.value.toNat)) := List.append_assoc ..
  have hid := Reader.u64_rest hpayload
  have hboot := Reader.u64_rest (Reader.rest_skip hpayload)
  rw [Writer.u64, length_le] at hboot
  refine ⟨calls, ?_⟩
  rw [acceptOne, hrecv]
  simp only [if_true, hid, hboot]

theorem sendAll_sent {out : Sender} (h : ∀ i, out.takes i ≠ none) (answers : List Frame) :
    (sendAll out answers).sent =
      out.sent ++ (answers.filter (·.payload.length ≤ kMaxFrame)).flatMap frameBytes := by
  induction answers generalizing out with
  | nil => exact (List.append_nil _).symm
  | cons g answers ih =>
    by_cases hg : g.payload.length ≤ kMaxFrame
    · obtain ⟨calls, hsend⟩ := sendFrame_reliable h hg
      have hrest := @ih { out with sent := out.sent ++ frameBytes g, calls := calls } h
      rw [List.filter_cons_of_pos (by simpa using hg), List.flatMap_cons, ← List.append_assoc,
        ← hrest, sendAll, List.foldl_cons, hsend]
      rfl
    · have hsend : (sendFrame g.type g.payload out).2 = out := by
        rw [sendFrame, if_pos (Nat.lt_of_not_le hg)]
      rw [List.filter_cons_of_neg (by simpa using hg), ← ih h, sendAll, List.foldl_cons, hsend]
      rfl

/-- The answers of the worker that fit into a frame. -/
def Worker.replies (w : Worker) (frames : List Frame) : List Frame :=
  (w.answers frames).filter (·.payload.length ≤ kMaxFrame)

theorem replies_fit (w : Worker) (frames : List Frame) :
    ∀ f ∈ w.replies frames, f.payload.length ≤ kMaxFrame := by
  intro f hf
  simpa using (List.mem_filter.mp hf).2

theorem workerMain_sent (sigpipe : Nat → Bool) (w : Worker) (s : Socket) {takes : Nat → Option Nat}
    (htakes : ∀ i, takes i ≠ none) :
    ∃ frames w', w.Takes s.incoming frames w' ∧
      (workerMain sigpipe w s ⟨[], takes, 0⟩).2.2.sent = frameBytes ⟨.hello, helloPayload w⟩ ++
        (w.replies frames).flatMap frameBytes ∧
      (s.incoming = frames.flatMap frameBytes →
        (workerMain sigpipe w s ⟨[], takes, 0⟩).2.1.incoming = []) := by
  obtain ⟨calls, hhello⟩ := sendFrame_reliable (s := ⟨[], takes, 0⟩) htakes
    (f := ⟨.hello, helloPayload w⟩) (helloPayload_fits w)
  rw [List.nil_append] at hhello
  obtain ⟨frames, w', taken, htaken, hserved⟩ := serve_takes sigpipe (s.incoming.length + 1) w s
    ⟨frameBytes ⟨.hello, helloPayload w⟩, takes, calls⟩ (Nat.lt_succ_self _)
  obtain rfl := hserved.all (.inl htakes)
  have hmain : workerMain sigpipe w s ⟨[], takes, 0⟩ = serve sigpipe (s.incoming.length + 1) w s
      ⟨frameBytes ⟨.hello, helloPayload w⟩, takes, calls⟩ := by
    rw [workerMain, sendReply_goes_on (.inl htakes), if_neg Bool.false_ne_true, sendReply_snd,
      hhello]
  refine ⟨taken, w', htaken, ?_, ?_⟩
  · rw [hmain, hserved.sent, sendAll_sent htakes]
    rfl
  · rw [hmain]
    exact hserved.unread rfl

theorem delivered_front (msgs : List Frame) (cut : Nat) : delivered msgs cut <+: msgs := by
  induction msgs generalizing cut with
  | nil => exact List.prefix_refl []
  | cons f fs ih =>
    rw [delivered]
    split_ifs
    · exact List.cons_prefix_cons.mpr ⟨rfl, ih _⟩
    · exact List.nil_prefix

theorem acceptOne_cut {w : Worker} {msgs : List Frame} {cut : Nat} {s : Socket}
    (hs : s.incoming =
      (frameBytes ⟨.hello, helloPayload w⟩ ++ msgs.flatMap frameBytes).take cut) :
    ((acceptOne s).1 = ⟨w.id.value, w.currentBoot.value, true⟩ ∧
      (acceptOne s).2.incoming = (msgs.flatMap frameBytes).take
        (cut - (frameBytes ⟨.hello, helloPayload w⟩).length)) ∨
    (acceptOne s).1 = ⟨0, 0, false⟩ := by
  rw [List.take_append] at hs
  by_cases hcut : (frameBytes ⟨.hello, helloPayload w⟩).length ≤ cut
  · rw [List.take_of_length_le hcut] at hs
    obtain ⟨calls, haccept⟩ := acceptOne_hello hs
    rw [haccept]
    exact .inl ⟨rfl, rfl⟩
  · have hzero : cut - (frameBytes ⟨.hello, helloPayload w⟩).length = 0 := by omega
    rw [hzero, List.take_zero, List.append_nil] at hs
    have hmore : (frameBytes ⟨.hello, helloPayload w⟩).drop cut ≠ [] := by
      rw [ne_eq, List.drop_eq_nil_iff]
      exact hcut
    obtain ⟨e, he⟩ := recvFrame_short (helloPayload_fits w) hmore
      (by rw [hs, List.take_append_drop]) ⟨.hello, []⟩
    right
    rw [acceptOne]
    rcases hrecv : recvFrame ⟨.hello, []⟩ s with ⟨e' | ⟨⟩, f, s'⟩
    · rfl
    · rw [hrecv] at he
      cases he

/-- The two sides of a session. Whatever bytes reach the worker, whatever the chunks on either
side: the coordinator first reads the identity and the boot the worker was started with, and
after that, frame by frame, the first of the answers to exactly the frames the worker took, less
those that are too large for a frame. It reads all of these if nothing follows the frames that
the worker takes; else the reset that ends the connection may cut off the answers, or even the
greeting. -/
theorem session_read (w : Worker) (bytes : List UInt8) {takes : Nat → Option Nat}
    (htakes : ∀ i, takes i ≠ none) :
    ∃ frames w', w.Takes bytes frames w' ∧ ∀ sigpipe reset gives reset' gives' kept,
      let r := workerMain sigpipe w ⟨bytes, reset, gives, 0⟩ ⟨[], takes, 0⟩
      let a := acceptOne ⟨afterClose r kept, reset', gives', 0⟩
      ((a.1 = ⟨w.id.value, w.currentBoot.value, true⟩ ∧ ∃ msgs, msgs <+: w.replies frames ∧
          ∀ n out, (recvFrames n out a.2).1 = msgs.take n) ∨ a.1 = ⟨0, 0, false⟩) ∧
      (bytes = frames.flatMap frameBytes → a.1 = ⟨w.id.value, w.currentBoot.value, true⟩ ∧
        ∀ n out, (recvFrames n out a.2).1 = (w.replies frames).take n) := by
  obtain ⟨frames, w', htaken, -⟩ :=
    workerMain_sent (fun _ => false) w ⟨bytes, false, fun _ => 1, 0⟩ htakes
  refine ⟨frames, w', htaken, ?_⟩
  intro sigpipe reset gives reset' gives' kept r a
  obtain ⟨frames', w₁, htaken', hsent, hunread⟩ :=
    workerMain_sent sigpipe w ⟨bytes, reset, gives, 0⟩ htakes
  obtain ⟨rfl, -⟩ := htaken'.unique htaken
  have hfit := replies_fit w frames'
  constructor
  · obtain ⟨cut, hcut⟩ : ∃ cut, afterClose r kept = (frameBytes ⟨.hello, helloPayload w⟩ ++
        (w.replies frames').flatMap frameBytes).take cut := by
      rw [afterClose, ← hsent]
      split_ifs
      · exact ⟨_, List.take_length.symm⟩
      · exact ⟨kept, rfl⟩
    rcases acceptOne_cut (s := ⟨afterClose r kept, reset', gives', 0⟩) hcut with
      ⟨haccept, hrest⟩ | hlost
    · refine .inl ⟨haccept, delivered (w.replies frames') (cut -
        (frameBytes ⟨.hello, helloPayload w⟩).length), delivered_front .., fun n out => ?_⟩
      exact (recvFrames_delivered hfit hrest n out).1
    · exact .inr hlost
  · intro hbytes
    have hall : afterClose r kept = frameBytes ⟨.hello, helloPayload w⟩ ++
        (w.replies frames').flatMap frameBytes := by
      rw [afterClose, hunread hbytes, List.isEmpty_nil, if_pos rfl, hsent]
    obtain ⟨calls', haccept⟩ :=
      acceptOne_hello (s := ⟨afterClose r kept, reset', gives', 0⟩) hall
    refine ⟨congrArg Prod.fst haccept, fun n out => ?_⟩
    have hrest : a.2.incoming = ((w.replies frames').flatMap frameBytes).take
        ((w.replies frames').flatMap frameBytes).length := by
      rw [List.take_length]
      exact congrArg (fun r => r.2.incoming) haccept
    rw [(recvFrames_delivered hfit hrest n out).1, delivered_all _ le_rfl]

theorem session_read_exit :
    ∃ frames w', Demo.worker.Takes (frameBytes ⟨.snapshot, [1]⟩ ++ frameBytes ⟨.exitProcess, []⟩)
        frames w' ∧ ∀ sigpipe reset gives reset' gives' kept,
      let a := acceptOne ⟨afterClose (workerMain sigpipe Demo.worker
        ⟨frameBytes ⟨.snapshot, [1]⟩ ++ frameBytes ⟨.exitProcess, []⟩, reset, gives, 0⟩
          ⟨[], fun _ => some 1, 0⟩) kept, reset', gives', 0⟩
      a.1 = ⟨100, 1000, true⟩ ∧ ∀ n out, (recvFrames n out a.2).1 = [⟨.error, []⟩].take n := by
  obtain ⟨frames, w', htaken, hread⟩ := session_read Demo.worker
    (frameBytes ⟨.snapshot, [1]⟩ ++ frameBytes ⟨.exitProcess, []⟩)
    (show ∀ _ : Nat, some 1 ≠ none from nofun)
  have hfits : ∀ f ∈ [Frame.mk .snapshot [1], ⟨.exitProcess, []⟩],
      f.payload.length ≤ kMaxFrame := by decide
  have hboth : Demo.worker.Takes (frameBytes ⟨.snapshot, [1]⟩ ++ frameBytes ⟨.exitProcess, []⟩)
      [⟨.snapshot, [1]⟩, ⟨.exitProcess, []⟩] { Demo.worker with running := false } := by
    refine ⟨hfits, ⟨[], ?_, nofun⟩, rfl⟩
    rw [List.append_nil]
    rfl
  obtain ⟨rfl, rfl⟩ := htaken.unique hboth
  refine ⟨_, _, htaken, ?_⟩
  intro sigpipe reset gives reset' gives' kept
  exact (hread sigpipe reset gives reset' gives' kept).2 rfl

end Iobs.Proto
