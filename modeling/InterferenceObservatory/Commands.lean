import InterferenceObservatory.Frames
import InterferenceObservatory.Lib.Run

/-! Commands of the coordinator to a worker. A command crosses two frames and four field
sequences: the coordinator writes it, the command loop of the worker reads it and fills in
what it knows itself, and the record that comes back is encoded and decoded as a message. A
`send` of the worker that fails may raise the signal that ends it. -/

namespace Iobs.Proto
open ByteFormat ByteFormat.Parser Runs

section Encode
open Iobs.Writer ByteFormat.Writer

def encodeBaseline (b : Baseline Double) : List UInt8 :=
  [ident b.id, ident b.generation, en b.type, ident b.workloadId, ident b.workloadGeneration,
    ident b.deviceId, ident b.deviceGeneration, ident b.workerId, ident b.workerBoot,
    str b.configFingerprint, str b.problemSizeFingerprint, str b.runtimeGeneration,
    str b.kernelGeneration, str b.policyGeneration, ident b.topologyGeneration,
    ident b.sourceGeneration, ident b.evidenceGeneration, i64 b.timestampMs, i64 b.intervalMs,
    en b.provenance, en b.freshness, u64 b.sampleCount, f64 b.variance, f64 b.confidence,
    f64 b.meanValue, en b.metricKind, flag b.valid].flatten

def baselineCommand (b : Baseline Double) : List UInt8 :=
  [ident b.id, ident b.generation, ident b.workloadId, ident b.workloadGeneration,
    str b.configFingerprint, str b.problemSizeFingerprint, i64 b.timestampMs, u64 b.sampleCount,
    f64 b.meanValue, en b.metricKind].flatten

def corunCommand (o : Observation Double) : List UInt8 :=
  [ident o.id, ident o.generation, ident o.workloadId, ident o.workloadGeneration,
    i64 o.timestampMs, en o.measurement.kind, f64 o.measurement.value,
    list ident o.coRunPeers].flatten

end Encode

section Decode
open Iobs.Reader

def baselineMessage : Parser Unit (Baseline Double) := do
  let baselineId ← ident
  let generation ← ident
  let type ← en
  let workloadId ← ident
  let workloadGeneration ← ident
  let deviceId ← ident
  let deviceGeneration ← ident
  let workerId ← ident
  let workerBoot ← ident
  let configFingerprint ← Parser.str kMaxFrame
  let problemSizeFingerprint ← Parser.str kMaxFrame
  let runtimeGeneration ← Parser.str kMaxFrame
  let kernelGeneration ← Parser.str kMaxFrame
  let policyGeneration ← Parser.str kMaxFrame
  let topologyGeneration ← ident
  let sourceGeneration ← ident
  let evidenceGeneration ← ident
  let timestampMs ← i64
  let intervalMs ← i64
  let provenance ← en
  let freshness ← en
  let sampleCount ← u64
  let variance ← f64
  let confidence ← f64
  let meanValue ← f64
  let metricKind ← en
  let valid ← flag
  pure ⟨baselineId, generation, type, workloadId, workloadGeneration, deviceId, deviceGeneration,
    workerId, workerBoot, configFingerprint, problemSizeFingerprint, runtimeGeneration,
    kernelGeneration, policyGeneration, topologyGeneration, sourceGeneration, evidenceGeneration,
    timestampMs, intervalMs, provenance, freshness, sampleCount, variance, confidence, meanValue,
    metricKind, valid⟩

def decodeBaseline (p : List UInt8) (b : Baseline Double) : Bool × Baseline Double :=
  match baselineMessage.run ⟨p, 0, true⟩ with
  | (.ok b', r, _) => (r.ok && r.pos == p.length, b')
  -- no field of the message stops the parser
  | (.error _, _, _) => (false, b)

structure Worker where
  id : WorkerId
  currentBoot : WorkerBootId
  running : Bool

def measureBaseline (w : Worker) : Parser Unit (Baseline Double) := do
  let baselineId ← ident
  let generation ← ident
  let workloadId ← ident
  let workloadGeneration ← ident
  let configFingerprint ← Parser.str kMaxFrame
  let problemSizeFingerprint ← Parser.str kMaxFrame
  let timestampMs ← i64
  let sampleCount ← u64
  let meanValue ← f64
  let metricKind ← en
  pure {
    id := baselineId
    generation := generation
    type := .isolated
    workloadId := workloadId
    workloadGeneration := workloadGeneration
    deviceId := ⟨11⟩
    deviceGeneration := ⟨33⟩
    workerId := w.id
    workerBoot := w.currentBoot
    configFingerprint := configFingerprint
    problemSizeFingerprint := problemSizeFingerprint
    runtimeGeneration := ascii "rt-cuda-12.9"
    kernelGeneration := ascii "kernel-v1"
    policyGeneration := ascii "pol-v1"
    topologyGeneration := ⟨44⟩
    sourceGeneration := ⟨55⟩
    evidenceGeneration := ⟨66⟩
    timestampMs := timestampMs
    intervalMs := 2000
    provenance := .controlled
    freshness := .current
    sampleCount := sampleCount
    variance := 2.0
    confidence := 0.90
    meanValue := meanValue
    metricKind := metricKind
    valid := true }

def measureCorun (w : Worker) : Parser Unit (Observation Double) := do
  let observationId ← ident
  let generation ← ident
  let workloadId ← ident
  let workloadGeneration ← ident
  let timestampMs ← i64
  let kind ← en
  let value ← f64
  let coRunPeers ← peers
  pure { Observation.init with
    id := observationId
    generation := generation
    sourceId := ⟨77⟩
    sourceGeneration := ⟨55⟩
    workerId := w.id
    workerBoot := w.currentBoot
    workloadId := workloadId
    workloadGeneration := workloadGeneration
    deviceId := ⟨11⟩
    deviceGeneration := ⟨33⟩
    timestampMs := timestampMs
    measurement := { Observation.init.measurement with
      kind := kind
      value := value
      unit := if kind = .latency then ascii "ms" else ascii "ops/s"
      sampleCount := 1
      variance := 0.0 }
    provenance := .controlled
    freshness := .current
    sourceHealth := .healthy
    coRunPeers := coRunPeers }

def readCommand {α : Type} (p : Parser Unit α) (payload : List UInt8) : Option α :=
  match p.run ⟨payload, 0, true⟩ with
  | (.ok a, r, _) => if r.ok then some a else none
  | (.error _, _, _) => none

def Worker.handle (w : Worker) (f : Frame) : Worker × Option Frame :=
  match f.type with
  | .measureBaseline => (w, (readCommand (measureBaseline w) f.payload).map fun b =>
      ⟨.publishBaseline, encodeBaseline b⟩)
  | .measureCorun => (w, (readCommand (measureCorun w) f.payload).map fun o =>
      ⟨.publishObservation, encodeObservation o⟩)
  | .revalidate => ({ w with currentBoot := ⟨(ByteFormat.Reader.mk f.payload 0 true).u64.1⟩ },
      some ⟨.ack, []⟩)
  | .exitProcess => ({ w with running := false }, none)
  | _ => (w, some ⟨.error, []⟩)

/-- `send_frame` in the loop, which does not look at the result: an answer that is too large for
a frame is lost. A failed `send` raises a signal that ends the process if `sigpipe` says so. -/
def sendReply (sigpipe : Nat → Bool) (g : Frame) (out : Sender) : Bool × Sender :=
  match sendFrame g.type g.payload out with
  -- the first case of an error is that nothing was sent at all
  | (.error _, out') => (g.payload.length ≤ kMaxFrame && sigpipe out'.calls, out')
  | (.ok (), out') => (false, out')

def serve (sigpipe : Nat → Bool) : Nat → Worker → Socket → Sender → Worker × Socket × Sender
  | 0, w, s, out => (w, s, out)
  | fuel + 1, w, s, out =>
    if !w.running then (w, s, out)
    else match recvFrame ⟨.hello, []⟩ s with
      | (.error _, _, s') => (w, s', out)
      | (.ok (), f, s') =>
        match (w.handle f).2 with
        | none => serve sigpipe fuel (w.handle f).1 s' out
        | some g =>
          if (sendReply sigpipe g out).1 then ((w.handle f).1, s', (sendReply sigpipe g out).2)
          else serve sigpipe fuel (w.handle f).1 s' (sendReply sigpipe g out).2

end Decode

/-- The schedules of the four calls of `send` and `recv` that a command goes through, and where
a failed `send` of the worker ends it. -/
structure Link where
  commandTakes : Nat → Option Nat
  commandGives : Nat → Nat
  replyTakes : Nat → Option Nat
  replyGives : Nat → Nat
  sigpipe : Nat → Bool

structure Link.Reliable (l : Link) : Prop where
  command : ∀ i, l.commandTakes i ≠ none
  reply : ∀ i, l.replyTakes i ≠ none

/-- A worker, and the bytes it has sent that the coordinator has not read yet. -/
structure Connection where
  worker : Worker
  unread : List UInt8

def Connection.request (c : Connection) (l : Link) (type : MsgType) (payload : List UInt8) :
    Bool × Connection :=
  match sendFrame type payload ⟨[], l.commandTakes, 0⟩ with
  | (.error _, _) => (false, c)
  | (.ok (), s) =>
    let r := serve l.sigpipe (s.sent.length + 1) c.worker ⟨s.sent, false, l.commandGives, 0⟩
      ⟨[], l.replyTakes, 0⟩
    (true, ⟨r.1, c.unread ++ r.2.2.sent⟩)

def Connection.response (c : Connection) (l : Link) : Option Frame × Connection :=
  match recvFrame ⟨.hello, []⟩ ⟨c.unread, false, l.replyGives, 0⟩ with
  | (.error _, _, s) => (none, { c with unread := s.incoming })
  | (.ok (), f, s) => (some f, { c with unread := s.incoming })

def command {α : Type} (c : Connection) (l : Link) (type answer : MsgType) (payload : List UInt8)
    (decode : List UInt8 → α → Bool × α) (out : α) : Bool × α × Connection :=
  match c.request l type payload with
  | (false, c₁) => (false, out, c₁)
  | (true, c₁) =>
    match c₁.response l with
    | (none, c₂) => (false, out, c₂)
    | (some f, c₂) =>
      if f.type ≠ answer then (false, out, c₂)
      else ((decode f.payload out).1, (decode f.payload out).2, c₂)

def cmdBaseline (c : Connection) (l : Link) (b out : Baseline Double) :
    Bool × Baseline Double × Connection :=
  command c l .measureBaseline .publishBaseline (baselineCommand b) decodeBaseline out

def cmdCorun (c : Connection) (l : Link) (o out : Observation Double) :
    Bool × Observation Double × Connection :=
  command c l .measureCorun .publishObservation (corunCommand o) decodeObservation out

def Worker.baseline (w : Worker) (b : Baseline Double) : Baseline Double where
  id := b.id
  generation := b.generation
  type := .isolated
  workloadId := b.workloadId
  workloadGeneration := b.workloadGeneration
  deviceId := ⟨11⟩
  deviceGeneration := ⟨33⟩
  workerId := w.id
  workerBoot := w.currentBoot
  configFingerprint := b.configFingerprint
  problemSizeFingerprint := b.problemSizeFingerprint
  runtimeGeneration := ascii "rt-cuda-12.9"
  kernelGeneration := ascii "kernel-v1"
  policyGeneration := ascii "pol-v1"
  topologyGeneration := ⟨44⟩
  sourceGeneration := ⟨55⟩
  evidenceGeneration := ⟨66⟩
  timestampMs := b.timestampMs
  intervalMs := 2000
  provenance := .controlled
  freshness := .current
  sampleCount := b.sampleCount
  variance := 2.0
  confidence := 0.90
  meanValue := b.meanValue
  metricKind := b.metricKind
  valid := true

def Worker.observation (w : Worker) (o : Observation Double) : Observation Double where
  id := o.id
  generation := o.generation
  sourceId := ⟨77⟩
  sourceGeneration := ⟨55⟩
  workerId := w.id
  workerBoot := w.currentBoot
  workloadId := o.workloadId
  workloadGeneration := o.workloadGeneration
  deviceId := ⟨11⟩
  deviceGeneration := ⟨33⟩
  timestampMs := o.timestampMs
  measurement := ⟨o.measurement.kind, o.measurement.value,
    if o.measurement.kind = .latency then ascii "ms" else ascii "ops/s", 1, 0.0,
    Observation.init.measurement.p95, Observation.init.measurement.hasP95⟩
  provenance := .controlled
  freshness := .current
  sourceHealth := .healthy
  capabilities := .init
  coRunPeers := o.coRunPeers
  confounders := []

theorem length_str_le {s : ByteString} {fields : List (List UInt8)}
    (h : ByteFormat.Writer.str s ∈ fields) : s.length ≤ fields.flatten.length := by
  have hle := (List.sublist_flatten_of_mem h).length_le
  rw [ByteFormat.Writer.str, List.length_append] at hle
  omega

theorem length_peers_le {l : List WorkloadId} {fields : List (List UInt8)}
    (h : ByteFormat.Writer.list Iobs.Writer.ident l ∈ fields) :
    l.length ≤ fields.flatten.length := by
  have hle := (List.sublist_flatten_of_mem h).length_le
  have hlen := length_le_flatMap l fun i _ => ident_ne_nil i
  rw [ByteFormat.Writer.list, List.length_append] at hle
  omega

theorem parses_baselineCommand (w : Worker) (b : Baseline Double) :
    Parses (measureBaseline w) (baselineCommand b) (w.baseline b) id
      (b.configFingerprint.length ≤ kMaxFrame ∧ b.problemSizeFingerprint.length ≤ kMaxFrame) := by
  refine Parses.congr (.field (parses_ident _) <| .field (parses_ident _) <|
    .field (parses_ident _) <| .field (parses_ident _) <| .cons (parses_str (by decide) _) <|
    .cons (parses_str (by decide) _) <| .field (parses_i64 _) <| .field (parses_u64 _) <|
    .field (parses_f64 _) <| .field (parses_en _) (parses_pure (w.baseline b))) ?_
  rw [and_true]

theorem parses_corunCommand (w : Worker) (o : Observation Double) :
    Parses (measureCorun w) (corunCommand o) (w.observation o) id
      (o.coRunPeers.length < 2 ^ 32) := by
  refine Parses.congr (.field (parses_ident _) <| .field (parses_ident _) <|
    .field (parses_ident _) <| .field (parses_ident _) <| .field (parses_i64 _) <|
    .field (parses_en _) <| .field (parses_f64 _) <|
    .cons (parses_peers _) (parses_pure (w.observation o))) ?_
  rw [and_true]

theorem readCommand_of_parses {α : Type} {p : Parser Unit α} {bs : List UInt8} {a : α} {P : Prop}
    (h : Parses p bs a id P) (hP : P) : readCommand p bs = some a := by
  have hread := h.reads hP ⟨bs, 0, true⟩ [] rfl (List.append_nil _).symm
  unfold readCommand
  rw [hread]
  rfl

theorem readCommand_baseline {w : Worker} {b : Baseline Double}
    (h : (baselineCommand b).length ≤ kMaxFrame) :
    readCommand (measureBaseline w) (baselineCommand b) = some (w.baseline b) := by
  have hconfig : b.configFingerprint.length ≤ (baselineCommand b).length :=
    length_str_le (by simp)
  have hproblem : b.problemSizeFingerprint.length ≤ (baselineCommand b).length :=
    length_str_le (by simp)
  exact readCommand_of_parses (parses_baselineCommand w b)
    ⟨hconfig.trans h, hproblem.trans h⟩

theorem readCommand_corun {w : Worker} {o : Observation Double}
    (h : (corunCommand o).length ≤ kMaxFrame) :
    readCommand (measureCorun w) (corunCommand o) = some (w.observation o) := by
  have hpeers : o.coRunPeers.length ≤ (corunCommand o).length := length_peers_le (by simp)
  refine readCommand_of_parses (parses_corunCommand w o) ?_
  exact Nat.lt_of_le_of_lt (hpeers.trans h) (by decide)

set_option maxRecDepth 2048 in
theorem baselineMessage_eq : baselineMessage = Iobs.baseline := rfl

theorem decodeBaseline_encode {b : Baseline Double} (h : (encodeBaseline b).length ≤ kMaxFrame)
    (out : Baseline Double) : decodeBaseline (encodeBaseline b) out = (true, b) := by
  have hfits : BaselineFits b := by
    have hconfig : b.configFingerprint.length ≤ (encodeBaseline b).length :=
      length_str_le (by simp)
    have hproblem : b.problemSizeFingerprint.length ≤ (encodeBaseline b).length :=
      length_str_le (by simp)
    have hruntime : b.runtimeGeneration.length ≤ (encodeBaseline b).length :=
      length_str_le (by simp)
    have hkernel : b.kernelGeneration.length ≤ (encodeBaseline b).length :=
      length_str_le (by simp)
    have hpolicy : b.policyGeneration.length ≤ (encodeBaseline b).length :=
      length_str_le (by simp)
    have hbound : kMaxFrame = Iobs.Reader.kStringBound := rfl
    rw [hbound] at h
    intro s hs
    unfold StringFits
    simp only [List.mem_cons, List.not_mem_nil, or_false] at hs
    rcases hs with rfl | rfl | rfl | rfl | rfl
    · exact hconfig.trans h
    · exact hproblem.trans h
    · exact hruntime.trans h
    · exact hkernel.trans h
    · exact hpolicy.trans h
  have hread := (parses_baseline b).reads hfits ⟨encodeBaseline b, 0, true⟩ [] rfl
    (List.append_nil _).symm
  unfold decodeBaseline
  rw [baselineMessage_eq, hread]
  simp [ByteFormat.Reader.skip, show baselineBytes b = encodeBaseline b from rfl]

def Worker.answer (w : Worker) (f : Frame) : List UInt8 :=
  match (w.handle f).2 with
  | none => []
  | some g => if g.payload.length > kMaxFrame then [] else frameBytes g

section Reply

variable (sigpipe : Nat → Bool) {out : Sender}

theorem sendReply_snd (g : Frame) :
    (sendReply sigpipe g out).2 = (sendFrame g.type g.payload out).2 := by
  unfold sendReply
  rcases sendFrame g.type g.payload out with ⟨e | ⟨⟩, out'⟩ <;> rfl

theorem sendReply_goes_on {sigpipe : Nat → Bool}
    (h : (∀ i, out.takes i ≠ none) ∨ ∀ i, sigpipe i = false) (g : Frame) :
    (sendReply sigpipe g out).1 = false := by
  unfold sendReply
  by_cases hg : g.payload.length ≤ kMaxFrame
  · rcases h with h | h
    · obtain ⟨calls, hsent⟩ := sendFrame_reliable h (f := g) hg
      rw [hsent]
    · rcases sendFrame g.type g.payload out with ⟨e | ⟨⟩, out'⟩
      · simp [h]
      · rfl
  · rw [sendFrame, if_pos (Nat.lt_of_not_le hg)]
    simp [hg]

theorem sendFrame_sent {s : Sender} (h : ∀ i, s.takes i ≠ none) (g : Frame) :
    (sendFrame g.type g.payload s).2.sent =
      s.sent ++ if g.payload.length > kMaxFrame then [] else frameBytes g := by
  by_cases hg : g.payload.length > kMaxFrame
  · rw [sendFrame, if_pos hg, if_pos hg, List.append_nil]
  · obtain ⟨calls, hsent⟩ := sendFrame_reliable h (f := g) (Nat.not_lt.mp hg)
    rw [hsent, if_neg hg]

theorem serve_drained {w : Worker} {s : Socket} (hs : s.incoming = []) (fuel : Nat)
    (out : Sender) : ∃ calls, serve sigpipe fuel w s out = (w, { s with calls := calls }, out) := by
  rcases fuel with _ | fuel
  · exact ⟨s.calls, rfl⟩
  · rw [serve]
    split_ifs
    · exact ⟨s.calls, rfl⟩
    · obtain ⟨e, calls, he⟩ := recvFrame_empty hs ⟨.hello, []⟩
      rw [he]
      exact ⟨calls, rfl⟩

theorem serve_frame {w : Worker} (hw : w.running = true) {f : Frame}
    (hf : f.payload.length ≤ kMaxFrame) {s : Socket} (hs : s.incoming = frameBytes f)
    (hout : ∀ i, out.takes i ≠ none) (fuel : Nat) :
    (serve sigpipe (fuel + 1) w s out).1 = (w.handle f).1 ∧
      (serve sigpipe (fuel + 1) w s out).2.2.sent = out.sent ++ w.answer f := by
  have hin : s.incoming = frameBytes f ++ [] := by rw [hs, List.append_nil]
  obtain ⟨calls, hrecv⟩ := recvFrame_sent hf hin ⟨.hello, []⟩
  rw [serve, hw, hrecv]
  dsimp only
  rw [if_neg (by decide)]
  unfold Worker.answer
  rcases (w.handle f).2 with _ | g
  · dsimp only
    obtain ⟨calls', hserve⟩ := serve_drained sigpipe
      (s := { s with incoming := [], calls := calls }) rfl fuel out
    rw [hserve, List.append_nil]
    exact ⟨rfl, rfl⟩
  · dsimp only
    obtain ⟨calls', hserve⟩ := serve_drained sigpipe
      (s := { s with incoming := [], calls := calls }) rfl fuel (sendReply sigpipe g out).2
    rw [sendReply_goes_on (.inl hout), if_neg Bool.false_ne_true, hserve, sendReply_snd]
    exact ⟨rfl, sendFrame_sent hout g⟩

end Reply

section Exchange

variable {w : Worker} {l : Link} (hl : l.Reliable) {type : MsgType} {payload : List UInt8}
include hl

theorem request_served (hw : w.running = true) (hp : payload.length ≤ kMaxFrame) :
    Connection.request ⟨w, []⟩ l type payload =
      (true, ⟨(w.handle ⟨type, payload⟩).1, w.answer ⟨type, payload⟩⟩) := by
  obtain ⟨calls, hsent⟩ := sendFrame_reliable (s := ⟨[], l.commandTakes, 0⟩) hl.command
    (f := ⟨type, payload⟩) hp
  obtain ⟨h₁, h₂⟩ := serve_frame l.sigpipe hw (f := ⟨type, payload⟩) hp
    (s := ⟨frameBytes ⟨type, payload⟩, false, l.commandGives, 0⟩) rfl
    (show ∀ i, Sender.takes ⟨[], l.replyTakes, 0⟩ i ≠ none from hl.reply)
    (frameBytes ⟨type, payload⟩).length
  rw [List.nil_append] at h₂
  unfold Connection.request
  rw [hsent]
  dsimp only
  rw [List.nil_append, h₁, h₂, List.nil_append]

theorem request_stopped (hw : w.running = false) (hp : payload.length ≤ kMaxFrame) :
    Connection.request ⟨w, []⟩ l type payload = (true, ⟨w, []⟩) := by
  obtain ⟨calls, hsent⟩ := sendFrame_reliable (s := ⟨[], l.commandTakes, 0⟩) hl.command
    (f := ⟨type, payload⟩) hp
  unfold Connection.request
  rw [hsent]
  dsimp only
  rw [serve, hw, if_pos (by decide)]
  rfl

omit hl in
theorem request_too_large (c : Connection) (hp : ¬ payload.length ≤ kMaxFrame) :
    c.request l type payload = (false, c) := by
  unfold Connection.request
  rw [sendFrame, if_pos (Nat.lt_of_not_le hp)]

omit hl in
theorem response_empty : Connection.response ⟨w, []⟩ l = (none, ⟨w, []⟩) := by
  unfold Connection.response
  obtain ⟨e, calls, he⟩ := recvFrame_empty (s := ⟨[], false, l.replyGives, 0⟩) rfl ⟨.hello, []⟩
  rw [he]

omit hl in
theorem response_frame {g : Frame} (hg : g.payload.length ≤ kMaxFrame) :
    Connection.response ⟨w, frameBytes g⟩ l = (some g, ⟨w, []⟩) := by
  have hin : (Socket.mk (frameBytes g) false l.replyGives 0).incoming = frameBytes g ++ [] :=
    (List.append_nil _).symm
  obtain ⟨calls, hrecv⟩ := recvFrame_sent hg hin ⟨.hello, []⟩
  unfold Connection.response
  rw [hrecv]

end Exchange

theorem command_drained {α : Type} {w : Worker} {l : Link} (hl : l.Reliable)
    {type answer : MsgType} {payload reply : List UInt8} {decode : List UInt8 → α → Bool × α}
    {out a : α} (hreply : payload.length ≤ kMaxFrame →
      w.handle ⟨type, payload⟩ = (w, some ⟨answer, reply⟩))
    (hdecode : reply.length ≤ kMaxFrame → decode reply out = (true, a)) :
    command ⟨w, []⟩ l type answer payload decode out =
      if w.running = true ∧ payload.length ≤ kMaxFrame ∧ reply.length ≤ kMaxFrame then
        (true, a, ⟨w, []⟩)
      else (false, out, ⟨w, []⟩) := by
  unfold command
  by_cases hp : payload.length ≤ kMaxFrame
  swap
  · rw [request_too_large _ hp, if_neg fun h => hp h.2.1]
  by_cases hw : w.running = true
  swap
  · rw [request_stopped hl (Bool.not_eq_true _ ▸ hw) hp, if_neg fun h => hw h.1]
    dsimp only
    rw [response_empty]
  have hanswer : w.answer ⟨type, payload⟩ =
      if reply.length > kMaxFrame then [] else frameBytes ⟨answer, reply⟩ := by
    unfold Worker.answer
    rw [hreply hp]
  rw [request_served hl hw hp, hanswer, hreply hp]
  dsimp only
  by_cases hr : reply.length ≤ kMaxFrame
  · rw [if_neg (Nat.not_lt.mpr hr), response_frame hr, if_pos ⟨hw, hp, hr⟩]
    dsimp only
    rw [if_neg (not_not.mpr rfl), hdecode hr]
  · rw [if_pos (Nat.lt_of_not_le hr), response_empty, if_neg fun h => hr h.2.2]

theorem cmdBaseline_drained (w : Worker) {l : Link} (hl : l.Reliable) (b out : Baseline Double) :
    cmdBaseline ⟨w, []⟩ l b out =
      if w.running = true ∧ (baselineCommand b).length ≤ kMaxFrame ∧
          (encodeBaseline (w.baseline b)).length ≤ kMaxFrame then
        (true, w.baseline b, ⟨w, []⟩)
      else (false, out, ⟨w, []⟩) := by
  apply command_drained hl
  · intro hp
    rw [Worker.handle]
    dsimp only
    rw [readCommand_baseline hp]
    rfl
  · intro hr
    exact decodeBaseline_encode hr out

theorem cmdCorun_drained (w : Worker) {l : Link} (hl : l.Reliable) (o out : Observation Double) :
    cmdCorun ⟨w, []⟩ l o out =
      if w.running = true ∧ (corunCommand o).length ≤ kMaxFrame ∧
          (encodeObservation (w.observation o)).length ≤ kMaxFrame then
        (true, writtenOver out (w.observation o), ⟨w, []⟩)
      else (false, out, ⟨w, []⟩) := by
  apply command_drained hl
  · intro hp
    rw [Worker.handle]
    dsimp only
    rw [readCommand_corun hp]
    rfl
  · intro hr
    exact decodeObservation_into hr out

inductive Action where
  | baseline (b out : Baseline Double)
  | corun (o out : Observation Double)
  | exitProcess

def Connection.step (c : Connection) : Link × Action → Option Connection
  | (l, .baseline b out) => some (cmdBaseline c l b out).2.2
  | (l, .corun o out) => some (cmdCorun c l o out).2.2
  | (l, .exitProcess) => some (c.request l .exitProcess []).2

theorem step_drained {c c' : Connection} {a : Link × Action} (ha : a.1.Reliable)
    (hs : c.step a = some c') (h : c.unread = []) : c'.unread = [] := by
  obtain ⟨w, unread⟩ := c
  obtain rfl : unread = [] := h
  obtain ⟨l, action⟩ := a
  cases action with
  | baseline b out =>
    obtain rfl := Option.some.inj hs
    rw [cmdBaseline_drained w ha]
    split_ifs <;> rfl
  | corun o out =>
    obtain rfl := Option.some.inj hs
    rw [cmdCorun_drained w ha]
    split_ifs <;> rfl
  | exitProcess =>
    obtain rfl := Option.some.inj hs
    by_cases hw : w.running = true
    · rw [request_served ha hw (Nat.zero_le _)]
      rfl
    · rw [request_stopped ha (Bool.not_eq_true _ ▸ hw) (Nat.zero_le _)]

structure BaselineAgrees (w : Worker) (b out : Baseline Double) : Prop where
  id : out.id = b.id
  generation : out.generation = b.generation
  workloadId : out.workloadId = b.workloadId
  workloadGeneration : out.workloadGeneration = b.workloadGeneration
  configFingerprint : out.configFingerprint = b.configFingerprint
  problemSizeFingerprint : out.problemSizeFingerprint = b.problemSizeFingerprint
  timestampMs : out.timestampMs = b.timestampMs
  sampleCount : out.sampleCount = b.sampleCount
  meanValue : out.meanValue.bits = b.meanValue.bits
  metricKind : out.metricKind = b.metricKind
  workerId : out.workerId = w.id
  workerBoot : out.workerBoot = w.currentBoot

structure ObservationAgrees (w : Worker) (o out : Observation Double) : Prop where
  id : out.id = o.id
  generation : out.generation = o.generation
  workloadId : out.workloadId = o.workloadId
  workloadGeneration : out.workloadGeneration = o.workloadGeneration
  timestampMs : out.timestampMs = o.timestampMs
  kind : out.measurement.kind = o.measurement.kind
  value : out.measurement.value = o.measurement.value
  coRunPeers : out.coRunPeers = o.coRunPeers
  workerId : out.workerId = w.id
  workerBoot : out.workerBoot = w.currentBoot

/-- In every session a baseline command that succeeds brings back the record it described, with
the identity and the boot of the worker, and a co-run command does so exactly if `out` has no
peers yet: those that come back are appended to them. A command succeeds if the worker runs and
its two frames have room. -/
theorem commands_agree_iff {w : Worker} {hist : List (Link × Action)} {c : Connection}
    (hr : Run Connection.step (fun _ a => a.1.Reliable) ⟨w, []⟩ hist c) {l : Link}
    (hl : l.Reliable) :
    (∀ b out,
      ((cmdBaseline c l b out).1 = true → BaselineAgrees c.worker b (cmdBaseline c l b out).2.1) ∧
      ((cmdBaseline c l b out).1 = true ↔ c.worker.running = true ∧
        (baselineCommand b).length ≤ kMaxFrame ∧
        (encodeBaseline (c.worker.baseline b)).length ≤ kMaxFrame)) ∧
    ∀ o out,
      (((cmdCorun c l o out).1 = true → ObservationAgrees c.worker o (cmdCorun c l o out).2.1) ↔
        (c.worker.running = true ∧ (corunCommand o).length ≤ kMaxFrame ∧
          (encodeObservation (c.worker.observation o)).length ≤ kMaxFrame →
            out.coRunPeers = [])) ∧
      ((cmdCorun c l o out).1 = true ↔ c.worker.running = true ∧
        (corunCommand o).length ≤ kMaxFrame ∧
        (encodeObservation (c.worker.observation o)).length ≤ kMaxFrame) := by
  have hdrained : c.unread = [] := by
    refine hr.invariant (I := fun c => c.unread = []) rfl ?_
    intro c a c' ha hs h
    exact step_drained ha hs h
  obtain ⟨w', unread⟩ := c
  obtain rfl : unread = [] := hdrained
  constructor
  · intro b out
    rw [cmdBaseline_drained w' hl]
    split_ifs with hc
    · exact ⟨fun _ => ⟨rfl, rfl, rfl, rfl, rfl, rfl, rfl, rfl, rfl, rfl, rfl, rfl⟩,
        fun _ => hc, fun _ => rfl⟩
    · exact ⟨fun h => (by cases h), fun h => (by cases h), fun h => absurd h hc⟩
  · intro o out
    rw [cmdCorun_drained w' hl]
    split_ifs with hc
    · have hpeers : (writtenOver out (w'.observation o)).coRunPeers =
          out.coRunPeers ++ o.coRunPeers := rfl
      refine ⟨⟨fun h _ => ?_, fun h _ => ?_⟩, fun _ => hc, fun _ => rfl⟩
      · have hsame := (h rfl).coRunPeers
        rw [hpeers] at hsame
        exact List.append_left_eq_self.mp hsame
      · refine ⟨rfl, rfl, rfl, rfl, rfl, rfl, rfl, ?_, rfl, rfl⟩
        rw [hpeers, h hc, List.nil_append]
    · exact ⟨⟨fun _ h => absurd h hc, fun _ h => (by cases h)⟩, fun h => (by cases h),
        fun h => absurd h hc⟩

namespace Demo

def worker : Worker := ⟨⟨100⟩, ⟨1000⟩, true⟩

def link : Link :=
  ⟨fun _ => some 1, fun _ => 1, fun _ => some 1, fun _ => 1, fun _ => true⟩

end Demo

theorem commands_agree_iff_bytewise :
    let b : Baseline Double := Iobs.Demo.baseline
    let o : Observation Double := Iobs.Demo.observation 150.0
    (cmdBaseline ⟨Demo.worker, []⟩ Demo.link b b).1 = true ∧
    BaselineAgrees Demo.worker b (cmdBaseline ⟨Demo.worker, []⟩ Demo.link b b).2.1 ∧
    (cmdCorun ⟨Demo.worker, []⟩ Demo.link o .init).1 = true ∧
    ObservationAgrees Demo.worker o (cmdCorun ⟨Demo.worker, []⟩ Demo.link o .init).2.1 := by
  have hl : Demo.link.Reliable := ⟨fun _ h => (by cases h), fun _ h => (by cases h)⟩
  obtain ⟨hbaseline, hcorun⟩ := commands_agree_iff (w := Demo.worker) .start hl
  obtain ⟨hb, hbiff⟩ := hbaseline Iobs.Demo.baseline Iobs.Demo.baseline
  obtain ⟨ho, hoiff⟩ := hcorun (Iobs.Demo.observation 150.0) .init
  have hbok := hbiff.mpr (by decide +kernel)
  have hook := hoiff.mpr (by decide +kernel)
  exact ⟨hbok, hb hbok, hook, ho.mpr (fun _ => rfl) hook⟩

theorem corun_not_agree :
    let o : Observation Double := Iobs.Demo.observation 150.0
    let out : Observation Double := { Observation.init with coRunPeers := [⟨77⟩] }
    (cmdCorun ⟨Demo.worker, []⟩ Demo.link o out).1 = true ∧
    ¬ ObservationAgrees Demo.worker o (cmdCorun ⟨Demo.worker, []⟩ Demo.link o out).2.1 := by
  intro o out
  have hl : Demo.link.Reliable := ⟨fun _ h => (by cases h), fun _ h => (by cases h)⟩
  have hroom : Demo.worker.running = true ∧ (corunCommand o).length ≤ kMaxFrame ∧
      (encodeObservation (Demo.worker.observation o)).length ≤ kMaxFrame := by decide +kernel
  rw [cmdCorun_drained Demo.worker hl, if_pos hroom]
  refine ⟨rfl, ?_⟩
  intro h
  have hpeers : out.coRunPeers ++ o.coRunPeers = o.coRunPeers := h.coRunPeers
  cases List.append_left_eq_self.mp hpeers

end Iobs.Proto
