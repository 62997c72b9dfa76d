import InterferenceObservatory.Launch
import InterferenceObservatory.MatrixReplay

/-! The inspection tool. `main` of `io-observatory` as a function of its arguments and the files:
the commands that read a saved state, their exit codes and what they report. Of a state that an
observatory saved the tool reports what that observatory would answer itself, except on a domain
without a name the tool reads; `pairwise`, which iterates over a destroyed temporary, has no
defined outcome. -/

namespace Iobs
open ByteFormat Std Runs

def InterferenceDomain.toString : InterferenceDomain → ByteString
  | .computeExecution => ascii "COMPUTE_EXECUTION"
  | .cache => ascii "CACHE"
  | .memoryBandwidth => ascii "MEMORY_BANDWIDTH"
  | .memoryCapacity => ascii "MEMORY_CAPACITY"
  | .pcie => ascii "PCIE"
  | .transfer => ascii "TRANSFER"
  | .collective => ascii "COLLECTIVE"
  | .network => ascii "NETWORK"
  | .numa => ascii "NUMA"
  | .storage => ascii "STORAGE"
  | .hostCpu => ascii "HOST_CPU"
  | .residency => ascii "RESIDENCY"
  | .sharedEngine => ascii "SHARED_ENGINE"
  | .unknown => ascii "UNKNOWN"
  | .outOfRange _ => ascii "UNKNOWN_DOMAIN"

def parseInterferenceDomain (s : ByteString) : Option InterferenceDomain :=
  if s = ascii "COMPUTE_EXECUTION" then some .computeExecution
  else if s = ascii "CACHE" then some .cache
  else if s = ascii "MEMORY_BANDWIDTH" then some .memoryBandwidth
  else if s = ascii "MEMORY_CAPACITY" then some .memoryCapacity
  else if s = ascii "PCIE" then some .pcie
  else if s = ascii "TRANSFER" then some .transfer
  else if s = ascii "COLLECTIVE" then some .collective
  else if s = ascii "NETWORK" then some .network
  else if s = ascii "NUMA" then some .numa
  else if s = ascii "STORAGE" then some .storage
  else if s = ascii "HOST_CPU" then some .hostCpu
  else if s = ascii "RESIDENCY" then some .residency
  else if s = ascii "SHARED_ENGINE" then some .sharedEngine
  else none

def InterferenceDomain.isNamed : InterferenceDomain → Bool
  | .unknown | .outOfRange _ => false
  | _ => true

theorem parseInterferenceDomain_toString (d : InterferenceDomain) :
    parseInterferenceDomain d.toString = if d.isNamed then some d else none := by
  cases d with
  | outOfRange r => rfl
  | _ => decide

def BackendCapabilities.available (c : BackendCapabilities) : List ByteString :=
  let flags := [(c.cudaDeviceDiscovery, "CUDA_DEVICE_DISCOVERY"),
    (c.cudaMemoryAlloc, "CUDA_MEMORY_ALLOC"), (c.cudaH2d, "CUDA_H2D"), (c.cudaD2h, "CUDA_D2H"),
    (c.cudaKernels, "CUDA_KERNELS"), (c.cudaEvents, "CUDA_EVENTS"),
    (c.cudaMemoryAccounting, "CUDA_MEMORY_ACCOUNTING"), (c.nvmlUtilization, "NVML_UTILIZATION"),
    (c.pcieCounters, "PCIE_COUNTERS"), (c.cacheCounters, "CACHE_COUNTERS"),
    (c.memoryBandwidthCounters, "MEMORY_BANDWIDTH_COUNTERS"),
    (c.nvlinkCounters, "NVLINK_COUNTERS"), (c.collectiveMetrics, "COLLECTIVE_METRICS"),
    (c.numaTopology, "NUMA_TOPOLOGY"), (c.storageMetrics, "STORAGE_METRICS"),
    (c.powerClockTelemetry, "POWER_CLOCK_TELEMETRY"), (c.hostCpuMetrics, "HOST_CPU_METRICS")]
  flags.filterMap fun f => if f.1 then some (ascii f.2) else none

inductive Report where
  | help
  | demo (out : ByteString)
  | demoFailed (s : Status)
  | cannotLoad (s : Status)
  | summary (id : ObservatoryId) (epoch : CoordinatorEpoch)
      (workloads sources workers baselines observations episodes pairwise : Nat) (digest : String)
  | rows (cells : List (CellKey × PairwiseInterference Double))
  | episodes (l : List (InterferenceEpisode Double))
  | sources (n : Nat)
  | capabilities (available : List ByteString)
  | needsPair
  | unknownDomain (domain : ByteString)
  | noComparison (k : CellKey)
  | cell (k : CellKey) (v : PairwiseInterference Double)
  | explanation (ex : InterferenceExplanation Double)
  | replay (digest : String) (same : Bool)
  | valid (digest : String)

namespace Tool
open Proto

/-- The commands on a state that has been loaded; `none` where the behaviour is undefined. -/
def query (st : Impl Double) (file : Option (List UInt8)) (command : ByteString)
    (raw : List ByteString) : Option (Nat × Report) :=
  let victim := argValue raw (ascii "--victim") []
  let neighbor := argValue raw (ascii "--neighbor") []
  let domain := argValue raw (ascii "--domain") (ascii "MEMORY_BANDWIDTH")
  let given := raw.contains (ascii "--victim") && raw.contains (ascii "--neighbor")
  if command = ascii "workloads" then some (0, .rows st.matrix.toList)
  else if command = ascii "episodes" then some (0, .episodes st.episodes.values)
  -- the loop is over the cells of a temporary that no longer exists
  else if command = ascii "pairwise" then none
  else if command = ascii "sources" then some (0, .sources st.sources.size)
  else if command = ascii "capabilities" then
    let caps := { BackendCapabilities.init with
      cudaDeviceDiscovery := true, cudaMemoryAlloc := true, cudaH2d := true, cudaD2h := true
      cudaKernels := true, cudaEvents := true, cudaMemoryAccounting := true
      nvmlUtilization := true }
    some (0, .capabilities caps.available)
  else if command = ascii "compare" then
    if !given then some (2, .needsPair)
    else match parseInterferenceDomain domain with
      | none => some (2, .unknownDomain domain)
      | some d =>
        let k : CellKey := ⟨⟨strtoull victim⟩, ⟨strtoull neighbor⟩, d⟩
        match st.matrix[k]? with
        | none => some (3, .noComparison k)
        | some v => some (0, .cell k v)
  else if command = ascii "explain" then
    if !given then some (2, .needsPair)
    else match parseInterferenceDomain domain with
      | none => some (2, .unknownDomain domain)
      | some d =>
        some (0, .explanation (st.explain ⟨strtoull victim⟩ ⟨strtoull neighbor⟩ d .init))
  else if command = ascii "replay" then
    match (Impl.fresh ⟨1⟩ ⟨1⟩).load file with
    | (.ok, st₂) =>
      let same := canonicalDigest st == canonicalDigest st₂
      some (if same then 0 else 1, .replay (canonicalDigest st₂) same)
    | (s, _) => some (2, .cannotLoad s)
  else if command = ascii "validate-state" then some (0, .valid (canonicalDigest st))
  else some (1, .help)

def stats (file : Option (List UInt8)) : Nat × Report :=
  match (Impl.fresh ⟨1⟩ ⟨1⟩).load file with
  | (.ok, st) => (0, .summary st.id st.epoch st.workloads.size st.sources.size st.workers.size
      st.baselines.size st.observations.size st.episodes.size st.matrix.size (canonicalDigest st))
  | (s, _) => (2, .cannotLoad s)

/-- `main`: the exit code and the report. The status of `build_demo`, which saves a fixed state,
is a parameter. -/
def main (buildDemo : ByteString → Status) (files : ByteString → Option (List UInt8))
    (argv : List ByteString) : Option (Nat × Report) :=
  match argv with
  | _ :: command :: raw =>
    let file := files (argValue raw (ascii "--state") (ascii "iobs-state.bin"))
    if command = ascii "help" ∨ command = ascii "--help" then some (0, .help)
    else if command = ascii "demo" then
      let out := argValue raw (ascii "--out") (ascii "iobs-state.bin")
      match buildDemo out with
      | .ok => some (0, .demo out)
      | s => some (2, .demoFailed s)
    else if command = ascii "summary" ∨ command = ascii "digest" then some (stats file)
    else match (Impl.fresh ⟨1⟩ ⟨1⟩).load file with
      | (.ok, st) => query st file command raw
      | (s, _) => some (2, .cannotLoad s)
  | _ => some (1, .help)

def queryKeys : List ByteString :=
  [ascii "--state", ascii "--victim", ascii "--neighbor", ascii "--domain"]

def cellArgs (path : ByteString) (k : CellKey) : List ByteString :=
  [ascii "--state", path, ascii "--victim", decimal k.victim.value.toNat,
    ascii "--neighbor", decimal k.neighbor.value.toNat, ascii "--domain", k.domain.toString]

def cellReport (st : Impl Double) (k : CellKey) : Nat × Report :=
  if k.domain.isNamed then
    match st.matrix[k]? with
    | none => (3, .noComparison k)
    | some v => (0, .cell k v)
  else (2, .unknownDomain k.domain.toString)

def explainReport (st : Impl Double) (k : CellKey) : Nat × Report :=
  if k.domain.isNamed then
    (0, .explanation (st.explain k.victim k.neighbor k.domain .init))
  else (2, .unknownDomain k.domain.toString)

variable {path : ByteString} {buildDemo : ByteString → Status}

theorem ne_option (hpath : path ∉ queryKeys) {key : ByteString} (hkey : key ∈ queryKeys) :
    path ≠ key := by
  rintro rfl
  exact hpath hkey

theorem argValue_state (rest : List ByteString) (dflt : ByteString) :
    argValue (ascii "--state" :: path :: rest) (ascii "--state") dflt = path := argValue_here

theorem argValue_victim (hpath : path ∉ queryKeys) (k : CellKey) (dflt : ByteString) :
    argValue (cellArgs path k) (ascii "--victim") dflt = decimal k.victim.value.toNat := by
  have hne : path ≠ ascii "--victim" := ne_option hpath (by decide)
  rw [cellArgs, argValue_skip (by decide), argValue_skip hne, argValue_here]

theorem argValue_neighbor (hpath : path ∉ queryKeys) (k : CellKey) (dflt : ByteString) :
    argValue (cellArgs path k) (ascii "--neighbor") dflt = decimal k.neighbor.value.toNat := by
  have hne : path ≠ ascii "--neighbor" := ne_option hpath (by decide)
  rw [cellArgs, argValue_skip (by decide), argValue_skip hne, argValue_skip (by decide),
    argValue_skip (decimal_ne_option _ (by decide)), argValue_here]

theorem argValue_domain (hpath : path ∉ queryKeys) (k : CellKey) (dflt : ByteString) :
    argValue (cellArgs path k) (ascii "--domain") dflt = k.domain.toString := by
  have hne : path ≠ ascii "--domain" := ne_option hpath (by decide)
  rw [cellArgs, argValue_skip (by decide), argValue_skip hne, argValue_skip (by decide),
    argValue_skip (decimal_ne_option _ (by decide)), argValue_skip (by decide),
    argValue_skip (decimal_ne_option _ (by decide)), argValue_here]

theorem cellArgs_given (path : ByteString) (k : CellKey) :
    ((cellArgs path k).contains (ascii "--victim") &&
      (cellArgs path k).contains (ascii "--neighbor")) = true := by
  rw [Bool.and_eq_true, List.contains_iff_mem, List.contains_iff_mem, cellArgs]
  constructor
  · exact List.mem_cons_of_mem _ (List.mem_cons_of_mem _ (List.mem_cons_self ..))
  · exact List.mem_cons_of_mem _ (List.mem_cons_of_mem _ (List.mem_cons_of_mem _
      (List.mem_cons_of_mem _ (List.mem_cons_self ..))))

theorem query_compare (hpath : path ∉ queryKeys) (st : Impl Double) (file : Option (List UInt8))
    (k : CellKey) : query st file (ascii "compare") (cellArgs path k) = some (cellReport st k) := by
  rw [query, argValue_victim hpath, argValue_neighbor hpath, argValue_domain hpath,
    cellArgs_given, parseInterferenceDomain_toString, strtoull_decimal, strtoull_decimal,
    if_neg (by decide), if_neg (by decide), if_neg (by decide), if_neg (by decide),
    if_neg (by decide), if_pos rfl, cellReport]
  cases k.domain.isNamed
  · rfl
  · change (match st.matrix[k]? with
        | none => some (3, Report.noComparison k)
        | some v => some (0, Report.cell k v)) =
      some (match st.matrix[k]? with
        | none => (3, Report.noComparison k)
        | some v => (0, Report.cell k v))
    rcases st.matrix[k]? with _ | v <;> rfl

theorem query_explain (hpath : path ∉ queryKeys) (st : Impl Double) (file : Option (List UInt8))
    (k : CellKey) :
    query st file (ascii "explain") (cellArgs path k) = some (explainReport st k) := by
  rw [query, argValue_victim hpath, argValue_neighbor hpath, argValue_domain hpath,
    cellArgs_given, parseInterferenceDomain_toString, strtoull_decimal, strtoull_decimal,
    if_neg (by decide), if_neg (by decide), if_neg (by decide), if_neg (by decide),
    if_neg (by decide), if_neg (by decide), if_pos rfl, explainReport]
  cases k.domain.isNamed <;> rfl

theorem query_replay {st : Impl Double} {file : Option (List UInt8)}
    (hload : (Impl.fresh ⟨1⟩ ⟨1⟩).load file = (.ok, st)) (raw : List ByteString) :
    query st file (ascii "replay") raw =
      some (0, .replay (canonicalDigest st) true) := by
  rw [query, if_neg (by decide), if_neg (by decide), if_neg (by decide), if_neg (by decide),
    if_neg (by decide), if_neg (by decide), if_neg (by decide), if_pos rfl, hload]
  dsimp only
  rw [beq_self_eq_true, if_pos rfl]

theorem main_query {files : ByteString → Option (List UInt8)} {st : Impl Double}
    (hload : (Impl.fresh ⟨1⟩ ⟨1⟩).load (files path) = (.ok, st)) {command : ByteString}
    (hcommand : command ∉ [ascii "help", ascii "--help", ascii "demo", ascii "summary",
      ascii "digest"]) (program : ByteString) (rest : List ByteString) :
    main buildDemo files (program :: command :: ascii "--state" :: path :: rest) =
      query st (files path) command (ascii "--state" :: path :: rest) := by
  have hne : (command ≠ ascii "help" ∧ command ≠ ascii "--help") ∧ command ≠ ascii "demo" ∧
      command ≠ ascii "summary" ∧ command ≠ ascii "digest" := by
    simpa only [List.mem_cons, List.not_mem_nil, or_false, not_or, and_assoc] using hcommand
  rw [main, argValue_state, if_neg (not_or.mpr hne.1), if_neg hne.2.1,
    if_neg (not_or.mpr hne.2.2), hload]

theorem main_summary {files : ByteString → Option (List UInt8)} {st : Impl Double}
    (hload : (Impl.fresh ⟨1⟩ ⟨1⟩).load (files path) = (.ok, st)) (program : ByteString)
    (rest : List ByteString) :
    main buildDemo files (program :: ascii "summary" :: ascii "--state" :: path :: rest) =
      some (0, .summary st.id st.epoch st.workloads.size st.sources.size st.workers.size
        st.baselines.size st.observations.size st.episodes.size st.matrix.size
        (canonicalDigest st)) := by
  rw [main, argValue_state, if_neg (by decide), if_neg (by decide), if_pos (by decide), stats,
    hload]

/-- Everything that a run recorded in order and saved, the tool reports as the observatory itself
would: its counts and digest, its rows and episodes, and each cell and explanation by the
arguments that the rows print. Only the domains without a name are refused, and what `pairwise`
does is undefined. -/
theorem saved_state_reported {id : ObservatoryId} {generation : ObservatoryGeneration}
    {hist : List (Op Double)} {st : Impl Double}
    (hr : Run step Chronological (Impl.fresh id generation) hist st) {out : String} {io : Io}
    {fs : Files} (hsave : (st.save out io fs).1 = .ok) (hfits : st.Fits)
    {files : ByteString → Option (List UInt8)} (hfile : files path = st.saved out io fs out)
    (hpath : path ∉ queryKeys) (program : ByteString) :
    main buildDemo files [program, ascii "summary", ascii "--state", path] =
        some (0, .summary st.id st.epoch st.workloads.size st.sources.size st.workers.size
          st.baselines.size st.observations.size st.episodes.size st.matrix.size
          (canonicalDigest st)) ∧
      main buildDemo files [program, ascii "replay", ascii "--state", path] =
        some (0, .replay (canonicalDigest st) true) ∧
      main buildDemo files [program, ascii "workloads", ascii "--state", path] =
        some (0, .rows st.matrix.toList) ∧
      main buildDemo files [program, ascii "pairwise", ascii "--state", path] = none ∧
      main buildDemo files [program, ascii "episodes", ascii "--state", path] =
        some (0, .episodes st.episodes.values) ∧
      ∀ k, main buildDemo files (program :: ascii "compare" :: cellArgs path k) =
          some (cellReport st k) ∧
        main buildDemo files (program :: ascii "explain" :: cellArgs path k) =
          some (explainReport st k) := by
  have hrep : Replayable st := hr.invariant (replayable_fresh id generation)
    fun _ _ _ ha hs h => h.step ha hs
  -- the matrix that the load replays is the one the run had
  have hload : (Impl.fresh ⟨1⟩ ⟨1⟩).load (files path) = (.ok, st) := by
    rw [hfile, Impl.load_saved hsave hfits]
    change (Status.ok, { st with matrix := overlay (replayedCells st) ∅ }) = _
    rw [hrep.matrix_eq]
  refine ⟨main_summary hload program [], ?_, ?_, ?_, ?_, fun k => ⟨?_, ?_⟩⟩
  · rw [main_query hload (by decide), query_replay hload]
  · rw [main_query hload (by decide)]
    rfl
  · rw [main_query hload (by decide)]
    rfl
  · rw [main_query hload (by decide)]
    rfl
  · rw [cellArgs, main_query hload (by decide)]
    exact query_compare hpath st _ k
  · rw [cellArgs, main_query hload (by decide)]
    exact query_explain hpath st _ k

theorem saved_state_reported_compared :
    let buildDemo := fun _ : ByteString => Status.ok
    let files := fun _ : ByteString => Demo.compared.saved "state" ⟨true, true, 0, true⟩
      (fun _ => none) "state"
    main buildDemo files ([ascii "io-observatory", ascii "compare"] ++
        cellArgs (ascii "state") ⟨⟨1⟩, ⟨2⟩, .cache⟩) =
      some (cellReport Demo.compared ⟨⟨1⟩, ⟨2⟩, .cache⟩) ∧
    main buildDemo files ([ascii "io-observatory", ascii "explain"] ++
        cellArgs (ascii "state") ⟨⟨1⟩, ⟨2⟩, .unknown⟩) =
      some (2, .unknownDomain (ascii "UNKNOWN")) := by
  intro buildDemo files
  have hsave : (Demo.compared.save "state" ⟨true, true, 0, true⟩ fun _ => none).1 = .ok := by
    decide +kernel
  have horder := chronological_of_empty published_comparisons Demo.victim Demo.neighbor .cache
    Demo.slowdown .init
  have hrun : Run step Chronological (Impl.fresh ⟨1⟩ ⟨1⟩)
      ([.publishBaseline Demo.baseline] ++
        [.compare Demo.victim Demo.neighbor .cache Demo.slowdown .init]) Demo.compared :=
    .next (.next .start trivial rfl) horder rfl
  have hfits : (Demo.compared : Impl Double).Fits := by decide +kernel
  have hpath : ascii "state" ∉ queryKeys := by decide
  obtain ⟨-, -, -, -, -, hcell⟩ := @saved_state_reported (ascii "state") buildDemo _ _ _ _ hrun _
    _ _ hsave hfits files rfl hpath (ascii "io-observatory")
  exact ⟨(hcell ⟨⟨1⟩, ⟨2⟩, .cache⟩).1, (hcell ⟨⟨1⟩, ⟨2⟩, .unknown⟩).2⟩

end Tool

end Iobs
