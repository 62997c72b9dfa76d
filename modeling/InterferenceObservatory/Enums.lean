import Mathlib.Data.Fin.Basic
import Mathlib.Logic.Basic

/-! The enumerations. Each is an `enum class : uint8_t` of the source, so an object of
the type may hold any byte: a byte read from a file or off the wire is cast without a
check. `outOfRange` is the constructor of the bytes past the last enumerator. -/

namespace Iobs

class ByteEnum (E : Type) where
  toByte : E → UInt8
  ofByte : UInt8 → E
  ofByte_toByte : ∀ e, ofByte (toByte e) = e

theorem ByteEnum.toByte_injective {E : Type} [ByteEnum E] {a b : E}
    (h : ByteEnum.toByte a = ByteEnum.toByte b) : a = b := by
  rw [← ByteEnum.ofByte_toByte a, h, ByteEnum.ofByte_toByte]

inductive InterferenceDomain where
  | computeExecution | cache | memoryBandwidth | memoryCapacity | pcie | transfer | collective
  | network | numa | storage | hostCpu | residency | sharedEngine | unknown
  | outOfRange (r : Fin 242)
deriving DecidableEq

instance : ByteEnum InterferenceDomain where
  toByte
    | .computeExecution => 0
    | .cache => 1
    | .memoryBandwidth => 2
    | .memoryCapacity => 3
    | .pcie => 4
    | .transfer => 5
    | .collective => 6
    | .network => 7
    | .numa => 8
    | .storage => 9
    | .hostCpu => 10
    | .residency => 11
    | .sharedEngine => 12
    | .unknown => 13
    | .outOfRange r => UInt8.ofNat (14 + r)
  ofByte b := match b.toNat with
    | 0 => .computeExecution
    | 1 => .cache
    | 2 => .memoryBandwidth
    | 3 => .memoryCapacity
    | 4 => .pcie
    | 5 => .transfer
    | 6 => .collective
    | 7 => .network
    | 8 => .numa
    | 9 => .storage
    | 10 => .hostCpu
    | 11 => .residency
    | 12 => .sharedEngine
    | 13 => .unknown
    | n => .outOfRange (Fin.ofNat 242 (n - 14))
  ofByte_toByte e := by
    cases e with
    | outOfRange r => revert r; decide +kernel
    | _ => rfl

inductive Outcome where
  | noInterferenceDetected | potentialInterference | interferenceDetected | severeInterference
  | insufficientEvidence | baselineInvalid | revalidationRequired | unsupported | unknown
  | outOfRange (r : Fin 247)
deriving DecidableEq

instance : ByteEnum Outcome where
  toByte
    | .noInterferenceDetected => 0
    | .potentialInterference => 1
    | .interferenceDetected => 2
    | .severeInterference => 3
    | .insufficientEvidence => 4
    | .baselineInvalid => 5
    | .revalidationRequired => 6
    | .unsupported => 7
    | .unknown => 8
    | .outOfRange r => UInt8.ofNat (9 + r)
  ofByte b := match b.toNat with
    | 0 => .noInterferenceDetected
    | 1 => .potentialInterference
    | 2 => .interferenceDetected
    | 3 => .severeInterference
    | 4 => .insufficientEvidence
    | 5 => .baselineInvalid
    | 6 => .revalidationRequired
    | 7 => .unsupported
    | 8 => .unknown
    | n => .outOfRange (Fin.ofNat 247 (n - 9))
  ofByte_toByte e := by
    cases e with
    | outOfRange r => revert r; decide +kernel
    | _ => rfl

inductive AttributionStrength where
  | unknown | temporallyAssociated | correlated | controlledComparison
  | strongCounterfactualEvidence | directResourceEvidence
  | outOfRange (r : Fin 250)
deriving DecidableEq

instance : ByteEnum AttributionStrength where
  toByte
    | .unknown => 0
    | .temporallyAssociated => 1
    | .correlated => 2
    | .controlledComparison => 3
    | .strongCounterfactualEvidence => 4
    | .directResourceEvidence => 5
    | .outOfRange r => UInt8.ofNat (6 + r)
  ofByte b := match b.toNat with
    | 0 => .unknown
    | 1 => .temporallyAssociated
    | 2 => .correlated
    | 3 => .controlledComparison
    | 4 => .strongCounterfactualEvidence
    | 5 => .directResourceEvidence
    | n => .outOfRange (Fin.ofNat 250 (n - 6))
  ofByte_toByte e := by
    cases e with
    | outOfRange r => revert r; decide +kernel
    | _ => rfl

inductive Provenance where
  | measured | reported | derived | controlled | synthetic | replayed | unknown
  | outOfRange (r : Fin 249)
deriving DecidableEq

instance : ByteEnum Provenance where
  toByte
    | .measured => 0
    | .reported => 1
    | .derived => 2
    | .controlled => 3
    | .synthetic => 4
    | .replayed => 5
    | .unknown => 6
    | .outOfRange r => UInt8.ofNat (7 + r)
  ofByte b := match b.toNat with
    | 0 => .measured
    | 1 => .reported
    | 2 => .derived
    | 3 => .controlled
    | 4 => .synthetic
    | 5 => .replayed
    | 6 => .unknown
    | n => .outOfRange (Fin.ofNat 249 (n - 7))
  ofByte_toByte e := by
    cases e with
    | outOfRange r => revert r; decide +kernel
    | _ => rfl

inductive Freshness where
  | current | stale | expired | revalidationRequired | historical | unknown
  | outOfRange (r : Fin 250)
deriving DecidableEq

instance : ByteEnum Freshness where
  toByte
    | .current => 0
    | .stale => 1
    | .expired => 2
    | .revalidationRequired => 3
    | .historical => 4
    | .unknown => 5
    | .outOfRange r => UInt8.ofNat (6 + r)
  ofByte b := match b.toNat with
    | 0 => .current
    | 1 => .stale
    | 2 => .expired
    | 3 => .revalidationRequired
    | 4 => .historical
    | 5 => .unknown
    | n => .outOfRange (Fin.ofNat 250 (n - 6))
  ofByte_toByte e := by
    cases e with
    | outOfRange r => revert r; decide +kernel
    | _ => rfl

inductive SourceHealth where
  | healthy | degraded | stale | disconnected | revalidationRequired | unsupported | unknown
  | outOfRange (r : Fin 249)
deriving DecidableEq

instance : ByteEnum SourceHealth where
  toByte
    | .healthy => 0
    | .degraded => 1
    | .stale => 2
    | .disconnected => 3
    | .revalidationRequired => 4
    | .unsupported => 5
    | .unknown => 6
    | .outOfRange r => UInt8.ofNat (7 + r)
  ofByte b := match b.toNat with
    | 0 => .healthy
    | 1 => .degraded
    | 2 => .stale
    | 3 => .disconnected
    | 4 => .revalidationRequired
    | 5 => .unsupported
    | 6 => .unknown
    | n => .outOfRange (Fin.ofNat 249 (n - 7))
  ofByte_toByte e := by
    cases e with
    | outOfRange r => revert r; decide +kernel
    | _ => rfl

inductive MetricKind where
  | latency | throughput | deviceTime | transferTime | collectiveTime | stallTime
  | memoryBandwidth | tailLatency | completionRate
  | outOfRange (r : Fin 247)
deriving DecidableEq

instance : ByteEnum MetricKind where
  toByte
    | .latency => 0
    | .throughput => 1
    | .deviceTime => 2
    | .transferTime => 3
    | .collectiveTime => 4
    | .stallTime => 5
    | .memoryBandwidth => 6
    | .tailLatency => 7
    | .completionRate => 8
    | .outOfRange r => UInt8.ofNat (9 + r)
  ofByte b := match b.toNat with
    | 0 => .latency
    | 1 => .throughput
    | 2 => .deviceTime
    | 3 => .transferTime
    | 4 => .collectiveTime
    | 5 => .stallTime
    | 6 => .memoryBandwidth
    | 7 => .tailLatency
    | 8 => .completionRate
    | n => .outOfRange (Fin.ofNat 247 (n - 9))
  ofByte_toByte e := by
    cases e with
    | outOfRange r => revert r; decide +kernel
    | _ => rfl

inductive BaselineType where
  | isolated | historicalIsolated | controlRun | recentHealthy | configuredReference
  | syntheticReference
  | outOfRange (r : Fin 250)
deriving DecidableEq

instance : ByteEnum BaselineType where
  toByte
    | .isolated => 0
    | .historicalIsolated => 1
    | .controlRun => 2
    | .recentHealthy => 3
    | .configuredReference => 4
    | .syntheticReference => 5
    | .outOfRange r => UInt8.ofNat (6 + r)
  ofByte b := match b.toNat with
    | 0 => .isolated
    | 1 => .historicalIsolated
    | 2 => .controlRun
    | 3 => .recentHealthy
    | 4 => .configuredReference
    | 5 => .syntheticReference
    | n => .outOfRange (Fin.ofNat 250 (n - 6))
  ofByte_toByte e := by
    cases e with
    | outOfRange r => revert r; decide +kernel
    | _ => rfl

inductive Confounder where
  | thermalThrottling | powerThrottling | clockChange | backgroundOSLoad
  | differentWorkloadInput | differentKernelVersion | differentDriverRuntimeState | coldStart
  | cacheWarmup | allocationWarmup | frequencyScaling | deviceTemperature | memoryPressure
  | retryRecovery | workerRestart | differentPlacement | unknown
  | outOfRange (r : Fin 239)
deriving DecidableEq

instance : ByteEnum Confounder where
  toByte
    | .thermalThrottling => 0
    | .powerThrottling => 1
    | .clockChange => 2
    | .backgroundOSLoad => 3
    | .differentWorkloadInput => 4
    | .differentKernelVersion => 5
    | .differentDriverRuntimeState => 6
    | .coldStart => 7
    | .cacheWarmup => 8
    | .allocationWarmup => 9
    | .frequencyScaling => 10
    | .deviceTemperature => 11
    | .memoryPressure => 12
    | .retryRecovery => 13
    | .workerRestart => 14
    | .differentPlacement => 15
    | .unknown => 16
    | .outOfRange r => UInt8.ofNat (17 + r)
  ofByte b := match b.toNat with
    | 0 => .thermalThrottling
    | 1 => .powerThrottling
    | 2 => .clockChange
    | 3 => .backgroundOSLoad
    | 4 => .differentWorkloadInput
    | 5 => .differentKernelVersion
    | 6 => .differentDriverRuntimeState
    | 7 => .coldStart
    | 8 => .cacheWarmup
    | 9 => .allocationWarmup
    | 10 => .frequencyScaling
    | 11 => .deviceTemperature
    | 12 => .memoryPressure
    | 13 => .retryRecovery
    | 14 => .workerRestart
    | 15 => .differentPlacement
    | 16 => .unknown
    | n => .outOfRange (Fin.ofNat 239 (n - 17))
  ofByte_toByte e := by
    cases e with
    | outOfRange r => revert r; decide +kernel
    | _ => rfl

def isHardConfounder : Confounder → Bool
  | .thermalThrottling | .powerThrottling | .clockChange | .differentWorkloadInput
  | .differentKernelVersion | .differentDriverRuntimeState | .workerRestart
  | .differentPlacement => true
  | _ => false

def Confounder.toString : Confounder → String
  | .thermalThrottling => "THERMAL_THROTTLING"
  | .powerThrottling => "POWER_THROTTLING"
  | .clockChange => "CLOCK_CHANGE"
  | .backgroundOSLoad => "BACKGROUND_OS_LOAD"
  | .differentWorkloadInput => "DIFFERENT_WORKLOAD_INPUT"
  | .differentKernelVersion => "DIFFERENT_KERNEL_VERSION"
  | .differentDriverRuntimeState => "DIFFERENT_DRIVER_RUNTIME_STATE"
  | .coldStart => "COLD_START"
  | .cacheWarmup => "CACHE_WARMUP"
  | .allocationWarmup => "ALLOCATION_WARMUP"
  | .frequencyScaling => "FREQUENCY_SCALING"
  | .deviceTemperature => "DEVICE_TEMPERATURE"
  | .memoryPressure => "MEMORY_PRESSURE"
  | .retryRecovery => "RETRY_RECOVERY"
  | .workerRestart => "WORKER_RESTART"
  | .differentPlacement => "DIFFERENT_PLACEMENT"
  | .unknown => "UNKNOWN"
  | .outOfRange _ => "UNKNOWN_CONFOUNDER"

inductive Status where
  | ok | invalidInput | incompatibleBaseline | missingBaseline | staleBaseline | staleAuthority
  | staleSource | insufficientEvidence | noInterferenceDetected | unsupported | outcomeUnknown
  | confounded | persistenceCorrupt | protocolError | overflow | resourceExhausted | cancelled
  | shuttingDown
deriving DecidableEq

end Iobs
