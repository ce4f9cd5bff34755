import S5lb.Go.Net
import S5lb.Upstream

namespace S5lb

inductive BackpressureStrategy
  | reject
  | wait
  | dropOldest
  | dropLowestPriority
  | other (name : String)
  deriving DecidableEq

def BackpressureStrategy.name : BackpressureStrategy → String
  | .reject => "reject"
  | .wait => "wait"
  | .dropOldest => "drop-oldest"
  | .dropLowestPriority => "drop-lowest-priority"
  | .other name => name

inductive HashKey
  | clientIP
  | destination
  | destHost
  | other (name : String)
  deriving DecidableEq

def HashKey.name : HashKey → String
  | .clientIP => "client-ip"
  | .destination => "destination"
  | .destHost => "destination-host"
  | .other name => name

inductive TransportType
  | unset
  | direct
  | kubernetesExec
  | other (name : String)
  deriving DecidableEq

structure KubernetesExecTransportConfig where
  kubeconfig : String
  context : String
  ns : String
  pod : String
  container : String
  mode : String
  command : List String
  wssURL : String
  bearerToken : String
  bearerTokenFile : String
  caFile : String
  insecureSkipTLSVerify : Bool
  serverName : String
  headers : List (String × String)
  deriving DecidableEq

structure TransportConfig where
  type : TransportType
  kubernetes : KubernetesExecTransportConfig
  deriving DecidableEq

structure UpstreamSpec where
  id : String
  host : String
  port : Int
  username : String
  password : String
  weight : Int
  priority : Int
  deriving DecidableEq

structure OTelConfig where
  enabled : Bool
  endpoint : String
  insecure : Bool
  serviceName : String
  sampleRatio : Float64
  headers : List (String × String)
  deriving DecidableEq

structure Config where
  listenAddr : String
  adminAddr : String
  maxPerProxy : Int
  maxClients : Int
  healthInterval : Duration
  retryBackoff : Duration
  connectTimeout : Duration
  handshakeTimeout : Duration
  queueWaitTimeout : Duration
  failureThreshold : Int
  failureWindow : Duration
  idleTimeout : Duration
  drainSoftTimeout : Duration
  drainHardTimeout : Duration
  tcpKeepAlive : Bool
  strategy : String
  hashKey : HashKey
  backpressure : BackpressureStrategy
  admissionWaitTimeout : Duration
  udpEnabled : Bool
  udpBindAddr : String
  udpAdvertiseAddr : String
  udpIdleTimeout : Duration
  transport : TransportConfig
  otel : OTelConfig
  logLevel : Int
  logLevelS : String
  logFormat : String
  adminToken : String
  adminPprof : Bool
  upstreams : List UpstreamSpec
  groupName : String
  deriving DecidableEq

def second : Duration := 1000000000

def noKubernetes : KubernetesExecTransportConfig where
  kubeconfig := ""
  context := ""
  ns := ""
  pod := ""
  container := ""
  mode := ""
  command := []
  wssURL := ""
  bearerToken := ""
  bearerTokenFile := ""
  caFile := ""
  insecureSkipTLSVerify := false
  serverName := ""
  headers := []

def defaults : Config where
  listenAddr := "127.0.0.1:1080"
  adminAddr := "127.0.0.1:9090"
  maxPerProxy := 100
  maxClients := 4096
  healthInterval := 20 * second
  retryBackoff := 30 * second
  connectTimeout := 5 * second
  handshakeTimeout := 10 * second
  queueWaitTimeout := 10 * second
  failureThreshold := 5
  failureWindow := 30 * second
  idleTimeout := 0
  drainSoftTimeout := 20 * second
  drainHardTimeout := 10 * second
  tcpKeepAlive := true
  strategy := "least-active"
  hashKey := .clientIP
  backpressure := .reject
  admissionWaitTimeout := 2 * second
  udpEnabled := true
  udpBindAddr := ""
  udpAdvertiseAddr := ""
  udpIdleTimeout := 60 * second
  transport := ⟨.direct, noKubernetes⟩
  otel := ⟨false, "", false, "s5lb", .fin 1, []⟩
  logLevel := 0
  logLevelS := ""
  logFormat := "json"
  adminToken := ""
  adminPprof := false
  upstreams := []
  groupName := ""

def refuse (bad : Bool) (message : String) : Except String Unit :=
  if bad then .error message else .ok ()

def validateUpstreams : Nat → List String → List UpstreamSpec → Except String Unit
  | _, _, [] => .ok ()
  | i, seenIDs, u :: rest => do
      refuse (u.host == "") s!"upstream[{i}].host is required"
      refuse (decide (u.port < 1) || decide (u.port > 65535)) s!"upstream[{i}].port must be in [1,65535]"
      refuse (decide (u.weight < 0)) s!"upstream[{i}].weight must be >= 0"
      refuse (u.id != "" && seenIDs.contains u.id)
        (s!"upstream[{i}]: duplicate upstream ID " ++ Go.quote u.id)
      validateUpstreams (i + 1) (if u.id = "" then seenIDs else u.id :: seenIDs) rest

def validStrategyNames : List String :=
  ["", "least-active", "leastconn", "round-robin", "rr", "weighted-round-robin", "wrr", "random",
    "weighted-random", "wrandom", "p2c", "power-of-two", "least-latency", "ll", "consistent-hash",
    "hash", "priority-failover", "priority", "failover"]

def validateStrategyName (name : String) : Except String Unit :=
  refuse (!validStrategyNames.contains (Go.toLower (Go.trimSpace name)))
    ("unknown strategy " ++ Go.quote name)

def validateListenAddr (addr : String) : Except String Unit :=
  match Go.Net.splitHostPort addr with
  | .error why => .error ("listen addr " ++ Go.quote addr ++ " is invalid: " ++ why)
  | .ok _ => .ok ()

def validateBackpressure (b : BackpressureStrategy) : Except String Unit :=
  match b with
  | .other name => .error ("unknown backpressure strategy " ++ Go.quote name)
  | _ => .ok ()

def validateHashKey (k : HashKey) : Except String Unit :=
  match k with
  | .other name => .error ("unknown hash_key " ++ Go.quote name)
  | _ => .ok ()

def validateTransport (t : TransportConfig) : Except String TransportConfig :=
  match t.type with
  | .unset | .direct => .ok { t with type := .direct }
  | .kubernetesExec => do
      let k := if t.kubernetes.mode = "" then { t.kubernetes with mode := "websocket-preferred" }
        else t.kubernetes
      if k.wssURL ≠ "" ∨ k.mode = "raw-wss" then
        refuse (k.wssURL == "") "transport.kubernetes.wss_url is required when mode=raw-wss"
      else
        refuse (k.pod == "") "transport.kubernetes.pod is required for kubernetes-exec"
        refuse (k.ns == "") "transport.kubernetes.namespace is required for kubernetes-exec"
      refuse k.command.isEmpty "transport.kubernetes.command is required for kubernetes-exec"
      return { t with kubernetes := k }
  | .other name => .error ("unknown transport.type " ++ Go.quote name)

def validateTimeouts (c : Config) : Except String Unit := do
  refuse (decide (c.healthInterval ≤ 0)) "health_interval must be > 0"
  refuse (decide (c.retryBackoff < 0)) "retry_backoff must be >= 0"
  refuse (decide (c.connectTimeout ≤ 0) || decide (c.handshakeTimeout ≤ 0))
    "connect/handshake timeouts must be > 0"
  refuse (decide (c.queueWaitTimeout < 0)) "queue_wait_timeout must be >= 0"
  refuse (decide (c.admissionWaitTimeout < 0))
    "admission_wait_timeout must be >= 0 (zero means unbounded wait)"
  refuse (decide (c.failureThreshold ≤ 0)) "failure_threshold must be > 0"
  refuse (decide (c.failureWindow ≤ 0)) "failure_window must be > 0"
  refuse (decide (c.idleTimeout < 0)) "idle_timeout must be >= 0"
  refuse (decide (c.drainSoftTimeout < 0) || decide (c.drainHardTimeout < 0))
    "drain timeouts must be >= 0"

def Config.validate (c : Config) : Except String Config := do
  refuse (c.listenAddr == "") "listen addr is required"
  refuse (decide (c.maxPerProxy ≤ 0)) "max_per_proxy must be > 0"
  refuse (decide (c.maxClients ≤ 0)) "max_clients must be > 0"
  validateTimeouts c
  refuse (c.udpEnabled && decide (c.udpIdleTimeout ≤ 0))
    "udp_idle_timeout must be > 0 when UDP is enabled"
  refuse (c.udpAdvertiseAddr != "" && (Go.Net.parseIP c.udpAdvertiseAddr).isNone)
    ("udp_advertise must be an IP address, got " ++ Go.quote c.udpAdvertiseAddr)
  refuse c.upstreams.isEmpty "at least one upstream is required"
  validateUpstreams 0 [] c.upstreams
  validateListenAddr c.listenAddr
  validateStrategyName c.strategy
  validateBackpressure c.backpressure
  validateHashKey c.hashKey
  let transport ← validateTransport c.transport
  refuse (c.otel.enabled && c.otel.endpoint == "") "otel.enabled=true requires otel.endpoint"
  refuse (c.otel.sampleRatio.lt (.fin 0) || (Float64.fin 1).lt c.otel.sampleRatio)
    "otel.sample_ratio must be in [0,1]"
  return { c with transport }

def buildUpstreamsFrom (heap : Heap State) : Nat → List UpstreamSpec →
    Except String (List Upstream × Heap State)
  | _, [] => .ok ([], heap)
  | i, s :: rest =>
      if s.host = "" ∨ s.port ≤ 0 then .error s!"upstream[{i}]: host and port required"
      else
        let w := if s.weight ≤ 0 then 1 else s.weight
        let (u, heap) := Upstream.new heap s.host s.port s.username s.password w s.priority
        let u := if s.id ≠ "" then { u with id := s.id } else u
        (buildUpstreamsFrom heap (i + 1) rest).map fun (out, heap) => (u :: out, heap)

def Config.buildUpstreams (c : Config) (heap : Heap State) :
    Except String (List Upstream × Heap State) :=
  buildUpstreamsFrom heap 0 c.upstreams

end S5lb
