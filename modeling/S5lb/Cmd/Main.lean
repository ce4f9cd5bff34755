import S5lb.Balancer.Manager
import S5lb.Config.Load

namespace S5lb

def BackpressureStrategy.ofName (name : String) : BackpressureStrategy :=
  if name = "reject" then .reject
  else if name = "wait" then .wait
  else if name = "drop-oldest" then .dropOldest
  else if name = "drop-lowest-priority" then .dropLowestPriority
  else .other name

def HashKey.ofName (name : String) : HashKey :=
  if name = "client-ip" then .clientIP
  else if name = "destination" then .destination
  else if name = "destination-host" then .destHost
  else .other name

/-- The flags `main` merges over the config; a switch that was not given is `none`. -/
structure Flags where
  listen : String
  adminAddr : String
  upstreams : List String
  strategy : String
  hashKey : String
  backpressure : String
  maxPerProxy : Int
  maxClients : Int
  logLevel : String
  logFormat : String
  udp : Option Bool
  otel : Option Bool
  otelEndpoint : String
  otelInsecure : Option Bool

def Config.applyFlagOverrides (cfg : Config) (flags : Flags) : Config :=
  { cfg with
    listenAddr := if flags.listen ≠ "" then flags.listen else cfg.listenAddr
    adminAddr := if flags.adminAddr ≠ "" then flags.adminAddr else cfg.adminAddr
    strategy := if flags.strategy ≠ "" then flags.strategy else cfg.strategy
    hashKey := if flags.hashKey ≠ "" then .ofName flags.hashKey else cfg.hashKey
    backpressure := if flags.backpressure ≠ "" then .ofName flags.backpressure else cfg.backpressure
    maxPerProxy := if flags.maxPerProxy > 0 then flags.maxPerProxy else cfg.maxPerProxy
    maxClients := if flags.maxClients > 0 then flags.maxClients else cfg.maxClients
    logLevel := if flags.logLevel ≠ "" then parseLevel flags.logLevel else cfg.logLevel
    logFormat := if flags.logFormat ≠ "" then flags.logFormat else cfg.logFormat
    udpEnabled := flags.udp.getD cfg.udpEnabled
    otel := { cfg.otel with
      enabled := if flags.otelEndpoint ≠ "" then true else flags.otel.getD cfg.otel.enabled
      endpoint := if flags.otelEndpoint ≠ "" then flags.otelEndpoint else cfg.otel.endpoint
      insecure := flags.otelInsecure.getD cfg.otel.insecure } }

/-- What `main` keeps of a parsed upstream; the ID is not among it. -/
def Upstream.toSpec (u : Upstream) : UpstreamSpec where
  id := ""
  host := u.host
  port := u.port
  username := u.username
  password := u.password
  weight := u.weight
  priority := u.priority

/-- What `main` gets from outside: the decoded file, `url.Parse`, the cluster, and whether tracing
and the admin server come up. -/
structure Environment where
  client : KubeClient
  decoded : Except String MultiConfig
  url : String → Except String Url
  telemetryInit : OTelConfig → Except String Unit
  adminNew : Config → Except String Unit

namespace Environment

def loadConfig (env : Environment) (configPath : String) : Except String MultiConfig :=
  if configPath ≠ "" then (loadMultiFile env.decoded).mapError ("error loading config: " ++ ·)
  else .ok ⟨defaults, []⟩

def parseUpstreams (env : Environment) (specs : List String) : Except String (List UpstreamSpec) :=
  specs.mapM fun spec =>
    ((Upstream.parse env.url 0 spec).mapError ("invalid upstream " ++ Go.quote spec ++ ": " ++ ·)).map
      Upstream.toSpec

def mergeFlags (env : Environment) (flags : Flags) (mc : MultiConfig) : Except String MultiConfig :=
  (env.parseUpstreams flags.upstreams).map fun cli =>
    let cfg := mc.config.applyFlagOverrides flags
    { mc with config := { cfg with upstreams := cfg.upstreams ++ cli } }

def main (env : Environment) (flags : Flags) (configPath : String) : Except String Manager := do
  let mc ← env.loadConfig configPath
  let mc ← env.mergeFlags flags mc
  refuse (mc.effectiveGroups.any (·.upstreams.isEmpty))
    "error: at least one upstream is required (config or -upstream)"
  let mc ← mc.validate.mapError ("invalid config: " ++ ·)
  env.telemetryInit mc.config.otel
  let mgr ← Manager.newManager env.client mc configPath []
  if mc.config.adminAddr ≠ "" then env.adminNew mc.config
  return mgr

end Environment

end S5lb
