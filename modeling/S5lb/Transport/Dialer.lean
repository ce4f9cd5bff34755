import S5lb.Config.Config

namespace S5lb

abbrev RestConfig := String

/-- What `NewFromConfig` gets from outside the repository: the client-go loaders and constructor,
and `url.Parse` as its scheme and host. -/
structure KubeClient where
  loadKubeconfig : Option String → String → Except String RestConfig
  inClusterConfig : Except String RestConfig
  newForConfig : RestConfig → Except String Unit
  urlParse : String → Except String (String × String)

inductive Dialer
  | tcp (timeout keepAlive : Duration)
  | rawWSSExec (k : KubernetesExecTransportConfig)
  | kubernetesExec (restConfig : RestConfig) (ns pod container mode : String)
      (command : List String)
  deriving DecidableEq

def newRawWSSExecDialer (client : KubeClient) (k : KubernetesExecTransportConfig) :
    Except String Dialer := do
  refuse (k.wssURL == "") "raw WSS exec URL is required"
  let (scheme, host) ← (client.urlParse k.wssURL).mapError ("parse raw WSS exec URL: " ++ ·)
  refuse (scheme != "wss" && scheme != "ws")
    ("raw exec URL must use ws or wss scheme, got " ++ Go.quote scheme)
  refuse (host == "") "raw exec URL host is required"
  return .rawWSSExec k

def buildRESTConfig (client : KubeClient) (kubeconfigPath contextName : String) :
    Except String RestConfig :=
  if kubeconfigPath ≠ "" then
    (client.loadKubeconfig (some kubeconfigPath) contextName).mapError
      ("load kubeconfig " ++ Go.quote kubeconfigPath ++ ": " ++ ·)
  else match client.inClusterConfig with
    | .ok cfg => .ok cfg
    | .error _ => (client.loadKubeconfig none contextName).mapError
        ("load kubernetes config: " ++ ·)

def newKubernetesExecDialer (client : KubeClient) (restConfig : RestConfig)
    (k : KubernetesExecTransportConfig) : Except String Dialer := do
  let ns := if k.ns = "" then "default" else k.ns
  refuse (k.pod == "") "kubernetes exec pod is required"
  refuse k.command.isEmpty "kubernetes exec command is required"
  let mode := if k.mode = "" then "websocket-preferred" else k.mode
  refuse (!(["spdy", "websocket", "websocket-preferred"].contains mode))
    ("unsupported client-go kubernetes exec mode " ++ Go.quote mode)
  (client.newForConfig restConfig).mapError ("create kubernetes client: " ++ ·)
  return .kubernetesExec restConfig ns k.pod k.container mode k.command

def newFromConfig (client : KubeClient) (cfg : Config) : Except String Dialer :=
  match cfg.transport.type with
  | .unset | .direct => .ok (.tcp cfg.connectTimeout (30 * second))
  | .kubernetesExec =>
      let k := cfg.transport.kubernetes
      if k.mode = "raw-wss" ∨ k.wssURL ≠ "" then newRawWSSExecDialer client k
      else do
        let restCfg ← buildRESTConfig client k.kubeconfig k.context
        newKubernetesExecDialer client restCfg k
  | .other name => .error ("unsupported transport.type " ++ Go.quote name)

def noCluster : KubeClient where
  loadKubeconfig := fun _ _ => .error "no kubeconfig"
  inClusterConfig := .error "not in a cluster"
  newForConfig := fun _ => .error "no cluster"
  urlParse := fun _ => .error "no URL"

end S5lb
