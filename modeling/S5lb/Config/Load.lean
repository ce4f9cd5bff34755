import Mathlib.Data.List.Infix
import S5lb.Config.Multi
import S5lb.Go.Strconv

namespace S5lb

/-- `logging.ParseLevel`; the numbers are those of `slog`. -/
def parseLevel (s : String) : Int :=
  match Go.toLower s with
  | "debug" => -4
  | "info" => 0
  | "warn" | "warning" => 4
  | "error" => 8
  | _ => 0

/-- `LoadMultiFile`; `decoded` is what reading the file and decoding it over the defaults gives. -/
def loadMultiFile (decoded : Except String MultiConfig) : Except String MultiConfig :=
  decoded.map fun mc =>
    { mc with
      config :=
        { mc.config with
          logLevel := parseLevel mc.config.logLevelS
          otel := { mc.config.otel with
            serviceName :=
              if mc.config.otel.serviceName = "" then "s5lb" else mc.config.otel.serviceName } } }

/-- What `ParseUpstream` reads of a parsed URL: the name and the password of its user, and for every
key of the query the first value. -/
structure Url where
  scheme : String
  user : Option (String × Option String)
  host : String
  query : List (String × String)

def Url.get (u : Url) (key : String) : String := (u.query.lookup key).getD ""

def parsePort (portStr : String) : Except String Int := do
  let port ← (Go.atoi portStr).mapError ("port " ++ Go.quote portStr ++ ": " ++ ·)
  refuse (decide (port < 1) || decide (port > 65535)) s!"port {port} out of range [1,65535]"
  return port

namespace Upstream

def setWeight (u : Upstream) (v : String) : Except String Upstream := do
  let n ← (Go.atoi v).mapError ("invalid weight " ++ Go.quote v ++ ": " ++ ·)
  refuse (decide (n ≤ 0)) s!"weight must be > 0, got {n}"
  return { u with weight := n }

def setPriority (u : Upstream) (v : String) : Except String Upstream := do
  let n ← (Go.atoi v).mapError ("invalid priority " ++ Go.quote v ++ ": " ++ ·)
  return { u with priority := n }

def applyQuery (u : Upstream) (q : Url) : Except String Upstream := do
  let u ← if q.get "weight" ≠ "" then u.setWeight (q.get "weight") else .ok u
  let u ← if q.get "priority" ≠ "" then u.setPriority (q.get "priority") else .ok u
  return if q.get "id" ≠ "" then { u with id := q.get "id" } else u

def applyPair (u : Upstream) (kv : List Char) : Except String Upstream :=
  match kv.idxOf? '=' with
  | none => .error ("invalid shorthand pair " ++ Go.quote (String.ofList kv))
  | some i =>
      let key := Go.trimSpace (String.ofList (kv.take i))
      let val := Go.trimSpace (String.ofList (kv.drop (i + 1)))
      if key = "w" ∨ key = "weight" then u.setWeight val
      else if key = "p" ∨ key = "priority" then u.setPriority val
      else if key = "id" then .ok { u with id := val }
      else .error ("unknown shorthand key " ++ Go.quote key)

def applyShorthand (u : Upstream) (s : List Char) : Except String Upstream :=
  (s.splitOn ',').foldlM applyPair u

def setAddr (u : Upstream) (hp : Except String (String × String)) : Except String Upstream := do
  let (host, portStr) ← hp
  let port ← parsePort portStr
  return { u with host, port }

def parseURLForm (url : String → Except String Url) (u : Upstream) (spec : String) :
    Except String Upstream := do
  let p ← url spec
  refuse (p.scheme != "socks5" && p.scheme != "socks5h") ("unsupported scheme " ++ Go.quote p.scheme)
  let u := match p.user with
    | none => u
    | some (name, none) => { u with username := name }
    | some (name, some pw) => { u with username := name, password := pw }
  let u ← u.setAddr (Go.Net.splitHostPort p.host)
  u.applyQuery p

def parsePlainForm (u : Upstream) (spec : List Char) : Except String Upstream :=
  let (u, hp) := match Go.Net.lastIndex '@' spec with
    | none => (u, spec)
    | some cut =>
        let creds := spec.take cut
        let hp := spec.drop (cut + 1)
        match creds.idxOf? ':' with
        | some i => ({ u with
            username := String.ofList (creds.take i), password := String.ofList (creds.drop (i + 1)) }, hp)
        | none => ({ u with username := String.ofList creds }, hp)
  let text := String.ofList hp
  u.setAddr ((Go.Net.splitHostPort text).mapError ("split host:port " ++ Go.quote text ++ ": " ++ ·))

/-- `ParseUpstream`; `url` is `url.Parse` and `state` the `State` made for the result. -/
def parse (url : String → Except String Url) (state : StateRef) (spec : String) :
    Except String Upstream := do
  let s := spec.toList
  let u : Upstream := ⟨"", "", 0, "", "", 1, 0, state⟩
  let (u, s) ← match s.idxOf? '#' with
    | none => Except.ok (u, s)
    | some hash =>
        ((u.applyShorthand (s.drop (hash + 1))).mapError ("shorthand: " ++ ·)).map (·, s.take hash)
  let u ← if "://".toList <:+: s then u.parseURLForm url (String.ofList s) else u.parsePlainForm s
  return u.normalizeID

variable {url : String → Except String Url} {state : StateRef} {spec : String}

theorem parse_of_bare (bare : spec.toList.idxOf? '#' = none) :
    parse url state spec =
      (if "://".toList <:+: spec.toList then
        parseURLForm url ⟨"", "", 0, "", "", 1, 0, state⟩ (String.ofList spec.toList)
      else parsePlainForm ⟨"", "", 0, "", "", 1, 0, state⟩ spec.toList) >>= fun u =>
      .ok u.normalizeID := by
  unfold parse
  simp only [bare]
  by_cases address : "://".toList <:+: spec.toList
  · simp only [if_pos address]
    exact if_pos address
  · simp only [if_neg address]
    exact if_neg address

theorem parse_of_hash {hash : Nat} (cut : spec.toList.idxOf? '#' = some hash) :
    parse url state spec =
      ((applyShorthand ⟨"", "", 0, "", "", 1, 0, state⟩ (spec.toList.drop (hash + 1))).mapError
        ("shorthand: " ++ ·)) >>= fun u =>
      (if "://".toList <:+: spec.toList.take hash then
        u.parseURLForm url (String.ofList (spec.toList.take hash))
      else u.parsePlainForm (spec.toList.take hash)) >>= fun u =>
      .ok u.normalizeID := by
  unfold parse
  simp only [cut]
  cases (applyShorthand ⟨"", "", 0, "", "", 1, 0, state⟩ (spec.toList.drop (hash + 1))).mapError
      ("shorthand: " ++ ·) with
  | error e => rfl
  | ok u =>
      by_cases address : "://".toList <:+: spec.toList.take hash
      · simp only [if_pos address]
        exact if_pos address
      · simp only [if_neg address]
        exact if_neg address

end Upstream

end S5lb
