import S5lb.Upstream

namespace S5lb

abbrev SessionRef := Nat

structure Session where
  remote : Option String
  upstreamID : String
  upstreamPrio : Int
  admittedAt : Time
  prev : Option SessionRef
  next : Option SessionRef
  released : Bool
  deriving DecidableEq

structure Tracker where
  sessions : Heap Session
  head : Option SessionRef
  tail : Option SessionRef
  count : Int

namespace Tracker

def modify (t : Tracker) (s : SessionRef) (f : Session → Session) : Tracker :=
  { t with sessions := t.sessions.set s (f (t.sessions.get s)) }

def add (t : Tracker) (s : SessionRef) : Tracker :=
  let linked := t.modify s fun x => { x with released := false, prev := t.tail, next := none }
  let appended := match t.tail with
    | some tail => linked.modify tail fun x => { x with next := some s }
    | none => { linked with head := some s }
  { appended with tail := some s, count := appended.count + 1 }

def release (t : Tracker) (s : SessionRef) : Tracker :=
  let session := t.sessions.get s
  if session.released then t
  else if t.count ≤ 0 then t.modify s fun x => { x with released := true }
  else
    let marked := t.modify s fun x => { x with released := true }
    let forward := match session.prev with
      | some prev => marked.modify prev fun x => { x with next := session.next }
      | none => { marked with head := session.next }
    let backward := match session.next with
      | some next => forward.modify next fun x => { x with prev := session.prev }
      | none => { forward with tail := session.prev }
    let unlinked := backward.modify s fun x => { x with prev := none, next := none }
    { unlinked with count := unlinked.count - 1 }

def update (t : Tracker) (s : SessionRef) (upID : String) (prio : Int) : Tracker :=
  t.modify s fun x => { x with upstreamID := upID, upstreamPrio := prio }

end Tracker

end S5lb
