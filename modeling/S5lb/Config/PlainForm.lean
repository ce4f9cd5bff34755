import S5lb.Config.Checked
import S5lb.Config.Load

/-!
# The plain form of an upstream

`user:pass@host:port#w=N,p=N,id=foo`, as `ParseUpstream` reads it. `Upstream.addr` writes the host
in brackets if it has a colon.
-/

namespace S5lb

open Go

inductive SpecOption
  | weight
  | priority
  | id
  deriving DecidableEq

def SpecOption.key (long : Bool) : SpecOption → String
  | .weight => if long then "weight" else "w"
  | .priority => if long then "priority" else "p"
  | .id => "id"

namespace Upstream

def optionValue (u : Upstream) : SpecOption → String
  | .weight => toString u.weight
  | .priority => toString u.priority
  | .id => u.id

def printOption (u : Upstream) (long : SpecOption → Bool) (o : SpecOption) : List Char :=
  (o.key (long o)).toList ++ '=' :: (u.optionValue o).toList

def printLogin (u : Upstream) : List Char :=
  u.username.toList ++ ':' :: u.password.toList ++ '@' :: u.addr.toList

def print (u : Upstream) (long : SpecOption → Bool) (order : List SpecOption) : String :=
  String.ofList (u.printLogin ++ '#' :: [','].intercalate (order.map (u.printOption long)))

structure Printable (u : Upstream) : Prop where
  username : ':' ∉ u.username.toList ∧ '#' ∉ u.username.toList
  password : '#' ∉ u.password.toList
  host : '@' ∉ u.host.toList ∧ '#' ∉ u.host.toList ∧ '[' ∉ u.host.toList ∧ ']' ∉ u.host.toList
  port : 1 ≤ u.port ∧ u.port ≤ 65535
  weight : 1 ≤ u.weight ∧ u.weight < 2 ^ 63
  priority : -2 ^ 63 ≤ u.priority ∧ u.priority < 2 ^ 63
  id : u.id ≠ "" ∧ ',' ∉ u.id.toList ∧ trimSpace u.id = u.id
  plain : ¬ "://".toList <:+: u.printLogin

def numeral (c : Char) : Bool := c == '-' || c.isDigit

theorem numeral_toString {n : Int} {c : Char} (member : c ∈ (toString n).toList) :
    numeral c = true := by
  rw [toList_toString_int] at member
  split at member
  · simp [numeral, isDigit_toDigits member]
  · rcases List.mem_cons.1 member with rfl | member
    · rfl
    · simp [numeral, isDigit_toDigits member]

theorem not_mem_toString (n : Int) {c : Char} (other : numeral c = false) :
    c ∉ (toString n).toList := by
  intro member
  rw [numeral_toString member] at other
  cases other

theorem isSpace_of_numeral {c : Char} (written : numeral c = true) : isSpace c = false := by
  simp only [numeral, Bool.or_eq_true, beq_iff_eq, Char.isDigit_iff_toNat] at written
  rcases written with rfl | ⟨low, high⟩
  · rfl
  · change 48 ≤ c.toNat at low
    change c.toNat ≤ 57 at high
    simp only [isSpace, Bool.or_eq_false_iff, Bool.and_eq_false_iff, decide_eq_false_iff_not,
      beq_eq_false_iff_ne]
    omega

theorem trimSpace_toString (n : Int) : trimSpace (toString n) = toString n :=
  trimSpace_solid fun _ member => isSpace_of_numeral (numeral_toString member)

variable {u : Upstream}

def setOption (u v : Upstream) : SpecOption → Upstream
  | .weight => { v with weight := u.weight }
  | .priority => { v with priority := u.priority }
  | .id => { v with id := u.id }

theorem applyPair_cut (v : Upstream) {key value : String} (free : '=' ∉ key.toList)
    (name : trimSpace key = key) (trimmed : trimSpace value = value) :
    v.applyPair (key.toList ++ '=' :: value.toList) =
      if key = "w" ∨ key = "weight" then v.setWeight value
      else if key = "p" ∨ key = "priority" then v.setPriority value
      else if key = "id" then .ok { v with id := value }
      else .error ("unknown shorthand key " ++ quote key) := by
  simp only [applyPair, idxOf?_cut free, List.take_left, drop_cut, String.ofList_toList, name, trimmed]

theorem trimSpace_optionValue (printable : u.Printable) (o : SpecOption) :
    trimSpace (u.optionValue o) = u.optionValue o := by
  cases o with
  | weight => exact trimSpace_toString u.weight
  | priority => exact trimSpace_toString u.priority
  | id => exact printable.id.2.2

theorem setWeight_toString (v : Upstream) {n : Int} (positive : 1 ≤ n) (fits : n < 2 ^ 63) :
    v.setWeight (toString n) = .ok { v with weight := n } := by
  have heavy : decide (n ≤ 0) = false := decide_eq_false (by omega)
  rw [setWeight, atoi_toString (by omega) fits]
  simp [Except.mapError, bind, Except.bind, refuse, heavy, pure, Except.pure]

theorem setPriority_toString (v : Upstream) {n : Int} (low : -2 ^ 63 ≤ n) (high : n < 2 ^ 63) :
    v.setPriority (toString n) = .ok { v with priority := n } := by
  rw [setPriority, atoi_toString low high]
  rfl

theorem applyPair_printOption (printable : u.Printable) (long : SpecOption → Bool) (o : SpecOption)
    (v : Upstream) : v.applyPair (u.printOption long o) = .ok (u.setOption v o) := by
  have free : '=' ∉ (o.key (long o)).toList := by
    cases o <;> cases long _ <;> decide
  have name : trimSpace (o.key (long o)) = o.key (long o) := by
    cases o <;> cases long _ <;> decide +kernel
  rw [printOption, applyPair_cut v free name (trimSpace_optionValue printable o)]
  cases o with
  | weight =>
      rw [if_pos (by cases long _ <;> decide)]
      exact setWeight_toString v printable.weight.1 printable.weight.2
  | priority =>
      rw [if_neg (by cases long _ <;> decide), if_pos (by cases long _ <;> decide)]
      exact setPriority_toString v printable.priority.1 printable.priority.2
  | id => rfl

theorem applyPairs_print (printable : u.Printable) (long : SpecOption → Bool)
    (order : List SpecOption) (v : Upstream) :
    (order.map (u.printOption long)).foldlM applyPair v =
      .ok { v with
        weight := if .weight ∈ order then u.weight else v.weight
        priority := if .priority ∈ order then u.priority else v.priority
        id := if .id ∈ order then u.id else v.id } := by
  induction order generalizing v with
  | nil => rfl
  | cons o rest ih =>
      rw [List.map_cons, List.foldlM_cons, applyPair_printOption printable]
      refine (ih (u.setOption v o)).trans ?_
      cases o <;> simp [setOption]

theorem comma_not_mem_printOption (printable : u.Printable) (long : SpecOption → Bool)
    (o : SpecOption) : ',' ∉ u.printOption long o := by
  have name : ',' ∉ (o.key (long o)).toList := by
    cases o <;> cases long _ <;> decide
  have value : ',' ∉ (u.optionValue o).toList := by
    cases o with
    | weight => exact not_mem_toString u.weight rfl
    | priority => exact not_mem_toString u.priority rfl
    | id => exact printable.id.2.1
  simp [printOption, name, value]

theorem applyShorthand_print (printable : u.Printable) (long : SpecOption → Bool)
    {order : List SpecOption} (all : ∀ o, o ∈ order) (v : Upstream) :
    v.applyShorthand ([','].intercalate (order.map (u.printOption long))) =
      .ok { v with weight := u.weight, priority := u.priority, id := u.id } := by
  have split : ([','].intercalate (order.map (u.printOption long))).splitOn ',' =
      order.map (u.printOption long) := by
    apply List.splitOn_intercalate
    · intro text member
      obtain ⟨o, -, rfl⟩ := List.mem_map.1 member
      exact comma_not_mem_printOption printable long o
    · exact fun empty => absurd (all .id) (by simp [List.map_eq_nil_iff.1 empty])
  rw [applyShorthand, split, applyPairs_print printable]
  simp [all]

theorem addr_toList (printable : u.Printable) :
    u.addr.toList =
      if ':' ∈ u.host.toList then '[' :: u.host.toList ++ ']' :: ':' :: (toString u.port).toList
      else u.host.toList ++ ':' :: (toString u.port).toList := by
  have first : u.host.toList.head? ≠ some '[' := fun head =>
    printable.host.2.2.1 (List.mem_of_head? head)
  by_cases colon : ':' ∈ u.host.toList
  · simp [addr, colon, first]
  · simp [addr, colon]

theorem splitHostPort_addr (printable : u.Printable) :
    Net.splitHostPort u.addr = .ok (u.host, toString u.port) := by
  have brackets := printable.host.2.2
  have port_colon := not_mem_toString u.port (show numeral ':' = false from rfl)
  have port_brackets : '[' ∉ (toString u.port).toList ∧ ']' ∉ (toString u.port).toList :=
    ⟨not_mem_toString u.port rfl, not_mem_toString u.port rfl⟩
  rw [← String.ofList_toList (s := u.addr), addr_toList printable]
  split
  · rw [Net.splitHostPort_bracketed brackets port_colon port_brackets]
    simp
  · rename_i colon
    rw [Net.splitHostPort_plain colon brackets port_colon port_brackets]
    simp

theorem not_mem_addr (printable : u.Printable) {c : Char} (host : c ∉ u.host.toList)
    (other : numeral c = false) (marks : c ≠ '[' ∧ c ≠ ']' ∧ c ≠ ':') : c ∉ u.addr.toList := by
  have port := not_mem_toString u.port other
  rw [addr_toList printable]
  generalize (toString u.port).toList = digits at port
  split <;> simp [host, port, marks]

theorem hash_not_mem_printLogin (printable : u.Printable) : '#' ∉ u.printLogin := by
  have address := not_mem_addr printable printable.host.2.1 rfl (by decide)
  simp [printLogin, printable.username.2, printable.password, address]

theorem parsePort_toString {n : Int} (low : 1 ≤ n) (high : n ≤ 65535) :
    parsePort (toString n) = .ok n := by
  have ranged : (decide (n < 1) || decide (n > 65535)) = false := by
    simp only [Bool.or_eq_false_iff, decide_eq_false_iff_not]
    omega
  rw [parsePort, atoi_toString (by omega) (by omega)]
  simp only [Except.mapError, bind, Except.bind, refuse, ranged, pure, Except.pure]
  rfl

theorem parsePlainForm_printLogin (printable : u.Printable) (v : Upstream) :
    v.parsePlainForm u.printLogin =
      .ok { v with
        host := u.host, port := u.port, username := u.username, password := u.password } := by
  have cut : Net.lastIndex '@' u.printLogin = _ := Net.lastIndex_cut
    (u.username.toList ++ ':' :: u.password.toList)
    (not_mem_addr printable printable.host.1 rfl (by decide))
  have creds := idxOf?_cut printable.username.1 u.password.toList
  have login : u.printLogin.take (u.username.toList ++ ':' :: u.password.toList).length =
      u.username.toList ++ ':' :: u.password.toList := List.take_left
  have address : u.printLogin.drop ((u.username.toList ++ ':' :: u.password.toList).length + 1) =
      u.addr.toList := drop_cut _ _ _
  have password : (u.username.toList ++ ':' :: u.password.toList).drop (u.username.toList.length + 1) =
      u.password.toList := drop_cut _ _ _
  simp only [parsePlainForm, cut, login, address, creds, List.take_left, password,
    String.ofList_toList, splitHostPort_addr printable, Except.mapError, setAddr, bind, Except.bind,
    parsePort_toString printable.port.1 printable.port.2, pure, Except.pure]

/-- `ParseUpstream` reads back the plain form of an upstream, with the options in any order and under
either name. -/
theorem parse_print (url : String → Except String Url) {u : Upstream} (printable : u.Printable)
    (long : SpecOption → Bool) {order : List SpecOption}
    (each : order.Perm [.weight, .priority, .id]) :
    parse url u.state (u.print long order) = .ok u := by
  have all (o : SpecOption) : o ∈ order := by
    rw [each.mem_iff]
    cases o <;> simp
  have text : (u.print long order).toList =
      u.printLogin ++ '#' :: [','].intercalate (order.map (u.printOption long)) :=
    String.toList_ofList
  have cut : (u.print long order).toList.idxOf? '#' = some u.printLogin.length := by
    rw [text]
    exact idxOf?_cut (hash_not_mem_printLogin printable) _
  have options : (u.print long order).toList.drop (u.printLogin.length + 1) =
      [','].intercalate (order.map (u.printOption long)) := by
    rw [text]
    exact drop_cut _ _ _
  have login : (u.print long order).toList.take u.printLogin.length = u.printLogin := by
    rw [text]
    exact List.take_left
  rw [parse_of_hash cut, options, applyShorthand_print printable long all, login]
  simp only [Except.mapError, bind, Except.bind, if_neg printable.plain,
    parsePlainForm_printLogin printable, normalizeID_of_ne printable.id.1]

theorem parse_print_ipv6 :
    let u : Upstream := ⟨"edge", "fe80::1", 1080, "me@home", "p:w@x", 3, -2, 0⟩
    u.Printable ∧ parse (fun _ => .error "no URL") 0
      "me@home:p:w@x@[fe80::1]:1080#id=edge,weight=3,p=-2" = .ok u := by
  intro u
  have printable : u.Printable := by constructor <;> decide +kernel
  have text : u.print (fun o => decide (o = .weight)) [.id, .weight, .priority] =
      "me@home:p:w@x@[fe80::1]:1080#id=edge,weight=3,p=-2" := by
    decide +kernel
  refine ⟨printable, ?_⟩
  rw [← text]
  exact parse_print _ printable _ (by decide)

end Upstream

end S5lb
