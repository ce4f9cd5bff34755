import S5lb.Cmd.Main
import S5lb.Config.Checked

/-!
# Upstreams from the command line

`main` turns what `ParseUpstream` returns back into a spec, from which `BuildUpstreams` makes the
upstream of the pool. The way back leaves the ID out.
-/

namespace S5lb

def pairID (kv : List Char) : Option String :=
  match kv.idxOf? '=' with
  | none => none
  | some i =>
      if Go.trimSpace (String.ofList (kv.take i)) = "id" then
        some (Go.trimSpace (String.ofList (kv.drop (i + 1))))
      else none

def shorthandID (s : List Char) : String :=
  (s.splitOn ',').foldl (fun id kv => (pairID kv).getD id) ""

def queriedID (url : String → Except String Url) (s : List Char) (short : String) : String :=
  if "://".toList <:+: s then
    match url (String.ofList s) with
    | .ok p => if p.get "id" ≠ "" then p.get "id" else short
    | .error _ => short
  else short

def writtenID (url : String → Except String Url) (spec : String) : String :=
  match spec.toList.idxOf? '#' with
  | none => queriedID url spec.toList ""
  | some hash =>
      queriedID url (spec.toList.take hash) (shorthandID (spec.toList.drop (hash + 1)))

def derivedID (host : String) (port : Int) : String :=
  (Upstream.normalizeID ⟨"", host, port, "", "", 0, 0, 0⟩).id

namespace Upstream

variable {u u' : Upstream}

structure Fills (id : String) (u u' : Upstream) : Prop where
  id : u'.id = id
  weight : 0 < u.weight → 0 < u'.weight
  port : 0 < u.port → 0 < u'.port

theorem Fills.refl (u : Upstream) : Fills u.id u u :=
  ⟨rfl, fun positive => positive, fun positive => positive⟩

theorem Fills.trans {id id' : String} {v : Upstream} (first : Fills id u v) (second : Fills id' v u') :
    Fills id' u u' where
  id := second.id
  weight positive := second.weight (first.weight positive)
  port positive := second.port (first.port positive)

theorem fills_setWeight {v : String} (set : u.setWeight v = .ok u') : Fills u.id u u' := by
  simp only [setWeight, bind_ok, refuse_ok, pure, Except.pure, Except.ok.injEq] at set
  obtain ⟨n, -, _, positive, rfl⟩ := set
  exact { Fills.refl u with weight := fun _ => by simpa using positive }

theorem fills_setPriority {v : String} (set : u.setPriority v = .ok u') : Fills u.id u u' := by
  simp only [setPriority, bind_ok, pure, Except.pure, Except.ok.injEq] at set
  obtain ⟨n, -, rfl⟩ := set
  exact { Fills.refl u with }

theorem fills_applyPair {kv : List Char} (applied : u.applyPair kv = .ok u') :
    Fills ((pairID kv).getD u.id) u u' := by
  unfold applyPair at applied
  unfold pairID
  cases cut : kv.idxOf? '=' with
  | none =>
      rw [cut] at applied
      cases applied
  | some i =>
      simp only [cut] at applied ⊢
      split at applied
      · rename_i key
        rw [if_neg (by rcases key with key | key <;> simp [key])]
        exact fills_setWeight applied
      · split at applied
        · rename_i key
          rw [if_neg (by rcases key with key | key <;> simp [key])]
          exact fills_setPriority applied
        · split at applied
          · rename_i key
            cases applied
            rw [if_pos key]
            exact { Fills.refl u with id := rfl }
          · cases applied

theorem fills_applyPairs {pairs : List (List Char)} (applied : pairs.foldlM applyPair u = .ok u') :
    Fills (pairs.foldl (fun id kv => (pairID kv).getD id) u.id) u u' := by
  induction pairs generalizing u with
  | nil =>
      cases applied
      exact .refl _
  | cons kv rest ih =>
      rw [List.foldlM_cons, bind_ok] at applied
      obtain ⟨v, first, later⟩ := applied
      have one := fills_applyPair first
      rw [List.foldl_cons, ← one.id]
      exact one.trans (ih later)

theorem Fills.setAddr {id : String} {v : Upstream} (filled : Fills id u v)
    {hp : Except String (String × String)} (set : v.setAddr hp = .ok u') :
    Fills id u u' ∧ 0 < u'.port := by
  simp only [Upstream.setAddr, parsePort, bind_ok, refuse_ok, pure, Except.pure, Except.ok.injEq] at set
  obtain ⟨_, -, _, ⟨port, -, _, ranged, rfl⟩, rfl⟩ := set
  simp only [Bool.or_eq_false_iff, decide_eq_false_iff_not, not_lt] at ranged
  exact ⟨{ filled with port := fun _ => ranged.1 }, ranged.1⟩

theorem fills_queryID {id : String} {v : Upstream} (filled : Fills id u v) (q : Url) :
    Fills (if q.get "id" ≠ "" then q.get "id" else id) u
      (if q.get "id" ≠ "" then { v with id := q.get "id" } else v) := by
  split
  · exact { filled with id := rfl }
  · exact filled

theorem applyQuery_eq (u : Upstream) (q : Url) :
    u.applyQuery q =
      (if q.get "weight" ≠ "" then u.setWeight (q.get "weight") else .ok u) >>= fun u =>
      (if q.get "priority" ≠ "" then u.setPriority (q.get "priority") else .ok u) >>= fun u =>
      .ok (if q.get "id" ≠ "" then { u with id := q.get "id" } else u) := by
  unfold applyQuery
  by_cases weight : q.get "weight" = "" <;> by_cases priority : q.get "priority" = "" <;>
    simp only [ne_eq, weight, priority, not_true_eq_false, not_false_eq_true, if_true, if_false] <;> rfl

theorem fills_applyQuery {q : Url} (applied : u.applyQuery q = .ok u') :
    Fills (if q.get "id" ≠ "" then q.get "id" else u.id) u u' := by
  rw [applyQuery_eq, bind_ok] at applied
  obtain ⟨v, weighed, later⟩ := applied
  rw [bind_ok] at later
  obtain ⟨w, ranked, same⟩ := later
  have first : Fills u.id u v := by
    split at weighed
    · exact fills_setWeight weighed
    · cases weighed
      exact .refl u
  have second : Fills v.id v w := by
    split at ranked
    · exact fills_setPriority ranked
    · cases ranked
      exact .refl v
  rw [first.id] at second
  cases same
  exact fills_queryID (first.trans second) q

theorem fills_parseURLForm {url : String → Except String Url} {spec : String}
    (parsed : u.parseURLForm url spec = .ok u') :
    ∃ p, url spec = .ok p ∧ Fills (if p.get "id" ≠ "" then p.get "id" else u.id) u u' ∧ 0 < u'.port := by
  simp only [parseURLForm, bind_ok] at parsed
  obtain ⟨p, read, _, -, v, addressed, queried⟩ := parsed
  have second := fills_applyQuery queried
  have finish {w : Upstream} (addressed : w.setAddr (Go.Net.splitHostPort p.host) = .ok v)
      (user : Fills u.id u w) :
      Fills (if p.get "id" ≠ "" then p.get "id" else u.id) u u' ∧ 0 < u'.port := by
    obtain ⟨first, positive⟩ := user.setAddr addressed
    rw [first.id] at second
    exact ⟨first.trans second, second.port positive⟩
  refine ⟨p, read, ?_⟩
  split at addressed <;> exact finish addressed { Fills.refl u with }

theorem fills_parsePlainForm {spec : List Char} (parsed : u.parsePlainForm spec = .ok u') :
    Fills u.id u u' ∧ 0 < u'.port := by
  unfold parsePlainForm at parsed
  split at parsed
  rename_i v hp cut
  have credentials : Fills u.id u v := by
    split at cut
    · cases cut
      exact .refl _
    · dsimp only at cut
      split at cut <;> cases cut <;> exact { Fills.refl u with }
  exact credentials.setAddr parsed

theorem fills_form {url : String → Except String Url} {s : List Char}
    (parsed : (if "://".toList <:+: s then u.parseURLForm url (String.ofList s)
      else u.parsePlainForm s) = .ok u') :
    Fills (queriedID url s u.id) u u' ∧ 0 < u'.port := by
  unfold queriedID
  split at parsed
  · rename_i address
    obtain ⟨p, read, filled⟩ := fills_parseURLForm parsed
    rw [if_pos address, read]
    exact filled
  · rename_i address
    rw [if_neg address]
    exact fills_parsePlainForm parsed

theorem parse_ok {url : String → Except String Url} {state : StateRef} {spec : String}
    (parsed : parse url state spec = .ok u) :
    ∃ v : Upstream, v.id = writtenID url spec ∧ 0 < v.weight ∧ 0 < v.port ∧ u = v.normalizeID := by
  unfold writtenID
  cases cut : spec.toList.idxOf? '#' with
  | none =>
      rw [parse_of_bare cut, bind_ok] at parsed
      obtain ⟨v, formed, same⟩ := parsed
      obtain ⟨filled, positive⟩ := fills_form formed
      exact ⟨v, filled.id, filled.weight Int.one_pos, positive, (Except.ok.inj same).symm⟩
  | some hash =>
      rw [parse_of_hash cut, bind_ok] at parsed
      obtain ⟨w, shorthand, later⟩ := parsed
      rw [bind_ok] at later
      obtain ⟨v, formed, same⟩ := later
      have short := fills_applyPairs (mapError_ok.1 shorthand)
      obtain ⟨filled, positive⟩ := fills_form formed
      rw [short.id] at filled
      exact ⟨v, filled.id, filled.weight (short.weight Int.one_pos), positive,
        (Except.ok.inj same).symm⟩

theorem id_normalizeID (u : Upstream) :
    u.normalizeID.id = if u.id ≠ "" then u.id else derivedID u.host u.port := by
  unfold normalizeID
  split
  · rfl
  · rfl

end Upstream

def Upstream.SameFields (u v : Upstream) : Prop :=
  v.id = u.id ∧ v.host = u.host ∧ v.port = u.port ∧ v.username = u.username ∧
    v.password = u.password ∧ v.weight = u.weight ∧ v.priority = u.priority

theorem toUpstream_toSpec {u : Upstream} (weighty : 0 < u.weight) :
    u.toSpec.toUpstream = { u with id := derivedID u.host u.port, state := 0 } := by
  have heavy : ¬ u.toSpec.weight ≤ 0 := not_le.2 weighty
  rw [UpstreamSpec.toUpstream, if_neg heavy]
  rfl

theorem sameFields_toSpec {u v : Upstream} (weighty : 0 < u.weight)
    (made : v.bare = u.toSpec.toUpstream) : u.SameFields v ↔ derivedID u.host u.port = u.id := by
  rw [toUpstream_toSpec weighty] at made
  obtain ⟨id, host, port, username, password, weight, priority, state⟩ := v
  cases made
  exact ⟨fun same => same.1, fun same => ⟨same, rfl, rfl, rfl, rfl, rfl, rfl⟩⟩

/-- The upstream that reaches the pool is the one that was parsed exactly if the spec names no ID, or
the one that is derived anyway. -/
theorem cli_upstream_intact_iff {url : String → Except String Url} {state : StateRef} {spec : String}
    {u : Upstream} (parsed : Upstream.parse url state spec = .ok u) (named : u.host ≠ "")
    (cfg : Config) (before later : List UpstreamSpec)
    (complete : ∀ s ∈ before ++ later, s.host ≠ "" ∧ 0 < s.port) (heap : Heap State) :
    ∃ ups after v,
      { cfg with upstreams := before ++ u.toSpec :: later }.buildUpstreams heap = .ok (ups, after) ∧
      ups[before.length]? = some v ∧
      (u.SameFields v ↔ writtenID url spec = "" ∨ writtenID url spec = derivedID u.host u.port) := by
  obtain ⟨w, written, weighty, positive, normal⟩ := Upstream.parse_ok parsed
  have fields : u.weight = w.weight ∧ u.port = w.port ∧ u.host = w.host := by
    rw [normal, Upstream.normalizeID]
    split <;> exact ⟨rfl, rfl, rfl⟩
  have sound : ∀ s ∈ before ++ u.toSpec :: later, s.host ≠ "" ∧ 0 < s.port := by
    intro s member
    rcases List.mem_append.1 member with early | late
    · exact complete s (List.mem_append_left _ early)
    · rcases List.mem_cons.1 late with rfl | late
      · exact ⟨named, positive.trans_eq fields.2.1.symm⟩
      · exact complete s (List.mem_append_right _ late)
  obtain ⟨ups, after, built, -⟩ := buildUpstreamsFrom_total sound heap 0
  have bare := congrArg (·[before.length]?) (bare_of_buildUpstreamsFrom built)
  simp only [List.getElem?_map, List.getElem?_append_right le_rfl, Nat.sub_self,
    List.getElem?_cons_zero, Option.map_some] at bare
  obtain ⟨v, here, made⟩ := Option.map_eq_some_iff.1 bare
  refine ⟨ups, after, v, built, here, ?_⟩
  rw [sameFields_toSpec (weighty.trans_eq fields.1.symm) made]
  have chosen := w.id_normalizeID
  rw [← normal, ← fields.2.1, ← fields.2.2, written] at chosen
  rw [chosen]
  by_cases empty : writtenID url spec = ""
  · simp [empty]
  · simp [empty, eq_comm]

theorem cli_upstream_intact_iff_plain :
    let url : String → Except String Url := fun _ => .error "no URL"
    ∃ u, Upstream.parse url 0 "me:pw@h:1080#w=3" = .ok u ∧ u.username = "me" ∧ u.weight = 3 ∧
      ∃ ups after v,
        { defaults with upstreams := [u.toSpec] }.buildUpstreams ⟨fun _ => newState, 0⟩ =
          .ok (ups, after) ∧
        ups[0]? = some v ∧ u.SameFields v := by
  intro url
  obtain ⟨u, parsed, test⟩ := @Transition.ok_of_any _ _ (Upstream.parse url 0 "me:pw@h:1080#w=3")
    (fun u => decide (u.host ≠ "" ∧ u.username = "me" ∧ u.weight = 3)) (by decide +kernel)
  obtain ⟨named, username, weight⟩ := of_decide_eq_true test
  obtain ⟨ups, after, v, built, here, intact⟩ :=
    cli_upstream_intact_iff parsed named defaults [] [] (by simp) ⟨fun _ => newState, 0⟩
  exact ⟨u, parsed, username, weight, ups, after, v, built, here, intact.2 (.inl (by decide +kernel))⟩

/-- The ID of the spec is lost. -/
theorem cli_id_dropped :
    let u : Upstream := ⟨"foo", "h", 1080, "", "", 1, 0, 0⟩
    Upstream.parse (fun _ => .error "no URL") 0 "h:1080#id=foo" = .ok u ∧ ∃ out,
      { defaults with upstreams := [u.toSpec] }.buildUpstreams ⟨fun _ => newState, 0⟩ = .ok out ∧
      out.1.map Upstream.id = ["a3875a3ed58da31d"] := by
  intro u
  obtain ⟨v, parsed, same⟩ := @Transition.ok_of_any _ _
    (Upstream.parse (fun _ => .error "no URL") 0 "h:1080#id=foo") (fun v => decide (v = u))
    (by decide +kernel)
  have passed : ({ defaults with upstreams := [u.toSpec] }.buildUpstreams
      ⟨fun _ => newState, 0⟩).toOption.any
        (fun out : List Upstream × Heap State =>
          decide (out.1.map Upstream.id = ["a3875a3ed58da31d"])) = true := by
    decide +kernel
  obtain ⟨out, built, ids⟩ := Transition.ok_of_any passed
  rw [of_decide_eq_true same] at parsed
  exact ⟨parsed, out, built, of_decide_eq_true ids⟩

end S5lb
