import S5lb.Admission.Gate
import S5lb.Admission.Tracker
import S5lb.Config.Checked
import S5lb.Go.Atomic
import S5lb.Lib.StableSort
import S5lb.Strategy.Selectors
import S5lb.Transport.Dialer

namespace S5lb

structure Pool where
  upstreams : List Upstream
  byID : String → Option Upstream
  named : ∀ u ∈ upstreams, u.id ≠ ""
  distinct : (upstreams.map (·.id)).Nodup
  indexed : ∀ id u, byID id = some u ↔ u ∈ upstreams ∧ u.id = id

namespace Pool

def empty : Pool where
  upstreams := []
  byID := fun _ => none
  named := by simp
  distinct := by simp
  indexed := by simp

def index (ups : List Upstream) : String → Option Upstream :=
  ups.foldl (fun idx u => Function.update idx u.id (some u)) fun _ => none

theorem index_snoc (ups : List Upstream) (u : Upstream) :
    index (ups ++ [u]) = Function.update (index ups) u.id (some u) := by
  simp [index]

theorem index_eq_some {ups : List Upstream} (distinct : (ups.map (·.id)).Nodup) (id : String)
    (u : Upstream) : index ups id = some u ↔ u ∈ ups ∧ u.id = id := by
  induction ups using List.reverseRecOn with
  | nil => simp [index]
  | append_singleton ups v ih =>
      rw [List.map_append, List.nodup_append] at distinct
      obtain ⟨earlier, -, apart⟩ := distinct
      have fresh : ∀ w ∈ ups, w.id ≠ v.id := fun w member =>
        apart w.id (List.mem_map.2 ⟨w, member, rfl⟩) v.id (by simp)
      rw [index_snoc, Function.update_apply]
      split
      · rename_i same
        subst same
        constructor
        · intro found
          cases found
          simp
        · rintro ⟨member, named⟩
          rcases List.mem_append.1 member with member | member
          · exact absurd named (fresh u member)
          · rw [List.mem_singleton.1 member]
      · rename_i other
        rw [ih earlier]
        constructor
        · rintro ⟨member, named⟩
          exact ⟨List.mem_append_left _ member, named⟩
        · rintro ⟨member, rfl⟩
          rcases List.mem_append.1 member with member | member
          · exact ⟨member, rfl⟩
          · exact absurd (by rw [List.mem_singleton.1 member]) other

def duplicateID : List String → List Upstream → Option String
  | _, [] => none
  | seen, u :: rest => if seen.contains u.id then some u.id else duplicateID (u.id :: seen) rest

theorem nodup_of_duplicateID {ups : List Upstream} {seen : List String}
    (unique : duplicateID seen ups = none) :
    (ups.map (·.id)).Nodup ∧ ∀ u ∈ ups, u.id ∉ seen := by
  induction ups generalizing seen with
  | nil => simp
  | cons u rest ih =>
      simp only [duplicateID] at unique
      split at unique
      · cases unique
      · rename_i unseen
        obtain ⟨distinct, apart⟩ := ih unique
        simp only [List.contains_eq_mem, decide_eq_true_eq] at unseen
        constructor
        · rw [List.map_cons, List.nodup_cons]
          refine ⟨fun member => ?_, distinct⟩
          obtain ⟨v, memberV, same⟩ := List.mem_map.1 member
          exact apart v memberV (by simp [same])
        · intro v member
          rcases List.mem_cons.1 member with rfl | member
          · exact unseen
          · exact fun seenV => apart v member (List.mem_cons_of_mem _ seenV)

theorem duplicateID_of_nodup {ups : List Upstream} {seen : List String}
    (distinct : (ups.map (·.id)).Nodup) (apart : ∀ u ∈ ups, u.id ∉ seen) :
    duplicateID seen ups = none := by
  induction ups generalizing seen with
  | nil => rfl
  | cons u rest ih =>
      rw [List.map_cons, List.nodup_cons] at distinct
      simp only [duplicateID, List.contains_eq_mem, decide_eq_true_eq]
      rw [if_neg (apart u List.mem_cons_self)]
      refine ih distinct.2 fun v member seenV => ?_
      rcases List.mem_cons.1 seenV with same | seenV
      · exact distinct.1 (same ▸ List.mem_map.2 ⟨v, member, rfl⟩)
      · exact apart v (List.mem_cons_of_mem _ member) seenV

def adopt (old : Pool) (u : Upstream) : Upstream :=
  match old.byID u.id with
  | some v => { u with state := v.state }
  | none => u

@[simp] theorem adopt_id (old : Pool) (u : Upstream) : (old.adopt u).id = u.id := by
  unfold adopt
  split <;> rfl

def replacement (old : Pool) (ups : List Upstream) : List Upstream :=
  (StableSort.byKey (·.priority) ups).map old.adopt

theorem replacement_ids (old : Pool) (ups : List Upstream) :
    ((old.replacement ups).map (·.id)).Perm (ups.map (·.id)) := by
  have same : (old.replacement ups).map (·.id) =
      (StableSort.byKey (·.priority) ups).map (·.id) := by
    simp [replacement, Function.comp_def]
  rw [same]
  exact (StableSort.byKey_perm _ ups).map _

end Pool

theorem normalized_named (ups : List Upstream) : ∀ u ∈ ups.map Upstream.normalizeID, u.id ≠ "" := by
  intro u member
  obtain ⟨v, _, rfl⟩ := List.mem_map.1 member
  exact v.normalizeID_ne_empty

/-- The pool `setUpstreams` publishes. Every way to make an upstream gives it a `State`, so the
branches for a nil one have no counterpart. -/
def Pool.replace (old : Pool) (ups : List Upstream) : Except String Pool :=
  let ups := ups.map Upstream.normalizeID
  match unique : Pool.duplicateID [] ups with
  | some id => .error ("duplicate upstream ID " ++ Go.quote id)
  | none =>
      have distinct : ((old.replacement ups).map (·.id)).Nodup :=
        (old.replacement_ids ups).nodup_iff.2 (Pool.nodup_of_duplicateID unique).1
      .ok
        { upstreams := old.replacement ups
          byID := Pool.index (old.replacement ups)
          named := by
            intro u member
            have renamed := (old.replacement_ids ups).mem_iff.1 (List.mem_map.2 ⟨u, member, rfl⟩)
            obtain ⟨v, memberV, same⟩ := List.mem_map.1 renamed
            exact same ▸ normalized_named _ v memberV
          distinct := distinct
          indexed := Pool.index_eq_some distinct }

theorem Pool.replace_ok {old pool : Pool} {ups : List Upstream}
    (replaced : old.replace ups = .ok pool) :
    ((ups.map Upstream.normalizeID).map (·.id)).Nodup ∧
      pool.upstreams = old.replacement (ups.map Upstream.normalizeID) := by
  unfold replace at replaced
  simp only at replaced
  split at replaced
  · cases replaced
  · rename_i unique
    cases replaced
    exact ⟨(nodup_of_duplicateID unique).1, rfl⟩

theorem Pool.exists_replace (old : Pool) {ups : List Upstream}
    (distinct : ((ups.map Upstream.normalizeID).map (·.id)).Nodup) :
    ∃ pool, old.replace ups = .ok pool := by
  have unique := @duplicateID_of_nodup _ [] distinct (by simp)
  unfold replace
  simp only
  split
  · rename_i id found
    rw [unique] at found
    cases found
  · exact ⟨_, rfl⟩

theorem Pool.adopt_state (old : Pool) (u : Upstream) :
    (∃ v ∈ old.upstreams, v.id = u.id ∧ (old.adopt u).state = v.state) ∨
      (∀ v ∈ old.upstreams, v.id ≠ u.id) ∧ (old.adopt u).state = u.state := by
  unfold adopt
  cases known : old.byID u.id with
  | some v =>
      obtain ⟨member, named⟩ := (old.indexed _ _).1 known
      exact .inl ⟨v, member, named, rfl⟩
  | none =>
      refine .inr ⟨fun v member named => ?_, rfl⟩
      rw [(old.indexed u.id v).2 ⟨member, named⟩] at known
      cases known

theorem Pool.mem_replacement {old : Pool} {ups : List Upstream} {u : Upstream} :
    u ∈ old.replacement ups ↔ ∃ v ∈ ups, old.adopt v = u := by
  simp [replacement, (StableSort.byKey_perm _ ups).mem_iff]

theorem Pool.replace_states {old pool : Pool} {ups : List Upstream}
    (replaced : old.replace ups = .ok pool) {v : Upstream} (member : v ∈ pool.upstreams) :
    (∃ w ∈ old.upstreams, w.state = v.state) ∨ ∃ w ∈ ups, w.state = v.state := by
  rw [(Pool.replace_ok replaced).2] at member
  obtain ⟨u, memberU, rfl⟩ := Pool.mem_replacement.1 member
  obtain ⟨w, memberW, rfl⟩ := List.mem_map.1 memberU
  rcases old.adopt_state w.normalizeID with ⟨x, memberX, -, same⟩ | ⟨-, same⟩
  · exact .inl ⟨x, memberX, same.symm⟩
  · rw [Upstream.normalizeID_state] at same
    exact .inr ⟨w, memberW, same.symm⟩

theorem Pool.replace_apart {old pool : Pool} {ups : List Upstream} (replaced : old.replace ups = .ok pool)
    (apart : (old.upstreams.map (·.state)).Nodup) (fresh : (ups.map (·.state)).Nodup)
    (unused : ∀ u ∈ ups, ∀ v ∈ old.upstreams, u.state ≠ v.state) :
    (pool.upstreams.map (·.state)).Nodup := by
  obtain ⟨distinct, upstreams⟩ := Pool.replace_ok replaced
  have fresh : ((ups.map Upstream.normalizeID).map (·.state)).Nodup := by
    simpa [Function.comp_def] using fresh
  have unused : ∀ u ∈ ups.map Upstream.normalizeID, ∀ v ∈ old.upstreams, u.state ≠ v.state := by
    simpa using unused
  generalize ups.map Upstream.normalizeID = ups at distinct upstreams fresh unused
  rw [upstreams, Pool.replacement, List.map_map]
  have once : (StableSort.byKey (·.priority) ups).Nodup :=
    (StableSort.byKey_perm _ ups).nodup_iff.2 (List.Nodup.of_map _ distinct)
  refine List.Nodup.map_on (fun u memberU v memberV same => ?_) once
  replace memberU := (StableSort.byKey_perm _ ups).mem_iff.1 memberU
  replace memberV := (StableSort.byKey_perm _ ups).mem_iff.1 memberV
  simp only [Function.comp_apply] at same
  rcases old.adopt_state u with ⟨x, memberX, namedX, stateX⟩ | ⟨-, stateU⟩ <;>
    rcases old.adopt_state v with ⟨y, memberY, namedY, stateY⟩ | ⟨-, stateV⟩
  · have known := List.inj_on_of_nodup_map apart memberX memberY (stateX ▸ stateY ▸ same)
    exact List.inj_on_of_nodup_map distinct memberU memberV (namedX.symm.trans (known ▸ namedY))
  · exact absurd (stateX ▸ stateV ▸ same).symm (unused v memberV x memberX)
  · exact absurd (stateU ▸ stateY ▸ same) (unused u memberU y memberY)
  · exact List.inj_on_of_nodup_map fresh memberU memberV (stateU ▸ stateV ▸ same)

structure LoadBalancer where
  cfg : Config
  dialer : Dialer
  selector : Selector
  heap : Heap State
  pool : Pool
  queue : List Nat
  tracker : Tracker
  gates : Heap Gate
  gateVal : Go.AtomicValue GateRef

namespace LoadBalancer

def setUpstreams (lb : LoadBalancer) (ups : List Upstream) : Except String LoadBalancer :=
  (lb.pool.replace ups).map fun pool => { lb with pool }

theorem setUpstreams_eq_ok {lb lb' : LoadBalancer} {ups : List Upstream} :
    lb.setUpstreams ups = .ok lb' ↔ ∃ pool, lb.pool.replace ups = .ok pool ∧ lb' = { lb with pool } := by
  unfold setUpstreams
  cases lb.pool.replace ups with
  | error message => simp [Except.map]
  | ok pool => simp [Except.map, eq_comm]

def currentGate (lb : LoadBalancer) : Option Gate := lb.gateVal.stored.map lb.gates.get

/-- `none` is the panic of `atomic.Value.Store`. -/
def setGate (lb : LoadBalancer) (g : GateRef) : Option LoadBalancer :=
  (lb.gateVal.store (fun r => (lb.gates.get r).type) g).map fun gateVal => { lb with gateVal }

def snapshots (lb : LoadBalancer) : List Snapshot :=
  lb.pool.upstreams.map fun u => u.snapshot lb.heap

def unpublished (cfg : Config) (heap : Heap State) (sel : Selector) : LoadBalancer :=
  let noGate : Gate := ⟨.rejectGate, 0, 0, 0, 0, false⟩
  let noSession : Session := ⟨none, "", 0, 0, none, none, false⟩
  let (gate, gates) := Heap.alloc ⟨fun _ => noGate, 0⟩ (admissionNew cfg)
  { cfg
    dialer := .tcp cfg.connectTimeout (30 * second)
    selector := sel
    heap
    pool := Pool.empty
    queue := []
    tracker := ⟨⟨fun _ => noSession, 0⟩, none, none, 0⟩
    gates
    gateVal := ⟨some gate⟩ }

def new (cfg : Config) (heap : Heap State) (ups : List Upstream) (sel : Selector) :
    Except String LoadBalancer :=
  ((unpublished cfg heap sel).setUpstreams ups).mapError ("validate upstreams: " ++ ·)

theorem new_ok {cfg : Config} {heap : Heap State} {ups : List Upstream} {sel : Selector}
    {lb : LoadBalancer} (made : new cfg heap ups sel = .ok lb) :
    ∃ pool, Pool.empty.replace ups = .ok pool ∧ lb = { unpublished cfg heap sel with pool } := by
  unfold new at made
  cases published : (unpublished cfg heap sel).setUpstreams ups with
  | error message => simp [published, Except.mapError] at made
  | ok made' =>
      rw [published] at made
      cases made
      exact setUpstreams_eq_ok.1 published

def start (cfg : Config) : Except String LoadBalancer := do
  let _ ← cfg.validate
  let (ups, heap) ← cfg.buildUpstreams ⟨fun _ => newState, 0⟩
  let sel ← strategyNew cfg.strategy
  new cfg heap ups sel

theorem cfg_of_start {cfg : Config} {lb : LoadBalancer} (started : start cfg = .ok lb) : lb.cfg = cfg := by
  simp only [start, bind_ok] at started
  obtain ⟨_, -, ⟨ups, heap⟩, -, sel, -, made⟩ := started
  obtain ⟨pool, -, rfl⟩ := new_ok made
  rfl

def oneUpstream : Config :=
  { defaults with
    listenAddr := "127.0.0.1:1080"
    maxPerProxy := 1
    upstreams := [⟨"a", "10.0.0.1", 1080, "", "", 1, 0⟩] }

def Initial (lb : LoadBalancer) : Prop :=
  ∃ cfg made dialer, start cfg = .ok made ∧ lb = { made with dialer }

theorem Initial.gate {lb : LoadBalancer} (initial : lb.Initial) :
    lb.tracker.count = 0 ∧ 0 ≤ lb.cfg.maxClients ∧ lb.gates.next = 1 ∧
      lb.gateVal.stored = some 0 ∧ lb.gates.get 0 = admissionNew lb.cfg := by
  obtain ⟨cfg, made, dialer, started, rfl⟩ := initial
  simp only [start, bind_ok] at started
  obtain ⟨filled, valid, ⟨ups, heap⟩, -, sel, -, new⟩ := started
  obtain ⟨pool, -, rfl⟩ := new_ok new
  refine ⟨rfl, Config.maxClients_of_validate valid, rfl, rfl, ?_⟩
  simp [unpublished, Heap.get_alloc]

def reserve (lb : LoadBalancer) (id : String) : Option Upstream × LoadBalancer :=
  if id = "" then (none, lb)
  else match lb.pool.byID id with
    | none => (none, lb)
    | some u =>
        match (lb.heap.get u.state).incActive lb.cfg.maxPerProxy with
        | none => (none, lb)
        | some s => (some u, { lb with heap := lb.heap.set u.state s })

def pick (lb : LoadBalancer) (sc : SelectCtx) : Drawing (Option Upstream × LoadBalancer) :=
  (lb.selector.pick sc lb.snapshots lb.cfg.maxPerProxy).map fun (id, selector) =>
    { lb with selector }.reserve id

end LoadBalancer

end S5lb
