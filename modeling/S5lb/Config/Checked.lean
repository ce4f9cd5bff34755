import S5lb.Config.Config

namespace S5lb

theorem bind_ok {ε α β : Type} {x : Except ε α} {f : α → Except ε β} {b : β} :
    (x >>= f) = .ok b ↔ ∃ a, x = .ok a ∧ f a = .ok b := by
  cases x with
  | error e => simp [bind, Except.bind]
  | ok a => simp [bind, Except.bind]

@[simp] theorem refuse_ok {bad : Bool} {message : String} {u : Unit} :
    refuse bad message = .ok u ↔ bad = false := by
  cases bad <;> simp [refuse]

theorem validateUpstreams_ok {i : Nat} {seen : List String} {specs : List UpstreamSpec} {u : Unit}
    (valid : validateUpstreams i seen specs = .ok u) :
    ∀ s ∈ specs, s.host ≠ "" ∧ 0 < s.port := by
  induction specs generalizing i seen with
  | nil => simp
  | cons spec rest ih =>
      simp only [validateUpstreams, bind_ok, refuse_ok] at valid
      obtain ⟨_, named, _, ranged, _, -, _, -, later⟩ := valid
      intro s member
      rcases List.mem_cons.1 member with rfl | member
      · simp only [Bool.or_eq_false_iff, decide_eq_false_iff_not, not_lt] at ranged
        exact ⟨by simpa using named, ranged.1⟩
      · exact ih later s member

structure Config.Checked (raw cfg : Config) : Prop where
  filled : ∃ transport, cfg = { raw with transport }
  maxPerProxy_pos : 0 < cfg.maxPerProxy
  upstreams_ne : cfg.upstreams ≠ []
  specs : ∀ s ∈ cfg.upstreams, s.host ≠ "" ∧ 0 < s.port

theorem Config.checked_of_validate {raw cfg : Config} (valid : raw.validate = .ok cfg) :
    Config.Checked raw cfg := by
  simp only [validate, bind_ok, refuse_ok, decide_eq_false_iff_not, pure, Except.pure,
    Except.ok.injEq] at valid
  obtain ⟨_, -, _, capped, _, -, _, -, _, -, _, -, _, nonempty, _, specs, _, -, _, -, _, -, _, -,
    transport, -, _, -, _, -, rfl⟩ := valid
  exact ⟨⟨transport, rfl⟩, by simpa using capped, by simpa using nonempty, validateUpstreams_ok specs⟩

theorem Config.maxClients_of_validate {raw cfg : Config} (valid : raw.validate = .ok cfg) :
    0 ≤ raw.maxClients := by
  simp only [validate, bind_ok, refuse_ok, decide_eq_false_iff_not] at valid
  obtain ⟨_, -, _, -, _, positive, -⟩ := valid
  omega

def TransportConfig.Spelled (t : TransportConfig) : Prop :=
  t.type ≠ .unset ∧ (t.type = .kubernetesExec → t.kubernetes.mode ≠ "")

def KubernetesExecTransportConfig.filled (k : KubernetesExecTransportConfig) :
    KubernetesExecTransportConfig :=
  if k.mode = "" then { k with mode := "websocket-preferred" } else k

theorem filled_mode (k : KubernetesExecTransportConfig) : k.filled.mode ≠ "" := by
  unfold KubernetesExecTransportConfig.filled
  split
  · change "websocket-preferred" ≠ ""
    decide
  · assumption

theorem filled_of_mode {k : KubernetesExecTransportConfig} (named : k.mode ≠ "") : k.filled = k :=
  if_neg named

theorem validateTransport_filled (k : KubernetesExecTransportConfig) :
    validateTransport ⟨.kubernetesExec, k.filled⟩ = validateTransport ⟨.kubernetesExec, k⟩ := by
  have again := filled_of_mode (filled_mode k)
  unfold validateTransport
  unfold KubernetesExecTransportConfig.filled at again ⊢
  simp only [again]

theorem validateTransport_kubernetes {k : KubernetesExecTransportConfig} {t : TransportConfig}
    (valid : validateTransport ⟨.kubernetesExec, k⟩ = .ok t) : t = ⟨.kubernetesExec, k.filled⟩ := by
  rw [← validateTransport_filled] at valid
  have named := filled_mode k
  generalize k.filled = k at valid named ⊢
  simp only [validateTransport, if_neg named] at valid
  split at valid
  · simp only [bind_ok, pure, Except.pure, Except.ok.injEq] at valid
    obtain ⟨_, -, _, -, same⟩ := valid
    exact same.symm
  · simp only [bind_ok, pure, Except.pure, Except.ok.injEq] at valid
    obtain ⟨_, -, _, -, _, -, same⟩ := valid
    exact same.symm

theorem validateTransport_again {t filled : TransportConfig} (valid : validateTransport t = .ok filled) :
    filled.Spelled ∧ validateTransport filled = .ok filled ∧ (filled = t ↔ t.Spelled) := by
  obtain ⟨type, k⟩ := t
  cases type with
  | unset =>
      cases valid
      exact ⟨⟨nofun, nofun⟩, rfl, ⟨nofun, fun spelled => absurd rfl spelled.1⟩⟩
  | direct =>
      cases valid
      exact ⟨⟨nofun, nofun⟩, rfl, ⟨fun _ => ⟨nofun, nofun⟩, fun _ => rfl⟩⟩
  | other name => cases valid
  | kubernetesExec =>
      have same := validateTransport_kubernetes valid
      subst same
      have spelled : (⟨.kubernetesExec, k.filled⟩ : TransportConfig).Spelled :=
        ⟨nofun, fun _ => filled_mode k⟩
      refine ⟨spelled, (validateTransport_filled k).trans valid, fun same => same ▸ spelled, ?_⟩
      rintro ⟨-, named⟩
      rw [filled_of_mode (named rfl)]

theorem Config.transport_validated {raw cfg : Config} (valid : raw.validate = .ok cfg) :
    cfg = { raw with transport := cfg.transport } ∧ validateTransport raw.transport = .ok cfg.transport := by
  simp only [validate, bind_ok, pure, Except.pure, Except.ok.injEq] at valid
  obtain ⟨_, -, _, -, _, -, _, -, _, -, _, -, _, -, _, -, _, -, _, -, _, -, _, -, _, transport, _, -, _,
    -, rfl⟩ := valid
  exact ⟨rfl, transport⟩

theorem Config.validate_again {raw cfg : Config} (valid : raw.validate = .ok cfg) (name : String) :
    { cfg with groupName := name }.validate = .ok { cfg with groupName := name } := by
  simp only [validate, bind_ok, pure, Except.pure, Except.ok.injEq] at valid
  obtain ⟨_, h₁, _, h₂, _, h₃, _, h₄, _, h₅, _, h₆, _, h₇, _, h₈, _, h₉, _, h₁₀, _, h₁₁, _, h₁₂, _,
    transport, _, h₁₃, _, h₁₄, rfl⟩ := valid
  simp only [validate, bind_ok, pure, Except.pure, Except.ok.injEq]
  exact ⟨_, h₁, _, h₂, _, h₃, _, h₄, _, h₅, _, h₆, _, h₇, _, h₈, _, h₉, _, h₁₀, _, h₁₁, _, h₁₂, _,
    (validateTransport_again transport).2.1, _, h₁₃, _, h₁₄, rfl⟩

structure Built (before : Heap State) (ups : List Upstream) (after : Heap State) : Prop where
  old : Heap.Extends before after
  fresh : ∀ r, before.next ≤ r → r < after.next → after.get r = newState
  beyond : ∀ r, after.next ≤ r → after.get r = before.get r
  owned : ∀ u ∈ ups, before.next ≤ u.state ∧ u.state < after.next
  distinct : (ups.map (·.state)).Nodup

theorem Built.cons {heap last : Heap State} {u : Upstream} {out : List Upstream}
    (rest : Built (heap.alloc newState).2 out last) (owns : u.state = heap.next) :
    Built heap (u :: out) last := by
  have room : heap.next < last.next := rest.old.next_le
  refine ⟨(heap.extends_alloc newState).trans rest.old, fun r low high => ?_, fun r high => ?_, ?_, ?_⟩
  · rcases Nat.eq_or_lt_of_le low with rfl | low
    · rw [rest.old.get_eq _ (Nat.lt_succ_self _), Heap.get_alloc, if_pos rfl]
    · exact rest.fresh r low high
  · rw [rest.beyond r high, Heap.get_alloc, if_neg (by omega)]
  · intro v member
    rcases List.mem_cons.1 member with rfl | member
    · exact ⟨owns.ge, owns ▸ room⟩
    · have owned := rest.owned v member
      exact ⟨Nat.le_of_succ_le owned.1, owned.2⟩
  · rw [List.map_cons, List.nodup_cons]
    refine ⟨fun member => ?_, rest.distinct⟩
    obtain ⟨v, memberV, same⟩ := List.mem_map.1 member
    exact Nat.ne_of_gt (rest.owned v memberV).1 (same.trans owns)

@[simp] theorem Upstream.normalizeID_state (u : Upstream) : u.normalizeID.state = u.state := by
  unfold normalizeID
  split <;> rfl

theorem built_of_buildUpstreamsFrom {heap after : Heap State} {i : Nat} {specs : List UpstreamSpec}
    {ups : List Upstream} (built : buildUpstreamsFrom heap i specs = .ok (ups, after)) :
    Built heap ups after := by
  induction specs generalizing heap i ups with
  | nil =>
      cases built
      exact ⟨.refl _, by omega, fun _ _ => rfl, by simp, by simp⟩
  | cons spec rest ih =>
      simp only [buildUpstreamsFrom] at built
      split at built
      · cases built
      · cases later : buildUpstreamsFrom (heap.alloc newState).2 (i + 1) rest with
        | error message =>
            have failed := built
            simp only [Upstream.new, later, Except.map] at failed
            cases failed
        | ok result =>
            obtain ⟨out, last⟩ := result
            simp only [Upstream.new, later, Except.map, Except.ok.injEq, Prod.mk.injEq] at built
            obtain ⟨rfl, rfl⟩ := built
            refine (ih later).cons ?_
            split <;> simp

def UpstreamSpec.upstreamID (s : UpstreamSpec) : String :=
  if s.id ≠ "" then s.id
  else (Upstream.normalizeID ⟨"", s.host, s.port, s.username, s.password, s.weight, s.priority, 0⟩).id

theorem buildUpstreamsFrom_total {specs : List UpstreamSpec}
    (sound : ∀ s ∈ specs, s.host ≠ "" ∧ 0 < s.port) (heap : Heap State) (i : Nat) :
    ∃ ups after, buildUpstreamsFrom heap i specs = .ok (ups, after) ∧
      ups.map (·.id) = specs.map UpstreamSpec.upstreamID := by
  induction specs generalizing heap i with
  | nil => exact ⟨[], heap, rfl, rfl⟩
  | cons spec rest ih =>
      obtain ⟨named, positive⟩ := sound spec List.mem_cons_self
      obtain ⟨ups, after, built, ids⟩ :=
        ih (fun s member => sound s (List.mem_cons_of_mem _ member)) (heap.alloc newState).2 (i + 1)
      have fine : ¬(spec.host = "" ∨ spec.port ≤ 0) := by
        rintro (empty | low)
        · exact named empty
        · omega
      simp only [buildUpstreamsFrom, if_neg fine, Upstream.new, built, Except.map]
      refine ⟨_, _, rfl, ?_⟩
      simp only [List.map_cons, ids, List.cons.injEq, and_true]
      unfold UpstreamSpec.upstreamID
      split
      · rfl
      · simp [Upstream.normalizeID, Upstream.addr]

theorem hexEncode_ne_empty {bytes : List UInt8} (nonempty : bytes ≠ []) :
    Go.hexEncode bytes ≠ "" := by
  cases bytes with
  | nil => exact absurd rfl nonempty
  | cons b rest =>
      intro empty
      have chars := congrArg String.toList empty
      simp [Go.hexEncode, Go.hexByte] at chars

theorem Upstream.normalizeID_ne_empty (u : Upstream) : u.normalizeID.id ≠ "" := by
  unfold normalizeID
  split
  · assumption
  · apply hexEncode_ne_empty
    simp [Go.Sha1.sum]

theorem UpstreamSpec.upstreamID_ne_empty (s : UpstreamSpec) : s.upstreamID ≠ "" := by
  unfold upstreamID
  split
  · assumption
  · exact Upstream.normalizeID_ne_empty _

theorem Upstream.normalizeID_of_ne {u : Upstream} (named : u.id ≠ "") : u.normalizeID = u := by
  simp [normalizeID, named]

def Upstream.bare (u : Upstream) : Upstream := { u with state := 0 }

def UpstreamSpec.toUpstream (s : UpstreamSpec) : Upstream :=
  let u := Upstream.normalizeID
    ⟨"", s.host, s.port, s.username, s.password, if s.weight ≤ 0 then 1 else s.weight, s.priority, 0⟩
  if s.id ≠ "" then { u with id := s.id } else u

theorem bare_of_buildUpstreamsFrom {heap after : Heap State} {i : Nat} {specs : List UpstreamSpec}
    {ups : List Upstream} (built : buildUpstreamsFrom heap i specs = .ok (ups, after)) :
    ups.map Upstream.bare = specs.map UpstreamSpec.toUpstream := by
  induction specs generalizing heap i ups with
  | nil =>
      cases built
      rfl
  | cons spec rest ih =>
      simp only [buildUpstreamsFrom] at built
      split at built
      · cases built
      · cases later : buildUpstreamsFrom (heap.alloc newState).2 (i + 1) rest with
        | error message =>
            have failed := built
            simp only [Upstream.new, later, Except.map] at failed
            cases failed
        | ok result =>
            obtain ⟨out, last⟩ := result
            simp only [Upstream.new, later, Except.map, Except.ok.injEq, Prod.mk.injEq] at built
            obtain ⟨rfl, rfl⟩ := built
            rw [List.map_cons, List.map_cons, ih later]
            refine congrArg (· :: _) ?_
            unfold UpstreamSpec.toUpstream Upstream.normalizeID Upstream.bare
            simp only [ne_eq, not_true_eq_false, if_false]
            split <;> rfl

theorem built_of_buildUpstreams {cfg : Config} {before after : Heap State} {ups : List Upstream}
    (built : cfg.buildUpstreams before = .ok (ups, after)) : Built before ups after :=
  built_of_buildUpstreamsFrom built

end S5lb
