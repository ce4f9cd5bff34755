import S5lb.Balancer.Queue
import S5lb.Lib.Ledger

namespace S5lb

open Ledger Transition

def slotOn (r : StateRef) (u : Upstream) : Nat := if u.state = r then 1 else 0

namespace Goroutine

def sessionHolds (r : StateRef) (t : Goroutine) : Nat :=
  match t.pc with
  | .holding u => slotOn r u
  | _ => 0

def ticketHolds (r : StateRef) (t : Goroutine) : Nat := (t.ticket.map (slotOn r)).getD 0

def frameHolds (r : StateRef) (t : Goroutine) : Nat :=
  match t.pc with
  | .release u _ | .deliver _ _ u => slotOn r u
  | _ => 0

def holds (r : StateRef) (t : Goroutine) : Nat := t.sessionHolds r + t.ticketHolds r + t.frameHolds r

end Goroutine

def PickPos.Allocated (next : Nat) : PickPos → Prop
  | .config | .pool _ => True
  | .snapshot _ p _ _ | .select _ p _ _ => ∀ u ∈ p.upstreams, u.state < next
  | .inc _ u => u.state < next

theorem PickPos.Allocated.mono {n m : Nat} (le : n ≤ m) {pos : PickPos}
    (allocated : pos.Allocated n) : pos.Allocated m := by
  cases pos with
  | config => trivial
  | pool maxPer => trivial
  | snapshot maxPer pool taken rest => exact fun u member => (allocated u member).trans_le le
  | select maxPer pool snaps attempts => exact fun u member => (allocated u member).trans_le le
  | inc maxPer u => exact Nat.lt_of_lt_of_le allocated le

namespace Sys

structure Allocated (s : Sys) : Prop where
  pooled : ∀ u ∈ s.lb.pool.upstreams, u.state < s.lb.heap.next
  reading : ∀ t ∈ s.threads, ∀ caller pos, t.pc = .pick caller pos → pos.Allocated s.lb.heap.next
  unused : ∀ r, s.lb.heap.next ≤ r → (s.lb.heap.get r).active = 0

theorem outside_next {lb lb' : LoadBalancer} (changed : Outside lb lb') :
    lb.heap.next ≤ lb'.heap.next := by
  cases changed with
  | touch same => exact le_rfl
  | built built => exact (built_of_buildUpstreams built).old.next_le
  | replaced built replaced => exact (built_of_buildUpstreams built).old.next_le
  | commit valid => exact le_rfl

theorem built_active {before after : Heap State} {ups : List Upstream}
    (built : Built before ups after)
    (unused : ∀ r, before.next ≤ r → (before.get r).active = 0) (r : StateRef) :
    (after.get r).active = (before.get r).active := by
  by_cases old : r < before.next
  · rw [built.old.get_eq r old]
  · by_cases new : r < after.next
    · rw [built.fresh r (not_lt.1 old) new, unused r (not_lt.1 old)]
      rfl
    · rw [built.beyond r (not_lt.1 new)]

theorem outside_active {lb lb' : LoadBalancer} (changed : Outside lb lb')
    (unused : ∀ r, lb.heap.next ≤ r → (lb.heap.get r).active = 0) (r : StateRef) :
    (lb'.heap.get r).active = (lb.heap.get r).active := by
  cases changed with
  | touch same =>
      rw [Heap.get_set]
      split
      · rename_i here
        rw [same, here]
      · rfl
  | built built => exact built_active (built_of_buildUpstreams built) unused r
  | replaced built replaced => exact built_active (built_of_buildUpstreams built) unused r
  | commit valid => rfl

theorem replace_pooled {before after : Heap State} {ups : List Upstream} {old pool : Pool}
    (built : Built before ups after) (replaced : old.replace ups = .ok pool)
    (pooled : ∀ u ∈ old.upstreams, u.state < before.next) :
    ∀ u ∈ pool.upstreams, u.state < after.next := by
  intro u member
  rcases Pool.replace_states replaced member with ⟨w, memberW, same⟩ | ⟨w, memberW, same⟩
  · rw [← same]
    exact (pooled w memberW).trans_le built.old.next_le
  · rw [← same]
    exact (built.owned w memberW).2

theorem outside_pooled {lb lb' : LoadBalancer} (changed : Outside lb lb')
    (pooled : ∀ u ∈ lb.pool.upstreams, u.state < lb.heap.next) :
    ∀ u ∈ lb'.pool.upstreams, u.state < lb'.heap.next := by
  cases changed with
  | touch same => exact pooled
  | commit valid => exact pooled
  | built built =>
      exact fun u member => (pooled u member).trans_le (built_of_buildUpstreams built).old.next_le
  | replaced built replaced => exact replace_pooled (built_of_buildUpstreams built) replaced pooled

theorem pick_allocated {lb lb' : LoadBalancer} {sc : SelectCtx} {pos pos' : PickPos}
    (moved : PickMove lb sc pos lb' (.more pos'))
    (pooled : ∀ u ∈ lb.pool.upstreams, u.state < lb.heap.next)
    (allocated : pos.Allocated lb.heap.next) : pos'.Allocated lb.heap.next := by
  cases moved with
  | config => trivial
  | pool => exact pooled
  | ready => exact allocated
  | snapshot => exact allocated
  | again => exact allocated
  | found member => exact allocated _ member

theorem move_frame {s : Sys} {i : Nat} {t t' : Goroutine} {lb : LoadBalancer}
    (moved : Move s i t lb t') :
    lb.heap.next = s.lb.heap.next ∧ lb.pool = s.lb.pool ∧ lb.cfg = s.lb.cfg := by
  cases moved with
  | pick at_ moved => cases moved <;> exact ⟨rfl, rfl, rfl⟩
  | _ => exact ⟨rfl, rfl, rfl⟩

theorem mem_put {s : Sys} {lb : LoadBalancer} {i : Nat} {t w : Goroutine}
    (member : w ∈ (s.put lb i t).threads) : w ∈ s.threads ∨ w = t :=
  List.mem_or_eq_of_mem_set member

theorem move_reads {Q : PickPos → Prop} {s : Sys} {i : Nat} {t t' : Goroutine} {lb : LoadBalancer}
    (first : Q .config)
    (keep : ∀ sc lb' pos pos', PickMove s.lb sc pos lb' (.more pos') → Q pos → Q pos')
    (before : ∀ caller pos, t.pc = .pick caller pos → Q pos) (moved : Move s i t lb t')
    {caller : Caller} {pos : PickPos} (at_ : t'.pc = .pick caller pos) : Q pos := by
  cases moved with
  | @pick from_ old sc lb result was moved =>
      cases result with
      | more next =>
          cases at_
          exact keep sc lb old pos moved (before caller old was)
      | got u => cases from_ <;> cases at_
      | failed =>
          cases from_ with
          | acquire => cases at_
          | dispatch depth head => cases depth <;> cases at_
  | idle was empty =>
      rename_i depth
      cases depth <;> cases at_
  | peek was =>
      cases at_
      exact first
  | drop was front located canceled => exact before _ _ at_
  | _ => cases at_

theorem move_reading {s : Sys} {i : Nat} {t t' : Goroutine} {lb : LoadBalancer}
    (allocated : s.Allocated) (member : t ∈ s.threads) (moved : Move s i t lb t')
    {caller : Caller} {pos : PickPos} (at_ : t'.pc = .pick caller pos) :
    pos.Allocated s.lb.heap.next := by
  refine move_reads (Q := PickPos.Allocated s.lb.heap.next) trivial ?_ (allocated.reading t member) moved at_
  intro sc lb' pos pos' moved earlier
  exact pick_allocated moved allocated.pooled earlier

theorem move_unused {s : Sys} {i : Nat} {t t' : Goroutine} {lb : LoadBalancer}
    (allocated : s.Allocated) (member : t ∈ s.threads) (moved : Move s i t lb t')
    {r : StateRef} (beyond : s.lb.heap.next ≤ r) : (lb.heap.get r).active = 0 := by
  have before := allocated.unused r beyond
  cases moved with
  | pick at_ moved =>
      cases moved with
      | granted granted =>
          rename_i u state
          have inside : u.state < s.lb.heap.next := allocated.reading t member _ _ at_
          rw [Heap.get_set_of_ne _ _ (ne_of_gt (inside.trans_le beyond))]
          exact before
      | _ => exact before
  | release at_ =>
      rw [Heap.get_set]
      split
      · rename_i here
        rw [State.decActive_active, ← here, before]
      · exact before
  | _ => exact before

theorem step_allocated {s s' : Sys} {a : Action} (allocated : s.Allocated) (taken : Step s a s') :
    s'.Allocated := by
  cases taken with
  | spawn =>
      refine ⟨allocated.pooled, fun t member caller pos at_ => ?_, allocated.unused⟩
      rcases List.mem_append.1 member with member | member
      · exact allocated.reading t member caller pos at_
      · cases List.mem_singleton.1 member
        cases at_
        trivial
  | move located moved by_ =>
      have member := List.mem_of_getElem? located
      obtain ⟨next, pool, -⟩ := move_frame moved
      refine ⟨fun u memberU => ?_, fun w memberW caller pos at_ => ?_, fun r beyond => ?_⟩
      · rw [put, next]
        exact allocated.pooled u (pool ▸ memberU)
      · rw [put, next]
        rcases mem_put memberW with memberW | rfl
        · exact allocated.reading w memberW caller pos at_
        · exact move_reading allocated member moved at_
      · exact move_unused allocated member moved (next ▸ beyond)
  | hand located at_ front locatedW waiting vacant =>
      refine ⟨allocated.pooled, fun x member caller pos reading => ?_, allocated.unused⟩
      rcases mem_put member with member | rfl
      · rcases mem_put member with member | rfl
        · exact allocated.reading x member caller pos reading
        · cases reading
      · exact allocated.reading _ (List.mem_of_getElem? locatedW) caller pos reading
  | outside changed by_ =>
      refine ⟨outside_pooled changed allocated.pooled, fun t member caller pos at_ => ?_, fun r beyond => ?_⟩
      · exact (allocated.reading t member caller pos at_).mono (outside_next changed)
      · rw [outside_active changed allocated.unused]
        exact allocated.unused r ((outside_next changed).trans beyond)
  | recovered changed =>
      refine ⟨outside_pooled changed allocated.pooled, fun t member caller pos at_ => ?_, fun r beyond => ?_⟩
      · rcases List.mem_append.1 member with member | member
        · exact (allocated.reading t member caller pos at_).mono (outside_next changed)
        · cases List.mem_singleton.1 member
          cases at_
      · exact (outside_active changed allocated.unused r).trans
          (allocated.unused r ((outside_next changed).trans beyond))

end Sys

def Pc.Early : Pc → Prop
  | .pick .acquire _ | .enqueue => True
  | _ => False

def Pc.Waits : Pc → Prop
  | .parked | .cancel => True
  | _ => False

structure Goroutine.Disciplined (t : Goroutine) : Prop where
  ticket : ¬t.pc.Waits → t.ticket = none
  canceled : t.pc.Early ∨ t.pc.Waits → t.canceled = false

theorem Pc.not_early_returned (depth : Nat) : ¬(Pc.returned depth).Early := by
  cases depth <;> exact id

theorem Pc.not_waits_returned (depth : Nat) : ¬(Pc.returned depth).Waits := by
  cases depth <;> exact id

theorem Pc.not_waits_picked (caller : Caller) (result : PickResult) :
    ¬(Pc.picked caller result).Waits := by
  cases caller with
  | acquire => cases result <;> exact id
  | dispatch depth head =>
      cases result with
      | failed => exact not_waits_returned depth
      | _ => exact id

theorem Pc.early_of_picked {caller : Caller} {pos : PickPos} {result : PickResult}
    (early : (Pc.picked caller result).Early) : (Pc.pick caller pos).Early := by
  cases caller with
  | acquire => trivial
  | dispatch depth head =>
      cases result with
      | failed => exact absurd early (not_early_returned depth)
      | _ => exact early

theorem Goroutine.Disciplined.picked {t : Goroutine} {caller : Caller} {pos : PickPos} (before : t.Disciplined)
    (at_ : t.pc = .pick caller pos) (result : PickResult) :
    Goroutine.Disciplined { t with pc := .picked caller result } := by
  refine ⟨fun _ => before.ticket (at_ ▸ id), fun waits => ?_⟩
  rcases waits with early | waits
  · exact before.canceled (.inl (at_ ▸ Pc.early_of_picked early))
  · exact absurd waits (Pc.not_waits_picked _ _)

namespace Sys

structure Disciplined (s : Sys) : Prop where
  threads : ∀ t ∈ s.threads, t.Disciplined
  distinct : s.lb.queue.Nodup
  queued : ∀ w ∈ s.lb.queue, ∃ t, s.threads[w]? = some t ∧ t.pc.Waits ∧ t.ticket = none

theorem move_disciplined {s : Sys} {i : Nat} {t t' : Goroutine} {lb : LoadBalancer}
    (disciplined : s.Disciplined) (located : s.threads[i]? = some t) (moved : Move s i t lb t') :
    t'.Disciplined := by
  have before := disciplined.threads t (List.mem_of_getElem? located)
  have calm : ¬t.pc.Waits → t.ticket = none := before.ticket
  cases moved with
  | pick at_ moved => exact before.picked at_ _
  | enqueue at_ =>
      exact ⟨fun still => absurd trivial still, fun _ => before.canceled (.inl (at_ ▸ trivial))⟩
  | giveUp at_ =>
      exact ⟨fun still => absurd trivial still, fun _ => before.canceled (.inr (at_ ▸ trivial))⟩
  | unqueue at_ queued =>
      obtain ⟨w, locatedW, -, vacant⟩ := disciplined.queued i queued
      cases located.symm.trans locatedW
      exact ⟨fun _ => vacant, fun waits => absurd waits (by simp [Pc.Early, Pc.Waits])⟩
  | receive at_ ticket =>
      exact ⟨fun _ => rfl, fun waits => absurd waits (by simp [Pc.Early, Pc.Waits])⟩
  | reclaim at_ unqueued ticket =>
      exact ⟨fun _ => rfl, fun waits => absurd waits (by simp [Pc.Early, Pc.Waits])⟩
  | abandon at_ unqueued ticket =>
      exact ⟨fun _ => ticket, fun waits => absurd waits (by simp [Pc.Early, Pc.Waits])⟩
  | drop at_ front locatedW canceled => exact before
  | idle at_ empty =>
      rw [at_] at calm
      refine ⟨fun _ => calm id, fun waits => ?_⟩
      rcases waits with early | waits
      · exact absurd early (Pc.not_early_returned _)
      · exact absurd waits (Pc.not_waits_returned _)
  | _ at_ =>
      rw [at_] at calm
      exact ⟨fun _ => calm id, fun waits => absurd waits (by simp [Pc.Early, Pc.Waits])⟩

theorem move_queue {s : Sys} {i : Nat} {t t' : Goroutine} {lb : LoadBalancer}
    (disciplined : s.Disciplined) (located : s.threads[i]? = some t) (moved : Move s i t lb t') :
    lb.queue.Nodup ∧ (∀ w ∈ lb.queue, w ≠ i → w ∈ s.lb.queue) ∧
      (i ∈ lb.queue → t'.pc.Waits ∧ t'.ticket = none) := by
  have waits (queued : i ∈ s.lb.queue) : t.pc.Waits ∧ t.ticket = none := by
    obtain ⟨w, locatedW, waits, vacant⟩ := disciplined.queued i queued
    cases located.symm.trans locatedW
    exact ⟨waits, vacant⟩
  have busy (still : ¬t.pc.Waits) : i ∉ s.lb.queue := fun queued => still (waits queued).1
  have same : ∀ w ∈ s.lb.queue, w ≠ i → w ∈ s.lb.queue := fun _ member _ => member
  have distinct := disciplined.distinct
  -- only `enqueue` adds to the queue, and its goroutine was not waiting before
  cases moved with
  | pick at_ moved =>
      have absent := busy (at_ ▸ id)
      cases moved <;> exact ⟨distinct, same, fun queued => absurd queued absent⟩
  | enqueue at_ =>
      have absent := busy (at_ ▸ id)
      have vacant := (disciplined.threads t (List.mem_of_getElem? located)).ticket (at_ ▸ id)
      refine ⟨?_, fun w member other => ?_, fun _ => ⟨trivial, vacant⟩⟩
      · exact List.nodup_append.2 ⟨distinct, List.nodup_singleton i, fun w member v memberV equal =>
          absent (List.mem_singleton.1 memberV ▸ equal ▸ member)⟩
      · rcases List.mem_append.1 member with member | member
        · exact member
        · exact absurd (List.mem_singleton.1 member) other
  | giveUp at_ => exact ⟨distinct, same, fun queued => ⟨trivial, (waits queued).2⟩⟩
  | receive at_ ticket =>
      refine ⟨distinct, same, fun queued => ?_⟩
      rw [(waits queued).2] at ticket
      cases ticket
  | unqueue at_ queued =>
      refine ⟨distinct.erase i, fun w member _ => List.mem_of_mem_erase member, fun still => ?_⟩
      exact absurd still (List.Nodup.not_mem_erase distinct)
  | reclaim at_ unqueued ticket => exact ⟨distinct, same, fun queued => absurd queued unqueued⟩
  | abandon at_ unqueued ticket => exact ⟨distinct, same, fun queued => absurd queued unqueued⟩
  | drop at_ front locatedW canceled =>
      have absent := busy (at_ ▸ id)
      rw [front] at distinct absent ⊢
      exact ⟨distinct.of_cons, fun w member _ => List.mem_cons_of_mem _ member,
        fun queued => absurd (List.mem_cons_of_mem _ queued) absent⟩
  | full at_ front locatedW occupied =>
      have absent := busy (at_ ▸ id)
      exact ⟨distinct.sublist (List.tail_sublist _), fun w member _ => List.mem_of_mem_tail member,
        fun queued => absurd (List.mem_of_mem_tail queued) absent⟩
  | _ at_ => exact ⟨distinct, same, fun queued => absurd queued (busy (at_ ▸ id))⟩

theorem threads_put {s : Sys} (lb : LoadBalancer) {i j : Nat} (t : Goroutine) {w : Goroutine}
    (other : j ≠ i) (located : s.threads[j]? = some w) : (s.put lb i t).threads[j]? = some w := by
  rw [put, List.getElem?_set_ne other.symm]
  exact located

theorem threads_put_self {s : Sys} {lb : LoadBalancer} {i : Nat} {t w : Goroutine}
    (located : s.threads[i]? = some w) : (s.put lb i t).threads[i]? = some t :=
  List.getElem?_set_self (List.getElem?_eq_some_iff.1 located).1

theorem picked_disciplined {s : Sys} (disciplined : s.Disciplined) {i : Nat} {t : Goroutine} {lb : LoadBalancer}
    {caller : Caller} {pos : PickPos} (located : s.threads[i]? = some t) (at_ : t.pc = .pick caller pos)
    (same : lb.queue = s.lb.queue) (result : PickResult) :
    (s.put lb i { t with pc := .picked caller result }).Disciplined := by
  refine ⟨fun w member => ?_, same ▸ disciplined.distinct, fun w member => ?_⟩
  · rcases mem_put member with member | rfl
    · exact disciplined.threads w member
    · exact (disciplined.threads t (List.mem_of_getElem? located)).picked at_ result
  · obtain ⟨x, locatedX, waits⟩ := disciplined.queued w (same ▸ member)
    have other : w ≠ i := by
      rintro rfl
      cases located.symm.trans locatedX
      rw [at_] at waits
      exact waits.1
    exact ⟨x, threads_put _ _ other locatedX, waits⟩

theorem threads_add {s : Sys} {t w : Goroutine} {j : Nat} (located : s.threads[j]? = some w) :
    (s.add t).threads[j]? = some w := by
  rw [add, List.getElem?_append_left (List.getElem?_eq_some_iff.1 located).1]
  exact located

theorem head_ne {s : Sys} (disciplined : s.Disciplined) {i depth head : Nat} {t : Goroutine}
    {u : Upstream} (located : s.threads[i]? = some t) (at_ : t.pc = .deliver depth head u)
    (front : s.lb.queue.head? = some head) : head ≠ i := by
  rintro rfl
  obtain ⟨w, locatedW, waits, -⟩ := disciplined.queued head (List.mem_of_head? front)
  cases located.symm.trans locatedW
  rw [at_] at waits
  exact waits

theorem step_disciplined {s s' : Sys} {a : Action} (disciplined : s.Disciplined)
    (taken : Step s a s') : s'.Disciplined := by
  have added {s : Sys} (disciplined : s.Disciplined) {t : Goroutine} (good : t.Disciplined) :
      (s.add t).Disciplined := by
    refine ⟨fun w member => ?_, disciplined.distinct, fun w member => ?_⟩
    · rcases List.mem_append.1 member with member | member
      · exact disciplined.threads w member
      · exact List.mem_singleton.1 member ▸ good
    · obtain ⟨x, located, waits⟩ := disciplined.queued w member
      exact ⟨x, threads_add located, waits⟩
  have outside {lb : LoadBalancer} (changed : Outside s.lb lb) : Disciplined { s with lb } := by
    cases changed <;> exact ⟨disciplined.threads, disciplined.distinct, disciplined.queued⟩
  cases taken with
  | spawn => exact added disciplined ⟨fun _ => rfl, fun _ => rfl⟩
  | @move a i t lb t' located moved by_ =>
      obtain ⟨distinct, stays, joined⟩ := move_queue disciplined located moved
      refine ⟨fun w member => ?_, distinct, fun w member => ?_⟩
      · rcases mem_put member with member | rfl
        · exact disciplined.threads w member
        · exact move_disciplined disciplined located moved
      · by_cases self : w = i
        · subst self
          exact ⟨_, threads_put_self located, joined member⟩
        · obtain ⟨x, locatedX, waits⟩ := disciplined.queued w (stays w member self)
          exact ⟨x, threads_put _ _ self locatedX, waits⟩
  | @hand i draws t w depth head u located at_ front locatedW waiting vacant =>
      have before := disciplined.threads t (List.mem_of_getElem? located)
      obtain ⟨x, locatedX, waits, -⟩ := disciplined.queued head (List.mem_of_head? front)
      cases locatedW.symm.trans locatedX
      have tail : s.lb.queue = head :: s.lb.queue.tail := by
        rw [List.cons_head?_tail front]
      have distinct : (head :: s.lb.queue.tail).Nodup := tail ▸ disciplined.distinct
      refine ⟨fun x member => ?_, distinct.of_cons, fun x member => ?_⟩
      · rcases mem_put member with member | rfl
        · rcases mem_put member with member | rfl
          · exact disciplined.threads x member
          · exact ⟨fun _ => before.ticket (at_ ▸ id), fun waits => absurd waits (by simp [Pc.Early, Pc.Waits])⟩
        · exact ⟨fun still => absurd waits still, fun _ => waiting⟩
      · obtain ⟨y, locatedY, waitsY, vacantY⟩ := disciplined.queued x (List.mem_of_mem_tail member)
        have notHead : x ≠ head := fun same => (List.nodup_cons.1 distinct).1 (same ▸ member)
        have notSelf : x ≠ i := by
          rintro rfl
          cases located.symm.trans locatedY
          rw [at_] at waitsY
          exact waitsY
        exact ⟨y, threads_put _ _ notHead (threads_put _ _ notSelf locatedY), waitsY, vacantY⟩
  | outside changed by_ => exact outside changed
  | recovered changed => exact added (outside changed) ⟨fun _ => rfl, fun _ => rfl⟩

def Conserved (s : Sys) : Prop :=
  ∀ r, (s.lb.heap.get r).active = total (Goroutine.holds r) s.threads

theorem holds_returned (r : StateRef) (t : Goroutine) (depth : Nat) :
    ({ t with pc := .returned depth } : Goroutine).holds r = t.ticketHolds r := by
  cases depth <;> simp [Goroutine.holds, Goroutine.sessionHolds, Goroutine.frameHolds, Pc.returned,
    Goroutine.ticketHolds]

theorem pick_balanced {s : Sys} {t : Goroutine} {lb : LoadBalancer} {sc : SelectCtx}
    {caller : Caller} {pos : PickPos} {result : PickResult} (at_ : t.pc = .pick caller pos)
    (moved : PickMove s.lb sc pos lb result) (r : StateRef) :
    (lb.heap.get r).active + t.holds r =
      (s.lb.heap.get r).active + ({ t with pc := .picked caller result } : Goroutine).holds r := by
  have idle : t.holds r = t.ticketHolds r := by
    simp [Goroutine.holds, Goroutine.sessionHolds, Goroutine.frameHolds, at_]
  rw [idle]
  have failed : ({ t with pc := .picked caller .failed } : Goroutine).holds r = t.ticketHolds r := by
    cases caller with
    | acquire => simp [Goroutine.holds, Goroutine.sessionHolds, Goroutine.frameHolds, Pc.picked,
        Goroutine.ticketHolds]
    | dispatch depth head => exact holds_returned r t depth
  have got (u : Upstream) : ({ t with pc := .picked caller (.got u) } : Goroutine).holds r =
      t.ticketHolds r + slotOn r u := by
    cases caller <;> simp [Goroutine.holds, Goroutine.sessionHolds, Goroutine.frameHolds, Pc.picked,
      Goroutine.ticketHolds, Nat.add_comm]
  cases moved with
  | granted granted =>
      obtain ⟨-, rfl⟩ := State.incActive_eq_some.1 granted
      rw [got, Heap.get_set, slotOn]
      split
      · rename_i here
        rw [if_pos here.symm, here]
        simp only
        omega
      · rename_i other
        rw [if_neg (Ne.symm other)]
        omega
  | nobody answer unknown => rw [failed]
  | refused unable => rw [failed]
  | _ => simp [Goroutine.holds, Goroutine.sessionHolds, Goroutine.frameHolds, Pc.picked,
        Goroutine.ticketHolds]

theorem move_balanced {s : Sys} {i : Nat} {t t' : Goroutine} {lb : LoadBalancer}
    (moved : Move s i t lb t') (backed : ∀ r, t.holds r ≤ (s.lb.heap.get r).active) (r : StateRef) :
    (lb.heap.get r).active + t.holds r = (s.lb.heap.get r).active + t'.holds r := by
  cases moved with
  | pick at_ moved => exact pick_balanced at_ moved r
  | release at_ =>
      rename_i u depth
      have mine := backed r
      simp only [Goroutine.holds, Goroutine.sessionHolds, Goroutine.frameHolds, at_,
        Goroutine.ticketHolds, slotOn] at mine ⊢
      rw [Heap.get_set]
      split
      · rename_i here
        subst here
        rw [State.decActive_active]
        simp only [if_true] at mine ⊢
        omega
      · rename_i other
        rw [if_neg (Ne.symm other)]
  | idle at_ empty =>
      rw [holds_returned]
      simp [Goroutine.holds, Goroutine.sessionHolds, Goroutine.frameHolds, at_]
  | receive at_ ticket =>
      simp [Goroutine.holds, Goroutine.sessionHolds, Goroutine.frameHolds, Goroutine.ticketHolds, at_,
        ticket]
  | reclaim at_ unqueued ticket =>
      simp [Goroutine.holds, Goroutine.sessionHolds, Goroutine.frameHolds, Goroutine.ticketHolds, at_,
        ticket]
  | drop at_ front located canceled => rfl
  | _ at_ =>
      simp [Goroutine.holds, Goroutine.sessionHolds, Goroutine.frameHolds, Goroutine.ticketHolds, at_,
        Nat.add_comm]

theorem step_conserved {s s' : Sys} {a : Action} (allocated : s.Allocated)
    (disciplined : s.Disciplined) (conserved : s.Conserved) (taken : Step s a s') :
    s'.Conserved := by
  intro r
  have ledger := conserved r
  cases taken with
  | spawn =>
      simp only [add, total_snoc]
      rw [ledger]
      rfl
  | @move a i t lb t' located moved by_ =>
      have backed (q : StateRef) : t.holds q ≤ (s.lb.heap.get q).active :=
        (conserved q).symm ▸ le_total (List.mem_of_getElem? located)
      have balanced := move_balanced moved backed r
      have counted := total_set (Goroutine.holds r) located t'
      simp only [put]
      omega
  | @hand i draws t w depth head u located at_ front locatedW waiting vacant =>
      -- the slot goes from the frame of the giver to the ticket channel of the receiver
      have other := head_ne disciplined located at_ front
      have given := total_set (Goroutine.holds r)
        (threads_put s.lb { t with pc := .dispatch depth } other locatedW)
        { w with ticket := some u }
      have taken := total_set (Goroutine.holds r) located { t with pc := .dispatch depth }
      have giver : t.holds r =
          ({ t with pc := .dispatch depth } : Goroutine).holds r + slotOn r u := by
        simp [Goroutine.holds, Goroutine.sessionHolds, Goroutine.frameHolds, Goroutine.ticketHolds, at_]
      have receiver : ({ w with ticket := some u } : Goroutine).holds r = w.holds r + slotOn r u := by
        simp only [Goroutine.holds, Goroutine.sessionHolds, Goroutine.frameHolds,
          Goroutine.ticketHolds, vacant, Option.map_some, Option.map_none, Option.getD_some,
          Option.getD_none]
        omega
      simp only [put] at given ⊢
      omega
  | outside changed by_ =>
      exact (outside_active changed allocated.unused r).trans ledger
  | recovered changed =>
      simp only [add, total_snoc]
      rw [outside_active changed allocated.unused r, ledger]
      rfl

def inForce (trace : List (Sys × Action)) (s : Sys) : List Config :=
  trace.map (·.1.lb.cfg) ++ [s.lb.cfg]

theorem inForce_snoc (trace : List (Sys × Action)) (s s' : Sys) (a : Action) :
    inForce (trace ++ [(s, a)]) s' = inForce trace s ++ [s'.lb.cfg] := by
  simp [inForce]

def Within (cfgs : List Config) (n : Int) : Prop := ∃ c ∈ cfgs, n ≤ c.maxPerProxy

theorem Within.grow {cfgs more : List Config} {n : Int} (within : Within cfgs n) :
    Within (cfgs ++ more) n := by
  obtain ⟨c, member, le⟩ := within
  exact ⟨c, List.mem_append_left _ member, le⟩

theorem Within.le {cfgs : List Config} {n m : Int} (within : Within cfgs m) (le : n ≤ m) :
    Within cfgs n := by
  obtain ⟨c, member, bound⟩ := within
  exact ⟨c, member, le.trans bound⟩

end Sys

def PickPos.cap : PickPos → Option Int
  | .config => none
  | .pool m | .snapshot m _ _ _ | .select m _ _ _ | .inc m _ => some m

namespace Sys

structure Capped (cfgs : List Config) (s : Sys) : Prop where
  positive : 0 < s.lb.cfg.maxPerProxy
  current : s.lb.cfg ∈ cfgs
  active : ∀ r, Within cfgs (s.lb.heap.get r).active
  reading : ∀ t ∈ s.threads, ∀ caller pos m, t.pc = .pick caller pos → pos.cap = some m →
    Within cfgs m

theorem pick_capped {s : Sys} {cfgs : List Config} (capped : Capped cfgs s) {sc : SelectCtx}
    {lb : LoadBalancer} {pos : PickPos} {result : PickResult}
    (moved : PickMove s.lb sc pos lb result)
    (reading : ∀ m, pos.cap = some m → Within cfgs m) :
    (∀ r, Within cfgs (lb.heap.get r).active) ∧
      ∀ next m, result = .more next → next.cap = some m → Within cfgs m := by
  have active := capped.active
  cases moved with
  | config =>
      refine ⟨active, fun next m same read => ?_⟩
      cases same
      cases read
      exact ⟨_, capped.current, le_rfl⟩
  | granted granted =>
      obtain ⟨able, rfl⟩ := State.incActive_eq_some.1 granted
      refine ⟨fun r => ?_, fun next m same => by cases same⟩
      rw [Heap.get_set]
      split
      · simp only [State.canServe, Bool.and_eq_true, decide_eq_true_eq] at able
        exact (reading _ rfl).le (Int.add_one_le_of_lt able.2)
      · exact active r
  | nobody answer unknown => exact ⟨active, fun next m same => by cases same⟩
  | refused unable => exact ⟨active, fun next m same => by cases same⟩
  | _ =>
      refine ⟨active, fun next m same read => ?_⟩
      cases same
      exact reading m read

theorem move_capped {s : Sys} {cfgs : List Config} (capped : Capped cfgs s) {i : Nat}
    {t t' : Goroutine} {lb : LoadBalancer} (member : t ∈ s.threads) (moved : Move s i t lb t') :
    (∀ r, Within cfgs (lb.heap.get r).active) ∧
      ∀ caller pos m, t'.pc = .pick caller pos → pos.cap = some m → Within cfgs m := by
  have active := capped.active
  cases moved with
  | @pick from_ old sc lb result at_ moved =>
      obtain ⟨active, more⟩ := pick_capped capped moved fun m read => capped.reading t member _ _ m at_ read
      refine ⟨active, fun caller pos m now read => ?_⟩
      cases result with
      | more next =>
          cases now
          exact more _ m rfl read
      | got u => cases from_ <;> cases now
      | failed =>
          cases from_ with
          | acquire => cases now
          | dispatch depth head => cases depth <;> cases now
  | release at_ =>
      refine ⟨fun r => ?_, fun caller pos m now => by cases now⟩
      rw [Heap.get_set]
      split
      · rename_i u _ here
        rw [State.decActive_active]
        exact (active u.state).le (by omega)
      · exact active r
  | idle at_ empty =>
      rename_i depth
      exact ⟨active, fun caller pos m now => by cases depth <;> cases now⟩
  | drop at_ front located canceled => exact ⟨active, fun caller pos m now => by cases at_.symm.trans now⟩
  | peek at_ =>
      refine ⟨active, fun caller pos m now read => ?_⟩
      cases now
      cases read
  | _ => exact ⟨active, fun caller pos m now => by cases now⟩

theorem outside_positive {lb lb' : LoadBalancer} (changed : Outside lb lb')
    (positive : 0 < lb.cfg.maxPerProxy) : 0 < lb'.cfg.maxPerProxy := by
  cases changed with
  | commit valid => exact (Config.checked_of_validate valid).maxPerProxy_pos
  | _ => exact positive

theorem step_capped {s s' : Sys} {a : Action} {cfgs : List Config} (allocated : s.Allocated)
    (capped : Capped cfgs s) (taken : Step s a s') : Capped (cfgs ++ [s'.lb.cfg]) s' := by
  have current : s'.lb.cfg ∈ cfgs ++ [s'.lb.cfg] := by simp
  have kept : ∀ t ∈ s.threads, ∀ caller pos m, t.pc = .pick caller pos → pos.cap = some m →
      Within (cfgs ++ [s'.lb.cfg]) m := fun t member caller pos m at_ read =>
    (capped.reading t member caller pos m at_ read).grow
  cases taken with
  | spawn =>
      refine ⟨capped.positive, current, fun r => (capped.active r).grow, fun t member caller pos m at_ read => ?_⟩
      rcases List.mem_append.1 member with member | member
      · exact kept t member caller pos m at_ read
      · cases List.mem_singleton.1 member
        cases at_
        cases read
  | move located moved by_ =>
      obtain ⟨active, reading⟩ := move_capped capped (List.mem_of_getElem? located) moved
      refine ⟨(move_frame moved).2.2 ▸ capped.positive, current, fun r => (active r).grow,
        fun w member caller pos m at_ read => ?_⟩
      rcases mem_put member with member | rfl
      · exact kept w member caller pos m at_ read
      · exact (reading caller pos m at_ read).grow
  | hand located at_ front locatedW waiting vacant =>
      refine ⟨capped.positive, current, fun r => (capped.active r).grow, fun x member caller pos m now read => ?_⟩
      rcases mem_put member with member | rfl
      · rcases mem_put member with member | rfl
        · exact kept x member caller pos m now read
        · cases now
      · exact kept _ (List.mem_of_getElem? locatedW) caller pos m now read
  | outside changed by_ =>
      refine ⟨outside_positive changed capped.positive, current, fun r => ?_, kept⟩
      rw [outside_active changed allocated.unused r]
      exact (capped.active r).grow
  | recovered changed =>
      refine ⟨outside_positive changed capped.positive, current, fun r => ?_, fun t member caller pos m at_ read => ?_⟩
      · exact (outside_active changed allocated.unused r) ▸ (capped.active r).grow
      · rcases List.mem_append.1 member with member | member
        · exact kept t member caller pos m at_ read
        · cases List.mem_singleton.1 member
          cases at_

def offers (w : Nat) (s : Sys) : Action → Bool
  | .advance i _ =>
      match s.threads[i]?, s.threads[w]? with
      | some ⟨.deliver _ head _, _, _, _⟩, some waiter =>
          head == w && s.lb.queue.head? == some head && !waiter.canceled
      | _, _ => false
  | _ => false

def Pending (w : Nat) (s : Sys) : Prop :=
  s.threads.length ≤ w ∨ (∃ t, s.threads[w]? = some t ∧ t.pc.Early) ∨ w ∈ s.lb.queue

theorem offers_iff {s : Sys} {w : Nat} {a : Action} : s.offers w a = true ↔
    ∃ i draws t depth u waiter, a = .advance i draws ∧ s.threads[i]? = some t ∧
      t.pc = .deliver depth w u ∧ s.threads[w]? = some waiter ∧
      s.lb.queue.head? = some w ∧ waiter.canceled = false := by
  constructor
  · intro offered
    unfold offers at offered
    split at offered
    · split at offered
      · rename_i i draws _ _ depth head u sc ticket canceled waiter located locatedW
        simp only [Bool.and_eq_true, beq_iff_eq, Bool.not_eq_true'] at offered
        obtain ⟨⟨rfl, front⟩, waiting⟩ := offered
        exact ⟨i, draws, _, depth, u, waiter, rfl, located, rfl, locatedW, front, waiting⟩
      · cases offered
    · cases offered
  · rintro ⟨i, draws, ⟨pc, sc, ticket, canceled⟩, depth, u, waiter, rfl, located, rfl, locatedW, front, waiting⟩
    simp [offers, located, locatedW, front, waiting]

theorem move_early {s : Sys} {i : Nat} {t t' : Goroutine} {lb : LoadBalancer}
    (moved : Move s i t lb t') (early : t'.pc.Early) : t.pc.Early := by
  cases moved with
  | pick at_ moved => exact at_ ▸ Pc.early_of_picked early
  | idle at_ empty => exact absurd early (Pc.not_early_returned _)
  | drop at_ front located canceled => exact early
  | _ => exact absurd early id

theorem move_joins {s : Sys} {i : Nat} {t t' : Goroutine} {lb : LoadBalancer}
    (moved : Move s i t lb t') {w : Nat} (queued : w ∈ lb.queue) :
    w ∈ s.lb.queue ∨ w = i ∧ t.pc.Early := by
  cases moved with
  | pick at_ moved => cases moved <;> exact .inl queued
  | enqueue at_ =>
      rcases List.mem_append.1 queued with queued | queued
      · exact .inl queued
      · exact .inr ⟨List.mem_singleton.1 queued, at_ ▸ trivial⟩
  | unqueue at_ member => exact .inl (List.mem_of_mem_erase queued)
  | drop at_ front located canceled => exact .inl (front ▸ List.mem_cons_of_mem _ queued)
  | full at_ front located occupied => exact .inl (List.mem_of_mem_tail queued)
  | _ => exact .inl queued

theorem step_pending {s s' : Sys} {a : Action} (taken : Step s a s')
    {w : Nat} (pending : s'.Pending w) : s.Pending w := by
  have added {s : Sys} {t : Goroutine} (pending : (s.add t).Pending w) : s.Pending w := by
    rcases pending with new | ⟨x, located, early⟩ | queued
    · exact .inl ((Nat.le_succ _).trans (by simpa [add] using new))
    · by_cases old : w < s.threads.length
      · rw [add, List.getElem?_append_left old] at located
        exact .inr (.inl ⟨x, located, early⟩)
      · exact .inl (not_lt.1 old)
    · exact .inr (.inr queued)
  cases taken with
  | spawn => exact added pending
  | @move a i t lb t' located moved by_ =>
      rcases pending with new | ⟨x, locatedX, early⟩ | queued
      · exact .inl (by simpa [put] using new)
      · by_cases self : w = i
        · subst self
          cases (threads_put_self located).symm.trans locatedX
          exact .inr (.inl ⟨t, located, move_early moved early⟩)
        · rw [put, List.getElem?_set_ne (Ne.symm self)] at locatedX
          exact .inr (.inl ⟨x, locatedX, early⟩)
      · rcases move_joins moved queued with queued | ⟨rfl, early⟩
        · exact .inr (.inr queued)
        · exact .inr (.inl ⟨t, located, early⟩)
  | @hand i draws t x depth head u located at_ front locatedX waiting vacant =>
      rcases pending with new | ⟨y, locatedY, early⟩ | queued
      · exact .inl (by simpa [put] using new)
      · by_cases target : w = head
        · exact .inr (.inr (target ▸ List.mem_of_head? front))
        · rw [put, List.getElem?_set_ne (Ne.symm target)] at locatedY
          by_cases self : w = i
          · subst self
            cases (threads_put_self located).symm.trans locatedY
            exact absurd early id
          · rw [put, List.getElem?_set_ne (Ne.symm self)] at locatedY
            exact .inr (.inl ⟨y, locatedY, early⟩)
      · exact .inr (.inr (List.mem_of_mem_tail queued))
  | outside changed by_ => cases changed <;> exact pending
  | recovered changed =>
      have before := added pending
      cases changed <;> exact before

theorem step_offers {s s' : Sys} {a : Action} (disciplined : s.Disciplined) (taken : Step s a s')
    {w : Nat} (offered : s.offers w a = true) : ¬s'.Pending w := by
  obtain ⟨i, draws, t, depth, u, waiter, rfl, located, at_, locatedW, front, waiting⟩ :=
    offers_iff.1 offered
  obtain ⟨x, locatedX, waits, vacant⟩ := disciplined.queued w (List.mem_of_head? front)
  cases locatedW.symm.trans locatedX
  cases taken with
  | @move _ j t₂ lb t' located₂ moved by_ =>
      rcases by_ with ⟨_, same⟩ | ⟨same | same | same, -⟩ <;> cases same
      cases located.symm.trans located₂
      -- the other ways out of the section contradict the offer
      cases moved with
      | stale at₂ locatedY lost =>
          cases at_.symm.trans at₂
          cases locatedW.symm.trans locatedY
          exact absurd ⟨front, waiting⟩ lost
      | full at₂ front₂ locatedY occupied =>
          cases at_.symm.trans at₂
          cases locatedW.symm.trans locatedY
          rw [vacant] at occupied
          cases occupied
      | _ at₂ => cases at_.symm.trans at₂
  | @hand _ _ t₂ y depth₂ head u₂ located₂ at₂ front₂ locatedY waiting₂ vacant₂ =>
      cases located.symm.trans located₂
      cases at_.symm.trans at₂
      have tail : s.lb.queue = w :: s.lb.queue.tail := by rw [List.cons_head?_tail front]
      have distinct : (w :: s.lb.queue.tail).Nodup := tail ▸ disciplined.distinct
      have below := (List.getElem?_eq_some_iff.1 locatedW).1
      rintro (new | ⟨z, locatedZ, early⟩ | queued)
      · simp only [put, List.length_set] at new
        omega
      · rw [put, List.getElem?_set_self (by simpa [put] using below)] at locatedZ
        cases locatedZ
        cases locatedW.symm.trans locatedY
        cases pc : waiter.pc <;> rw [pc] at waits early <;> first | exact waits | exact early
      · exact (List.nodup_cons.1 distinct).1 queued
  | outside changed by_ =>
      rcases by_ with ⟨_, same⟩ | ⟨_, _, same⟩ | ⟨_, same⟩ | ⟨_, same⟩ <;> cases same

def offered (w : Nat) (trace : List (Sys × Action)) : Nat :=
  trace.countP fun entry => entry.1.offers w entry.2

theorem step_offered {s s' : Sys} {a : Action} {trace : List (Sys × Action)} {w : Nat}
    (disciplined : s.Disciplined) (taken : Step s a s')
    (once : offered w trace ≤ 1 ∧ (s.Pending w → offered w trace = 0)) :
    offered w (trace ++ [(s, a)]) ≤ 1 ∧ (s'.Pending w → offered w (trace ++ [(s, a)]) = 0) := by
  have counted : offered w (trace ++ [(s, a)]) =
      offered w trace + if s.offers w a then 1 else 0 := by
    simp [offered, List.countP_append, List.countP_singleton]
  rw [counted]
  cases now : s.offers w a with
  | false =>
      simp only [Bool.false_eq_true, if_false, Nat.add_zero]
      exact ⟨once.1, fun pending => once.2 (step_pending taken pending)⟩
  | true =>
      obtain ⟨_, _, _, _, _, _, -, -, -, -, front, -⟩ := offers_iff.1 now
      rw [once.2 (.inr (.inr (List.mem_of_head? front)))]
      exact ⟨by simp, fun pending => absurd pending (step_offers disciplined taken now)⟩

structure Safe (trace : List (Sys × Action)) (s : Sys) : Prop where
  allocated : s.Allocated
  disciplined : s.Disciplined
  conserved : s.Conserved
  capped : Capped (inForce trace s) s
  once : ∀ w, offered w trace ≤ 1 ∧ (s.Pending w → offered w trace = 0)

theorem initial_fresh {lb : LoadBalancer} (initial : lb.Initial) :
    (∀ r, lb.heap.get r = newState) ∧ (∀ u ∈ lb.pool.upstreams, u.state < lb.heap.next) ∧
      lb.queue = [] ∧ 0 < lb.cfg.maxPerProxy := by
  obtain ⟨cfg, made, dialer, started, rfl⟩ := initial
  simp only [LoadBalancer.start, bind_ok] at started
  obtain ⟨filled, valid, ⟨ups, heap⟩, built, sel, -, new⟩ := started
  have fresh := built_of_buildUpstreams built
  have checked := Config.checked_of_validate valid
  obtain ⟨transport, rfl⟩ := checked.filled
  obtain ⟨pool, replaced, rfl⟩ := LoadBalancer.new_ok new
  refine ⟨fun r => ?_, ?_, rfl, checked.maxPerProxy_pos⟩
  · by_cases old : r < heap.next
    · exact fresh.fresh r (Nat.zero_le r) old
    · exact fresh.beyond r (not_lt.1 old)
  · exact replace_pooled fresh replaced (by simp [Pool.empty])

theorem init_safe {lb : LoadBalancer} (initial : lb.Initial) : Safe [] (init lb) := by
  obtain ⟨fresh, pooled, empty, positive⟩ := initial_fresh initial
  have idle (r : StateRef) : (lb.heap.get r).active = 0 := by
    rw [fresh r]
    rfl
  refine ⟨⟨pooled, by simp [init], fun r _ => idle r⟩, ⟨by simp [init], ?_, ?_⟩, fun r => idle r, ?_, fun w => ?_⟩
  · simp [init, empty]
  · simp [init, empty]
  · refine ⟨positive, by simp [inForce], fun r => ⟨lb.cfg, by simp [inForce, init], ?_⟩, by simp [init]⟩
    change ((lb.heap.get r).active : Int) ≤ _
    rw [idle r]
    exact le_of_lt positive
  · exact ⟨Nat.zero_le _, fun _ => rfl⟩

theorem step_safe {trace : List (Sys × Action)} {s s' : Sys} {a : Action} (safe : Safe trace s)
    (taken : Step s a s') : Safe (trace ++ [(s, a)]) s' where
  allocated := step_allocated safe.allocated taken
  disciplined := step_disciplined safe.disciplined taken
  conserved := step_conserved safe.allocated safe.disciplined safe.conserved taken
  capped := inForce_snoc trace s s' a ▸ step_capped safe.allocated safe.capped taken
  once w := step_offered safe.disciplined taken (safe.once w)

theorem run_safe {lb : LoadBalancer} (initial : lb.Initial) {trace : List (Sys × Action)} {s : Sys}
    (exec : Exec step (init lb) trace s) : Safe trace s := by
  induction exec with
  | nil => exact init_safe initial
  | snoc before taken ih => exact step_safe ih (step_cases taken)

structure SlotsConserved (trace : List (Sys × Action)) (s : Sys) : Prop where
  /-- The active count is what sessions, ticket channels and frames hold. -/
  accounted : ∀ r, (s.lb.heap.get r).active = total (Goroutine.sessionHolds r) s.threads +
    total (Goroutine.ticketHolds r) s.threads + total (Goroutine.frameHolds r) s.threads
  /-- Nobody leaves a ticket behind: whoever has one in the channel is still to read it. -/
  claimed : ∀ t ∈ s.threads, t.ticket ≠ none → t.pc = .parked ∨ t.pc = .cancel
  /-- Once every call has returned and every session has ended, no slot is taken. -/
  settled : (∀ t ∈ s.threads, t.pc = .done) → ∀ r, (s.lb.heap.get r).active = 0
  /-- `DecActive` never meets an active count of zero. -/
  unclamped : ∀ t ∈ s.threads, ∀ u depth, t.pc = .release u depth →
    0 < (s.lb.heap.get u.state).active
  /-- The active count is within the cap of a config that was in force. -/
  bounded : ∀ r, ∃ c ∈ inForce trace s, ((s.lb.heap.get r).active : Int) ≤ c.maxPerProxy
  /-- A slot is granted only on a healthy `State` that is not draining. -/
  entitled : ∀ a s' r, s.step a = some s' →
    (s.lb.heap.get r).active < (s'.lb.heap.get r).active →
      (s.lb.heap.get r).healthy = true ∧ (s.lb.heap.get r).draining = false
  /-- A waiter is offered at most one ticket. -/
  single : ∀ w, offered w trace ≤ 1
  /-- The non-blocking send finds the ticket channel empty. -/
  sendable : ∀ t ∈ s.threads, ∀ depth head u w, t.pc = .deliver depth head u →
    s.threads[head]? = some w → s.lb.queue.head? = some head → w.canceled = false →
      w.ticket = none

theorem step_entitled {s s' : Sys} {a : Action} (allocated : s.Allocated) (taken : Step s a s')
    {r : StateRef} (raised : (s.lb.heap.get r).active < (s'.lb.heap.get r).active) :
    (s.lb.heap.get r).healthy = true ∧ (s.lb.heap.get r).draining = false := by
  have still {P : Prop} (same : (s'.lb.heap.get r).active = (s.lb.heap.get r).active) : P :=
    absurd same raised.ne'
  cases taken with
  | spawn => exact still rfl
  | move located moved by_ =>
      cases moved with
      | pick at_ moved =>
          cases moved with
          | granted granted =>
              rename_i u state
              by_cases here : r = u.state
              · have able := (State.incActive_eq_some.1 granted).1
                simp only [State.canServe, Bool.and_eq_true, Bool.not_eq_true'] at able
                exact here ▸ able.1
              · exact still (by simp only [put]; rw [Heap.get_set_of_ne _ _ here])
          | _ => exact still rfl
      | release at_ =>
          simp only [put, Heap.get_set] at raised
          split at raised
          · rename_i here
            rw [State.decActive_active, here] at raised
            omega
          · exact absurd raised (lt_irrefl _)
      | _ => exact still rfl
  | hand located at_ front locatedW waiting vacant => exact still rfl
  | outside changed by_ => exact still (outside_active changed allocated.unused r)
  | recovered changed => exact still (outside_active changed allocated.unused r)

theorem slots_conserved {lb : LoadBalancer} (initial : lb.Initial) {trace : List (Sys × Action)}
    {s : Sys} (exec : Exec step (init lb) trace s) : SlotsConserved trace s := by
  have safe := run_safe initial exec
  have claimed : ∀ t ∈ s.threads, t.ticket ≠ none → t.pc = .parked ∨ t.pc = .cancel := by
    intro t member ticket
    have waits : t.pc.Waits := by
      by_contra left
      exact ticket ((safe.disciplined.threads t member).ticket left)
    cases at_ : t.pc <;> simp_all [Pc.Waits]
  refine ⟨fun r => ?_, claimed, fun done r => ?_, fun t member u depth at_ => ?_,
    fun r => safe.capped.active r,
    fun a s' r taken => step_entitled safe.allocated (step_cases taken), fun w => (safe.once w).1,
    fun t member depth head u w at_ locatedW front waiting => ?_⟩
  · rw [safe.conserved r, ← total_add, ← total_add]
    rfl
  · rw [safe.conserved r, total_eq_zero]
    intro t member
    have vacant : t.ticket = none := by
      by_contra ticket
      rcases claimed t member ticket with at_ | at_ <;> cases at_.symm.trans (done t member)
    simp [Goroutine.holds, Goroutine.sessionHolds, Goroutine.ticketHolds, Goroutine.frameHolds,
      done t member, vacant]
  · have held : t.holds u.state ≤ (s.lb.heap.get u.state).active :=
      safe.conserved u.state ▸ le_total member
    simp only [Goroutine.holds, Goroutine.frameHolds, at_, slotOn, if_true] at held
    omega
  · obtain ⟨x, locatedX, -, vacant⟩ := safe.disciplined.queued head (List.mem_of_head? front)
    cases locatedW.symm.trans locatedX
    exact vacant

theorem exists_run {α : Type} (step : Sys → α → Option Sys) (cfg : Config) (actions : List α)
    (test : List (Sys × α) → Sys → Bool)
    (passed : (LoadBalancer.start cfg).toOption.any (fun lb =>
      (play step [] (init lb) actions).any fun p => test p.1 p.2) = true) :
    ∃ lb, LoadBalancer.Initial lb ∧ lb.cfg = cfg ∧ ∃ trace s, Exec step (init lb) trace s ∧
      trace.map Prod.snd = actions ∧ test trace s = true := by
  obtain ⟨lb, trace, s, started, run⟩ :=
    exec_of_play_made step (LoadBalancer.start cfg) init actions (fun _ => test) passed
  exact ⟨lb, ⟨cfg, lb, lb.dialer, started, rfl⟩, LoadBalancer.cfg_of_start started, trace, s, run⟩

def anyone : SelectCtx := ⟨none, "", 0, .clientIP⟩

def sections (i n : Nat) : List Action := List.replicate n (.advance i [])

theorem slots_conserved_at_delivery : ∃ lb : LoadBalancer, lb.Initial ∧
    ∃ trace s, Exec step (init lb) trace s ∧ s.threads.any (·.ticket.isSome) = true ∧
      SlotsConserved trace s := by
  obtain ⟨lb, initial, -, trace, s, exec, -, delivered⟩ := exists_run step LoadBalancer.oneUpstream
    (.spawn anyone :: sections 0 6 ++ .spawn anyone :: sections 1 6 ++ .finish 0 :: sections 0 9)
    (fun _ s => s.threads.any (·.ticket.isSome)) (by decide +kernel)
  exact ⟨lb, initial, trace, s, exec, delivered, slots_conserved initial exec⟩

end Sys

end S5lb
