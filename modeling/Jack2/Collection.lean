import Mathlib.Algebra.Order.Group.Multiset
import Jack2.Publication

/-!
# Exact collection of unregistered ports

The strong counts are the places that hold a handle, a port is unregistered once, when
its last handle goes, and the one collector task keeps running exactly until no slot of
the triple buffer holds a port that `Client.ports` has lost.
-/
namespace Jack2.Ports

open Shared (Counted Collected)

/-- The handles in the three slots. -/
def State.slots (s : State) : Multiset JackPort :=
  s.processPorts.total fun m => (handles m : Multiset JackPort)

/-- Every handle there is. -/
def State.holds (s : State) : Multiset JackPort := handles s.ports + s.slots

/-- The ports that `jack_port_unregister` was called for. -/
def unregistered (calls : List (Thread × Call)) : List JackPort :=
  calls.filterMap fun c => match c.2 with
    | .portUnregister p => some p
    | _ => none

/-- The number of places that hold a handle of a port. -/
def State.places (s : State) (p : JackPort) : ℕ :=
  [s.ports, s.processPorts.front, s.processPorts.pending, s.processPorts.back].countP
    fun m => p ∈ handles m

@[simp] theorem handles_empty : handles ∅ = [] := rfl

theorem handles_insert {m : PortMap} {u : OwnedPortUuid} (h : u ∉ m) (p : JackPort) :
    handles (m.insert u p) = p :: handles m := by
  rw [handles, AList.entries_insert_of_notMem h]
  rfl

/-- A removal takes out the handle it looked up and no other. -/
theorem handles_erase (m : PortMap) (u : OwnedPortUuid) :
    (handles m : Multiset JackPort) = (m.lookup u).toList + handles (m.erase u) := by
  by_cases hu : u ∈ m
  · obtain ⟨p, l₁, l₂, _, hentries, herase⟩ :=
      List.exists_of_kerase (AList.mem_keys.mp hu)
    have hlookup : m.lookup u = some p := by
      rw [← Option.mem_def, AList.mem_lookup_iff, hentries]
      simp
    have hrest : (m.erase u).entries = l₁ ++ l₂ := herase
    simp only [handles, hlookup, hrest, hentries, Option.toList_some, Multiset.coe_add,
      Multiset.coe_eq_coe, List.map_append, List.map_cons]
    exact List.perm_middle
  · have hlookup : m.lookup u = none := AList.lookup_eq_none.mpr hu
    have hrest : (m.erase u).entries = m.entries := List.kerase_of_notMem_keys hu
    simp [handles, hlookup, hrest]

theorem unregistered_append (a b : List (Thread × Call)) :
    unregistered (a ++ b) = unregistered a ++ unregistered b := List.filterMap_append

theorem unregistered_map (thread : Thread) (ps : List JackPort) :
    unregistered (ps.map fun p => (thread, .portUnregister p)) = ps := by
  induction ps with
  | nil => rfl
  | cons p ps ih =>
    simp only [unregistered, List.map_cons, List.filterMap_cons] at ih ⊢
    rw [ih]

/-- The counts match a multiset of handles, and the ports unregistered so far are those
that libjack created and nothing holds any more. -/
structure Owned (s : State) (held : Multiset JackPort) : Prop where
  counted : Counted s.counts held
  collected : Collected s.counts (fun p => p < s.next) (unregistered s.calls)
  bound : ∀ p ∈ held, p < s.next

theorem owned_init : Owned init init.holds where
  counted := by intro p; simp [init, State.holds, State.slots, TripleBuffer.total,
    TripleBuffer.initial]
  collected := ⟨List.nodup_nil, by intro p; simp [init, unregistered]⟩
  bound := by intro p hp; simp [init, State.holds, State.slots, TripleBuffer.total,
    TripleBuffer.initial] at hp

/-- A step that touches neither counts nor log keeps the ownership of the same handles. -/
theorem Owned.congr {s t : State} {held held' : Multiset JackPort} (h : Owned s held)
    (hcounts : t.counts = s.counts) (hnext : t.next = s.next)
    (hcalls : unregistered t.calls = unregistered s.calls) (hheld : held' = held) :
    Owned t held' := by
  rw [hheld]
  exact ⟨by rw [hcounts]; exact h.counted, by rw [hcounts, hnext, hcalls]; exact h.collected,
    by rw [hnext]; exact h.bound⟩

theorem owned_log {s : State} {held : Multiset JackPort} (h : Owned s held) (thread : Thread)
    {c : Call} (hc : ∀ p, c ≠ .portUnregister p) : Owned (s.log thread c) held := by
  refine h.congr rfl rfl ?_ rfl
  cases c with
  | portUnregister p => exact absurd rfl (hc p)
  | _ => simp [State.log, unregistered]

theorem owned_dropHandles {s : State} {thread : Thread} {ps : List JackPort}
    {held : Multiset JackPort} (h : Owned s ((ps : Multiset JackPort) + held)) :
    Owned (s.dropHandles thread ps) held := by
  refine ⟨Shared.counted_drop h.counted, ?_, fun p hp => h.bound p (by simp [hp])⟩
  have hunreg : unregistered (s.dropHandles thread ps).calls =
      unregistered s.calls ++ (Shared.drop s.counts ps).2 := by
    simp only [State.dropHandles, unregistered_append, unregistered_map]
  rw [hunreg]
  exact Shared.collected_drop h.counted h.collected fun p hp => h.bound p (by simp [hp])

theorem owned_retain {s : State} {held : Multiset JackPort} (h : Owned s held)
    (ps : List JackPort) (hps : ∀ p ∈ ps, p ∈ held) :
    Owned { s with counts := Shared.retain s.counts ps } (ps + held) where
  counted := Shared.counted_retain h.counted ps
  collected := Shared.collected_retain h.collected fun p hp =>
    Shared.counted_pos h.counted (hps p hp)
  bound := by
    intro p hp
    rcases Multiset.mem_add.mp hp with hp | hp
    · exact h.bound p (hps p (Multiset.mem_coe.mp hp))
    · exact h.bound p hp

theorem owned_insertPort {s : State} {held : Multiset JackPort} (h : Owned s held)
    (u : OwnedPortUuid) : Owned (s.insertPort u) ({s.next} + held) where
  counted := Shared.counted_birth h.counted fun hmem => Nat.lt_irrefl _ (h.bound _ hmem)
  collected := by
    have hb := Shared.collected_birth h.collected (Nat.lt_irrefl s.next)
    refine ⟨hb.nodup, fun p => (hb.dead_iff p).trans (and_congr_left fun _ => ?_)⟩
    exact Nat.lt_succ_iff_lt_or_eq.symm
  bound := by
    intro p hp
    rcases Multiset.mem_add.mp hp with hp | hp
    · rw [Multiset.mem_singleton.mp hp]
      exact Nat.lt_succ_self _
    · exact Nat.lt_succ_of_lt (h.bound p hp)

theorem owned_storeBack {s : State} (h : Owned s s.holds) (thread : Thread) :
    Owned (s.storeBack thread) (s.storeBack thread).holds := by
  have hr := owned_retain h (handles s.ports) (by intro p hp; simp [State.holds, hp])
  refine owned_dropHandles (s := { s with
    counts := Shared.retain s.counts (handles s.ports)
    processPorts := s.processPorts.setBack s.ports }) (hr.congr rfl rfl rfl ?_)
  simp only [State.holds, State.slots, TripleBuffer.total, storeBack_ports,
    storeBack_processPorts, TripleBuffer.setBack_front, TripleBuffer.setBack_pending,
    TripleBuffer.setBack_back]
  ac_rfl

theorem owned_removePort {s : State} (h : Owned s s.holds) (thread : Thread) (u : OwnedPortUuid) :
    Owned (s.removePort thread u) (s.removePort thread u).holds := by
  refine owned_dropHandles (s := { s with ports := s.ports.erase u }) (h.congr rfl rfl rfl ?_)
  simp only [State.holds, State.slots, removePort_ports, removePort_processPorts]
  rw [handles_erase s.ports u]
  ac_rfl

theorem owned_clearBack {s : State} (h : Owned s s.holds) (thread : Thread) :
    Owned (s.clearBack thread) (s.clearBack thread).holds := by
  refine owned_dropHandles (s := { s with processPorts := s.processPorts.setBack ∅ })
    (h.congr rfl rfl rfl ?_)
  simp only [State.holds, State.slots, TripleBuffer.total, clearBack_ports,
    clearBack_processPorts, TripleBuffer.setBack_front, TripleBuffer.setBack_pending,
    TripleBuffer.setBack_back, handles_empty, Multiset.coe_nil]
  ac_rfl

theorem owned_clearPending {s : State} (h : Owned s s.holds) (thread : Thread) :
    Owned (s.clearPending thread) (s.clearPending thread).holds := by
  refine owned_dropHandles (s := { s with processPorts := s.processPorts.setPending ∅ })
    (h.congr rfl rfl rfl ?_)
  simp only [State.holds, State.slots, TripleBuffer.total, clearPending_ports,
    clearPending_processPorts, TripleBuffer.setPending_front, TripleBuffer.setPending_pending,
    TripleBuffer.setPending_back, handles_empty, Multiset.coe_nil]
  ac_rfl

theorem holds_swap (s : State) : s.swap.holds = s.holds := by
  simp [State.holds, State.slots]

theorem owned_step {s t : State} {l : Label} (h : Owned s s.holds) (hstep : Step s l t) :
    Owned t t.holds := by
  cases hstep with
  | itemRefused items hpc =>
    exact (owned_log (c := .portRegister) h .main (by simp)).congr rfl rfl rfl rfl
  | itemCreated uuid items hpc hnew =>
    refine (owned_insertPort (owned_log (c := .portRegister) h .main (by simp)) uuid).congr
      rfl rfl rfl ?_
    simp only [State.holds, State.slots, insertPort_ports, insertPort_processPorts, log_ports,
      log_processPorts, log_next, handles_insert hnew]
    rw [← Multiset.cons_coe, ← Multiset.singleton_add, Multiset.add_assoc]
  | storeRegistered hpc => exact (owned_storeBack h _).congr rfl rfl rfl rfl
  | storeUnregistered hpc => exact (owned_storeBack h _).congr rfl rfl rfl rfl
  | swapRegistered hpc => exact h.congr rfl rfl rfl (holds_swap s)
  | swapUnregistered hpc => exact h.congr rfl rfl rfl (holds_swap s)
  | remove port ports hpc => exact (owned_removePort h _ port).congr rfl rfl rfl rfl
  | spawn hpc =>
    have hsize := owned_log (c := .getBufferSize) h .main (by simp)
    have hrate := owned_log (c := .getSampleRate) hsize .main (by simp)
    exact hrate.congr rfl rfl rfl rfl
  | clearBack hpc => exact (owned_clearBack h _).congr rfl rfl rfl rfl
  | clearPending hpc => exact (owned_clearPending h _).congr rfl rfl rfl rfl
  | acquire callback hfree => exact h.congr rfl rfl rfl (by simp [State.holds, State.slots])
  | _ => exact h.congr rfl rfl rfl rfl

/-- No map holds two handles of one port. -/
structure Distinct (s : State) : Prop where
  ports : (handles s.ports).Nodup
  front : (handles s.processPorts.front).Nodup
  pending : (handles s.processPorts.pending).Nodup
  back : (handles s.processPorts.back).Nodup

theorem distinct_init : Distinct init := ⟨List.nodup_nil, List.nodup_nil, List.nodup_nil,
  List.nodup_nil⟩

theorem handles_erase_nodup {m : PortMap} (h : (handles m).Nodup) (u : OwnedPortUuid) :
    (handles (m.erase u)).Nodup := by
  have hsub : (handles (m.erase u)).Sublist (handles m) := by
    simp only [handles]
    exact List.Sublist.map _ (List.kerase_sublist u m.entries)
  exact h.sublist hsub

theorem distinct_step {s t : State} {l : Label} (ho : Owned s s.holds) (h : Distinct s)
    (hstep : Step s l t) : Distinct t := by
  cases hstep with
  | itemCreated uuid items hpc hnew =>
    have hfresh : s.next ∉ handles s.ports := by
      intro hmem
      exact Nat.lt_irrefl _ (ho.bound _ (by simp [State.holds, hmem]))
    refine ⟨?_, h.front, h.pending, h.back⟩
    simpa [handles_insert hnew] using ⟨hfresh, h.ports⟩
  | storeRegistered hpc => exact ⟨h.ports, h.front, h.pending, h.ports⟩
  | storeUnregistered hpc => exact ⟨h.ports, h.front, h.pending, h.ports⟩
  | swapRegistered hpc => exact ⟨h.ports, h.front, h.back, h.pending⟩
  | swapUnregistered hpc => exact ⟨h.ports, h.front, h.back, h.pending⟩
  | remove port ports hpc =>
    exact ⟨handles_erase_nodup h.ports port, h.front, h.pending, h.back⟩
  | clearBack hpc => exact ⟨h.ports, h.front, h.pending, List.nodup_nil⟩
  | clearPending hpc => exact ⟨h.ports, h.front, List.nodup_nil, h.back⟩
  | acquire callback hfree =>
    cases hf : s.processPorts.fresh with
    | true => exact ⟨h.ports, by simpa [TripleBuffer.latest, hf] using h.pending,
        by simpa [TripleBuffer.frontBuffer, hf] using h.front, by simpa using h.back⟩
    | false =>
      simp only [TripleBuffer.frontBuffer_stale hf]
      exact ⟨h.ports, h.front, h.pending, h.back⟩
  | _ => exact ⟨h.ports, h.front, h.pending, h.back⟩

theorem counts_eq_places {s : State} (ho : Owned s s.holds) (h : Distinct s) (p : JackPort) :
    s.counts p = s.places p := by
  rw [ho.counted p]
  simp only [State.holds, State.slots, TripleBuffer.total, Multiset.count_add, Multiset.coe_count,
    h.ports.count, h.front.count, h.pending.count, h.back.count, State.places, List.countP_cons,
    List.countP_nil, decide_eq_true_eq]
  omega

/-- What happens to the strong count of a port that did not exist before the step. -/
theorem born_step {s t : State} {l : Label} (hstep : Step s l t) (p : JackPort) :
    s.next ≤ t.next ∧ (p < t.next → p < s.next ∨ t.counts p = 1) := by
  cases hstep with
  | itemCreated uuid items hpc hnew =>
    refine ⟨Nat.le_succ _, fun hp => ?_⟩
    rcases Nat.lt_succ_iff_lt_or_eq.mp hp with hp | rfl
    · exact Or.inl hp
    · exact Or.inr (Function.update_self ..)
  | _ => exact ⟨Nat.le_refl _, fun hp => Or.inl hp⟩

/-- A port is unregistered in exactly the step that brings its count to zero. -/
theorem unregistered_step {s t : State} {l : Label} (h : Owned s s.holds) (hstep : Step s l t)
    (p : JackPort) : (p ∉ unregistered s.calls ∧ p ∈ unregistered t.calls) ↔
      (0 < s.counts p ∧ t.counts p = 0) := by
  have ht := owned_step h hstep
  obtain ⟨hmono, hborn⟩ := born_step hstep p
  rw [h.collected.dead_iff, ht.collected.dead_iff]
  constructor
  · rintro ⟨hs, hp, hzero⟩
    refine ⟨?_, hzero⟩
    rcases hborn hp with hold | hone
    · exact Nat.pos_of_ne_zero fun he => hs ⟨hold, he⟩
    · omega
  · rintro ⟨hpos, hzero⟩
    have hmem : p ∈ s.holds := by
      by_contra hn
      have := (Shared.counted_eq_zero h.counted).mpr hn
      omega
    exact ⟨by omega, Nat.lt_of_lt_of_le (h.bound p hmem) hmono, hzero⟩

/-- The calls that the port maps and their collector make. -/
def portCall : Call → Bool
  | .portRegister | .portUnregister _ | .getBufferSize | .getSampleRate => true
  | _ => false

/-- A step only adds such calls to the log, under the thread that takes it, and a step of
the process thread adds none. -/
theorem calls_step {s t : State} {l : Label} (hstep : Step s l t) :
    ∃ cs : List Call, (∀ c ∈ cs, portCall c = true) ∧
      (t.calls = s.calls ++ cs.map fun c => (l.thread, c)) ∧ (l.thread = .process → cs = []) := by
  have hdrop : ∀ (u : State) (ps : List JackPort), ∃ cs : List Call,
      (∀ c ∈ cs, portCall c = true) ∧
        ((u.dropHandles Label.main.thread ps).calls =
          u.calls ++ cs.map fun c => (Label.main.thread, c)) ∧
        (Label.main.thread = .process → cs = []) := by
    intro u ps
    refine ⟨(Shared.drop u.counts ps).2.map .portUnregister, ?_, by simp [State.dropHandles], nofun⟩
    intro c hc
    obtain ⟨p, _, rfl⟩ := List.mem_map.mp hc
    rfl
  cases hstep with
  | itemRefused items hpc => exact ⟨[.portRegister], by simp [portCall], rfl, nofun⟩
  | itemCreated uuid items hpc hnew => exact ⟨[.portRegister], by simp [portCall], rfl, nofun⟩
  | storeRegistered hpc => exact hdrop _ _
  | storeUnregistered hpc => exact hdrop _ _
  | remove port ports hpc => exact hdrop _ _
  | spawn hpc =>
    exact ⟨[.getBufferSize, .getSampleRate], by simp [portCall], by simp [State.log, Label.thread],
      nofun⟩
  | clearBack hpc => exact hdrop _ _
  | clearPending hpc => exact hdrop _ _
  | _ => exact ⟨[], by simp, (List.append_nil _).symm, fun _ => rfl⟩

/-- Every foreign call so far came from the main thread. -/
def OnMain (s : State) : Prop := ∀ c ∈ s.calls, c.1 = .main

/-- The process thread only takes and gives back the front slot. -/
theorem onMain_step {s t : State} {l : Label} (h : OnMain s) (hstep : Step s l t) : OnMain t := by
  obtain ⟨cs, _, hcalls, hprocess⟩ := calls_step hstep
  intro c hc
  rw [hcalls] at hc
  rcases List.mem_append.mp hc with hc | hc
  · exact h c hc
  · obtain ⟨d, hd, rfl⟩ := List.mem_map.mp hc
    cases hthread : l.thread with
    | main => rfl
    | process =>
      rw [hprocess hthread] at hd
      cases hd

/-- The statements of one tick of the collector. -/
def Pc.ticking : Pc → Bool
  | .collecting | .checking | .clearing | .finishing => true
  | _ => false

/-- `unregister_ports` from its first removal until it has looked at `pending_port_gc`. -/
def Pc.removing : Pc → Bool
  | .unregistering _ | .unregistered | .scheduling => true
  | _ => false

/-- Nothing unregistered is still retained. -/
def Clean (s : State) : Prop := ∀ p ∈ s.slots, p ∈ handles s.ports

/-- One collector runs while the flag is set, and while it is clear there is nothing for
one to collect. -/
structure Scheduled (s : State) : Prop where
  tasks : s.collectors = if s.pendingPortGc = true ∧ s.pc ≠ .spawning then 1 else 0
  spawning : s.pc = .spawning → s.pendingPortGc = true
  ticking : s.pc.ticking = true → s.pendingPortGc = true
  cleared : s.pc = .checking ∨ s.pc = .clearing → s.processPorts.back = ∅
  clean : s.pendingPortGc = false → s.pc.removing = false → Clean s
  finishing : s.pc = .finishing → Clean s

theorem scheduled_init : Scheduled init where
  tasks := rfl
  spawning := by simp [init]
  ticking := by simp [init, Pc.ticking]
  cleared := by simp [init]
  clean := by
    intro _ _ p hp
    simp [State.slots, TripleBuffer.total, init, TripleBuffer.initial] at hp
  finishing := by simp [init]

theorem mem_slots {s : State} {p : JackPort} : p ∈ s.slots ↔
    p ∈ handles s.processPorts.front ∨ p ∈ handles s.processPorts.pending ∨
      p ∈ handles s.processPorts.back := by
  simp [State.slots, TripleBuffer.total]

theorem clean_insertPort {s : State} (h : Clean s) {u : OwnedPortUuid} (hnew : u ∉ s.ports) :
    Clean (s.insertPort u) := by
  intro p hp
  rw [insertPort_ports, handles_insert hnew]
  exact List.mem_cons_of_mem _ (h p hp)

theorem clean_storeBack {s : State} (h : Clean s) (thread : Thread) : Clean (s.storeBack thread) := by
  intro p hp
  rw [mem_slots] at hp
  rcases hp with hp | hp | hp
  · exact h p (mem_slots.mpr (Or.inl hp))
  · exact h p (mem_slots.mpr (Or.inr (Or.inl hp)))
  · exact hp

/-- With the latest map acquired and the back slot empty, the pending slot is all that
can hold a removed port. -/
theorem clean_clearPending {s : State} (ha : Aligned s) (hpc : s.pc = .clearing)
    (hback : s.processPorts.back = ∅) (thread : Thread) : Clean (s.clearPending thread) := by
  simp only [Aligned, hpc] at ha
  intro p hp
  rw [mem_slots] at hp
  simp only [clearPending_processPorts, TripleBuffer.setPending_front,
    TripleBuffer.setPending_pending, TripleBuffer.setPending_back, hback, handles_empty,
    List.not_mem_nil, or_false] at hp
  rwa [← TripleBuffer.latest_of_stale ha.2, ha.1] at hp

theorem clean_of_slots {s t : State} (h : Clean s) (hslots : t.slots = s.slots)
    (hports : t.ports = s.ports) : Clean t := by
  intro p hp
  rw [hports]
  exact h p (hslots ▸ hp)

theorem slots_swap (s : State) : s.swap.slots = s.slots := by simp [State.slots]

/-- A statement that leaves the flag and the tasks as they are. -/
theorem Scheduled.frame {s t : State} (h : Scheduled s) (htasks : t.collectors = s.collectors)
    (hflag : t.pendingPortGc = s.pendingPortGc) (hbefore : s.pc ≠ .spawning)
    (hafter : t.pc ≠ .spawning) (hticking : t.pc.ticking = true → s.pendingPortGc = true)
    (hcleared : t.pc = .checking ∨ t.pc = .clearing → t.processPorts.back = ∅)
    (hclean : s.pendingPortGc = false → t.pc.removing = false → Clean t)
    (hfinishing : t.pc = .finishing → Clean t) : Scheduled t where
  tasks := by simp [htasks, hflag, h.tasks, hbefore, hafter]
  spawning hpc := absurd hpc hafter
  ticking hpc := hflag.trans (hticking hpc)
  cleared := hcleared
  clean hgc := hclean (hflag.symm.trans hgc)
  finishing := hfinishing

/-- The same between two statements outside of the ticks. -/
theorem Scheduled.frame_quiet {s t : State} (h : Scheduled s) (htasks : t.collectors = s.collectors)
    (hflag : t.pendingPortGc = s.pendingPortGc) (hbefore : s.pc ≠ .spawning)
    (hafter : t.pc ≠ .spawning) (hquiet : t.pc.ticking = false)
    (hclean : s.pendingPortGc = false → t.pc.removing = false → Clean t) : Scheduled t := by
  apply h.frame htasks hflag hbefore hafter
  · intro hticking
    exact absurd (hquiet.symm.trans hticking) Bool.false_ne_true
  · rintro (hpc | hpc) <;> simp [hpc, Pc.ticking] at hquiet
  · exact hclean
  · intro hpc
    simp [hpc, Pc.ticking] at hquiet

/-- The same where nothing is removed, and what was clean stays so. -/
theorem Scheduled.frame_kept {s t : State} (h : Scheduled s) (htasks : t.collectors = s.collectors)
    (hflag : t.pendingPortGc = s.pendingPortGc) (hbefore : s.pc ≠ .spawning)
    (hafter : t.pc ≠ .spawning) (hquiet : t.pc.ticking = false) (hkept : s.pc.removing = false)
    (hclean : Clean s → Clean t) : Scheduled t := by
  apply h.frame_quiet htasks hflag hbefore hafter hquiet
  intro hgc _
  exact hclean (h.clean hgc hkept)

/-- A tick runs only while the flag is set. -/
theorem Scheduled.absurd_of_ticking {s : State} {P : Prop} (h : Scheduled s)
    (hpc : s.pc.ticking = true) (hgc : s.pendingPortGc = false) : P := by
  rw [h.ticking hpc] at hgc
  cases hgc

theorem Scheduled.flag_of_collectors {s : State} (h : Scheduled s) (hlive : s.collectors ≠ 0) :
    s.pendingPortGc = true := by
  by_contra hgc
  rw [h.tasks, if_neg fun hset => hgc hset.1] at hlive
  exact hlive rfl

theorem scheduled_step {s t : State} {l : Label} (ha : Aligned s) (h : Scheduled s)
    (hstep : Step s l t) : Scheduled t := by
  cases hstep with
  | registerNone hpc => exact h
  | register hpc item items =>
    refine h.frame_kept rfl rfl (by simp [hpc]) (by simp) rfl (by simp [hpc, Pc.removing]) ?_
    intro hclean
    exact hclean
  | unregisterNone hpc => exact h
  | unregister hpc port ports =>
    exact h.frame_quiet rfl rfl (by simp [hpc]) (by simp) rfl (by simp [Pc.removing])
  | tick hpc hlive =>
    refine h.frame rfl rfl (by simp [hpc]) (by simp) ?_ (by simp) ?_ (by simp)
    · intro _
      exact h.flag_of_collectors hlive
    · intro hgc _
      exact h.clean hgc (by simp [hpc, Pc.removing])
  | itemNul items hpc =>
    refine h.frame_kept rfl rfl (by simp [hpc]) (by simp) rfl (by simp [hpc, Pc.removing]) ?_
    intro hclean
    exact hclean
  | itemRefused items hpc =>
    refine h.frame_kept rfl rfl (by simp [hpc]) (by simp) rfl (by simp [hpc, Pc.removing]) ?_
    intro hclean
    exact hclean
  | itemCreated uuid items hpc hnew =>
    refine h.frame_kept rfl rfl (by simp [hpc]) (by simp) rfl (by simp [hpc, Pc.removing]) ?_
    intro hclean
    exact clean_insertPort (s := s.log .main .portRegister) hclean hnew
  | storeRegistered hpc =>
    refine h.frame_kept rfl rfl (by simp [hpc]) (by simp) rfl (by simp [hpc, Pc.removing]) ?_
    intro hclean
    exact clean_storeBack hclean .main
  | swapRegistered hpc =>
    refine h.frame_kept rfl rfl (by simp [hpc]) (by simp) rfl (by simp [hpc, Pc.removing]) ?_
    intro hclean
    exact clean_of_slots hclean (slots_swap s) rfl
  | remove port ports hpc =>
    exact h.frame_quiet rfl rfl (by simp [hpc]) (by simp) rfl (by simp [Pc.removing])
  | storeUnregistered hpc =>
    exact h.frame_quiet rfl rfl (by simp [hpc]) (by simp) rfl (by simp [Pc.removing])
  | swapUnregistered hpc =>
    exact h.frame_quiet rfl rfl (by simp [hpc]) (by simp) rfl (by simp [Pc.removing])
  | alreadyScheduled hpc hset =>
    refine h.frame_quiet rfl rfl (by simp [hpc]) (by simp) rfl ?_
    intro hgc _
    exact absurd (hgc.symm.trans hset) Bool.false_ne_true
  | schedule hpc hclear =>
    refine ⟨?_, fun _ => rfl, by simp [Pc.ticking], by simp, by simp, by simp⟩
    simp [h.tasks, hclear]
  | spawn hpc =>
    have hset := h.spawning hpc
    refine ⟨?_, by simp, by simp [Pc.ticking], by simp, ?_, by simp⟩
    · simp [h.tasks, hset, hpc]
    · intro hgc
      exact absurd (hgc.symm.trans hset) Bool.false_ne_true
  | clearBack hpc =>
    refine h.frame rfl rfl (by simp [hpc]) (by simp) ?_ (fun ?_ => rfl) ?_ (by simp)
    · intro _
      exact h.ticking (by simp [hpc, Pc.ticking])
    · exact h.absurd_of_ticking (by simp [hpc, Pc.ticking])
  | keepPending hpc hfresh =>
    refine h.frame_quiet rfl rfl (by simp [hpc]) (by simp) rfl ?_
    exact h.absurd_of_ticking (by simp [hpc, Pc.ticking])
  | lendPending hpc hstale =>
    refine h.frame rfl rfl (by simp [hpc]) (by simp) ?_ ?_ ?_ (by simp)
    · intro _
      exact h.ticking (by simp [hpc, Pc.ticking])
    · intro _
      exact h.cleared (Or.inl hpc)
    · exact h.absurd_of_ticking (by simp [hpc, Pc.ticking])
  | clearPending hpc =>
    refine h.frame rfl rfl (by simp [hpc]) (by simp) ?_ (by simp) ?_ ?_
    · intro _
      exact h.ticking (by simp [hpc, Pc.ticking])
    · exact h.absurd_of_ticking (by simp [hpc, Pc.ticking])
    · intro _
      exact clean_clearPending ha hpc (h.cleared (Or.inr hpc)) .main
  | finish hpc =>
    have hset := h.ticking (by simp [hpc, Pc.ticking])
    refine ⟨by simp [h.tasks, hset, hpc], by simp, by simp [Pc.ticking], by simp, ?_, by simp⟩
    intro _ _
    exact h.finishing hpc
  | acquire callback hfree =>
    refine ⟨h.tasks, h.spawning, h.ticking, ?_, ?_, ?_⟩
    · intro hpc
      simpa using h.cleared hpc
    · intro hgc hpc
      exact clean_of_slots (h.clean hgc hpc) (by simp [State.slots]) rfl
    · intro hpc
      exact clean_of_slots (h.finishing hpc) (by simp [State.slots]) rfl
  | release hheld => exact ⟨h.tasks, h.spawning, h.ticking, h.cleared, h.clean, h.finishing⟩

/-- All that the runs of the client keep. -/
structure Invariant (s : State) : Prop where
  aligned : Aligned s
  owned : Owned s s.holds
  distinct : Distinct s
  scheduled : Scheduled s
  onMain : OnMain s

theorem invariant_init : Invariant init where
  aligned := aligned_init
  owned := owned_init
  distinct := distinct_init
  scheduled := scheduled_init
  onMain := by simp [OnMain, init]

theorem invariant_step {s t : State} {l : Label} (h : Invariant s) (hstep : Step s l t) :
    Invariant t where
  aligned := aligned_step h.aligned hstep
  owned := owned_step h.owned hstep
  distinct := distinct_step h.owned h.distinct hstep
  scheduled := scheduled_step h.aligned h.scheduled hstep
  onMain := onMain_step h.onMain hstep

theorem invariant_run {s t : State} {ls : List Label} (h : run s ls = some t) (hs : Invariant s) :
    Invariant t :=
  Run.run_invariant (fun _ _ _ hi hstep => invariant_step hi (step_cases hstep)) h hs

section Given

/-- The ports that `Client.ports` has under the UUIDs given to `unregister_ports`. -/
def givenBy (s : State) : Label → List JackPort
  | .call (.unregisterPorts uuids) => uuids.filterMap fun uuid => s.ports.lookup uuid
  | _ => []

@[simp] theorem givenBy_main (s : State) : givenBy s .main = [] := rfl

/-- All ports that a run gives to `unregister_ports`. -/
def given : State → List Label → List JackPort
  | _, [] => []
  | s, l :: ls => givenBy s l ++ (step s l).elim [] fun t => given t ls

/-- The UUIDs that the running call has still to remove. -/
def Pc.removals : Pc → List OwnedPortUuid
  | .unregistering uuids => uuids
  | _ => []

/-- `Client.ports` has lost the ports that were given, but for those that are still to be
removed, and no others. -/
structure Removed (s : State) (g : List JackPort) : Prop where
  lost : ∀ p < s.next, p ∉ handles s.ports → p ∈ g
  listed : ∀ uuid ∈ s.pc.removals, ∀ p, s.ports.lookup uuid = some p → p ∈ g
  created : ∀ p ∈ g, p < s.next
  left : ∀ p ∈ g, p ∈ handles s.ports → ∃ uuid ∈ s.pc.removals, s.ports.lookup uuid = some p

theorem removed_init : Removed init [] := by
  constructor <;> simp [init]

theorem mem_handles_of_lookup {m : PortMap} {uuid : OwnedPortUuid} {p : JackPort}
    (h : m.lookup uuid = some p) : p ∈ handles m := by
  have hmem : p ∈ (handles m : Multiset JackPort) := by
    rw [handles_erase m uuid, h]
    simp
  simpa using hmem

/-- A handle that a removal leaves behind is there under another UUID. -/
theorem mem_handles_erase {m : PortMap} (hm : (handles m).Nodup) {uuid : OwnedPortUuid}
    {p : JackPort} : p ∈ handles (m.erase uuid) ↔ p ∈ handles m ∧ m.lookup uuid ≠ some p := by
  have hall := handles_erase m uuid
  have hcount : (handles m).count p = (m.lookup uuid).toList.count p + (handles (m.erase uuid)).count p := by
    rw [← Multiset.coe_count, hall, Multiset.count_add, Multiset.coe_count, Multiset.coe_count]
  have hone := List.nodup_iff_count_le_one.mp hm p
  rw [← List.count_pos_iff, ← List.count_pos_iff, hcount]
  cases hlookup : m.lookup uuid with
  | none => simp
  | some q =>
    by_cases hq : q = p
    · subst q
      rw [hcount, hlookup] at hone
      simp only [Option.toList_some, List.count_singleton_self] at hone ⊢
      simp only [ne_eq, not_true, and_false, iff_false]
      omega
    · simp [hq]

theorem Removed.frame {s t : State} {g : List JackPort} (h : Removed s g) (hports : t.ports = s.ports)
    (hnext : t.next = s.next) (hpc : t.pc.removals = s.pc.removals) : Removed t g where
  lost := by rw [hports, hnext]; exact h.lost
  listed := by rw [hports, hpc]; exact h.listed
  created := by rw [hnext]; exact h.created
  left := by rw [hports, hpc]; exact h.left

/-- A new port is in the map and was not given. -/
theorem removed_insertPort {s t : State} {g : List JackPort} (h : Removed s g)
    (hnone : s.pc.removals = []) {uuid : OwnedPortUuid} (hnew : uuid ∉ s.ports)
    (hports : t.ports = s.ports.insert uuid s.next) (hnext : t.next = s.next + 1)
    (hpc : t.pc.removals = []) : Removed t g where
  lost := by
    intro p hp hn
    rw [hports, handles_insert hnew, List.mem_cons, not_or] at hn
    rw [hnext, Nat.lt_succ_iff_lt_or_eq] at hp
    exact h.lost p (hp.resolve_right hn.1) hn.2
  listed := by simp [hpc]
  created := by
    intro p hp
    rw [hnext]
    exact Nat.lt_succ_of_lt (h.created p hp)
  left := by
    intro p hp hmem
    rw [hports, handles_insert hnew] at hmem
    rcases List.mem_cons.mp hmem with rfl | hmem
    · exact absurd (h.created _ hp) (Nat.lt_irrefl _)
    · obtain ⟨u, hu, _⟩ := h.left p hp hmem
      simp [hnone] at hu

/-- A call of `unregister_ports` is given the ports that it has to remove. -/
theorem removed_unregister {s : State} {g : List JackPort} (h : Removed s g)
    (ho : Owned s s.holds) (hnone : s.pc.removals = []) (uuids : List OwnedPortUuid) :
    Removed { s with pc := .unregistering uuids }
      (g ++ givenBy s (.call (.unregisterPorts uuids))) where
  lost := by
    intro p hp hn
    exact List.mem_append_left _ (h.lost p hp hn)
  listed := by
    intro uuid huuid p hlookup
    exact List.mem_append_right _ (List.mem_filterMap.mpr ⟨uuid, huuid, hlookup⟩)
  created := by
    intro p hp
    rcases List.mem_append.mp hp with hp | hp
    · exact h.created p hp
    · obtain ⟨uuid, _, hlookup⟩ := List.mem_filterMap.mp hp
      have hmem := mem_handles_of_lookup hlookup
      exact ho.bound p (by simp [State.holds, hmem])
  left := by
    intro p hp hmem
    rcases List.mem_append.mp hp with hp | hp
    · obtain ⟨u, hu, _⟩ := h.left p hp hmem
      simp [hnone] at hu
    · obtain ⟨uuid, huuid, hlookup⟩ := List.mem_filterMap.mp hp
      exact ⟨uuid, huuid, hlookup⟩

/-- The removal of one UUID. -/
theorem removed_remove {s : State} {g : List JackPort} (h : Removed s g)
    (hm : (handles s.ports).Nodup) {uuid : OwnedPortUuid} {uuids : List OwnedPortUuid}
    (hpc : s.pc = .unregistering (uuid :: uuids)) :
    Removed { s.removePort .main uuid with pc := .unregistering uuids } g where
  lost := by
    intro p hp hn
    rw [removePort_ports, mem_handles_erase hm, not_and_or, not_not] at hn
    rcases hn with hn | hlookup
    · exact h.lost p hp hn
    · exact h.listed uuid (by simp [hpc, Pc.removals]) p hlookup
  listed := by
    intro u hu p hlookup
    by_cases he : u = uuid
    · subst u
      rw [removePort_ports, AList.lookup_erase] at hlookup
      cases hlookup
    · rw [removePort_ports, AList.lookup_erase_ne he] at hlookup
      exact h.listed u (by simpa [hpc, Pc.removals] using Or.inr hu) p hlookup
  created := h.created
  left := by
    intro p hp hmem
    rw [removePort_ports, mem_handles_erase hm] at hmem
    obtain ⟨u, hu, hlookup⟩ := h.left p hp hmem.1
    have hne : u ≠ uuid := by
      rintro rfl
      exact hmem.2 hlookup
    simp only [hpc, Pc.removals, List.mem_cons, hne, false_or] at hu
    exact ⟨u, hu, (AList.lookup_erase_ne hne).trans hlookup⟩

theorem removed_step {s t : State} {l : Label} {g : List JackPort} (h : Removed s g)
    (hi : Invariant s) (hstep : Step s l t) : Removed t (g ++ givenBy s l) := by
  cases hstep with
  | unregister hpc port ports => exact removed_unregister h hi.owned (by simp [hpc, Pc.removals]) _
  | itemCreated uuid items hpc hnew =>
    rw [givenBy_main, List.append_nil]
    exact removed_insertPort h (by simp [hpc, Pc.removals]) hnew rfl rfl rfl
  | remove port ports hpc =>
    rw [givenBy_main, List.append_nil]
    exact removed_remove h hi.distinct.ports hpc
  | _ =>
    simp only [givenBy, List.filterMap_nil, List.append_nil]
    exact h.frame rfl rfl (by simp [Pc.removals, *])

theorem removed_run {s t : State} {ls : List Label} {g : List JackPort} (h : Removed s g)
    (hi : Invariant s) (hrun : run s ls = some t) : Removed t (g ++ given s ls) := by
  induction ls generalizing s g with
  | nil =>
    cases hrun
    simpa [given] using h
  | cons l ls ih =>
    obtain ⟨u, hu, hrest⟩ := Run.run_cons_some hrun
    have hstep := step_cases hu
    rw [given, hu, Option.elim_some, ← List.append_assoc]
    exact ih (removed_step h hi hstep) (invariant_step hi hstep) hrest

/-- Nothing is given to `unregister_ports` where no call begins. -/
theorem given_of_no_call {s : State} {ls : List Label} (h : ∀ uuids, .call (.unregisterPorts uuids) ∉ ls) :
    given s ls = [] := by
  induction ls generalizing s with
  | nil => rfl
  | cons l ls ih =>
    have hfirst : givenBy s l = [] := by
      unfold givenBy
      split
      · exact absurd List.mem_cons_self (h _)
      · rfl
    rw [given, hfirst, List.nil_append]
    cases step s l with
    | none => rfl
    | some t => exact ih fun uuids hmem => h uuids (List.mem_cons_of_mem l hmem)

theorem given_append {s t : State} {ls ls' : List Label} (h : run s ls = some t) :
    given s (ls ++ ls') = given s ls ++ given t ls' := by
  induction ls generalizing s with
  | nil =>
    cases h
    rfl
  | cons l ls ih =>
    obtain ⟨u, hu, hrest⟩ := Run.run_cons_some h
    simp only [List.cons_append, given, hu, Option.elim_some, ih hrest, List.append_assoc]

end Given

/-- Once nothing is retained, every port that `Client.ports` has lost is unregistered. -/
theorem released_of_clean {s : State} (h : Invariant s) (hc : Clean s) {p : JackPort}
    (hp : p < s.next) (hn : p ∉ handles s.ports) : p ∈ unregistered s.calls := by
  rw [h.owned.collected.dead_iff]
  refine ⟨hp, (Shared.counted_eq_zero h.owned.counted).mpr ?_⟩
  intro hmem
  rcases Multiset.mem_add.mp hmem with hmem | hmem
  · exact hn (Multiset.mem_coe.mp hmem)
  · exact hn (hc p hmem)

/-- A tick that found the latest map acquired, at any of its statements or after the last. -/
structure Tick (s : State) : Prop where
  acquired : s.processPorts.fresh = false
  progress : s.pc.ticking = true ∨ (s.pc = .idle ∧ s.pendingPortGc = false)

theorem tick_step {s t : State} {l : Label} (h : Tick s) (hl : ∀ op, l ≠ .call op)
    (hstep : Step s l t) : Tick t := by
  obtain ⟨hstale, hprogress⟩ := h
  cases hstep with
  | keepPending hpc hfresh => exact absurd (hfresh.symm.trans hstale) (by decide)
  | clearBack hpc => exact ⟨hstale, Or.inl rfl⟩
  | lendPending hpc hs => exact ⟨hstale, Or.inl rfl⟩
  | clearPending hpc => exact ⟨hstale, Or.inl rfl⟩
  | finish hpc => exact ⟨hstale, Or.inr ⟨rfl, rfl⟩⟩
  | acquire callback hfree => exact ⟨TripleBuffer.frontBuffer_fresh _, hprogress⟩
  | release hheld => exact ⟨hstale, hprogress⟩
  | registerNone hpc => exact absurd rfl (hl _)
  | register hpc item items => exact absurd rfl (hl _)
  | unregisterNone hpc => exact absurd rfl (hl _)
  | unregister hpc port ports => exact absurd rfl (hl _)
  | tick hpc hlive => exact absurd rfl (hl _)
  -- the statements of the two API calls come after none of the collector's
  | _ => simp_all [Pc.ticking]

theorem tick_run {s t : State} {ls : List Label} (h : Tick s) (hls : ∀ op, Label.call op ∉ ls)
    (hrun : run s ls = some t) : Tick t := by
  have hstep : ∀ s l t, (∀ op, l ≠ Label.call op) → Tick s → step s l = some t → Tick t :=
    fun _ _ _ hl h hstep => tick_step h hl (step_cases hstep)
  apply Run.run_invariant_of_labels hstep ?_ hrun h
  rintro l hl op rfl
  exact hls op hl

theorem tick_start {s t : State} (hstale : s.processPorts.fresh = false)
    (hstep : step s (.call .tick) = some t) : Tick t := by
  cases step_cases hstep with
  | tick hpc hlive => exact ⟨hstale, Or.inl rfl⟩

/-- Left alone, such a tick runs to its end. -/
theorem tick_completes {s : State} (hpc : s.pc = .idle) (hlive : s.collectors ≠ 0)
    (hstale : s.processPorts.fresh = false) :
    ∃ t, run s [.call .tick, .main, .main, .main, .main] = some t ∧ t.pc = .idle := by
  have hlend : (s.processPorts.setBack ∅).pendingMut = some s.processPorts.pending :=
    TripleBuffer.pendingMut_eq_some.mpr ⟨hstale, rfl⟩
  simp only [run, Run.run_cons, Run.run_nil, step, hpc, start, hlive, mainStep, if_true, if_false,
    Option.bind_some, clearBack_processPorts, hlend]
  exact ⟨_, rfl, rfl⟩

/-- What holds of the handles and the collector in a state of the client. -/
structure Exact (s : State) : Prop where
  counts : ∀ p, s.counts p = s.places p
  once : (unregistered s.calls).Nodup
  unregistered : ∀ p, p ∈ unregistered s.calls ↔ p < s.next ∧ s.places p = 0
  main : ∀ c ∈ s.calls, c.1 = .main
  retained : s.pc = .idle → s.pendingPortGc = false → ∀ p ∈ s.slots, p ∈ handles s.ports
  collector : s.pc = .idle → s.pendingPortGc = true → s.collectors = 1

theorem exact_of_invariant {s : State} (h : Invariant s) : Exact s where
  counts := counts_eq_places h.owned h.distinct
  once := h.owned.collected.nodup
  unregistered := by
    intro p
    rw [← counts_eq_places h.owned h.distinct]
    exact h.owned.collected.dead_iff p
  main := h.onMain
  retained := fun hpc hgc => h.scheduled.clean hgc (by rw [hpc]; rfl)
  collector := fun hpc hgc => by simp [h.scheduled.tasks, hgc, hpc]

/-- What has become of the ports that were given to `unregister_ports`. -/
structure Released (s : State) (g : List JackPort) : Prop where
  ports : s.pc = .idle → ∀ p < s.next, p ∈ handles s.ports ↔ p ∉ g
  only : ∀ p ∈ unregistered s.calls, p ∈ g
  all : s.pc = .idle → s.pendingPortGc = false → ∀ p, p ∈ unregistered s.calls ↔ p ∈ g

theorem released_of_removed {s : State} {g : List JackPort} (hi : Invariant s) (h : Removed s g) :
    Released s g := by
  have hgone : s.pc = .idle → ∀ p ∈ g, p ∉ handles s.ports := by
    intro hpc p hp hmem
    obtain ⟨uuid, huuid, _⟩ := h.left p hp hmem
    simp [hpc, Pc.removals] at huuid
  have honly : ∀ p ∈ unregistered s.calls, p ∈ g := by
    intro p hp
    obtain ⟨hcreated, hzero⟩ := (hi.owned.collected.dead_iff p).mp hp
    have hnone := (Shared.counted_eq_zero hi.owned.counted).mp hzero
    refine h.lost p hcreated ?_
    intro hmem
    exact hnone (by simp [State.holds, hmem])
  refine ⟨?_, honly, ?_⟩
  · intro hpc p hp
    constructor
    · intro hmem hg
      exact hgone hpc p hg hmem
    · intro hg
      by_contra hn
      exact hg (h.lost p hp hn)
  · intro hpc hgc p
    refine ⟨honly p, fun hg => ?_⟩
    have hclean := hi.scheduled.clean hgc (by rw [hpc]; rfl)
    exact released_of_clean hi hclean (h.created p hg) (hgone hpc p hg)

theorem released_run {ls : List Label} {s : State} (hrun : run init ls = some s) :
    Released s (given init ls) :=
  released_of_removed (invariant_run hrun invariant_init)
    (removed_run removed_init invariant_init hrun)

/-- In every run the handle counts are exact; `Client.ports` loses the ports that are given
to `unregister_ports` and no others; a port is unregistered once, on the main thread and in
the very step that takes its last handle, while the process thread makes no calls; nothing
unregistered is retained while `pending_port_gc` is clear, and while it is set the one live
collector releases every port given so far in its first tick after the latest map was
acquired, whatever the process thread does during that tick. -/
theorem collection_exact {ls : List Label} {s : State} (hrun : run init ls = some s) :
    Exact s ∧ Released s (given init ls) ∧
    (∀ l t, step s l = some t →
      (∃ cs, t.calls = s.calls ++ cs.map (fun c => (l.thread, c)) ∧
        (l.thread = .process → cs = [])) ∧
      ∀ p, (p ∉ unregistered s.calls ∧ p ∈ unregistered t.calls) ↔
        (0 < s.counts p ∧ t.counts p = 0)) ∧
    (s.pc = .idle → s.pendingPortGc = true → s.processPorts.fresh = false →
      (∃ t, run s [.call .tick, .main, .main, .main, .main] = some t ∧ t.pc = .idle) ∧
      ∀ ls' t, (∀ op, Label.call op ∉ ls') → run s (.call .tick :: ls') = some t → t.pc = .idle →
        t.pendingPortGc = false ∧ t.collectors = 0 ∧
          ∀ p, p ∈ unregistered t.calls ↔ p ∈ given init ls) := by
  have hinv := invariant_run hrun invariant_init
  refine ⟨exact_of_invariant hinv, released_run hrun, ?_, ?_⟩
  · intro l t hstep
    have hcases := step_cases hstep
    obtain ⟨cs, _, hcalls, hprocess⟩ := calls_step hcases
    exact ⟨⟨cs, hcalls, hprocess⟩, unregistered_step hinv.owned hcases⟩
  · intro hpc hgc hstale
    have hone := (exact_of_invariant hinv).collector hpc hgc
    refine ⟨tick_completes hpc (by omega) hstale, ?_⟩
    intro ls' t hls hrest hidle
    obtain ⟨u, hu, hticks⟩ := Run.run_cons_some hrest
    have ht := invariant_run hrest hinv
    have htick := tick_run (tick_start hstale hu) hls hticks
    have hclear : t.pendingPortGc = false := by
      rcases htick.progress with hp | ⟨_, hp⟩
      · simp [hidle, Pc.ticking] at hp
      · exact hp
    refine ⟨hclear, by simp [ht.scheduled.tasks, hclear], ?_⟩
    have hgiven : given init (ls ++ .call .tick :: ls') = given init ls := by
      have hnone : given s (.call .tick :: ls') = [] :=
        given_of_no_call fun uuids hmem => hls _ ((List.mem_cons.mp hmem).resolve_left nofun)
      rw [given_append hrun, hnone, List.append_nil]
    have hall := released_run (Run.run_join hrun hrest)
    rw [hgiven] at hall
    exact hall.all hidle hclear

/-- A port is registered, acquired by a callback and unregistered, and the collector ticks
once before and once after the next acquisition. -/
def collectRun : List Label :=
  [.call (.registerPorts [.created ⟨⟨7⟩⟩]), .main, .main, .main, .acquire .process, .release,
    .call (.unregisterPorts [⟨⟨7⟩⟩]), .main, .main, .main, .main, .main,
    .call .tick, .main, .main, .acquire .sync, .release]

theorem collection_exact_collectRun :
    ∃ s t, run init collectRun = some s ∧
      run s [.call .tick, .main, .main, .main, .main] = some t ∧
      handles s.ports = [] ∧ unregistered s.calls = [] ∧ s.pendingPortGc = true ∧
      t.pendingPortGc = false ∧ t.collectors = 0 ∧ ∀ p, p ∈ unregistered t.calls ↔ p = 0 := by
  have hmap : (run init collectRun).map (fun s => (s.pc, s.pendingPortGc,
      s.processPorts.fresh, handles s.ports, unregistered s.calls)) =
        some (.idle, true, false, [], []) := rfl
  obtain ⟨s, hs, hfacts⟩ := Option.map_eq_some_iff.mp hmap
  simp only [Prod.mk.injEq] at hfacts
  obtain ⟨hpc, hgc, hstale, hports, hnone⟩ := hfacts
  obtain ⟨_, _, _, htick⟩ := collection_exact hs
  obtain ⟨⟨t, ht, hidle⟩, hall⟩ := htick hpc hgc hstale
  obtain ⟨hclear, hended, hgiven⟩ := hall _ t (by simp) ht hidle
  have hport : given init collectRun = [0] := rfl
  exact ⟨s, t, hs, ht, hports, hnone, hgc, hclear, hended, by simpa [hport] using hgiven⟩

end Jack2.Ports
