import Jack2.Ports

/-!
# The guards of the triple buffer

`back_buffers` and `front_buffer` are try-locks, and the crate unwraps what they return. The
machine of the port maps with the two guards apart from it: where a guard is asked for,
where it ends, and what unwinding drops. Iterators may call the client again and may panic.
The context may panic too; as `MainThreadContext` asks of it, it only takes the collector,
and polls it between two calls.
-/
namespace Jack2.BufferLocks

open Ports (Pc Op ProcessCallback)

/-- The expressions `back_buffers().unwrap()` and `front_buffer().unwrap()`. -/
inductive Site where
  | registerPorts | unregisterPorts | collector
  | callback (callback : ProcessCallback)
  deriving DecidableEq, Repr

/-- `ports.held` says that a front guard is alive. -/
structure State where
  ports : Ports.State
  /-- The calls whose iterators made the running call, the innermost first. -/
  outer : List Pc
  /-- A back guard is alive. -/
  back : Bool
  /-- The callback that libjack is running. -/
  running : Option ProcessCallback
  /-- The guards that were asked for, and whether they were there. -/
  attempts : List (Site × Bool)

def init : State := ⟨Ports.init, [], false, none, []⟩

inductive Label where
  | call (op : Op)
  /-- The iterator of the running call calls the client. Where that finds the map borrowed,
  the nested call goes on to unwind. -/
  | nested (op : Op)
  | resume
  | main
  /-- The running call, or the collector, unwinds from where it is. -/
  | unwind
  | enter (callback : ProcessCallback)
  | leave
  deriving DecidableEq, Repr

/-- The next expression asks for a back guard. -/
def site : Pc → Option Site
  | .registering [] => some .registerPorts
  | .unregistering [] => some .unregisterPorts
  | .collecting => some .collector
  | _ => none

/-- The step from one statement to the other ends the guard: `bufs.swap()` takes it by value,
and a round of the collector leaves the block in which `bufs` is declared. -/
def endsGuard : Pc → Pc → Bool
  | .registered, .idle => true
  | .unregistered, .scheduling => true
  | .checking, .idle => true
  | .clearing, .finishing => true
  | _, _ => false

/-- `bufs` holds the guard. -/
def holdsBack : Pc → Bool
  | .registered => true
  | .unregistered => true
  | .checking => true
  | .clearing => true
  | _ => false

/-- `next` of an iterator of the user is called on the way to this statement. -/
def iterating : Pc → Bool
  | .registering _ => true
  | .unregistering _ => true
  | _ => false

/-- The running code belongs to a collector. -/
def collecting : Pc → Bool
  | .collecting => true
  | .checking => true
  | .clearing => true
  | .finishing => true
  | _ => false

def mainStep (s : State) : Option State :=
  match site s.ports.pc with
  | some site =>
    if s.back then
      some { s with
        ports := { s.ports with pc := .idle }
        attempts := s.attempts ++ [(site, false)] }
    else
      (Ports.mainStep .main s.ports).map fun t =>
        { s with ports := t, back := true, attempts := s.attempts ++ [(site, true)] }
  | none =>
    (Ports.mainStep .main s.ports).map fun t =>
      { s with ports := t, back := s.back && !endsGuard s.ports.pc t.pc }

/-- The guard goes with the frame it belongs to, and a collector with its task. -/
def unwind (s : State) : State :=
  { s with
    ports := { s.ports with
      pc := .idle
      collectors := if collecting s.ports.pc then s.ports.collectors - 1 else s.ports.collectors }
    back := s.back && !holdsBack s.ports.pc }

/-- The executor polls a collector only between two calls, and libjack runs one callback at
a time. -/
def step (s : State) : Label → Option State
  | .call op =>
    if s.outer = [] then (Ports.step s.ports (.call op)).map fun t => { s with ports := t }
    else none
  | .nested op =>
    if iterating s.ports.pc ∧ op ≠ .tick then
      (Ports.start { s.ports with pc := .idle } op).map fun t =>
        { s with ports := t, outer := s.ports.pc :: s.outer }
    else none
  | .resume =>
    match s.outer with
    | [] => none
    | pc :: outer =>
      if s.ports.pc = .idle then some { s with ports := { s.ports with pc }, outer } else none
  | .main => mainStep s
  | .unwind => if s.ports.pc = .idle then none else some (unwind s)
  | .enter callback =>
    if s.running.isSome then none
    else if s.ports.held then some { s with attempts := s.attempts ++ [(.callback callback, false)] }
    else
      some { s with
        ports := { s.ports with processPorts := s.ports.processPorts.frontBuffer, held := true }
        running := some callback
        attempts := s.attempts ++ [(.callback callback, true)] }
  | .leave =>
    if s.running.isSome then
      some { s with ports := { s.ports with held := false }, running := none }
    else none

abbrev run : State → List Label → Option State := Run.run step

/-- The guards alive are those that the statements hold, and none was asked for in vain. -/
structure Safe (s : State) : Prop where
  back : s.back = holdsBack s.ports.pc
  outer : ∀ pc ∈ s.outer, holdsBack pc = false
  front : s.ports.held = s.running.isSome
  attempts : ∀ a ∈ s.attempts, a.2 = true

theorem safe_init : Safe init := by
  constructor
  · rfl
  · intro pc hpc
    cases hpc
  · rfl
  · intro a ha
    cases ha

section Steps

variable {s t : State}

theorem attempts_append {site : Site} (hs : Safe s) :
    ∀ a ∈ s.attempts ++ [(site, true)], a.2 = true := by
  intro a ha
  rcases List.mem_append.mp ha with ha | ha
  · exact hs.attempts a ha
  · rw [List.mem_singleton.mp ha]

theorem free_of_idle (hs : Safe s) (hpc : s.ports.pc = .idle) : s.back = false := by
  rw [hs.back, hpc]
  rfl

theorem holdsBack_of_site {pc : Pc} {here : Site} (h : site pc = some here) :
    holdsBack pc = false := by
  unfold site at h
  split at h
  · rfl
  · rfl
  · rfl
  · cases h

/-- A statement that asks for a guard is followed by one that has it. -/
theorem holdsBack_after_site {p q : Ports.State} {here : Site} (h : site p.pc = some here)
    (hstep : Ports.mainStep .main p = some q) : holdsBack q.pc = true ∧ q.held = p.held := by
  have hcases := Ports.main_cases hstep
  cases hcases with
  | storeRegistered hpc => exact ⟨rfl, rfl⟩
  | storeUnregistered hpc => exact ⟨rfl, rfl⟩
  | clearBack hpc => exact ⟨rfl, rfl⟩
  | _ => simp [site, *] at h

/-- The other statements keep the guard they have, or end it. -/
theorem holdsBack_after {p q : Ports.State} (h : site p.pc = none)
    (hstep : Ports.mainStep .main p = some q) :
    holdsBack q.pc = (holdsBack p.pc && !endsGuard p.pc q.pc) ∧ q.held = p.held := by
  have hcases := Ports.main_cases hstep
  cases hcases with
  | storeRegistered hpc => simp [site, hpc] at h
  | storeUnregistered hpc => simp [site, hpc] at h
  | clearBack hpc => simp [site, hpc] at h
  | _ => simp [holdsBack, endsGuard, *]

theorem safe_main (hs : Safe s) (h : mainStep s = some t) : Safe t := by
  unfold mainStep at h
  cases hsite : site s.ports.pc with
  | some here =>
    have hfree : s.back = false := hs.back.trans (holdsBack_of_site hsite)
    simp only [hsite, hfree, Bool.false_eq_true, if_false] at h
    obtain ⟨p, hp, rfl⟩ := Option.map_eq_some_iff.mp h
    obtain ⟨hback, hheld⟩ := holdsBack_after_site hsite hp
    constructor
    · exact hback.symm
    · exact hs.outer
    · exact hheld.trans hs.front
    · exact attempts_append hs
  | none =>
    simp only [hsite] at h
    obtain ⟨p, hp, rfl⟩ := Option.map_eq_some_iff.mp h
    obtain ⟨hback, hheld⟩ := holdsBack_after hsite hp
    constructor
    · rw [hback, ← hs.back]
    · exact hs.outer
    · exact hheld.trans hs.front
    · exact hs.attempts

/-- A call starts with no guard. -/
theorem start_pc {p q : Ports.State} {op : Op} (hpc : p.pc = .idle)
    (h : Ports.start p op = some q) : holdsBack q.pc = false ∧ q.held = p.held := by
  have hcases := Ports.start_cases hpc h
  cases hcases <;> simp [holdsBack, *]

theorem holdsBack_of_iterating {pc : Pc} (h : iterating pc = true) : holdsBack pc = false := by
  cases pc <;> first | rfl | cases h

theorem safe_call {op : Op} (hs : Safe s) (h : step s (.call op) = some t) : Safe t := by
  rw [step] at h
  split at h
  · obtain ⟨p, hp, rfl⟩ := Option.map_eq_some_iff.mp h
    rw [Ports.step] at hp
    split at hp
    · rename_i hpc
      obtain ⟨hback, hheld⟩ := start_pc hpc hp
      exact ⟨(free_of_idle hs hpc).trans hback.symm, hs.outer, hheld.trans hs.front, hs.attempts⟩
    · cases hp
  · cases h

/-- The call that is left waiting has no guard either. -/
theorem safe_nested {op : Op} (hs : Safe s) (h : step s (.nested op) = some t) : Safe t := by
  rw [step] at h
  split at h
  · rename_i hiter
    obtain ⟨p, hp, rfl⟩ := Option.map_eq_some_iff.mp h
    obtain ⟨hback, hheld⟩ := start_pc rfl hp
    have hwaiting := holdsBack_of_iterating hiter.1
    constructor
    · exact (hs.back.trans hwaiting).trans hback.symm
    · intro pc hpc
      rcases List.mem_cons.mp hpc with rfl | hpc
      · exact hwaiting
      · exact hs.outer pc hpc
    · exact hheld.trans hs.front
    · exact hs.attempts
  · cases h

theorem safe_resume (hs : Safe s) (h : step s .resume = some t) : Safe t := by
  rw [step] at h
  split at h
  · cases h
  · rename_i pc outer houter
    split at h
    · rename_i hpc
      cases h
      have hwaiting : holdsBack pc = false := hs.outer pc (by simp [houter])
      constructor
      · exact (free_of_idle hs hpc).trans hwaiting.symm
      · intro q hq
        exact hs.outer q (by simp [houter, hq])
      · exact hs.front
      · exact hs.attempts
    · cases h

/-- One guard each, and it is asked for when it is free. -/
theorem safe_step {l : Label} (hs : Safe s) (h : step s l = some t) : Safe t := by
  cases l with
  | call op => exact safe_call hs h
  | nested op => exact safe_nested hs h
  | resume => exact safe_resume hs h
  | main => exact safe_main hs h
  | unwind =>
    rw [step] at h
    split at h
    · cases h
    · cases h
      constructor
      · simp [unwind, hs.back, holdsBack]
      · exact hs.outer
      · exact hs.front
      · exact hs.attempts
  | enter callback =>
    have hfront := hs.front
    rw [step] at h
    split at h
    · cases h
    · rename_i hidle
      have hfree : s.ports.held = false := by simpa [hfront] using hidle
      rw [hfree] at h
      cases h
      exact ⟨hs.back, hs.outer, rfl, attempts_append hs⟩
  | leave =>
    rw [step] at h
    split at h
    · cases h
      exact ⟨hs.back, hs.outer, rfl, hs.attempts⟩
    · cases h

end Steps

section Runs

theorem safe_run {s : State} {ls : List Label} (h : run init ls = some s) : Safe s :=
  Run.run_invariant (fun _ _ _ hs hstep => safe_step hs hstep) h safe_init

/-- Every guard that is asked for in a run is free. -/
theorem guards_never_contended {s : State} {ls : List Label} (h : run init ls = some s) :
    ∀ a ∈ s.attempts, a.2 = true :=
  (safe_run h).attempts

/-- A port is registered while a process callback runs and after its iterator has registered
another one; then it is unregistered and collected, with two more callbacks. -/
def busy : List Label :=
  [.enter .process, .call (.registerPorts [.nul, .created ⟨⟨1⟩⟩]), .main,
    .nested (.registerPorts [.created ⟨⟨2⟩⟩]), .main, .main, .leave, .main, .resume, .main, .main,
    .enter .sync, .main, .call (.unregisterPorts [⟨⟨1⟩⟩]), .main, .main, .leave, .main, .main, .main,
    .enter .timebase, .call .tick, .main, .leave, .main, .main, .main]

theorem guards_never_contended_busy : ∃ s, run init busy = some s ∧
    s.attempts.map Prod.fst = [.callback .process, .registerPorts, .registerPorts,
      .callback .sync, .unregisterPorts, .callback .timebase, .collector] ∧
    ∀ a ∈ s.attempts, a.2 = true := by
  have hmap : (run init busy).map (fun s => s.attempts.map Prod.fst) =
      some [.callback .process, .registerPorts, .registerPorts, .callback .sync,
        .unregisterPorts, .callback .timebase, .collector] := by decide +kernel
  obtain ⟨s, hs, hsites⟩ := Option.map_eq_some_iff.mp hmap
  exact ⟨s, hs, hsites, guards_never_contended hs⟩

end Runs

section Erasure

/-- The steps of the machine without guards. -/
def lift : Ports.Label → Label
  | .call op => .call op
  | .main => .main
  | .acquire callback => .enter callback
  | .release => .leave

/-- Without nested calls and panics, the guards can be left out of the machine. -/
theorem step_lift {s : State} (hs : Safe s) (houter : s.outer = []) (l : Ports.Label) :
    (step s (lift l)).map State.ports = Ports.step s.ports l := by
  cases l with
  | call op =>
    rw [lift, step, if_pos houter, Option.map_map]
    exact Option.map_id'
  | main =>
    rw [lift, step, mainStep]
    cases hsite : site s.ports.pc with
    | some here =>
      have hfree : s.back = false := hs.back.trans (holdsBack_of_site hsite)
      simp only [hfree, Bool.false_eq_true, if_false, Option.map_map]
      exact Option.map_id'
    | none =>
      simp only [Option.map_map]
      exact Option.map_id'
  | acquire callback =>
    have hfront := hs.front
    rw [lift, step, Ports.step, hfront]
    cases s.running.isSome <;> rfl
  | release =>
    have hfront := hs.front
    rw [lift, step, Ports.step, hfront]
    cases s.running.isSome <;> rfl

theorem outer_mainStep {s t : State} (h : mainStep s = some t) : t.outer = s.outer := by
  unfold mainStep at h
  split at h
  · split at h
    · cases h
      rfl
    · obtain ⟨p, -, rfl⟩ := Option.map_eq_some_iff.mp h
      rfl
  · obtain ⟨p, -, rfl⟩ := Option.map_eq_some_iff.mp h
    rfl

theorem outer_lift {s t : State} {l : Ports.Label} (h : step s (lift l) = some t) :
    t.outer = s.outer := by
  cases l with
  | call op =>
    rw [lift, step] at h
    split at h
    · obtain ⟨p, -, rfl⟩ := Option.map_eq_some_iff.mp h
      rfl
    · cases h
  | main => exact outer_mainStep h
  | acquire callback =>
    rw [lift, step] at h
    split at h
    · cases h
    · split at h
      · cases h
        rfl
      · cases h
        rfl
  | release =>
    rw [lift, step] at h
    split at h
    · cases h
      rfl
    · cases h

/-- The runs of the two machines are the same. -/
theorem run_lift {s : State} (hs : Safe s) (houter : s.outer = []) (ls : List Ports.Label) :
    (run s (ls.map lift)).map State.ports = Ports.run s.ports ls := by
  induction ls generalizing s with
  | nil => rfl
  | cons l ls ih =>
    have hstep := step_lift hs houter l
    change ((step s (lift l)).bind fun t => run t (ls.map lift)).map State.ports =
      (Ports.step s.ports l).bind fun p => Ports.run p ls
    rw [← hstep]
    cases ht : step s (lift l) with
    | none => rfl
    | some t => exact ih (safe_step hs ht) ((outer_lift ht).trans houter)

end Erasure

end Jack2.BufferLocks
