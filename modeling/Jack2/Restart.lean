import Jack2.Calls

/-!
# A collector that is lost

The steps of the client with the ways in which its collector can end early: setting it up
panics, and the caller of `unregister_ports` catches the panic, or the executor drops the
spawned future while it waits for its interval.
-/
namespace Jack2.Restart

open Ports (handles Invariant)
open Run (Throughout Along)

/-- What `unregister_ports` calls to set the collector up: `Client::frame_duration`, which
panics where `Duration::from_secs_f64` does, and the two functions of `MainThreadContext`. -/
inductive SetUp where
  | frameDuration | interval | spawnLocal
  deriving DecidableEq, Repr

inductive Label where
  | ports (l : Ports.Label)
  | panics (setUp : SetUp)
  | cancelled
  deriving DecidableEq, Repr

def Label.fault : Label → Bool
  | .ports _ => false
  | .panics _ | .cancelled => true

structure State where
  client : Ports.State
  /-- The last call was one of `unregister_ports`, and it has returned. -/
  returned : Bool

def init : State := ⟨Ports.init, false⟩

/-- Whether `unregister_ports` has returned after a step from `s` to `t`. -/
def returns (s : State) (l : Ports.Label) (t : Ports.State) : Bool :=
  match l, s.client.pc with
  | .call (.unregisterPorts []), _ => true
  | .call _, _ => false
  | .main, .scheduling => t.pc = .idle
  | .main, .spawning => true
  | .main, _ => false
  | _, _ => s.returned

def step (s : State) : Label → Option State
  | .ports l => (Ports.step s.client l).map fun t => ⟨t, returns s l t⟩
  | .panics _ =>
    -- the flag is set before the duration is computed, and nothing has been spawned
    if s.client.pc = .spawning then
      some ⟨{ (s.client.log .main .getBufferSize).log .main .getSampleRate with pc := .idle }, false⟩
    else none
  | .cancelled =>
    if s.client.pc = .idle ∧ s.client.collectors ≠ 0 then
      some ⟨{ s.client with collectors := s.client.collectors - 1 }, false⟩
    else none

/-- A slot still holds a port that `Client.ports` has lost. -/
def Retained (s : Ports.State) : Prop := ∃ p ∈ s.slots, p ∉ handles s.ports

/-- Between calls the flag stands for a live collector, and where a call of
`unregister_ports` leaves anything to collect it leaves a collector. -/
structure Restartable (s : State) : Prop where
  live : s.client.pc = .idle → s.client.pendingPortGc = true → s.client.collectors ≠ 0
  started : s.returned = true → Retained s.client → s.client.collectors ≠ 0

/-- What the steps keep as long as the collector is not lost. -/
structure Healthy (s : State) : Prop where
  client : Invariant s.client
  idle : s.returned = true → s.client.pc = .idle

theorem healthy_init : Healthy init := ⟨Ports.invariant_init, nofun⟩

theorem returns_idle {s : State} {l : Ports.Label} {t : Ports.State} (h : Healthy s)
    (hstep : Ports.Step s.client l t) (hreturns : returns s l t = true) : t.pc = .idle := by
  cases hstep with
  | acquire callback hfree => exact h.idle hreturns
  | release hheld => exact h.idle hreturns
  | _ => simp_all [returns]

theorem healthy_step {s t : State} {l : Label} (h : Healthy s) (hl : l.fault = false)
    (hstep : step s l = some t) : Healthy t := by
  cases l with
  | ports l =>
    obtain ⟨u, hu, rfl⟩ := Option.map_eq_some_iff.mp hstep
    have hports := Ports.step_cases hu
    exact ⟨Ports.invariant_step h.client hports, returns_idle h hports⟩
  | panics setUp => cases hl
  | cancelled => cases hl

theorem restartable_of_healthy {s : State} (h : Healthy s) : Restartable s := by
  have hexact := Ports.exact_of_invariant h.client
  have hlive : s.client.pc = .idle → s.client.pendingPortGc = true → s.client.collectors ≠ 0 := by
    intro hpc hgc
    rw [hexact.collector hpc hgc]
    exact Nat.one_ne_zero
  refine ⟨hlive, ?_⟩
  rintro hreturned ⟨p, hp, hn⟩
  have hpc := h.idle hreturned
  apply hlive hpc
  by_contra hgc
  exact hn (hexact.retained hpc (by simpa using hgc) p hp)

/-- The flag is set and there is no collector, and no statement is left that could make one. -/
structure Stuck (s : Ports.State) : Prop where
  flag : s.pendingPortGc = true
  none : s.collectors = 0
  pc : s.pc ≠ .spawning ∧ s.pc.ticking = false

/-- Every way of losing the collector leaves the flag set. -/
theorem stuck_of_fault {s t : State} {l : Label} (h : Healthy s) (hl : l.fault = true)
    (hstep : step s l = some t) : Stuck t.client ∧ t.client.pc = .idle := by
  have hscheduled := h.client.scheduled
  cases l with
  | ports l => cases hl
  | panics setUp =>
    simp only [step] at hstep
    split at hstep <;> cases hstep
    rename_i hpc
    exact ⟨⟨hscheduled.spawning hpc, by simp [hscheduled.tasks, hpc], by simp [Ports.Pc.ticking]⟩, rfl⟩
  | cancelled =>
    simp only [step] at hstep
    split at hstep <;> cases hstep
    rename_i hcond
    obtain ⟨hpc, hlive⟩ := hcond
    have hgc := hscheduled.flag_of_collectors hlive
    exact ⟨⟨hgc, by simp [hscheduled.tasks, hgc, hpc], by simp [hpc, Ports.Pc.ticking]⟩, hpc⟩

theorem stuck_step {s t : State} {l : Label} (h : Stuck s.client) (hstep : step s l = some t) :
    Stuck t.client := by
  obtain ⟨hflag, hnone, hpc⟩ := h
  cases l with
  | ports l =>
    obtain ⟨u, hu, rfl⟩ := Option.map_eq_some_iff.mp hstep
    cases Ports.step_cases hu with
    | acquire callback hfree => exact ⟨hflag, hnone, hpc⟩
    | release hheld => exact ⟨hflag, hnone, hpc⟩
    | _ => constructor <;> simp_all [Ports.Pc.ticking]
  | panics setUp => simp [step, hpc.1] at hstep
  | cancelled => simp [step, hnone] at hstep

/-- Once the collector is lost, no later call of `unregister_ports` starts another one. -/
theorem stuck_run {s t : State} {ls : List Label} (h : Stuck s.client)
    (hrun : Run.run step s ls = some t) : Stuck t.client :=
  have hstep : ∀ (s : State) l t, Stuck s.client → step s l = some t → Stuck t.client :=
    fun _ _ _ => stuck_step
  Run.run_invariant hstep hrun h

theorem restartable_step {s t : State} {l : Label} (h : Healthy s) (hstep : step s l = some t) :
    Restartable t ↔ l.fault = false := by
  cases hl : l.fault with
  | false => exact iff_of_true (restartable_of_healthy (healthy_step h hl hstep)) rfl
  | true =>
    obtain ⟨hstuck, hpc⟩ := stuck_of_fault h hl hstep
    refine iff_of_false ?_ (by decide)
    intro hrestartable
    exact hrestartable.live hpc hstuck.flag hstuck.none

/-- In every run the collector can be restarted in all states exactly if setting it up
never panics and no executor drops it. -/
theorem collector_restartable_iff {ls : List Label} {s : State}
    (hrun : Run.run step init ls = some s) :
    Throughout Restartable step init ls ↔ ∀ l ∈ ls, l.fault = false := by
  rw [← Run.along_label hrun]
  have hkeep : ∀ s l t, Healthy s → Restartable s → l.fault = false → step s l = some t →
      Healthy t := fun _ _ _ h _ => healthy_step h
  have hstep : ∀ s l t, Healthy s → Restartable s → step s l = some t →
      (Restartable t ↔ l.fault = false) := fun _ _ _ h _ => restartable_step h
  exact Run.throughout_iff_along_of_kept hkeep hstep hrun healthy_init
    (restartable_of_healthy healthy_init)

section Example

/-- Two ports are registered, and the first is unregistered. -/
def firstRun : List Label :=
  [.ports (.call (.registerPorts [.created ⟨⟨7⟩⟩, .created ⟨⟨9⟩⟩])), .ports .main, .ports .main,
    .ports .main, .ports .main, .ports (.call (.unregisterPorts [⟨⟨7⟩⟩])), .ports .main,
    .ports .main, .ports .main, .ports .main]

/-- `spawn_local` panics outside its context, and the second port is unregistered later. -/
def lostRun : List Label :=
  firstRun ++ [.panics .spawnLocal, .ports (.call (.unregisterPorts [⟨⟨9⟩⟩])), .ports .main,
    .ports .main, .ports .main, .ports .main]

theorem lostRun_not_restartable : ∃ s, Run.run step init lostRun = some s ∧
    s.returned = true ∧ handles s.client.ports = [] ∧ handles s.client.processPorts.back = [1] ∧
      ¬ Restartable s := by
  have hmap : (Run.run step init lostRun).map (fun s => (s.returned, s.client.collectors,
      handles s.client.ports, handles s.client.processPorts.back)) = some (true, 0, [], [1]) := rfl
  obtain ⟨s, hs, hfacts⟩ := Option.map_eq_some_iff.mp hmap
  simp only [Prod.mk.injEq] at hfacts
  obtain ⟨hreturned, hnone, hports, hback⟩ := hfacts
  refine ⟨s, hs, hreturned, hports, hback, ?_⟩
  intro h
  have hretained : Retained s.client := ⟨1, by simp [Ports.mem_slots, hback], by simp [hports]⟩
  exact h.started hreturned hretained hnone

/-- The collector is spawned and finishes. -/
def spawnedRun : List Label :=
  firstRun ++ [.ports .main, .ports (.acquire .process), .ports .release, .ports (.call .tick),
    .ports .main, .ports .main, .ports .main, .ports .main]

theorem collector_restartable_iff_spawnedRun : ∃ s, Run.run step init spawnedRun = some s ∧
    (Throughout Restartable step init spawnedRun ↔ ∀ l ∈ spawnedRun, l.fault = false) := by
  obtain ⟨s, hs⟩ : ∃ s, Run.run step init spawnedRun = some s := ⟨_, rfl⟩
  exact ⟨s, hs, collector_restartable_iff hs⟩

end Example

end Jack2.Restart
