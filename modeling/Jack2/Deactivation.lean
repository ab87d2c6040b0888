import Jack2.Delivery
import Jack2.Ports
import Jack2.Timebase

/-!
# A deactivation that fails

`deactivate` gives the timebase back before it asks libjack to deactivate, and hands the
client back if libjack refuses. The state of a client is all that a failed deactivation
should leave alone: what the `ActiveClient` owns, its ports, the notification channel, the
callbacks that libjack stores and the timebase mastership. Beside it the notifications are
queued and taken, the ports and the process thread run, and other clients become master.
-/
namespace Jack2.Deactivation

open Delivery (Channel)
open Run (Throughout Along)
open Session (Phase Op)
open Timebase (Codes address)

variable {P N : Type*}

/-- The callbacks of the client, and the timebase master of the server. -/
structure Jack where
  table : Table
  master : Option JackClient

/-- A call takes effect when its code is zero. The release of a client that is not the
master is refused. -/
def jack (codes : Codes) (answers : Call → Int) : Libjack Jack where
  call client c s :=
    match c with
    | .releaseTimebase =>
      if s.master = some client then
        (answers c, if answers c = 0 then ⟨c.effect s.table, none⟩ else s)
      else (codes.notMaster, s)
    | .setTimebase _ _ =>
      (answers c, if answers c = 0 then ⟨c.effect s.table, some client⟩ else s)
    | _ => (answers c, if codeOf answers c = 0 then { s with table := c.effect s.table } else s)

/-- An active client with everything that belongs to it. -/
structure Snapshot (P N : Type*) where
  client : ActiveClient P N
  heap : Heap
  table : Table
  master : Bool
  channel : Channel Notification
  ports : Ports.State

structure State (P N : Type*) where
  world : World Jack
  phase : Phase P N
  channel : Channel Notification
  ports : Ports.State
  /-- The client before and after each deactivation that has failed. -/
  failed : List (Snapshot P N × Snapshot P N)

inductive Label (P N : Type*) where
  | op (l : Session.Label P N)
  | callback (c : ServerCall)
  | poll
  | ports (l : Ports.Label)
  | other (master : Option JackClient)

def init (client : Client) : State P N :=
  ⟨⟨⟨emptyTable, none⟩, [], ⟨0, []⟩⟩, .inactive ⟨client⟩, ⟨[], false⟩, Ports.init, []⟩

def State.snapshot (s : State P N) (client : ActiveClient P N) : Snapshot P N where
  client := client
  heap := s.world.heap
  table := s.world.jack.table
  master := s.world.jack.master = some client.client.client
  channel := s.channel
  ports := s.ports

/-- `notification_data` is there, and with it the sender. -/
def notified : Phase P N → Bool
  | .active client => client.notificationData.isSome
  | _ => false

/-- An operation of the user. A deactivation that succeeds drops the sender. -/
def operate (lib : Libjack Jack) (s : State P N) (op : Op P N) : Option (State P N) :=
  match s.phase, op with
  | .inactive client, .activate processHandler notificationHandler flags =>
    match activate lib client processHandler notificationHandler flags s.world with
    | (.ok client, w) => some { s with world := w, phase := .active client, channel := ⟨[], false⟩ }
    | (.error e, w) => some { s with world := w, phase := .inactive e.client }
  | .active client, .deactivate =>
    match client.deactivate lib s.world with
    | (.ok (inner, _, _), w) =>
      some { s with world := w, phase := .deactivated inner, channel := s.channel.close }
    | (.error e, w) =>
      let t := { s with world := w, phase := .active e.client }
      some { t with failed := s.failed ++ [(s.snapshot client, t.snapshot e.client)] }
  | .active client, .registerSyncCallback =>
    some { s with world := (client.registerSyncCallback lib s.world).2 }
  | .active client, .unregisterSyncCallback =>
    some { s with world := (client.unregisterSyncCallback lib s.world).2 }
  | .active client, .acquireTimebase force =>
    some { s with world := (client.acquireTimebase lib force s.world).2 }
  | .active client, .releaseTimebase =>
    some { s with world := (client.releaseTimebase lib s.world).2 }
  | _, _ => none

/-- A callback that does not find the notification data sends nothing; libjack keeps those of
a client that was deactivated. -/
def step (sys : Sys) (codes : Codes) (s : State P N) : Label P N → Option (State P N)
  | .op l => operate (jack codes l.answers) s l.op
  | .callback c =>
    if notified s.phase then
      match c.sends sys with
      | some n => some { s with channel := s.channel.unboundedSend n }
      | none => some s
    else some s
  | .poll => if notified s.phase then some { s with channel := s.channel.next.2 } else none
  | .ports l => (Ports.step s.ports l).map fun p => { s with ports := p }
  | .other master =>
    if master = some (address s.phase) then none
    else some { s with world := { s.world with jack := { s.world.jack with master } } }

/-- No deactivation that failed has changed anything. -/
def Intact (s : State P N) : Prop := ∀ p ∈ s.failed, p.1 = p.2

/-- The condition on a deactivation: libjack deactivates the client, or it has released no
timebase of the client before. -/
def Kept (s : State P N) (l : Label P N) : Prop :=
  match s.phase, l with
  | .active client, .op ⟨.deactivate, answers⟩ =>
    0 ≤ answers .deactivate ∨ s.world.jack.master ≠ some client.client.client ∨
      answers .releaseTimebase ≠ 0
  | _, _ => True

section Deactivate

variable (codes : Codes) (answers : Call → Int)

/-- What the release at the start of `_deactivate` makes of libjack's state. -/
def released (client : JackClient) (s : Jack) : Jack :=
  if s.master = some client ∧ answers .releaseTimebase = 0 then
    ⟨Call.effect .releaseTimebase s.table, none⟩ else s

theorem call_release (client : JackClient) (w : World Jack) :
    (w.call (jack codes answers) client .releaseTimebase).2.jack = released answers client w.jack := by
  by_cases hmaster : w.jack.master = some client <;>
    by_cases hzero : answers .releaseTimebase = 0 <;>
      simp [World.call, jack, released, hmaster, hzero]

theorem call_refused (client : JackClient) (w : World Jack) (h : answers .deactivate < 0) :
    (w.call (jack codes answers) client .deactivate).1 = answers .deactivate ∧
      (w.call (jack codes answers) client .deactivate).2.jack = w.jack := by
  have hne : answers .deactivate ≠ 0 := by omega
  simp [World.call, jack, Call.isVoid, codeOf, hne]

variable {answers}

/-- A deactivation that libjack refuses has made two calls. -/
theorem deactivate_refused (client : ActiveClient P N) (w : World Jack)
    (h : answers .deactivate < 0) :
    ∃ v, client.deactivate (jack codes answers) w = (.error ⟨client⟩, v) ∧
      v.heap = w.heap ∧ v.jack = released answers client.client.client w.jack := by
  let u := (w.call (jack codes answers) client.client.client .releaseTimebase).2
  obtain ⟨hcode, hjack⟩ := call_refused codes answers client.client.client u h
  refine ⟨(u.call (jack codes answers) client.client.client .deactivate).2, ?_, rfl,
    hjack.trans (call_release codes answers client.client.client w)⟩
  simp only [ActiveClient.deactivate, ActiveClient._deactivate]
  rw [hcode, checkRet_of_neg h]

theorem deactivate_done (client : ActiveClient P N) (w : World Jack)
    (h : 0 ≤ answers .deactivate) :
    ∃ r v, client.deactivate (jack codes answers) w = (.ok r, v) := by
  have hcode : ∀ v : World Jack,
      checkRet (v.call (jack codes answers) client.client.client .deactivate).1 = .ok () :=
    fun v => checkRet_of_nonneg h
  simp only [ActiveClient.deactivate, ActiveClient._deactivate, hcode]
  exact ⟨_, _, rfl⟩

/-- The release shows in the mastership of the client whenever it takes effect. -/
theorem snapshot_eq_iff {s t : State P N} {client : ActiveClient P N}
    (hheap : t.world.heap = s.world.heap)
    (hjack : t.world.jack = released answers client.client.client s.world.jack)
    (hchannel : t.channel = s.channel) (hports : t.ports = s.ports) :
    s.snapshot client = t.snapshot client ↔
      s.world.jack.master ≠ some client.client.client ∨ answers .releaseTimebase ≠ 0 := by
  by_cases hreleased : s.world.jack.master = some client.client.client ∧
      answers .releaseTimebase = 0
  · have hnot : ¬(s.world.jack.master ≠ some client.client.client ∨
        answers .releaseTimebase ≠ 0) := by
      rintro (hne | hne)
      · exact hne hreleased.1
      · exact hne hreleased.2
    refine iff_of_false ?_ hnot
    intro heq
    have hmaster := congrArg Snapshot.master heq
    simp [State.snapshot, hjack, released, hreleased] at hmaster
  · have hsame : t.world.jack = s.world.jack := hjack.trans (if_neg hreleased)
    refine iff_of_true ?_ (not_and_or.mp hreleased)
    simp only [State.snapshot, hheap, hsame, hchannel, hports]

end Deactivate

theorem intact_append {s t : State P N} {p : Snapshot P N × Snapshot P N} (h : Intact s)
    (hfailed : t.failed = s.failed ++ [p]) : Intact t ↔ p.1 = p.2 := by
  simp only [Intact, hfailed, List.mem_append, List.mem_singleton]
  constructor
  · intro ht
    exact ht p (Or.inr rfl)
  · rintro hp q (hq | rfl)
    · exact h q hq
    · exact hp

theorem intact_congr {s t : State P N} (h : Intact s) (hfailed : t.failed = s.failed) :
    Intact t := by
  intro p hp
  exact h p (hfailed ▸ hp)

theorem deactivate_step {sys : Sys} {codes : Codes} {s t : State P N} (h : Intact s)
    {client : ActiveClient P N} (hphase : s.phase = .active client) {answers : Call → Int}
    (hstep : step sys codes s (.op ⟨.deactivate, answers⟩) = some t) :
    Intact t ↔ Kept s (.op ⟨.deactivate, answers⟩) := by
  have hkept : Kept s (.op ⟨.deactivate, answers⟩) ↔ 0 ≤ answers .deactivate ∨
      s.world.jack.master ≠ some client.client.client ∨ answers .releaseTimebase ≠ 0 := by
    simp only [Kept, hphase]
  rw [hkept]
  by_cases hcode : 0 ≤ answers .deactivate
  · obtain ⟨⟨inner, process, notify⟩, v, hok⟩ :=
      deactivate_done codes client s.world hcode
    simp only [step, operate, hphase, hok, Option.some.injEq] at hstep
    subst hstep
    exact iff_of_true (intact_congr h rfl) (Or.inl hcode)
  · obtain ⟨v, herror, hheap, hjack⟩ :=
      deactivate_refused codes client s.world (Int.not_le.mp hcode)
    simp only [step, operate, hphase, herror, Option.some.injEq] at hstep
    subst hstep
    rw [intact_append h rfl]
    simp only [hcode, false_or]
    exact snapshot_eq_iff hheap hjack rfl rfl

theorem intact_step {sys : Sys} {codes : Codes} {s t : State P N} {l : Label P N} (h : Intact s)
    (hstep : step sys codes s l = some t) : Intact t ↔ Kept s l := by
  cases l with
  | op l =>
    obtain ⟨op, answers⟩ := l
    cases hphase : s.phase with
    | active client =>
      cases op with
      | deactivate => exact deactivate_step h hphase hstep
      | activate processHandler notificationHandler flags => simp [step, operate, hphase] at hstep
      | _ =>
        simp only [step, operate, hphase, Option.some.injEq] at hstep
        subst hstep
        exact iff_of_true (intact_congr h rfl) (by simp [Kept, hphase])
    | inactive client =>
      cases op with
      | activate processHandler notificationHandler flags =>
        simp only [step, operate, hphase] at hstep
        split at hstep <;> cases hstep <;>
          exact iff_of_true (intact_congr h rfl) (by simp [Kept, hphase])
      | _ => simp [step, operate, hphase] at hstep
    | deactivated client => simp [step, operate, hphase] at hstep
  | callback c =>
    simp only [step] at hstep
    split at hstep
    · split at hstep <;> cases hstep <;>
        exact iff_of_true (intact_congr h rfl) (by simp [Kept])
    · cases hstep
      exact iff_of_true (intact_congr h rfl) (by simp [Kept])
  | poll =>
    simp only [step] at hstep
    split at hstep <;> cases hstep
    exact iff_of_true (intact_congr h rfl) (by simp [Kept])
  | ports l =>
    obtain ⟨p, _, rfl⟩ := Option.map_eq_some_iff.mp hstep
    exact iff_of_true (intact_congr h rfl) (by simp [Kept])
  | other master =>
    simp only [step] at hstep
    split at hstep <;> cases hstep
    exact iff_of_true (intact_congr h rfl) (by simp [Kept])

/-- In every run, whatever the handlers, the callbacks, the ports, the queue and the other
clients are, the deactivations that fail change nothing exactly if none of them comes after
a release that took the timebase from the client. -/
theorem failed_deactivate_intact_iff {sys : Sys} {codes : Codes} {client : Client}
    {ls : List (Label P N)} {s : State P N} (hrun : Run.run (step sys codes) (init client) ls = some s) :
    Throughout Intact (step sys codes) (init client) ls ↔
      Along Kept (step sys codes) (init client) ls := by
  have hstep : ∀ (s : State P N) l t, True → Intact s → step sys codes s l = some t →
      (Intact t ↔ Kept s l) := fun _ _ _ _ => intact_step
  exact Run.throughout_iff_along (fun _ _ _ _ _ => trivial) hstep hrun trivial
    (fun p hp => absurd hp List.not_mem_nil)

section Example

def einval : Codes := ⟨16, 22, by decide, by decide⟩

/-- A number for each constant of the bindings. -/
def bindings : Sys := ⟨0, 1, 0, 1, 2⟩

/-- libjack does not deactivate the client. -/
def refusal : Call → Int := fun c => if c = .deactivate then -1 else 0

/-- The client becomes the timebase master, a notification is queued, and the deactivation
fails. -/
def masterRun : List (Label Unit Unit) :=
  [.op ⟨.activate (some ()) (some ()) ⟨4⟩, fun _ => 0⟩, .callback .xrun, .op ⟨.deactivate, refusal⟩]

theorem masterRun_not_intact : ∃ s,
    Run.run (step bindings einval) (init ⟨1, 1⟩) masterRun = some s ∧
      s.failed.map (fun p => (p.1.master, p.2.master)) = [(true, false)] ∧
      s.failed.map (fun p => (p.1.table .timebase, p.2.table .timebase)) =
        [(some ⟨.timebaseCallback, 0⟩, none)] ∧ ¬ Intact s := by
  refine ⟨_, rfl, rfl, rfl, ?_⟩
  intro h
  have hmaster := congrArg Snapshot.master (h _ List.mem_cons_self)
  cases hmaster

/-- Another client is the master when the deactivation fails. -/
def lostRun : List (Label Unit Unit) :=
  [.op ⟨.activate (some ()) (some ()) ⟨4⟩, fun _ => 0⟩, .callback .xrun, .other (some 2),
    .op ⟨.deactivate, refusal⟩]

theorem failed_deactivate_intact_iff_lostRun : ∃ s,
    Run.run (step bindings einval) (init ⟨1, 1⟩) lostRun = some s ∧
      s.failed.map (fun p => p.1.channel.queue) = [[.xrun]] ∧
      (Throughout Intact (step bindings einval) (init ⟨1, 1⟩) lostRun ↔
        Along Kept (step bindings einval) (init ⟨1, 1⟩) lostRun) := by
  have hmap : (Run.run (step bindings einval) (init ⟨1, 1⟩) lostRun).map
      (fun s => s.failed.map fun p => p.1.channel.queue) = some [[.xrun]] := rfl
  obtain ⟨s, hs, hqueue⟩ := Option.map_eq_some_iff.mp hmap
  exact ⟨s, hs, hqueue, failed_deactivate_intact_iff hs⟩

end Example

end Jack2.Deactivation
