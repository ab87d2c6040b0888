import Jack2.Session

/-!
# The timebase master among many clients

One server has at most one timebase master. A refused acquisition and the release of a
client that is not master are answered with positive codes, which `check_ret` takes for
success. What the methods report is therefore right exactly where the server had no reason
to refuse.
-/
namespace Jack2.Timebase

open Session (Phase Op)

variable {P N : Type*}

structure Server where
  master : Option JackClient
  deriving DecidableEq, Repr

/-- The positive codes for a refused acquisition and for a release by another client. -/
structure Codes where
  busy : Int
  notMaster : Int
  busy_pos : 0 < busy
  notMaster_pos : 0 < notMaster

/-- Some other client is the master. -/
def Server.Taken (s : Server) (client : JackClient) : Prop := ∃ m, s.master = some m ∧ m ≠ client

instance (s : Server) (client : JackClient) : Decidable (s.Taken client) :=
  match h : s.master with
  | none => isFalse (by rintro ⟨m, hm, _⟩; rw [h] at hm; cases hm)
  | some m =>
    if hm : m = client then
      isFalse (by rintro ⟨n, hn, hne⟩; rw [h] at hn; cases hn; exact hne hm)
    else isTrue ⟨m, h, hm⟩

def Server.acquire (s : Server) (client : JackClient) (conditional : Bool) : Server :=
  if conditional = true ∧ s.Taken client then s else ⟨some client⟩

def Server.release (s : Server) (client : JackClient) : Server :=
  if s.master = some client then ⟨none⟩ else s

/-- libjack as documented for the timebase; every other call succeeds. -/
def serverJack (codes : Codes) : Libjack Server where
  call client c s :=
    match c with
    | .setTimebase conditional _ =>
      (if conditional = true ∧ s.Taken client then codes.busy else 0, s.acquire client conditional)
    | .releaseTimebase => (if s.master = some client then 0 else codes.notMaster, s.release client)
    | _ => (0, s)

structure State (P N : Type*) where
  world : World Server
  clients : JackClient → Phase P N

/-- Any number of clients, each at its own address, and no master. -/
def init : State P N := ⟨⟨⟨none⟩, [], ⟨0, []⟩⟩, fun c => .inactive ⟨⟨c, c⟩⟩⟩

structure Label (P N : Type*) where
  client : JackClient
  op : Op P N

/-- The operation's result, `Ok` or `Err`, with the world and the value the user holds then. -/
def operate (codes : Codes) (w : World Server) (phase : Phase P N) (op : Op P N) :
    Option (Bool × World Server × Phase P N) :=
  let lib := serverJack codes
  match phase, op with
  | .inactive client, .activate processHandler notificationHandler flags =>
    match activate lib client processHandler notificationHandler flags w with
    | (.ok client, w) => some (true, w, .active client)
    | (.error e, w) => some (false, w, .inactive e.client)
  | .active client, .deactivate =>
    match client.deactivate lib w with
    | (.ok (client, _, _), w) => some (true, w, .deactivated client)
    | (.error e, w) => some (false, w, .active e.client)
  | .active client, .registerSyncCallback =>
    let r := client.registerSyncCallback lib w
    some (r.1.isOk, r.2, .active client)
  | .active client, .unregisterSyncCallback =>
    let r := client.unregisterSyncCallback lib w
    some (r.1.isOk, r.2, .active client)
  | .active client, .acquireTimebase force =>
    let r := client.acquireTimebase lib force w
    some (r.1.isOk, r.2, .active client)
  | .active client, .releaseTimebase =>
    let r := client.releaseTimebase lib w
    some (r.1.isOk, r.2, .active client)
  | _, _ => none

def step (codes : Codes) (s : State P N) (l : Label P N) : Option (State P N) :=
  (operate codes s.world (s.clients l.client) l.op).map fun r =>
    ⟨r.2.1, Function.update s.clients l.client r.2.2⟩

/-- An acquisition is an `acquire_timebase` or an `activate` with `TIMEBASE`; the bool says
whether it is forced. -/
def acquisition : Op P N → Option Bool
  | .acquireTimebase force => some force
  | .activate _ _ flags =>
    if flags.contains .timebase then some (flags.contains .timebaseForce) else none
  | _ => none

/-- What the result of an operation should say of the mastership. -/
def Honest (codes : Codes) (s : State P N) (l : Label P N) : Prop :=
  ∀ ok w phase, operate codes s.world (s.clients l.client) l.op = some (ok, w, phase) →
    (∀ force, acquisition l.op = some force →
      (ok = true ↔ w.jack.master = some l.client) ∧
        (force = false → s.world.jack.Taken l.client → w.jack.master = s.world.jack.master)) ∧
    (l.op = .releaseTimebase → (ok = true ↔ s.world.jack.master = some l.client))

/-- The condition on an operation: an acquisition is forced or finds no other master, and an
activation that is one has a process handler; a release comes from the master. -/
def Granted (s : State P N) (l : Label P N) : Prop :=
  match s.clients l.client, l.op with
  | .inactive _, .activate processHandler _ flags =>
    flags.contains .timebase = true → processHandler.isSome = true ∧
      (flags.contains .timebaseForce = true ∨ ¬s.world.jack.Taken l.client)
  | .active client, .acquireTimebase force =>
    client.processData.isSome = true → force = true ∨ ¬s.world.jack.Taken l.client
  | .active _, .releaseTimebase => s.world.jack.master = some l.client
  | _, _ => True

/-- The address of the client in any phase. -/
def address : Phase P N → JackClient
  | .inactive client => client.client.client
  | .active client => client.client.client
  | .deactivated client => client.client

/-- Only an active client with process data can be the master. -/
structure Inv (s : State P N) : Prop where
  address : ∀ c, address (s.clients c) = c
  master : ∀ c, s.world.jack.master = some c →
    ∃ client, s.clients c = .active client ∧ client.processData.isSome = true

/-- After an acquisition the caller is the master unless it was conditional and refused. -/
theorem master_acquire (s : Server) (client : JackClient) (conditional : Bool) :
    (s.acquire client conditional).master = some client ↔
      conditional = false ∨ ¬s.Taken client := by
  unfold Server.acquire
  split
  · rename_i h
    obtain ⟨hcond, m, hm, hne⟩ := h
    simp only [hm, Option.some.injEq, hcond, Bool.true_eq_false, false_or]
    exact ⟨fun he => absurd he hne, fun hn => absurd ⟨m, hm, hne⟩ hn⟩
  · rename_i h
    simp only [true_iff]
    by_cases hc : conditional = true
    · exact Or.inr fun ht => h ⟨hc, ht⟩
    · exact Or.inl (Bool.eq_false_iff.mpr hc)

theorem acquire_of_taken {s : Server} {client : JackClient} (h : s.Taken client) :
    s.acquire client true = s := by
  simp [Server.acquire, h]

theorem release_ne (s : Server) (client : JackClient) : (s.release client).master ≠ some client := by
  unfold Server.release
  split
  · nofun
  · assumption

section Calls

variable (codes : Codes)

/-- This server never answers with a negative code. -/
theorem call_nonneg (w : World Server) (client : JackClient) (c : Call) :
    0 ≤ (w.call (serverJack codes) client c).1 := by
  have hbusy := codes.busy_pos
  have hnot := codes.notMaster_pos
  simp only [World.call]
  split
  · exact Int.le_refl 0
  · simp only [serverJack]
    split
    · split <;> omega
    · split <;> omega
    · exact Int.le_refl 0

theorem checkedCalls_ok (w : World Server) (client : JackClient) (cs : List Call) :
    (checkedCalls (serverJack codes) client cs w).1 = .ok () := by
  induction cs generalizing w with
  | nil => rfl
  | cons c cs ih =>
    rw [checkedCalls_cons, checkRet_of_nonneg (call_nonneg codes w client c), Checked.andThen_ok]
    exact ih _

/-- Only the calls for the timebase change the server. -/
theorem checkedCalls_server (w : World Server) (client : JackClient) {cs : List Call}
    (hcs : ∀ c ∈ cs, c.kind ≠ some .timebase) :
    (checkedCalls (serverJack codes) client cs w).2.jack = w.jack := by
  have hkeep : ∀ c ∈ cs, ∀ v : World Server, v.jack = w.jack →
      (v.call (serverJack codes) client c).2.jack = w.jack := by
    intro c hc v hv
    rw [← hv]
    have hkind := hcs c hc
    cases c <;> simp_all [World.call, serverJack, Call.kind]
  exact Checked.exec_invariant hkeep rfl

theorem checkedCalls_timebase (w : World Server) (client : JackClient) (conditional : Bool)
    (e : Entry) : (checkedCalls (serverJack codes) client [.setTimebase conditional e] w).2.jack =
      w.jack.acquire client conditional := by
  rw [checkedCalls_cons, checkRet_of_nonneg (call_nonneg codes _ _ _)]
  rfl

/-- What an activation makes of the server. -/
def activatedServer (s : Server) (client : JackClient) (process : Bool) (flags : ActivateFlags) :
    Server :=
  if process = true ∧ flags.contains .timebase = true then
    s.acquire client (!flags.contains .timebaseForce) else s

theorem activate_server (self : InactiveClient) (processHandler : Option P)
    (notificationHandler : Option N) (flags : ActivateFlags) (w : World Server) :
    ∃ v, activate (serverJack codes) self processHandler notificationHandler flags w =
        (.ok (activated self processHandler notificationHandler w), v) ∧
      v.jack = activatedServer w.jack self.client.client processHandler.isSome flags := by
  have hok := checkedCalls_ok codes w self.client.client
    (settersOf processHandler notificationHandler flags w)
  refine ⟨_, activate_ok (Prod.ext hok rfl), ?_⟩
  have hfinish : ∀ v, (finish (serverJack codes) self processHandler notificationHandler w
      v).jack = v.jack := by
    intro v
    cases notificationHandler <;> rfl
  have hbefore := checkedCalls_ok codes w self.client.client
    (untimedSetters (processBox processHandler w)
      (notificationBox processHandler notificationHandler w) flags)
  have hserver := checkedCalls_server codes w self.client.client
    (fun c (hc : c ∈ untimedSetters (processBox processHandler w)
      (notificationBox processHandler notificationHandler w) flags) => not_timebase hc)
  rw [hfinish, settersOf, setters_eq_append, checkedCalls_append, ← Prod.eta (checkedCalls _ _
    (untimedSetters _ _ _) w), hbefore, Checked.andThen_ok, ← hserver]
  cases processHandler with
  | none => rfl
  | some handler =>
    by_cases hflag : flags.contains .timebase = true
    · simp only [processBox, allocFor_some, timebaseCalls, hflag, if_true, activatedServer,
        Option.isSome_some, and_self]
      exact checkedCalls_timebase codes _ _ _ _
    · simp only [processBox, allocFor_some, timebaseCalls, hflag, activatedServer,
        Option.isSome_some, if_false, and_false, Bool.false_eq_true]
      rfl

/-- Everything an operation can report and do to the server and the phase. -/
inductive Operated (w : World Server) :
    Phase P N → Op P N → Bool → World Server → Phase P N → Prop where
  | activated (client : InactiveClient) (processHandler : Option P)
      (notificationHandler : Option N) (flags : ActivateFlags) (v : World Server)
      (hjack : v.jack =
        activatedServer w.jack client.client.client processHandler.isSome flags) :
      Operated w (.inactive client) (.activate processHandler notificationHandler flags) true v
        (.active (activated client processHandler notificationHandler w))
  | deactivated (client : ActiveClient P N) (v : World Server)
      (hjack : v.jack = w.jack.release client.client.client) :
      Operated w (.active client) .deactivate true v (.deactivated client.client)
  | sync (client : ActiveClient P N) (op : Op P N)
      (hop : op = .registerSyncCallback ∨ op = .unregisterSyncCallback) (ok : Bool)
      (v : World Server) (hjack : v.jack = w.jack) :
      Operated w (.active client) op ok v (.active client)
  | acquired (client : ActiveClient P N) (hdata : client.processData.isSome = true)
      (force : Bool) (v : World Server)
      (hjack : v.jack = w.jack.acquire client.client.client (!force)) :
      Operated w (.active client) (.acquireTimebase force) true v (.active client)
  | invalid (client : ActiveClient P N) (hdata : client.processData = none) (force : Bool) :
      Operated w (.active client) (.acquireTimebase force) false w (.active client)
  | released (client : ActiveClient P N) (v : World Server)
      (hjack : v.jack = w.jack.release client.client.client) :
      Operated w (.active client) .releaseTimebase true v (.active client)

theorem operate_cases {w v : World Server} {phase phase' : Phase P N} {op : Op P N} {ok : Bool}
    (h : operate codes w phase op = some (ok, v, phase')) : Operated w phase op ok v phase' := by
  cases phase with
  | deactivated client => simp [operate] at h
  | inactive client =>
    cases op with
    | activate processHandler notificationHandler flags =>
      obtain ⟨u, hact, hjack⟩ :=
        activate_server codes client processHandler notificationHandler flags w
      simp only [operate, hact] at h
      cases h
      exact .activated client processHandler notificationHandler flags _ hjack
    | _ => simp [operate] at h
  | active client =>
    cases op with
    | activate processHandler notificationHandler flags => simp [operate] at h
    | deactivate =>
      simp only [operate, ActiveClient.deactivate, ActiveClient._deactivate,
        checkRet_of_nonneg (call_nonneg codes _ _ _)] at h
      cases h
      refine .deactivated client _ ?_
      cases client.processData <;> cases client.notificationData <;> rfl
    | registerSyncCallback =>
      cases h
      refine .sync client _ (Or.inl rfl) _ _ ?_
      cases hdata : client.processData with
      | none => simp [ActiveClient.registerSyncCallback, hdata]
      | some box =>
        simp only [ActiveClient.registerSyncCallback, hdata]
        exact checkedCalls_server codes _ _ (by simp [setCall, Call.kind])
    | unregisterSyncCallback =>
      cases h
      refine .sync client _ (Or.inr rfl) _ _ ?_
      exact checkedCalls_server codes _ _ (by simp [setCall, Call.kind])
    | acquireTimebase force =>
      simp only [operate, ActiveClient.acquireTimebase] at h
      cases hdata : client.processData with
      | none =>
        rw [hdata] at h
        cases h
        exact .invalid client hdata force
      | some box =>
        rw [hdata] at h
        simp only [setTimebaseCallback, checkedCalls_ok] at h
        cases h
        exact .acquired client (by rw [hdata]; rfl) force _ (checkedCalls_timebase codes _ _ _ _)
    | releaseTimebase =>
      simp only [operate, ActiveClient.releaseTimebase,
        checkRet_of_nonneg (call_nonneg codes _ _ _)] at h
      cases h
      exact .released client _ rfl

end Calls

theorem inv_init : Inv (init : State P N) := ⟨fun _ => rfl, nofun⟩

theorem master_of_acquire {s : Server} {client c : JackClient} {conditional : Bool}
    (h : (s.acquire client conditional).master = some c) : c = client ∨ s.master = some c := by
  unfold Server.acquire at h
  split at h
  · exact Or.inr h
  · exact Or.inl (Option.some.inj h).symm

theorem master_of_release {s : Server} {client c : JackClient}
    (h : (s.release client).master = some c) : c ≠ client ∧ s.master = some c := by
  unfold Server.release at h
  split at h
  · cases h
  · refine ⟨?_, h⟩
    rintro rfl
    contradiction

theorem address_operated {w v : World Server} {phase phase' : Phase P N} {op : Op P N} {ok : Bool}
    (h : Operated w phase op ok v phase') : address phase' = address phase := by
  cases h <;> rfl

/-- Who is master after an operation: its caller, active and with process data, or whoever
was before. -/
theorem master_operated {w v : World Server} {phase phase' : Phase P N} {op : Op P N} {ok : Bool}
    (hold : w.jack.master = some (address phase) →
      ∃ client, phase = .active client ∧ client.processData.isSome = true)
    (h : Operated w phase op ok v phase') {c : JackClient} (hc : v.jack.master = some c) :
    (c = address phase ∧ ∃ client, phase' = .active client ∧ client.processData.isSome = true) ∨
      (c ≠ address phase ∧ w.jack.master = some c) := by
  by_cases hcaller : c = address phase
  · refine Or.inl ⟨hcaller, ?_⟩
    subst hcaller
    cases h with
    | activated client processHandler notificationHandler flags v hjack =>
      rw [hjack] at hc
      by_cases hacquire : processHandler.isSome = true ∧ flags.contains .timebase = true
      · refine ⟨_, rfl, ?_⟩
        cases processHandler with
        | none => cases hacquire.1
        | some handler => rfl
      · rw [activatedServer, if_neg hacquire] at hc
        obtain ⟨_, hactive, _⟩ := hold hc
        cases hactive
    | deactivated client v hjack => exact absurd (hjack ▸ hc) (release_ne _ _)
    | sync client op hop ok v hjack => exact hold (hjack ▸ hc)
    | acquired client hdata force v hjack => exact ⟨client, rfl, hdata⟩
    | invalid client hdata force => exact hold hc
    | released client v hjack => exact absurd (hjack ▸ hc) (release_ne _ _)
  · refine Or.inr ⟨hcaller, ?_⟩
    cases h with
    | activated client processHandler notificationHandler flags v hjack =>
      rw [hjack, activatedServer] at hc
      split at hc
      · exact (master_of_acquire hc).resolve_left hcaller
      · exact hc
    | deactivated client v hjack => exact (master_of_release (hjack ▸ hc)).2
    | sync client op hop ok v hjack => exact hjack ▸ hc
    | acquired client hdata force v hjack =>
      exact (master_of_acquire (hjack ▸ hc)).resolve_left hcaller
    | invalid client hdata force => exact hc
    | released client v hjack => exact (master_of_release (hjack ▸ hc)).2

theorem inv_step {codes : Codes} {s t : State P N} {l : Label P N} (h : Inv s)
    (hstep : step codes s l = some t) : Inv t := by
  obtain ⟨⟨ok, w, phase⟩, hop, rfl⟩ := Option.map_eq_some_iff.mp hstep
  have hoperated := operate_cases codes hop
  have hself := h.address l.client
  constructor
  · intro c
    by_cases hc : c = l.client
    · subst hc
      simp [address_operated hoperated, hself]
    · simp [hc, h.address c]
  · intro c hc
    have hold : s.world.jack.master = some (address (s.clients l.client)) →
        ∃ client, s.clients l.client = .active client ∧ client.processData.isSome = true := by
      rw [hself]
      exact h.master l.client
    rcases master_operated hold hoperated hc with ⟨hcaller, client, hphase, hdata⟩ | ⟨hne, hm⟩
    · rw [hself] at hcaller
      exact ⟨client, by simp [hcaller, hphase], hdata⟩
    · rw [hself] at hne
      obtain ⟨client, hphase, hdata⟩ := h.master c hm
      exact ⟨client, by simp [hne, hphase], hdata⟩

/-- What `Honest` asks of the one outcome that an enabled operation has. -/
theorem honest_iff_outcome {codes : Codes} {s : State P N} {l : Label P N} {ok : Bool}
    {w : World Server} {phase : Phase P N}
    (h : operate codes s.world (s.clients l.client) l.op = some (ok, w, phase)) :
    Honest codes s l ↔
      (∀ force, acquisition l.op = some force →
        (ok = true ↔ w.jack.master = some l.client) ∧
          (force = false → s.world.jack.Taken l.client →
            w.jack.master = s.world.jack.master)) ∧
      (l.op = .releaseTimebase → (ok = true ↔ s.world.jack.master = some l.client)) := by
  constructor
  · intro hh
    exact hh ok w phase h
  · intro hh ok' w' phase' h'
    rw [h] at h'
    cases h'
    exact hh

/-- An acquisition that libjack was asked for is reported truthfully when it was forced or
there was no other master. -/
theorem acquire_honest_iff (s : Server) (client : JackClient) (force : Bool) :
    ((s.acquire client (!force)).master = some client ∧
      (force = false → s.Taken client → (s.acquire client (!force)).master = s.master)) ↔
      (force = true ∨ ¬s.Taken client) := by
  have hkeep : force = false → s.Taken client →
      (s.acquire client (!force)).master = s.master := by
    rintro rfl ht
    rw [Bool.not_false, acquire_of_taken ht]
  rw [master_acquire]
  simp only [Bool.not_eq_false']
  exact ⟨fun h => h.1, fun h => ⟨h, hkeep⟩⟩

theorem honest_activate_iff {codes : Codes} {s : State P N} {c : JackClient} (h : Inv s)
    {client : InactiveClient} (hphase : s.clients c = .inactive client)
    (processHandler : Option P) (notificationHandler : Option N) (flags : ActivateFlags) :
    Honest codes s ⟨c, .activate processHandler notificationHandler flags⟩ ↔
      Granted s ⟨c, .activate processHandler notificationHandler flags⟩ := by
  obtain ⟨u, hact, hjack⟩ :=
    activate_server codes client processHandler notificationHandler flags s.world
  have hoperate : operate codes s.world (s.clients c)
      (.activate processHandler notificationHandler flags) =
        some (true, u, .active (activated client processHandler notificationHandler s.world)) := by
    simp only [hphase, operate, hact]
  have hself : client.client.client = c := by
    have := h.address c
    rwa [hphase] at this
  rw [honest_iff_outcome hoperate]
  simp only [Granted, hphase, acquisition]
  by_cases hflag : flags.contains .timebase = true
  · simp only [hflag, if_true, Option.some.injEq, forall_eq', reduceCtorEq, false_implies,
      and_true, true_implies]
    cases processHandler with
    | none =>
      -- no acquisition is made, and the caller was not the master before
      have hnot : u.jack.master ≠ some c := by
        rw [hjack]
        intro hm
        obtain ⟨_, hactive, _⟩ := h.master c hm
        rw [hphase] at hactive
        cases hactive
      simp [hnot]
    | some handler =>
      rw [hjack, activatedServer, Option.isSome_some, if_pos ⟨rfl, hflag⟩, hself]
      simp only [true_and, true_iff]
      exact acquire_honest_iff _ _ _
  · simp [hflag]

theorem honest_acquire_iff {codes : Codes} {s : State P N} {c : JackClient} (h : Inv s)
    {client : ActiveClient P N} (hphase : s.clients c = .active client) (force : Bool) :
    Honest codes s ⟨c, .acquireTimebase force⟩ ↔ Granted s ⟨c, .acquireTimebase force⟩ := by
  have hself : client.client.client = c := by
    have := h.address c
    rwa [hphase] at this
  cases hdata : client.processData with
  | none =>
    have hoperate : operate codes s.world (s.clients c) (.acquireTimebase force) =
        some (false, s.world, .active client) := by
      simp [operate, hphase, ActiveClient.acquireTimebase, hdata, Except.isOk, Except.toBool]
    have hnot : s.world.jack.master ≠ some c := by
      intro hm
      obtain ⟨_, hactive, hsome⟩ := h.master c hm
      rw [hphase] at hactive
      cases hactive
      rw [hdata] at hsome
      cases hsome
    rw [honest_iff_outcome hoperate]
    simp [Granted, hphase, hdata, hnot]
  | some box =>
    have hoperate : operate codes s.world (s.clients c) (.acquireTimebase force) =
        some (true, (checkedCalls (serverJack codes) client.client.client
          [.setTimebase (!force) ⟨.timebaseCallback, box.ptr⟩] s.world).2, .active client) := by
      simp only [operate, hphase, ActiveClient.acquireTimebase, hdata, setTimebaseCallback,
        checkedCalls_ok]
      rfl
    rw [honest_iff_outcome hoperate, checkedCalls_timebase, hself]
    simp only [acquisition, Option.some.injEq, forall_eq', Granted, hphase, hdata,
      Option.isSome_some, true_implies, reduceCtorEq, false_implies, and_true, true_iff]
    exact acquire_honest_iff _ _ _

/-- One operation reports the truth exactly when the server had no reason to refuse it. -/
theorem honest_iff_granted {codes : Codes} {s : State P N} {l : Label P N} (h : Inv s) :
    Honest codes s l ↔ Granted s l := by
  obtain ⟨c, op⟩ := l
  cases hphase : s.clients c with
  | deactivated client =>
    have hgranted : Granted s ⟨c, op⟩ := by simp [Granted, hphase]
    refine ⟨fun _ => hgranted, fun _ ok w phase hop => ?_⟩
    simp [hphase, operate] at hop
  | inactive client =>
    cases op with
    | activate processHandler notificationHandler flags =>
      exact honest_activate_iff h hphase processHandler notificationHandler flags
    | _ => simp [Honest, Granted, hphase, operate]
  | active client =>
    cases op with
    | acquireTimebase force => exact honest_acquire_iff h hphase force
    | releaseTimebase =>
      have hoperate : operate codes s.world (s.clients c) .releaseTimebase =
          some (true, (s.world.call (serverJack codes) client.client.client
            .releaseTimebase).2, .active client) := by
        simp only [operate, hphase, ActiveClient.releaseTimebase,
          checkRet_of_nonneg (call_nonneg codes _ _ _)]
        rfl
      rw [honest_iff_outcome hoperate]
      simp [acquisition, Granted, hphase]
    | activate processHandler notificationHandler flags =>
      simp [Honest, Granted, hphase, operate]
    | _ => simp [Honest, Granted, hphase, acquisition]

/-- In every interleaving of any number of clients, every acquisition and release reports
the truth if and only if each acquisition is forced or finds no other master, each
activation with `TIMEBASE` has a process handler, and each release comes from the master. -/
theorem timebase_honest_iff (codes : Codes) (ls : List (Label P N)) :
    Run.Along (Honest codes) (step codes) (init : State P N) ls ↔
      Run.Along Granted (step codes) (init : State P N) ls :=
  Run.along_iff (fun _ _ _ hi hstep => inv_step hi hstep) (fun _ _ hi => honest_iff_granted hi) ls
    inv_init

/-- Client 1 is the master, and client 2's unforced `acquire_timebase` returns `Ok`. -/
def contendedRun : List (Label Unit Unit) :=
  [⟨1, .activate (some ()) none ⟨4⟩⟩, ⟨2, .activate (some ()) none ⟨0⟩⟩,
    ⟨2, .acquireTimebase false⟩]

theorem contendedRun_not_honest :
    ¬Run.Along (Honest ⟨16, 1, by decide, by decide⟩) (step ⟨16, 1, by decide, by decide⟩)
      (init : State Unit Unit) contendedRun := by
  intro h
  have hlast := ((h.2 _ rfl).2 _ rfl).1
  have hmaster := ((hlast true _ _ rfl).1 false rfl).1.mp rfl
  exact absurd hmaster (by decide)

end Jack2.Timebase
