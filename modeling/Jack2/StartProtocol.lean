import Jack2.Session
import Jack2.Transport

/-!
# Starting the transport

Any number of clients of one server, with the callback tables that their sessions leave.
While the transport is starting the server calls the sync callback of each client in each
cycle, counts it ready when the code is not zero, and rolls once all are ready or the sync
timeout has expired. Sync clients that other programs bring along answer with any codes.
-/
namespace Jack2.StartProtocol

open Run Transport

variable {P N Pos : Type*}

/-- `std::ops::ControlFlow<(), ()>`. -/
inductive ControlFlow where
  | continues | breaks
  deriving DecidableEq, Repr

/-- A handler's `sync`, as far as its result goes. -/
abbrev SyncHandler (Pos : Type*) := TransportState → Pos → ControlFlow

/-- The match at the end of `sync_callback`. -/
def ControlFlow.code : ControlFlow → Int
  | .continues => 0
  | .breaks => -1

def syncCallback (codes : StateCodes) (handler : SyncHandler Pos) (state : UInt32) (pos : Pos) :
    Int :=
  (handler (.fromJack codes state) pos).code

/-- A call of one client's sync callback: what the handler returned, and what libjack got. -/
structure Poll where
  client : ℕ
  returned : ControlFlow
  code : Int
  deriving DecidableEq, Repr

/-- A cycle in which the transport is starting. -/
structure Round where
  polled : List Poll
  others : List Int
  expired : Bool
  deriving DecidableEq, Repr

namespace Round

/-- The clients that the server counts ready. -/
def ready (r : Round) : List ℕ := (r.polled.filter (·.code ≠ 0)).map Poll.client

def allReady (r : Round) : Bool := r.polled.all (·.code ≠ 0) && r.others.all (· ≠ 0)

def next (r : Round) : TransportState :=
  if r.allReady || r.expired then .rolling else .starting

end Round

structure Server (P N : Type*) where
  clients : List (Session.State P N)
  transport : TransportState
  rounds : List Round

def init : Server P N := ⟨[], .stopped, []⟩

/-- An active client for which libjack holds the crate's sync callback. -/
def isSync (c : Session.State P N) : Bool :=
  match c.phase, c.world.jack .sync with
  | .active _, some entry => entry.fn = .syncCallback
  | _, _ => false

inductive Label (P N Pos : Type*) where
  | connect (client : Client)
  | client (i : ℕ) (label : Session.Label P N)
  | start
  | stop
  | locate
  | cycle (handlers : ℕ → SyncHandler Pos) (pos : Pos) (others : List Int) (expired : Bool)

def poll (codes : StateCodes) (handlers : ℕ → SyncHandler Pos) (pos : Pos) (i : ℕ) : Poll :=
  ⟨i, handlers i (.fromJack codes codes.starting) pos,
    syncCallback codes (handlers i) codes.starting pos⟩

def polls (codes : StateCodes) (handlers : ℕ → SyncHandler Pos) (pos : Pos)
    (clients : List (Session.State P N)) : List Poll :=
  (clients.zipIdx.filter fun c => isSync c.1).map fun c => poll codes handlers pos c.2

def step (codes : StateCodes) (s : Server P N) : Label P N Pos → Option (Server P N)
  | .connect client => some { s with clients := s.clients ++ [Session.init client] }
  | .client i label => do
    let c ← s.clients[i]?
    let c ← Session.step c label
    some { s with clients := s.clients.set i c }
  | .start =>
    some { s with transport := if s.transport = .stopped then .starting else s.transport }
  | .stop => some { s with transport := .stopped }
  | .locate =>
    some { s with transport := if s.transport = .rolling then .starting else s.transport }
  | .cycle handlers pos others expired =>
    if s.transport = .starting then
      let round := ⟨polls codes handlers pos s.clients, others, expired⟩
      some { s with transport := round.next, rounds := s.rounds ++ [round] }
    else some s

section Claims

/-- The handler of client `i` returned `Continue` whenever it was called. -/
def AlwaysContinues (rounds : List Round) (i : ℕ) : Prop :=
  ∀ r ∈ rounds, ∀ p ∈ r.polled, p.client = i → p.returned = .continues

/-- A handler that continues is ready when it is first asked, one that breaks is not, and
clients that all continue start the transport without the timeout. -/
structure Neutral (rounds : List Round) : Prop where
  breaks : ∀ r ∈ rounds, ∀ p ∈ r.polled, p.returned = .breaks → p.client ∉ r.ready
  continues : ∀ i, AlwaysContinues rounds i → ∀ pre r post, rounds = pre ++ r :: post →
    (∃ p ∈ r.polled, p.client = i) → (∀ q ∈ pre, ∀ p ∈ q.polled, p.client ≠ i) → i ∈ r.ready
  rolls : ∀ r ∈ rounds, r.others = [] → (∀ p ∈ r.polled, AlwaysContinues rounds p.client) →
    { r with expired := false }.next = .rolling

/-- A starting cycle finds no client with the crate's sync callback. -/
def Unpolled (s : Server P N) : Label P N Pos → Prop
  | .cycle _ _ _ _ => s.transport = .starting → ∀ c ∈ s.clients, isSync c = false
  | _ => True

end Claims

section Rounds

variable {codes : StateCodes}

/-- What a step does to the rounds. -/
theorem step_rounds {s t : Server P N} {l : Label P N Pos} (h : step codes s l = some t) :
    t.rounds = s.rounds ∧ Unpolled s l ∨
      ∃ handlers pos others expired, l = .cycle handlers pos others expired ∧
        s.transport = .starting ∧
        t.rounds = s.rounds ++ [⟨polls codes handlers pos s.clients, others, expired⟩] := by
  cases l with
  | connect client => cases h; exact .inl ⟨rfl, trivial⟩
  | client i label =>
    simp only [step, Option.bind_eq_bind, Option.bind_eq_some_iff] at h
    obtain ⟨c, -, d, -, ht⟩ := h
    cases ht
    exact .inl ⟨rfl, trivial⟩
  | start => cases h; exact .inl ⟨rfl, trivial⟩
  | stop => cases h; exact .inl ⟨rfl, trivial⟩
  | locate => cases h; exact .inl ⟨rfl, trivial⟩
  | cycle handlers pos others expired =>
    by_cases hstarting : s.transport = .starting
    · rw [step, if_pos hstarting] at h
      cases h
      exact .inr ⟨handlers, pos, others, expired, rfl, hstarting, rfl⟩
    · rw [step, if_neg hstarting] at h
      cases h
      exact .inl ⟨rfl, fun hs => absurd hs hstarting⟩

theorem polls_eq_nil_iff {handlers : ℕ → SyncHandler Pos} {pos : Pos}
    {clients : List (Session.State P N)} :
    polls codes handlers pos clients = [] ↔ ∀ c ∈ clients, isSync c = false := by
  rw [polls, List.map_eq_nil_iff, List.filter_eq_nil_iff]
  constructor
  · intro h c hc
    obtain ⟨i, hi⟩ := List.mem_iff_getElem?.mp hc
    have hnot := h (c, i) (List.mem_zipIdx_iff_getElem?.mpr hi)
    simpa using hnot
  · rintro h ⟨c, i⟩ hc
    simp [h c (List.mem_of_getElem? (List.mem_zipIdx_iff_getElem?.mp hc))]

/-- The rounds of a run are unpolled exactly when its cycles are. -/
theorem rounds_unpolled_iff {s u : Server P N} {ls : List (Label P N Pos)}
    (h : run (step codes) s ls = some u) :
    (∀ r ∈ u.rounds, r.polled = []) ↔
      (∀ r ∈ s.rounds, r.polled = []) ∧ Along Unpolled (step codes) s ls := by
  induction ls generalizing s with
  | nil =>
    cases h
    simp [Along]
  | cons l ls ih =>
    obtain ⟨t, ht, hrest⟩ := run_cons_some h
    rw [ih hrest]
    simp only [Along, ht, Option.some.injEq, forall_eq']
    rcases step_rounds ht with ⟨hrounds, hun⟩ | ⟨handlers, pos, others, expired, rfl, hstart, hrounds⟩
    · rw [hrounds]
      simp [hun]
    · have hiff : Unpolled s (Label.cycle handlers pos others expired) ↔
          polls codes handlers pos s.clients = [] := by
        rw [polls_eq_nil_iff]
        simp [Unpolled, hstart]
      rw [hrounds, hiff]
      simp only [List.mem_append, List.mem_singleton, or_imp, forall_and, forall_eq]
      exact and_assoc

/-- Every poll of a run carries the code of what the handler returned. -/
def Coded (rounds : List Round) : Prop := ∀ r ∈ rounds, ∀ p ∈ r.polled, p.code = p.returned.code

theorem coded_step {s t : Server P N} {l : Label P N Pos} (h : step codes s l = some t)
    (hs : Coded s.rounds) : Coded t.rounds := by
  rcases step_rounds h with ⟨hrounds, -⟩ | ⟨handlers, pos, others, expired, -, -, hrounds⟩
  · rw [hrounds]
    exact hs
  · rw [hrounds]
    intro r hr p hp
    rcases List.mem_append.mp hr with hr | hr
    · exact hs r hr p hp
    · rw [List.mem_singleton.mp hr] at hp
      obtain ⟨c, -, rfl⟩ := List.mem_map.mp hp
      rfl

theorem coded_run {u : Server P N} {ls : List (Label P N Pos)}
    (h : run (step codes) init ls = some u) : Coded u.rounds := by
  have hstep : ∀ (s : Server P N) (l : Label P N Pos) (t : Server P N),
      Coded s.rounds → step codes s l = some t → Coded t.rounds := by
    intro s l t hs ht
    exact coded_step ht hs
  apply run_invariant hstep h
  intro r hr
  cases hr

end Rounds

section Readiness

theorem code_ne_zero_iff {p : Poll} (h : p.code = p.returned.code) :
    p.code ≠ 0 ↔ p.returned = .breaks := by
  rw [h]
  cases p.returned with
  | continues => simp [ControlFlow.code]
  | breaks => simp [ControlFlow.code]

variable {r : Round} (hcoded : ∀ p ∈ r.polled, p.code = p.returned.code)

include hcoded

/-- The server counts ready the clients whose handlers break. -/
theorem mem_ready {i : ℕ} :
    i ∈ r.ready ↔ ∃ p ∈ r.polled, p.returned = .breaks ∧ p.client = i := by
  simp only [Round.ready, List.mem_map, List.mem_filter, decide_eq_true_eq, and_assoc]
  constructor
  · rintro ⟨p, hp, hne, hi⟩
    exact ⟨p, hp, (code_ne_zero_iff (hcoded p hp)).mp hne, hi⟩
  · rintro ⟨p, hp, hb, hi⟩
    exact ⟨p, hp, (code_ne_zero_iff (hcoded p hp)).mpr hb, hi⟩

/-- Short of the timeout, the transport starts when every handler breaks. -/
theorem next_eq_rolling_iff :
    r.next = .rolling ↔
      ((∀ p ∈ r.polled, p.returned = .breaks) ∧ ∀ code ∈ r.others, code ≠ 0) ∨ r.expired := by
  have hready : r.allReady = true ↔
      (∀ p ∈ r.polled, p.returned = .breaks) ∧ ∀ code ∈ r.others, code ≠ 0 := by
    simp only [Round.allReady, Bool.and_eq_true, List.all_eq_true, decide_eq_true_eq]
    apply and_congr_left'
    constructor
    · intro h p hp
      exact (code_ne_zero_iff (hcoded p hp)).mp (h p hp)
    · intro h p hp
      exact (code_ne_zero_iff (hcoded p hp)).mpr (h p hp)
  rw [← hready, Round.next]
  cases r.allReady <;> cases r.expired <;> simp

end Readiness

section Neutrality

variable {rounds : List Round}

/-- A client that was polled was polled for a first time. -/
theorem exists_first_poll {r : Round} (hr : r ∈ rounds) {p : Poll} (hp : p ∈ r.polled) :
    ∃ pre q post, rounds = pre ++ q :: post ∧ (∃ p' ∈ q.polled, p'.client = p.client) ∧
      ∀ q' ∈ pre, ∀ p' ∈ q'.polled, p'.client ≠ p.client := by
  let asks : Round → Bool := fun q => q.polled.any fun p' => p'.client = p.client
  have hasks : asks r = true := by
    simp only [asks, List.any_eq_true, decide_eq_true_eq]
    exact ⟨p, hp, rfl⟩
  obtain ⟨q, hq⟩ := Option.isSome_iff_exists.mp (List.find?_isSome.mpr ⟨r, hr, hasks⟩)
  obtain ⟨hfound, pre, post, hsplit, hpre⟩ := List.find?_eq_some_iff_append.mp hq
  refine ⟨pre, q, post, hsplit, ?_, ?_⟩
  · simpa [asks] using hfound
  · intro q' hq' p' hp' he
    have hnot := hpre q' hq'
    simp only [asks, Bool.not_eq_true', List.any_eq_false, decide_eq_true_eq] at hnot
    exact hnot p' hp' he

/-- Whatever a client's handler returns, its polls break one of the rules. -/
theorem unpolled_of_neutral (hcoded : Coded rounds) (h : Neutral rounds) :
    ∀ r ∈ rounds, r.polled = [] := by
  intro r hr
  apply List.eq_nil_iff_forall_not_mem.mpr
  intro p hp
  by_cases halways : AlwaysContinues rounds p.client
  · obtain ⟨pre, q, post, hsplit, hasked, hfirst⟩ := exists_first_poll hr hp
    have hq : q ∈ rounds := by simp [hsplit]
    have hready := h.continues p.client halways pre q post hsplit hasked hfirst
    obtain ⟨p', hp', hbreaks, hclient⟩ := (mem_ready (hcoded q hq)).mp hready
    have hcontinues := halways q hq p' hp' hclient
    rw [hbreaks] at hcontinues
    cases hcontinues
  · simp only [AlwaysContinues, not_forall] at halways
    obtain ⟨q, hq, p', hp', hclient, hreturned⟩ := halways
    have hbreaks : p'.returned = .breaks := by
      cases hret : p'.returned with
      | continues => exact absurd hret hreturned
      | breaks => rfl
    exact h.breaks q hq p' hp' hbreaks ((mem_ready (hcoded q hq)).mpr ⟨p', hp', hbreaks, rfl⟩)

theorem neutral_of_unpolled (h : ∀ r ∈ rounds, r.polled = []) : Neutral rounds := by
  constructor
  · intro r hr p hp
    rw [h r hr] at hp
    cases hp
  · intro i _ pre r post hsplit hasked
    obtain ⟨p, hp, -⟩ := hasked
    rw [h r (by simp [hsplit])] at hp
    cases hp
  · intro r hr hothers _
    rw [next_eq_rolling_iff (by simp [h r hr])]
    exact .inl (by simp [h r hr, hothers])

end Neutrality

section Runs

variable {codes : StateCodes}

/-- A start is neutral exactly as long as no starting cycle asks a client for its handler's
answer. -/
theorem sync_neutral_iff {ls : List (Label P N Pos)} {s : Server P N}
    (h : run (step codes) init ls = some s) :
    Neutral s.rounds ↔ Along Unpolled (step codes) (init : Server P N) ls := by
  have hrounds := rounds_unpolled_iff h
  have hcoded := coded_run h
  constructor
  · intro hneutral
    exact (hrounds.mp (unpolled_of_neutral hcoded hneutral)).2
  · intro halong
    exact neutral_of_unpolled (hrounds.mpr ⟨fun _ hr => absurd hr List.not_mem_nil, halong⟩)

/-- The codes of the C header. -/
def stateCodes : StateCodes := ⟨0, 1, 3, 4⟩

/-- Every call of libjack succeeds. -/
def succeeds : Call → Int := fun _ => 0

/-- Two clients with the sync callback, one set by the activation and one afterwards, and a
cycle in which both handlers return `Continue`. -/
def stalling : List (Label Unit Unit Unit) :=
  [.connect ⟨1, 1⟩, .connect ⟨2, 2⟩, .client 0 ⟨.activate (some ()) none .sync, succeeds⟩,
    .client 1 ⟨.activate (some ()) none ⟨0⟩, succeeds⟩, .client 1 ⟨.registerSyncCallback, succeeds⟩,
    .start, .cycle (fun _ _ _ => .continues) () [] false]

theorem stalling_run : ∃ s, run (step stateCodes) (init : Server Unit Unit) stalling = some s ∧
    s.transport = .starting ∧
      s.rounds = [⟨[⟨0, .continues, 0⟩, ⟨1, .continues, 0⟩], [], false⟩] := by
  have hmap : (run (step stateCodes) (init : Server Unit Unit) stalling).map
      (fun s => (s.transport, s.rounds)) =
        some (.starting, [⟨[⟨0, .continues, 0⟩, ⟨1, .continues, 0⟩], [], false⟩]) := rfl
  obtain ⟨s, hs, hfacts⟩ := Option.map_eq_some_iff.mp hmap
  exact ⟨s, hs, congrArg Prod.fst hfacts, congrArg Prod.snd hfacts⟩

theorem sync_neutral_iff_stalling : ∃ s, run (step stateCodes) init stalling = some s ∧
    s.rounds ≠ [] ∧
      (Neutral s.rounds ↔ Along Unpolled (step stateCodes) (init : Server Unit Unit) stalling) := by
  obtain ⟨s, hs, -, hrounds⟩ := stalling_run
  exact ⟨s, hs, by simp [hrounds], sync_neutral_iff hs⟩

/-- Handlers that only return `Continue` leave the transport starting. -/
theorem continuing_handlers_stall :
    ∃ s, run (step stateCodes) (init : Server Unit Unit) stalling = some s ∧
      s.transport = .starting ∧ ¬ Neutral s.rounds := by
  obtain ⟨s, hs, htransport, hrounds⟩ := stalling_run
  refine ⟨s, hs, htransport, ?_⟩
  intro h
  have hready := h.continues 0 (by simp [AlwaysContinues, hrounds]) [] _ [] hrounds (by simp) (by simp)
  revert hready
  decide

end Runs

end Jack2.StartProtocol
