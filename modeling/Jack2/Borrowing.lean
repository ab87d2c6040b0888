import Mathlib.Data.List.AList
import Jack2.Registration

/-!
# Iterators that consult the client

`Client::register_ports` and `Client::unregister_ports` for an iterator whose `next` may
call the lookups of the same client. `Client.ports` is a `RefCell`. A shared borrow ends
with the expression it is made in, where no code of the user runs, so the flag of the cell
only says whether the map is borrowed mutably. A `MainThreadContext` does not panic here.
-/
namespace Jack2.Borrowing

open Registration (PortInfo Item)

inductive Lookup where
  | portByOwnedUuid (port : OwnedPortUuid)
  | portRename (port : OwnedPortUuid) (portName : CString)
  | portDisconnect (port : OwnedPortUuid)
  deriving DecidableEq

/-- The `Port` of `port_by_owned_uuid`, or the `Result` of the other two. -/
inductive Reply where
  | port (port : Option JackPort)
  | result (r : Except Error Unit)

/-- A finite iterator. On the way to its next item it consults the client any number of
times, and what it does then may depend on the reply. -/
inductive Iter (α : Type*) where
  | lookup (call : Lookup) (next : Reply → Iter α)
  | item (a : α) (rest : Iter α)
  | done

/-- The calls of `jack_port_rename` and `jack_port_disconnect`. -/
inductive Request where
  | portRename (port : JackPort) (portName : CString)
  | portDisconnect (port : JackPort)
  deriving DecidableEq

/-- The code of a request may depend on all requests up to it. -/
structure Library extends Registration.Library where
  code : List Request → Int

structure State (D : Type*) where
  client : Registration.Client D
  requests : List Request
  pendingPortGc : Bool
  collectors : ℕ
  /-- `Client.ports` is borrowed mutably. -/
  borrowed : Bool

/-- The panics of `RefCell::borrow` and `RefCell::borrow_mut`. -/
inductive BorrowPanic where
  | borrow | borrowMut
  deriving DecidableEq, Repr

/-- The end of a call that unwinds from a `RefCell` is an error here. -/
abbrev Result (D α : Type*) := Except BorrowPanic (Outcome α) × State D

variable {sys : JackPortFlags} {D α β : Type*}

/-- A step of the call, unless it has unwound. -/
def andThen (r : Result D α) (f : α → State D → Result D β) : Result D β :=
  match r with
  | (.ok (.done a), s) => f a s
  | (.ok .panic, s) => (.ok .panic, s)
  | (.ok .undefined, s) => (.ok .undefined, s)
  | (.error e, s) => (.error e, s)

@[simp] theorem andThen_done (a : α) (s : State D) (f : α → State D → Result D β) :
    andThen (.ok (.done a), s) f = f a s := rfl
@[simp] theorem andThen_error (e : BorrowPanic) (s : State D) (f : α → State D → Result D β) :
    andThen (.error e, s) f = (.error e, s) := rfl

/-- What runs while the guard of `borrow_mut` is alive. Unwinding drops the guard as well. -/
def borrowMut (s : State D) (f : State D → Result D α) : Result D α :=
  if s.borrowed then (.error .borrowMut, s)
  else ((f { s with borrowed := true }).1, { (f { s with borrowed := true }).2 with borrowed := false })

/-- What runs while the guard of `borrow` is alive. -/
def borrow (s : State D) (f : State D → Result D α) : Result D α :=
  if s.borrowed then (.error .borrow, s) else f s

/-- A foreign call for the port that is found in the map. -/
def command (lib : Library) (request : JackPort → Request) (port : Option JackPort)
    (s : State D) : Reply × State D :=
  match port with
  | none => (.result (.error .invalidOption), s)
  | some port =>
    let s := { s with requests := s.requests ++ [request port] }
    (.result (checkRet (lib.code s.requests)), s)

/-- `self.ports.borrow().get(&port)`, as far as the port. -/
def State.get (s : State D) (port : OwnedPortUuid) : Option JackPort :=
  (s.client.ports.lookup port).map fun outer => outer.ptr.port

/-- What a lookup does once it has the map. -/
def answer (lib : Library) (s : State D) : Lookup → Reply × State D
  | .portByOwnedUuid port => (.port (s.get port), s)
  | .portRename port portName => command lib (.portRename · portName) (s.get port) s
  | .portDisconnect port => command lib .portDisconnect (s.get port) s

def lookup (lib : Library) (call : Lookup) (s : State D) : Result D Reply :=
  borrow s fun s => (.ok (.done (answer lib s call).1), (answer lib s call).2)

/-- The first item, as `Peekable::peek` gets it, and what the iterator is after it. -/
def peek (lib : Library) : Iter α → State D → Result D (Option (α × Iter α))
  | .lookup call next, s => andThen (lookup lib call s) fun r s => peek lib (next r) s
  | .item a rest, s => (.ok (.done (some (a, rest))), s)
  | .done, s => (.ok (.done none), s)

section Unregister

/-- `port_map.remove(&port)` -/
def State.removePort (s : State D) (port : OwnedPortUuid) : State D :=
  { s with client := { s.client with ports := s.client.ports.erase port } }

/-- `bufs.back_mut().ports = ports.clone()` and the swap. -/
def State.publish (s : State D) : State D := { s with client := Registration.publish s.client }

/-- The loop of `unregister_ports` over an iterator. -/
def removing (lib : Library) : Iter OwnedPortUuid → State D → Result D Unit
  | .lookup call next, s => andThen (lookup lib call s) fun r s => removing lib (next r) s
  | .item port rest, s => removing lib rest (s.removePort port)
  | .done, s => (.ok (.done ()), s)

def schedule (s : State D) : State D :=
  if s.pendingPortGc then s
  else { s with pendingPortGc := true, collectors := s.collectors + 1 }

def unregisterPorts (lib : Library) (ports : Iter OwnedPortUuid) (s : State D) : Result D Unit :=
  andThen (peek lib ports s) fun peeked s =>
    match peeked with
    | none => (.ok (.done ()), s)
    | some (port, rest) =>
      andThen
        (borrowMut s fun s =>
          andThen (removing lib rest (s.removePort port)) fun _ s => (.ok (.done ()), s.publish))
        fun _ s => (.ok (.done ()), schedule s)

end Unregister

section Register

/-- The closure that `register_ports` maps over the items. It does not touch the cell. -/
def registerPort (lib : Library) (i : ℕ) (info : PortInfo sys D) (s : State D) :
    Result D (Item D) :=
  let r := Registration.registerPort lib.toLibrary i info s.client
  (.ok r.1, { s with client := r.2 })

/-- The guard is a temporary of the closure that inserts the port. -/
def insertPort (item : Item D) (s : State D) :
    Result D (Except Registration.PortRegisterError OwnedPortUuid) :=
  match item with
  | .ok port => borrowMut s fun s =>
      let r := Registration.insertPort s.client (.ok port)
      (.ok (.done r.1), { s with client := r.2 })
  | .error e => (.ok (.done (.error e)), s)

/-- `ports.map(..).collect()`, from the item at an index on. -/
def collect (lib : Library) : ℕ → Iter (PortInfo sys D) → State D →
    Result D (List (Except Registration.PortRegisterError OwnedPortUuid))
  | i, .lookup call next, s => andThen (lookup lib call s) fun r s => collect lib i (next r) s
  | i, .item info rest, s =>
    andThen (registerPort lib i info s) fun item s =>
      andThen (insertPort item s) fun port s =>
        andThen (collect lib (i + 1) rest s) fun ports s => (.ok (.done (port :: ports)), s)
  | _, .done, s => (.ok (.done []), s)

def registerPorts (lib : Library) (infos : Iter (PortInfo sys D)) (s : State D) :
    Result D (List (Except Registration.PortRegisterError OwnedPortUuid)) :=
  andThen (peek lib infos s) fun peeked s =>
    match peeked with
    | none => (.ok (.done []), s)
    | some (info, rest) =>
      andThen (registerPort lib 0 info s) fun item s =>
        andThen (insertPort item s) fun port s =>
          andThen (collect lib 1 rest s) fun ports s =>
            borrow s fun s => (.ok (.done (port :: ports)), s.publish)

end Register

inductive Op (sys : JackPortFlags) (D : Type*) where
  | registerPorts (infos : Iter (PortInfo sys D))
  | unregisterPorts (ports : Iter OwnedPortUuid)

/-- A client between two calls: no guard is alive. -/
structure Idle (D : Type*) extends State D where
  unborrowed : borrowed = false

/-- The ports that an iterator lists, if its lookups are answered. -/
def listed (lib : Library) : Iter OwnedPortUuid → State D → List OwnedPortUuid
  | .lookup call next, s => listed lib (next (answer lib s call).1) (answer lib s call).2
  | .item port rest, s => port :: listed lib rest (s.removePort port)
  | .done, _ => []

/-- No borrow conflicts, and `unregister_ports` takes out exactly what it is given. -/
def Sound (lib : Library) (s : State D) : Op sys D → Prop
  | .registerPorts infos => ∀ e, (registerPorts lib infos s).1 ≠ .error e
  | .unregisterPorts ports =>
    (unregisterPorts lib ports s).1 = .ok (.done ()) ∧
      ∀ uuid, (unregisterPorts lib ports s).2.client.ports.lookup uuid =
        if uuid ∈ listed lib ports s then none else s.client.ports.lookup uuid

/-- The iterator consults the client no more. -/
def Iter.quiet : Iter α → Bool
  | .lookup _ _ => false
  | .item _ rest => rest.quiet
  | .done => true

/-- It consults the client for its first item at most. -/
def quietAfterFirst (lib : Library) : Iter α → State D → Bool
  | .lookup call next, s => quietAfterFirst lib (next (answer lib s call).1) (answer lib s call).2
  | .item _ rest, _ => rest.quiet
  | .done, _ => true

def Permitted (lib : Library) (s : State D) : Op sys D → Prop
  | .registerPorts _ => True
  | .unregisterPorts ports => quietAfterFirst lib ports s = true

section Answers

variable (lib : Library) (s : State D)

theorem command_frame (request : JackPort → Request) (port : Option JackPort) :
    (command lib request port s).2.client = s.client ∧
      (command lib request port s).2.borrowed = s.borrowed := by
  cases port <;> exact ⟨rfl, rfl⟩

theorem answer_frame (call : Lookup) : (answer lib s call).2.client = s.client ∧
    (answer lib s call).2.borrowed = s.borrowed := by
  cases call with
  | portByOwnedUuid port => exact ⟨rfl, rfl⟩
  | portRename port portName => exact command_frame lib s _ _
  | portDisconnect port => exact command_frame lib s _ _

theorem lookup_unborrowed {lib : Library} {s : State D} (h : s.borrowed = false) (call : Lookup) :
    lookup lib call s = (.ok (.done (answer lib s call).1), (answer lib s call).2) := by
  simp [lookup, borrow, h]

theorem lookup_borrowed {lib : Library} {s : State D} (h : s.borrowed = true) (call : Lookup) :
    lookup lib call s = (.error .borrow, s) := by
  simp [lookup, borrow, h]

end Answers

section Loop

variable (lib : Library)

/-- The whole loop runs under the guard, so a single lookup ends it. -/
theorem removing_conflict (ports : Iter OwnedPortUuid) {s : State D} (hs : s.borrowed = true)
    (h : ports.quiet = false) : (removing lib ports s).1 = .error .borrow := by
  induction ports generalizing s with
  | lookup call next ih => simp [removing, lookup_borrowed hs]
  | item port rest ih => exact ih hs h
  | done => cases h

theorem removing_quiet (ports : Iter OwnedPortUuid) (s : State D) (h : ports.quiet = true) :
    ∃ t, removing lib ports s = (.ok (.done ()), t) ∧
      ∀ uuid, t.client.ports.lookup uuid =
        if uuid ∈ listed lib ports s then none else s.client.ports.lookup uuid := by
  induction ports generalizing s with
  | lookup call next ih => cases h
  | item port rest ih =>
    obtain ⟨t, ht, hports⟩ := ih (s.removePort port) h
    refine ⟨t, ht, fun uuid => ?_⟩
    rw [hports]
    by_cases huuid : uuid = port
    · subst huuid
      simp [listed, State.removePort]
    · simp [listed, huuid, State.removePort, AList.lookup_erase_ne huuid]
  | done => exact ⟨s, rfl, fun uuid => (if_neg List.not_mem_nil).symm⟩

/-- The items of a quiet iterator do not depend on the client. -/
theorem listed_congr (ports : Iter OwnedPortUuid) (h : ports.quiet = true) (s t : State D) :
    listed lib ports s = listed lib ports t := by
  induction ports generalizing s t with
  | lookup call next ih => cases h
  | item port rest ih => exact congrArg (port :: ·) (ih h _ _)
  | done => rfl

@[simp] theorem schedule_client (s : State D) : (schedule s).client = s.client := by
  unfold schedule
  split <;> rfl

@[simp] theorem schedule_borrowed (s : State D) : (schedule s).borrowed = s.borrowed := by
  unfold schedule
  split <;> rfl

theorem unregisterPorts_lookup (call : Lookup) (next : Reply → Iter OwnedPortUuid) {s : State D}
    (hs : s.borrowed = false) : unregisterPorts lib (.lookup call next) s =
      unregisterPorts lib (next (answer lib s call).1) (answer lib s call).2 := by
  simp only [unregisterPorts, peek, lookup_unborrowed hs, andThen_done]

theorem unregisterPorts_conflict (port : OwnedPortUuid) {rest : Iter OwnedPortUuid} {s : State D}
    (hs : s.borrowed = false) (h : rest.quiet = false) :
    (unregisterPorts lib (.item port rest) s).1 = .error .borrow := by
  have hloop := removing_conflict lib rest
    (s := State.removePort { s with borrowed := true } port) rfl h
  simp only [unregisterPorts, peek, andThen_done, borrowMut, hs, Bool.false_eq_true, if_false]
  cases hr : removing lib rest (State.removePort { s with borrowed := true } port) with
  | mk r t =>
    rw [hr] at hloop
    obtain rfl : r = .error .borrow := hloop
    rfl

theorem unregisterPorts_quiet (port : OwnedPortUuid) {rest : Iter OwnedPortUuid} {s : State D}
    (hs : s.borrowed = false) (h : rest.quiet = true) :
    ∃ t, unregisterPorts lib (.item port rest) s = (.ok (.done ()), t) ∧
      ∀ uuid, t.client.ports.lookup uuid =
        if uuid ∈ listed lib (.item port rest) s then none else s.client.ports.lookup uuid := by
  obtain ⟨t, ht, hports⟩ :=
    removing_quiet lib (.item port rest) { s with borrowed := true } h
  simp only [removing] at ht
  refine ⟨schedule { t.publish with borrowed := false }, ?_, fun uuid => ?_⟩
  · simp only [unregisterPorts, peek, andThen_done, borrowMut, hs, Bool.false_eq_true, if_false, ht]
  · have hlisted : listed lib (.item port rest) s =
        listed lib (.item port rest) { s with borrowed := true } :=
      listed_congr lib (.item port rest) h _ _
    rw [schedule_client, hlisted]
    exact hports uuid

/-- The first item is looked for before the map is borrowed, and the others after that. -/
theorem unregisterPorts_sound_iff (ports : Iter OwnedPortUuid) {s : State D}
    (hs : s.borrowed = false) :
    Sound lib s (.unregisterPorts ports : Op sys D) ↔ quietAfterFirst lib ports s = true := by
  induction ports generalizing s with
  | lookup call next ih =>
    obtain ⟨hclient, hborrowed⟩ := answer_frame lib s call
    have hnext := ih (answer lib s call).1 (hborrowed.trans hs)
    simp only [Sound, unregisterPorts_lookup lib call next hs, listed, quietAfterFirst] at hnext ⊢
    rwa [hclient] at hnext
  | item port rest ih =>
    simp only [Sound, quietAfterFirst]
    cases hquiet : rest.quiet with
    | true =>
      obtain ⟨t, ht, hports⟩ := unregisterPorts_quiet lib port hs hquiet
      simp only [ht, iff_true, true_and]
      exact hports
    | false =>
      simp [unregisterPorts_conflict lib port hs hquiet]
  | done => simp [Sound, unregisterPorts, peek, listed, quietAfterFirst]

end Loop

section Released

variable {lib : Library}

/-- A part of a call that meets no conflict and leaves no guard behind. -/
structure Clean (r : Result D α) : Prop where
  done : ∀ e, r.1 ≠ .error e
  unborrowed : r.2.borrowed = false

theorem clean_andThen {r : Result D α} {f : α → State D → Result D β} (h : Clean r)
    (hf : ∀ a s, s.borrowed = false → Clean (f a s)) : Clean (andThen r f) := by
  obtain ⟨r, s⟩ := r
  cases r with
  | error e => exact absurd rfl (h.done e)
  | ok r =>
    cases r with
    | done a => exact hf a s h.unborrowed
    | panic => exact ⟨nofun, h.unborrowed⟩
    | undefined => exact ⟨nofun, h.unborrowed⟩

theorem lookup_clean (call : Lookup) {s : State D} (hs : s.borrowed = false) :
    Clean (lookup lib call s) := by
  rw [lookup_unborrowed hs]
  exact ⟨nofun, (answer_frame lib _ call).2.trans hs⟩

theorem peek_clean (iter : Iter α) {s : State D} (hs : s.borrowed = false) :
    Clean (peek lib iter s) := by
  induction iter generalizing s with
  | lookup call next ih => exact clean_andThen (lookup_clean call hs) fun r _ h => ih r h
  | item a rest ih => exact ⟨nofun, hs⟩
  | done => exact ⟨nofun, hs⟩

theorem insertPort_clean (item : Item D) {s : State D} (hs : s.borrowed = false) :
    Clean (insertPort item s) := by
  cases item with
  | ok port =>
    simp only [insertPort, borrowMut, hs, Bool.false_eq_true, if_false]
    exact ⟨nofun, rfl⟩
  | error e => exact ⟨nofun, hs⟩

theorem collect_clean (infos : Iter (PortInfo sys D)) (i : ℕ) {s : State D}
    (hs : s.borrowed = false) : Clean (collect lib i infos s) := by
  induction infos generalizing i s with
  | lookup call next ih => exact clean_andThen (lookup_clean call hs) fun r _ h => ih r i h
  | item info rest ih =>
    have hregister : Clean (registerPort lib i info s) := ⟨nofun, hs⟩
    apply clean_andThen hregister
    intro item s hs
    apply clean_andThen (insertPort_clean item hs)
    intro port s hs
    exact clean_andThen (ih (i + 1) hs) fun ports s hs => ⟨nofun, hs⟩
  | done => exact ⟨nofun, hs⟩

/-- No guard is alive when the iterator runs, and none when the map is cloned. -/
theorem registerPorts_clean (infos : Iter (PortInfo sys D)) {s : State D}
    (hs : s.borrowed = false) : Clean (registerPorts lib infos s) := by
  apply clean_andThen (peek_clean infos hs)
  intro peeked s hs
  cases peeked with
  | none => exact ⟨nofun, hs⟩
  | some first =>
    have hregister : Clean (registerPort lib 0 first.1 s) := ⟨nofun, hs⟩
    apply clean_andThen hregister
    intro item s hs
    apply clean_andThen (insertPort_clean item hs)
    intro port s hs
    apply clean_andThen (collect_clean first.2 1 hs)
    intro ports s hs
    simp only [borrow, hs, Bool.false_eq_true, if_false]
    exact ⟨nofun, hs⟩

theorem released_andThen {r : Result D α} {f : α → State D → Result D β}
    (h : r.2.borrowed = false) (hf : ∀ a s, s.borrowed = false → (f a s).2.borrowed = false) :
    (andThen r f).2.borrowed = false := by
  obtain ⟨(_ | a | _ | _), s⟩ := r
  · exact h
  · exact hf a s h
  · exact h
  · exact h

theorem borrowMut_released {s : State D} (hs : s.borrowed = false) (f : State D → Result D α) :
    (borrowMut s f).2.borrowed = false := by
  simp [borrowMut, hs]

theorem unregisterPorts_released (ports : Iter OwnedPortUuid) {s : State D}
    (hs : s.borrowed = false) : (unregisterPorts lib ports s).2.borrowed = false := by
  apply released_andThen (peek_clean ports hs).unborrowed
  intro peeked s hs
  cases peeked with
  | none => exact hs
  | some first =>
    exact released_andThen (borrowMut_released hs _) fun _ s hs => (schedule_borrowed s).trans hs

/-- The state in which a call ends, also when it unwinds. -/
def State.after (lib : Library) (s : State D) : Op sys D → State D
  | .registerPorts infos => (registerPorts lib infos s).2
  | .unregisterPorts ports => (unregisterPorts lib ports s).2

theorem after_unborrowed {s : State D} (hs : s.borrowed = false) (op : Op sys D) :
    (s.after lib op).borrowed = false := by
  cases op with
  | registerPorts infos => exact (registerPorts_clean infos hs).unborrowed
  | unregisterPorts ports => exact unregisterPorts_released ports hs

/-- A call takes an idle client to an idle client. -/
def Idle.after (lib : Library) (s : Idle D) (op : Op sys D) : Idle D where
  toState := s.toState.after lib op
  unborrowed := after_unborrowed s.unborrowed op

end Released

/-- For every client and every finite iterator, `register_ports` meets no borrow conflict,
and `unregister_ports` meets none and removes what is listed exactly if its iterator
consults the client for no item but the first. -/
theorem lazy_iterators_sound_iff (lib : Library) (s : Idle D) (op : Op sys D) :
    Sound lib s.toState op ↔ Permitted lib s.toState op := by
  cases op with
  | registerPorts infos =>
    exact iff_of_true (registerPorts_clean infos s.unborrowed).done trivial
  | unregisterPorts ports => exact unregisterPorts_sound_iff lib ports s.unborrowed

section Example

/-- libjack creates no ports, and every command succeeds. -/
def quietLibrary : Library := ⟨⟨fun _ => none, fun _ => 0⟩, fun _ => 0⟩

def newClient : Idle Unit := ⟨⟨Registration.newClient, [], false, 0, false⟩, rfl⟩

/-- It looks a port up before the second item. -/
def filtered : Iter OwnedPortUuid :=
  .item ⟨⟨7⟩⟩ (.lookup (.portByOwnedUuid ⟨⟨9⟩⟩) fun
    | .port (some _) => .item ⟨⟨9⟩⟩ .done
    | _ => .done)

theorem filtered_not_sound :
    (unregisterPorts quietLibrary filtered newClient.toState).1 = .error .borrow ∧
      ¬ Sound quietLibrary newClient.toState (.unregisterPorts filtered : Op .header Unit) := by
  refine ⟨rfl, fun h => ?_⟩
  cases h.1

end Example

section Steps

open Registration (SameKeys)

variable {lib : Library}

theorem mem_iff_of_lookup {ports : List OwnedPortUuid} {m m' : Registration.PortMap D}
    (h : ∀ uuid, m'.lookup uuid = if uuid ∈ ports then none else m.lookup uuid)
    (uuid : OwnedPortUuid) : uuid ∈ m' ↔ uuid ∈ m ∧ uuid ∉ ports := by
  rw [← AList.lookup_isSome, ← AList.lookup_isSome, h]
  split <;> simp [*]

/-- Where no borrow conflicts, the steps of the main thread for the listed ports come to
the same map. -/
theorem unregister_ports_steps {s : Idle D} {t : Ports.State} {ports : Iter OwnedPortUuid}
    (hpc : t.pc = .idle) (hsame : SameKeys t.ports s.client.ports)
    (hne : listed lib ports s.toState ≠ [])
    (h : quietAfterFirst lib ports s.toState = true) :
    ∃ n u, Ports.run t (Ports.callRun (.unregisterPorts (listed lib ports s.toState)) n) = some u ∧
      u.pc = .idle ∧
      SameKeys u.ports (unregisterPorts lib ports s.toState).2.client.ports := by
  have hsound : Sound lib s.toState (.unregisterPorts ports : Op .header D) :=
    (unregisterPorts_sound_iff lib ports s.unborrowed).mpr h
  obtain ⟨n, u, hrun, hu⟩ := Ports.unregister_run hpc hne
  refine ⟨n, u, hrun, hu.pc, fun uuid => ?_⟩
  rw [hu.ports, Ports.mem_eraseAll, hsame, mem_iff_of_lookup hsound.2]

end Steps

end Jack2.Borrowing
