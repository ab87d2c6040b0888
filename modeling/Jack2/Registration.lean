import Mathlib.Data.List.AList
import Jack2.Calls
import Jack2.Identifiers
import Jack2.PortFlags
import Jack2.TripleBuffer

/-!
# Registering a list of ports

`Client::register_ports` with all that it reads of each `PortInfo` and all that it stores
for each port. The closure that asks libjack runs lazily: for the first item when `peek`
looks for one, for the others when `collect` takes them.
-/
namespace Jack2.Registration

/-- `CString::new` -/
def CString.new (bytes : List UInt8) : Option CString :=
  if h : (0 : UInt8) ∈ bytes then none else some ⟨bytes, h⟩

structure PortInfo (sys : JackPortFlags) (D : Type*) where
  name : List UInt8
  type : PortType
  mode : PortMode
  flags : PortCreateFlags sys
  data : D

/-- It carries the index of the item. -/
structure PortRegisterError where
  index : ℕ
  deriving DecidableEq, Repr

/-- What `jack_port_register` is called with, beside the client and a buffer size of zero. -/
structure Request where
  name : CString
  type : PortType
  flags : PortFlags
  deriving DecidableEq

/-- The answer to a request may depend on all requests up to it. -/
structure Library where
  portRegister : List Request → Option JackPort
  portUuid : JackPort → UInt64

structure PortPtr where
  port : JackPort
  flags : PortFlags
  portType : PortType
  deriving DecidableEq, Repr

def PortPtr.new (port : Option JackPort) (flags : PortFlags) (portType : PortType) :
    Option PortPtr :=
  port.map fun port => ⟨port, flags, portType⟩

structure ProcessPortOuter (D : Type*) where
  ptr : PortPtr
  data : D
  deriving DecidableEq, Repr

abbrev PortMap (D : Type*) := AList fun _ : OwnedPortUuid => ProcessPortOuter D

structure Client (D : Type*) where
  ports : PortMap D
  processPorts : TripleBuffer (PortMap D)
  /-- The calls of `jack_port_register` so far. -/
  requests : List Request

variable {sys : JackPortFlags} {D α β : Type*}

/-- A step of the call, unless it has unwound. -/
def andThen (r : Outcome α × Client D) (f : α → Client D → Outcome β × Client D) :
    Outcome β × Client D :=
  match r with
  | (.done a, c) => f a c
  | (.panic, c) => (.panic, c)
  | (.undefined, c) => (.undefined, c)

@[simp] theorem andThen_done (a : α) (c : Client D) (f : α → Client D → Outcome β × Client D) :
    andThen (.done a, c) f = f a c := rfl

/-- The item that the closure makes of a `PortInfo`. -/
abbrev Item (D : Type*) := Except PortRegisterError (OwnedPortUuid × PortPtr × D)

/-- The closure of `register_ports`, with the index from `enumerate`. -/
def registerPort (lib : Library) (i : ℕ) (info : PortInfo sys D) (c : Client D) :
    Outcome (Item D) × Client D :=
  match CString.new info.name with
  | none => (.done (.error ⟨i⟩), c)
  | some name =>
    let flags := registerFlags info.mode info.flags
    let c := { c with requests := c.requests ++ [⟨name, info.type, flags⟩] }
    let port := lib.portRegister c.requests
    match PortPtr.new port flags info.type with
    | none => (.done (.error ⟨i⟩), c)
    | some ptr =>
      match OwnedPortUuid.new port lib.portUuid with
      | none => (.panic, c)
      | some port => (.done (.ok (port, ptr, info.data)), c)

/-- `self.ports.borrow_mut().insert(port, ProcessPortOuter::new(ptr, data))` -/
def insertPort (c : Client D) : Item D → Except PortRegisterError OwnedPortUuid × Client D
  | .ok (port, ptr, data) => (.ok port, { c with ports := c.ports.insert port ⟨ptr, data⟩ })
  | .error e => (.error e, c)

/-- `ports.map(..).collect()`, from the item at an index on. -/
def collect (lib : Library) : ℕ → List (PortInfo sys D) → Client D →
    Outcome (List (Except PortRegisterError OwnedPortUuid)) × Client D
  | _, [], c => (.done [], c)
  | i, info :: infos, c =>
    andThen (registerPort lib i info c) fun item c =>
      let port := insertPort c item
      andThen (collect lib (i + 1) infos port.2) fun ports c => (.done (port.1 :: ports), c)

/-- `bufs.back_mut().ports = self.ports.borrow().clone()` and the swap. -/
def publish (c : Client D) : Client D :=
  { c with processPorts := (c.processPorts.setBack c.ports).swap }

/-- `Client::register_ports`. The item that `peek` makes is the first that `collect` takes. -/
def registerPorts (lib : Library) (infos : List (PortInfo sys D)) (c : Client D) :
    Outcome (List (Except PortRegisterError OwnedPortUuid)) × Client D :=
  match infos with
  | [] => (.done [], c)
  | info :: infos =>
    andThen (registerPort lib 0 info c) fun peeked c =>
      let port := insertPort c peeked
      andThen (collect lib 1 infos port.2) fun ports c => (.done (port.1 :: ports), publish c)

section Answers

/-- The flags of its mode together with those it was given. -/
def flagsOf (info : PortInfo sys D) : PortFlags := ⟨info.mode.flags sys ||| info.flags.bits⟩

/-- The request for an item, unless its name has a NUL. -/
def request (info : PortInfo sys D) : Option Request :=
  (CString.new info.name).map fun name => ⟨name, info.type, flagsOf info⟩

/-- What libjack answers for an item after some requests. -/
def answer (lib : Library) (log : List Request) (info : PortInfo sys D) : Option JackPort :=
  (request info).bind fun r => lib.portRegister (log ++ [r])

/-- The port that libjack creates for each item, if each is asked for once and in order. -/
def created (lib : Library) : List Request → List (PortInfo sys D) → List (Option JackPort)
  | _, [] => []
  | log, info :: infos =>
    answer lib log info :: created lib (log ++ (request info).toList) infos

def uuidOf (lib : Library) (port : JackPort) : OwnedPortUuid := ⟨⟨lib.portUuid port⟩⟩

/-- The entry of `Client.ports` for an item. -/
def entryOf (lib : Library) (info : PortInfo sys D) (port : JackPort) :
    Sigma fun _ : OwnedPortUuid => ProcessPortOuter D :=
  ⟨uuidOf lib port, ⟨⟨port, flagsOf info, info.type⟩, info.data⟩⟩

/-- The map with the entry of an item, if a port was created for it. -/
def withEntry (lib : Library) (info : PortInfo sys D) (ports : PortMap D) :
    Option JackPort → PortMap D
  | some port => ports.insert (uuidOf lib port) (entryOf lib info port).2
  | none => ports

/-- The entries for a list of items, given the ports created for them. -/
def entriesOf (lib : Library) (infos : List (PortInfo sys D)) (ports : List (Option JackPort)) :
    List (Sigma fun _ : OwnedPortUuid => ProcessPortOuter D) :=
  (infos.zip ports).filterMap fun p => p.2.map (entryOf lib p.1)

/-- The result for an item at an index. -/
def resultOf (lib : Library) (i : ℕ) : Option JackPort → Except PortRegisterError OwnedPortUuid
  | some port => .ok (uuidOf lib port)
  | none => .error ⟨i⟩

def resultsOf (lib : Library) (i : ℕ) (ports : List (Option JackPort)) :
    List (Except PortRegisterError OwnedPortUuid) :=
  (ports.zipIdx i).map fun p => resultOf lib p.2 p.1

@[simp] theorem created_length (lib : Library) (log : List Request) (infos : List (PortInfo sys D)) :
    (created lib log infos).length = infos.length := by
  induction infos generalizing log with
  | nil => rfl
  | cons info infos ih => simp [created, ih]

@[simp] theorem entriesOf_nil (lib : Library) : entriesOf lib ([] : List (PortInfo sys D)) [] = [] := rfl

@[simp] theorem entriesOf_cons (lib : Library) (info : PortInfo sys D)
    (infos : List (PortInfo sys D)) (port : Option JackPort) (ports : List (Option JackPort)) :
    entriesOf lib (info :: infos) (port :: ports) =
      (port.map (entryOf lib info)).toList ++ entriesOf lib infos ports := by
  cases port <;> simp [entriesOf]

@[simp] theorem resultsOf_cons (lib : Library) (i : ℕ) (port : Option JackPort)
    (ports : List (Option JackPort)) :
    resultsOf lib i (port :: ports) = resultOf lib i port :: resultsOf lib (i + 1) ports := rfl

end Answers

/-- Every port that libjack creates has a UUID that is not zero and not in use. -/
structure Fresh (lib : Library) (ports : PortMap D) (answers : List (Option JackPort)) : Prop where
  nonZero : ∀ port, some port ∈ answers → lib.portUuid port ≠ 0
  unused : ∀ port, some port ∈ answers → uuidOf lib port ∉ ports
  distinct : (answers.filterMap fun a => a.map (uuidOf lib)).Nodup

section Items

variable {lib : Library}

theorem registerFlags_eq (info : PortInfo sys D) :
    registerFlags info.mode info.flags = flagsOf info := rfl

/-- The closure makes one request at most, and what it makes is stored under its UUID. -/
theorem item_eq (info : PortInfo sys D) (i : ℕ) (c : Client D)
    (hzero : ∀ port, answer lib c.requests info = some port → lib.portUuid port ≠ 0) :
    ∃ item, registerPort lib i info c =
        (.done item, { c with requests := c.requests ++ (request info).toList }) ∧
      ∀ c' : Client D, insertPort c' item = (resultOf lib i (answer lib c.requests info),
        { c' with ports := withEntry lib info c'.ports (answer lib c.requests info) }) := by
  cases hname : CString.new info.name with
  | none =>
    have hreq : request info = none := by simp [request, hname]
    refine ⟨.error ⟨i⟩, ?_, ?_⟩
    · simp [registerPort, hname, hreq]
    · intro c'
      simp [insertPort, answer, hreq, resultOf, withEntry]
  | some name =>
    have hreq : request info = some ⟨name, info.type, flagsOf info⟩ := by
      simp [request, hname]
    simp only [answer, hreq, Option.bind_some] at hzero
    simp only [registerPort, registerFlags_eq, hname, answer, hreq, Option.bind_some,
      Option.toList_some]
    cases hport : lib.portRegister (c.requests ++
        [⟨name, info.type, flagsOf info⟩]) with
    | none => exact ⟨.error ⟨i⟩, rfl, fun _ => rfl⟩
    | some port =>
      refine ⟨.ok (uuidOf lib port, (entryOf lib info port).2.ptr, info.data), ?_, fun _ => rfl⟩
      simp only [PortPtr.new, Option.map_some, OwnedPortUuid.new, Option.bind_some,
        if_neg (hzero port hport)]
      rfl

theorem Fresh.head {ports : PortMap D} {answer : Option JackPort} {answers : List (Option JackPort)}
    (h : Fresh lib ports (answer :: answers)) :
    (∀ port, answer = some port → lib.portUuid port ≠ 0) ∧
      ∀ port, answer = some port → uuidOf lib port ∉ ports :=
  ⟨fun port hp => h.nonZero port (by simp [hp]), fun port hp => h.unused port (by simp [hp])⟩

theorem Fresh.tail {info : PortInfo sys D} {ports : PortMap D} {answer : Option JackPort}
    {answers : List (Option JackPort)} (h : Fresh lib ports (answer :: answers)) :
    Fresh lib (withEntry lib info ports answer) answers where
  nonZero port hp := h.nonZero port (List.mem_cons_of_mem _ hp)
  unused port hp := by
    have hold := h.unused port (List.mem_cons_of_mem _ hp)
    cases answer with
    | none => exact hold
    | some first =>
      have hfirst := (List.nodup_cons.mp h.distinct).1
      have hne : uuidOf lib port ≠ uuidOf lib first := by
        intro he
        exact hfirst (List.mem_filterMap.mpr ⟨some port, hp, congrArg some he⟩)
      simp [withEntry, AList.mem_insert, hne, hold]
  distinct := by
    cases answer with
    | none => exact h.distinct
    | some first => exact (List.nodup_cons.mp h.distinct).2

theorem withEntry_entries {info : PortInfo sys D} {ports : PortMap D} {answer : Option JackPort}
    (h : ∀ port, answer = some port → uuidOf lib port ∉ ports) :
    (withEntry lib info ports answer).entries =
      (answer.map (entryOf lib info)).toList ++ ports.entries := by
  cases answer with
  | none => rfl
  | some port => exact AList.entries_insert_of_notMem (h port rfl)

/-- A client after some of its items, with what `collect` does and does not touch. -/
structure Collected (lib : Library) (infos : List (PortInfo sys D)) (c c' : Client D) : Prop where
  ports : c'.ports.entries.Perm (entriesOf lib infos (created lib c.requests infos) ++ c.ports.entries)
  requests : c'.requests = c.requests ++ infos.filterMap request
  processPorts : c'.processPorts = c.processPorts

theorem collect_eq (infos : List (PortInfo sys D)) (i : ℕ) (c : Client D)
    (h : Fresh lib c.ports (created lib c.requests infos)) :
    ∃ c', collect lib i infos c = (.done (resultsOf lib i (created lib c.requests infos)), c') ∧
      Collected lib infos c c' := by
  induction infos generalizing i c with
  | nil => exact ⟨c, rfl, List.Perm.refl _, (List.append_nil _).symm, rfl⟩
  | cons info infos ih =>
    simp only [created] at h ⊢
    obtain ⟨item, hitem, hinsert⟩ := item_eq info i c h.head.1
    obtain ⟨c', hcollect, hc'⟩ := ih (i + 1)
      ⟨withEntry lib info c.ports (answer lib c.requests info), c.processPorts,
        c.requests ++ (request info).toList⟩ h.tail
    refine ⟨c', ?_, ?_, ?_, hc'.processPorts⟩
    · simp only [collect, hitem, andThen_done, hinsert, hcollect, resultsOf_cons]
    · have hports := hc'.ports
      rw [withEntry_entries h.head.2] at hports
      simp only [created, entriesOf_cons, List.append_assoc]
      exact hports.trans (List.perm_append_comm_assoc _ _ _)
    · rw [hc'.requests]
      cases hreq : request info <;> simp [hreq]

theorem registerPorts_eq {infos : List (PortInfo sys D)} {c : Client D}
    (h : Fresh lib c.ports (created lib c.requests infos)) :
    ∃ c', registerPorts lib infos c =
        (.done (resultsOf lib 0 (created lib c.requests infos)),
          if infos = [] then c' else publish c') ∧ Collected lib infos c c' := by
  obtain ⟨c', hcollect, hc'⟩ := collect_eq infos 0 c h
  refine ⟨c', ?_, hc'⟩
  cases infos with
  | nil => exact hcollect
  | cons info infos =>
    obtain ⟨item, hitem, _⟩ := item_eq info 0 c h.head.1
    simp only [collect, hitem, andThen_done] at hcollect
    simp only [registerPorts, hitem, andThen_done]
    cases hrest : collect lib (0 + 1) infos (insertPort _ item).2 with
    | mk r last =>
      rw [hrest] at hcollect
      cases r with
      | done ports =>
        obtain ⟨hports, rfl⟩ := Prod.mk.inj hcollect
        rw [Outcome.done.injEq] at hports
        simp [hports]
      | panic => cases hcollect
      | undefined => cases hcollect

end Items

section Results

variable {lib : Library}

end Results

/-- What `register_ports` should return and leave behind. -/
structure Registered (lib : Library) (infos : List (PortInfo sys D)) (c : Client D)
    (results : List (Except PortRegisterError OwnedPortUuid)) (c' : Client D) : Prop where
  length : results.length = infos.length
  /-- An item fails with its own index, unless libjack has created a port for it. -/
  entries : ∀ k, results[k]? = (created lib c.requests infos)[k]?.map (resultOf lib k)
  /-- libjack is asked once for each name without a NUL, in the order of the list. -/
  requests : c'.requests = c.requests ++ infos.filterMap request
  ports : c'.ports.entries.Perm (entriesOf lib infos (created lib c.requests infos) ++ c.ports.entries)
  reachable : ∀ port, some port ∈ created lib c.requests infos →
    ∃! uuid, Except.ok uuid ∈ results ∧ ∃ outer, c'.ports.lookup uuid = some outer ∧ outer.ptr.port = port
  modes : ∀ e ∈ entriesOf lib infos (created lib c.requests infos),
    e.2.ptr.flags.isInput sys ≠ e.2.ptr.flags.isOutput sys
  published : c'.processPorts =
    if infos = [] then c.processPorts else (c.processPorts.setBack c'.ports).swap

section Steps

/-- An item, as it appears in the steps of the main thread. -/
def itemOf (lib : Library) (info : PortInfo sys D) (answer : Option JackPort) : Ports.Item :=
  match request info, answer with
  | none, _ => .nul
  | some _, none => .refused
  | some _, some port => .created (uuidOf lib port)

def itemsOf (lib : Library) (infos : List (PortInfo sys D)) (answers : List (Option JackPort)) :
    List Ports.Item :=
  (infos.zip answers).map fun p => itemOf lib p.1 p.2

/-- The two maps have the same UUIDs. -/
def SameKeys (m : Ports.PortMap) (ports : PortMap D) : Prop := ∀ uuid, uuid ∈ m ↔ uuid ∈ ports

theorem itemOf_uuid (lib : Library) (log : List Request) (info : PortInfo sys D) :
    (itemOf lib info (answer lib log info)).uuid = (answer lib log info).map (uuidOf lib) := by
  cases hreq : request info with
  | none => simp [itemOf, answer, hreq, Ports.Item.uuid]
  | some r =>
    simp only [itemOf, answer, hreq, Option.bind_some]
    cases lib.portRegister (log ++ [r]) <;> rfl

theorem createdBy_itemsOf (lib : Library) (log : List Request) (infos : List (PortInfo sys D)) :
    Ports.createdBy (itemsOf lib infos (created lib log infos)) =
      (created lib log infos).filterMap fun a => a.map (uuidOf lib) := by
  induction infos generalizing log with
  | nil => rfl
  | cons info infos ih =>
    have hrest := ih (log ++ (request info).toList)
    simp only [Ports.createdBy, itemsOf] at hrest ⊢
    simp only [created, List.zip_cons_cons, List.map_cons, List.filterMap_cons, hrest, itemOf_uuid]

theorem entriesOf_keys (lib : Library) {infos : List (PortInfo sys D)}
    {answers : List (Option JackPort)} (hlen : answers.length = infos.length) :
    (entriesOf lib infos answers).map Sigma.fst = answers.filterMap fun a => a.map (uuidOf lib) := by
  induction infos generalizing answers with
  | nil =>
    rw [List.length_eq_zero_iff.mp hlen]
    rfl
  | cons info infos ih =>
    cases answers with
    | nil => cases hlen
    | cons answer answers =>
      have hrest := ih (Nat.succ.inj hlen)
      cases answer <;> simp [entryOf, hrest]

theorem mem_of_collected {lib : Library} {infos : List (PortInfo sys D)} {c c' : Client D}
    (h : Collected lib infos c c') (uuid : OwnedPortUuid) : uuid ∈ c'.ports ↔
      uuid ∈ (created lib c.requests infos).filterMap (fun a => a.map (uuidOf lib)) ∨
        uuid ∈ c.ports := by
  have hkeys := (h.ports.map Sigma.fst).mem_iff (a := uuid)
  rwa [List.map_append, List.mem_append, entriesOf_keys lib (created_length lib _ infos)] at hkeys

/-- The steps of the main thread come to the same ports, and publish them. -/
theorem register_ports_steps {lib : Library} {c : Client D} {s : Ports.State}
    {infos : List (PortInfo sys D)} (hpc : s.pc = .idle) (hsame : SameKeys s.ports c.ports)
    (hne : infos ≠ []) (h : Fresh lib c.ports (created lib c.requests infos)) :
    ∃ t results c',
      Ports.run s (Ports.callRun (.registerPorts (itemsOf lib infos (created lib c.requests infos)))
        (infos.length + 2)) = some t ∧ t.pc = .idle ∧
      registerPorts lib infos c = (.done results, c') ∧ SameKeys t.ports c'.ports ∧
      t.processPorts.latest = t.ports ∧ c'.processPorts.latest = c'.ports := by
  obtain ⟨c', hregister, hc'⟩ := registerPorts_eq h
  have hcreated := createdBy_itemsOf lib c.requests infos
  have hlen : (itemsOf lib infos (created lib c.requests infos)).length = infos.length := by
    rw [itemsOf, List.length_map, List.length_zip, created_length, Nat.min_self]
  have hitems : itemsOf lib infos (created lib c.requests infos) ≠ [] := by
    rw [← List.length_pos_iff, hlen]
    exact List.length_pos_iff.mpr hne
  have hnew : ∀ uuid ∈ Ports.createdBy (itemsOf lib infos (created lib c.requests infos)),
      uuid ∉ s.ports := by
    rw [hcreated]
    intro uuid huuid hmem
    obtain ⟨a, ha, hau⟩ := List.mem_filterMap.mp huuid
    obtain ⟨port, rfl, rfl⟩ := Option.map_eq_some_iff.mp hau
    exact h.unused port ha ((hsame _).mp hmem)
  obtain ⟨t, ht, htpc, hports, hslots⟩ :=
    Ports.register_run hpc hitems hnew (hcreated ▸ h.distinct)
  rw [hlen] at ht
  rw [if_neg hne] at hregister
  refine ⟨t, _, _, ht, htpc, hregister, ?_, ?_, rfl⟩
  · intro uuid
    rw [hports, hcreated, hsame]
    exact (mem_of_collected hc' uuid).symm
  · rw [hslots]
    rfl

end Steps

def newClient : Client Unit := ⟨∅, .initial ∅, []⟩

end Jack2.Registration
