import Jack2.Linearization

/-!
# What the lookups answer

Read off what can be seen of a run: the calls begun, the calls returned, and between which
of them a callback began. A lookup answers from the calls performed one after another; which
ones these are is known up to the one call that was running when the callback began.
-/
namespace Jack2.Ports

open Observation

/-- The call that an observation is the beginning of. -/
def Observation.op : Observation → Option Op
  | called op => some op
  | _ => none

def Observation.isReturn : Observation → Bool
  | returned => true
  | _ => false

/-- The calls begun so far, in order. -/
def callsMade (tr : List Observation) : List Op := tr.filterMap Observation.op

/-- How many calls have returned. -/
def returns (tr : List Observation) : ℕ := tr.countP Observation.isReturn

@[simp] theorem callsMade_nil : callsMade [] = [] := rfl
@[simp] theorem returns_nil : returns [] = 0 := rfl

@[simp] theorem callsMade_append (tr tr' : List Observation) :
    callsMade (tr ++ tr') = callsMade tr ++ callsMade tr' := List.filterMap_append

@[simp] theorem returns_append (tr tr' : List Observation) :
    returns (tr ++ tr') = returns tr + returns tr' := List.countP_append

@[simp] theorem callsMade_singleton (o : Observation) : callsMade [o] = o.op.toList := by
  cases o <;> rfl

@[simp] theorem returns_singleton (o : Observation) : returns [o] = o.isReturn.toNat := by
  cases o <;> rfl

theorem returns_pos {tr : List Observation} (h : returned ∈ tr) : 0 < returns tr :=
  List.countP_pos_iff.mpr ⟨returned, h, rfl⟩

section Record

/-- The call that is begun and not performed. -/
def Status.pending : Status → List Op
  | .invoked op => [op]
  | _ => []

/-- What has been seen tells which calls were performed. -/
structure Recorded (t : Object) (tr : List Observation) : Prop where
  made : callsMade tr = t.performed ++ t.status.pending
  returned : returns tr + (if t.status = .performed then 1 else 0) = t.performed.length

theorem recorded_init : Recorded Object.init [] := ⟨rfl, rfl⟩

/-- A step that begins, performs and ends no call. -/
theorem Recorded.other {t u : Object} {tr : List Observation} {o : Observation} (h : Recorded t tr)
    (hperformed : u.performed = t.performed) (hstatus : u.status = t.status) (hop : o.op = none)
    (hreturn : o.isReturn = false) : Recorded u (tr ++ [o]) := by
  constructor
  · simpa [hop, hperformed, hstatus] using h.made
  · simpa [hreturn, hperformed, hstatus] using h.returned

theorem recorded_step (t : Object) (tr : List Observation) (l : Object.Label) (u : Object)
    (h : Recorded t tr) (hstep : t.step l = some u) : Recorded u (tr ++ t.out l) := by
  obtain ⟨hmade, hreturned⟩ := h
  cases l with
  | call op =>
    simp only [Object.step, Option.ite_none_right_eq_some, Option.some.injEq] at hstep
    obtain ⟨⟨hidle, _⟩, rfl⟩ := hstep
    constructor
    · simp [Object.out, Observation.op, hmade, hidle, Status.pending]
    · simpa [Object.out, Observation.isReturn, hidle] using hreturned
  | perform =>
    simp only [Object.step] at hstep
    split at hstep
    · rename_i op hstatus
      cases hstep
      constructor
      · simp [Object.out, hmade, hstatus, Status.pending]
      · simpa [Object.out, hstatus] using hreturned
    · cases hstep
  | ret =>
    simp only [Object.step, Option.ite_none_right_eq_some, Option.some.injEq] at hstep
    obtain ⟨hperformed, rfl⟩ := hstep
    constructor
    · simpa [Object.out, Observation.op, hperformed, Status.pending] using hmade
    · simpa [Object.out, Observation.isReturn, hperformed] using hreturned
  | enter =>
    simp only [Object.step, Option.ite_none_right_eq_some, Option.some.injEq] at hstep
    obtain ⟨_, rfl⟩ := hstep
    exact Recorded.other ⟨hmade, hreturned⟩ rfl rfl rfl rfl
  | leave =>
    simp only [Object.step, Option.ite_none_left_eq_some, Option.some.injEq] at hstep
    obtain ⟨_, rfl⟩ := hstep
    exact Recorded.other ⟨hmade, hreturned⟩ rfl rfl rfl rfl
  | portByOwnedUuid port =>
    simp only [Object.step, Option.ite_none_right_eq_some, Option.some.injEq] at hstep
    obtain ⟨_, rfl⟩ := hstep
    exact Recorded.other ⟨hmade, hreturned⟩ rfl rfl rfl rfl
  | scopePortByOwnedUuid port =>
    simp only [Object.step, Option.ite_none_left_eq_some, Option.some.injEq] at hstep
    obtain ⟨_, rfl⟩ := hstep
    exact Recorded.other ⟨hmade, hreturned⟩ rfl rfl rfl rfl
  | scopePorts =>
    simp only [Object.step, Option.ite_none_left_eq_some, Option.some.injEq] at hstep
    obtain ⟨_, rfl⟩ := hstep
    exact Recorded.other ⟨hmade, hreturned⟩ rfl rfl rfl rfl

theorem recorded_exec {ls : List Object.Label} {t : Object} {tr : List Observation}
    (h : portObject.exec Object.init ls = some (t, tr)) : Recorded t tr := by
  have hall := Machine.exec_invariant (m := portObject) (P := Recorded) recorded_step h recorded_init
  simpa using hall

/-- The calls performed are among those begun. -/
theorem Recorded.take {t : Object} {tr : List Observation} (h : Recorded t tr) :
    t.performed = (callsMade tr).take t.performed.length := by
  rw [h.made]
  simp

/-- All that have returned were performed, and none that was not begun. -/
theorem Recorded.bounds {t : Object} {tr : List Observation} (h : Recorded t tr) :
    returns tr ≤ t.performed.length ∧ t.performed.length ≤ (callsMade tr).length := by
  constructor
  · have := h.returned
    omega
  · rw [h.made]
    simp

end Record

section Views

/-- While a callback runs, it sees the same calls. -/
theorem view_step {t u : Object} {l : Object.Label} {ops : List Op} (hview : t.view = some ops)
    (hstep : t.step l = some u) (hstays : left ∉ t.out l) : u.view = some ops := by
  cases l with
  | leave => simp [Object.out] at hstays
  | enter => simp [Object.step, hview] at hstep
  | perform =>
    simp only [Object.step] at hstep
    split at hstep
    · cases hstep
      exact hview
    · cases hstep
  | _ =>
    simp only [Object.step, Option.ite_none_right_eq_some, Option.ite_none_left_eq_some,
      Option.some.injEq] at hstep
    obtain ⟨_, rfl⟩ := hstep
    exact hview

theorem view_exec {t u : Object} {ls : List Object.Label} {ops : List Op} {tr : List Observation}
    (hview : t.view = some ops) (h : portObject.exec t ls = some (u, tr)) (hstays : left ∉ tr) :
    u.view = some ops := by
  have hstep : ∀ v seen l w, (left ∉ seen → v.view = some ops) → portObject.step v l = some w →
      left ∉ seen ++ portObject.out v l → w.view = some ops := by
    intro v seen l w hv hl hleft
    rw [List.mem_append, not_or] at hleft
    exact view_step (hv hleft.1) hl hleft.2
  have hstart : left ∉ ([] : List Observation) → t.view = some ops := fun _ => hview
  exact Machine.exec_invariant (m := portObject)
    (P := fun v seen => left ∉ seen → v.view = some ops) hstep h hstart hstays

end Views

/-- The object shows at most one thing in a step. -/
theorem portObject_out_length (t : Object) (l : Object.Label) :
    (portObject.out t l).length ≤ 1 := by
  cases l <;> simp [portObject, Object.out]

theorem enter_of_out {t u : Object} {l : Object.Label} (hout : t.out l = [entered])
    (hstep : t.step l = some u) : u.view = some t.performed := by
  cases l with
  | enter =>
    simp only [Object.step, Option.ite_none_right_eq_some, Option.some.injEq] at hstep
    obtain ⟨_, rfl⟩ := hstep
    rfl
  | _ => simp [Object.out] at hout

/-- The main thread looks a port up between two calls. -/
theorem found_of_out {t u : Object} {l : Object.Label} {port : OwnedPortUuid}
    {result : Option JackPort} (hout : t.out l = [found port result]) (hstep : t.step l = some u) :
    t.status = .idle ∧ result = (replay t.performed).1.lookup port := by
  cases l with
  | portByOwnedUuid uuid =>
    simp only [Object.step, Option.ite_none_right_eq_some] at hstep
    simp only [Object.out, List.cons.injEq, found.injEq, and_true] at hout
    obtain ⟨rfl, hresult⟩ := hout
    exact ⟨hstep.1, hresult.symm⟩
  | _ => simp [Object.out] at hout

theorem scopeFound_of_out {t : Object} {l : Object.Label} {port : OwnedPortUuid}
    {result : Option JackPort} {ops : List Op} (hout : t.out l = [scopeFound port result])
    (hview : t.view = some ops) : result = (replay ops).1.lookup port := by
  cases l with
  | scopePortByOwnedUuid uuid =>
    simp only [Object.out, List.cons.injEq, scopeFound.injEq, and_true] at hout
    obtain ⟨rfl, rfl⟩ := hout
    simp [Object.seen, hview]
  | _ => simp [Object.out] at hout

/-- A lookup on the main thread answers from all the calls made before it. -/
theorem client_reads {as : List Action} {s : State} {pre post : List Observation}
    {port : OwnedPortUuid} {result : Option JackPort}
    (h : portMaps.exec init as = some (s, pre ++ found port result :: post)) :
    result = (replay (callsMade pre)).1.lookup port := by
  obtain ⟨ls, t, hls, _⟩ := portMaps_simulates.exec implements_init h
  obtain ⟨bs, l, cs, u, v, rfl, hbs, hl, hout, hcs⟩ :=
    Machine.exec_split portObject_out_length hls
  obtain ⟨hidle, hresult⟩ := found_of_out hout hl
  have hmade : callsMade pre = u.performed := by
    simpa [hidle, Status.pending] using (recorded_exec hbs).made
  rw [hmade]
  exact hresult

/-- A callback sees the same calls from its beginning to its end. -/
theorem scope_reads {as : List Action} {s : State} {pre rest : List Observation}
    (h : portMaps.exec init as = some (s, pre ++ entered :: rest)) :
    ∃ n, returns pre ≤ n ∧ n ≤ (callsMade pre).length ∧
      ∀ mid port result post, rest = mid ++ scopeFound port result :: post → left ∉ mid →
        result = (replay ((callsMade pre).take n)).1.lookup port := by
  obtain ⟨ls, t, hls, _⟩ := portMaps_simulates.exec implements_init h
  obtain ⟨bs, l, cs, u, v, rfl, hbs, hl, hout, hcs⟩ :=
    Machine.exec_split portObject_out_length hls
  have hrec := recorded_exec hbs
  have hview := enter_of_out hout hl
  refine ⟨u.performed.length, hrec.bounds.1, hrec.bounds.2, ?_⟩
  rintro mid port result post rfl hstays
  obtain ⟨ds, k, es, w, x, rfl, hds, hk, hfound, hes⟩ :=
    Machine.exec_split portObject_out_length hcs
  rw [← hrec.take]
  exact scopeFound_of_out hfound (view_exec hview hds hstays)

/-- A lookup on the main thread answers from all the calls made before it, and a lookup in a
callback from calls that were the same for the whole callback: all those that had returned
when it began, and none that had not begun. -/
theorem lookups_linearizable {as : List Action} {s : State} {tr : List Observation}
    (h : portMaps.exec init as = some (s, tr)) :
    (∀ pre port result post, tr = pre ++ found port result :: post →
      result = (replay (callsMade pre)).1.lookup port) ∧
    (∀ pre rest, tr = pre ++ entered :: rest →
      ∃ n, returns pre ≤ n ∧ n ≤ (callsMade pre).length ∧
        ∀ mid port result post, rest = mid ++ scopeFound port result :: post → left ∉ mid →
          result = (replay ((callsMade pre).take n)).1.lookup port) := by
  constructor
  · rintro pre port result post rfl
    exact client_reads h
  · rintro pre rest rfl
    exact scope_reads h

theorem lookups_linearizable_lookupRun :
    ∃ s, portMaps.exec init lookupRun = some (s, lookupsSeen) ∧
      some 0 = (replay (callsMade (lookupsSeen.take 2))).1.lookup ⟨⟨7⟩⟩ ∧
      ∃ n, 1 ≤ n ∧ n ≤ 2 ∧
        some 0 = (replay ((callsMade (lookupsSeen.take 4)).take n)).1.lookup ⟨⟨7⟩⟩ := by
  obtain ⟨s, hrun⟩ := lookupRun_seen
  obtain ⟨hfound, hscope⟩ := lookups_linearizable hrun
  obtain ⟨n, hlow, hhigh, hall⟩ := hscope (lookupsSeen.take 4) _ rfl
  exact ⟨s, hrun, hfound _ _ _ _ rfl, n, hlow, hhigh, hall [] _ _ _ rfl (by simp)⟩

section Deciding

variable {m : PortMap × JackPort} {uuid : OwnedPortUuid}

theorem mem_registerAll (items : List Item) :
    uuid ∈ (registerAll m items).1 ↔ uuid ∈ createdBy items ∨ uuid ∈ m.1 := by
  induction items generalizing m with
  | nil => simp [createdBy]
  | cons item items ih =>
    rw [registerAll_cons, ih, createdBy_cons, List.mem_append]
    cases item with
    | nul => simp [registerOne, createdBy, Item.uuid]
    | refused => simp [registerOne, createdBy, Item.uuid]
    | created first =>
      simp only [registerOne, AList.mem_insert, createdBy, List.filterMap_cons, Item.uuid,
        List.filterMap_nil, List.mem_singleton]
      tauto

/-- Only `unregister_ports` takes a port out, and only one that it names. -/
theorem mem_performed (ops : List Op) (h : uuid ∈ m.1)
    (hkept : ∀ ports, .unregisterPorts ports ∈ ops → uuid ∉ ports) :
    uuid ∈ (ops.foldl perform m).1 := by
  induction ops generalizing m with
  | nil => exact h
  | cons op ops ih =>
    apply ih
    · cases op with
      | registerPorts items => exact (mem_registerAll items).mpr (Or.inr h)
      | unregisterPorts ports => exact mem_eraseAll.mpr ⟨h, hkept ports List.mem_cons_self⟩
      | tick => exact h
    · intro ports hports
      exact hkept ports (List.mem_cons_of_mem _ hports)

/-- Only `register_ports` puts a port in, and only one that libjack creates for it. -/
theorem not_mem_performed (ops : List Op) (h : uuid ∉ m.1)
    (hkept : ∀ items, .registerPorts items ∈ ops → uuid ∉ createdBy items) :
    uuid ∉ (ops.foldl perform m).1 := by
  induction ops generalizing m with
  | nil => exact h
  | cons op ops ih =>
    apply ih
    · cases op with
      | registerPorts items =>
        rw [perform, mem_registerAll, not_or]
        exact ⟨hkept items List.mem_cons_self, h⟩
      | unregisterPorts ports =>
        intro hmem
        exact h (mem_eraseAll.mp hmem).1
      | tick => exact h
    · intro items hitems
      exact hkept items (List.mem_cons_of_mem _ hitems)

theorem replay_split (before after : List Op) (op : Op) :
    replay (before ++ op :: after) = after.foldl perform (perform (replay before) op) := by
  simp [replay]

theorem called_of_made {tr : List Observation} {op : Op} (h : op ∈ callsMade tr) :
    called op ∈ tr := by
  obtain ⟨o, ho, hop⟩ := List.mem_filterMap.mp h
  cases o with
  | called op' =>
    cases hop
    exact ho
  | _ => cases hop

/-- A call begins only after all the earlier ones have returned. -/
theorem returns_of_called {as : List Action} {s : State} {pre post : List Observation} {op : Op}
    (h : portMaps.exec init as = some (s, pre ++ called op :: post)) :
    returns pre = (callsMade pre).length := by
  obtain ⟨ls, t, hls, _⟩ := portMaps_simulates.exec implements_init h
  obtain ⟨bs, l, cs, u, v, rfl, hbs, hl, hout, hcs⟩ :=
    Machine.exec_split portObject_out_length hls
  have hidle : u.status = .idle := by
    cases l with
    | call op' =>
      simp only [portObject, Object.step, Option.ite_none_right_eq_some] at hl
      exact hl.1.1
    | _ => simp [portObject, Object.out] at hout
  have hrec := recorded_exec hbs
  have hmade := hrec.made
  have hreturned := hrec.returned
  simp only [hidle, Status.pending, List.append_nil] at hmade
  simpa [hidle, hmade] using hreturned

/-- Of the calls that a callback sees, the one that had returned and those after it. -/
theorem take_of_returned {before after : List Observation} {op : Op} {n : ℕ}
    (hsequential : returns before = (callsMade before).length) (hreturned : returned ∈ after)
    (hn : returns (before ++ called op :: after) ≤ n) :
    ∃ ops, (callsMade (before ++ called op :: after)).take n = callsMade before ++ op :: ops ∧
      ∀ op' ∈ ops, called op' ∈ after := by
  have hmade : callsMade (before ++ called op :: after) =
      callsMade before ++ op :: callsMade after := by
    simp [callsMade, Observation.op]
  have hlater : (callsMade before).length + 1 ≤ n := by
    have := returns_pos hreturned
    have hall : returns (before ++ called op :: after) = returns before + returns after := by
      simp [returns, Observation.isReturn]
    omega
  obtain ⟨k, rfl⟩ := Nat.exists_eq_add_of_le hlater
  refine ⟨(callsMade after).take k, ?_, fun op' h => called_of_made (List.mem_of_mem_take h)⟩
  rw [hmade, Nat.add_assoc, List.take_length_add_append, Nat.add_comm 1, List.take_succ_cons]

/-- Once `register_ports` has returned, every callback that begins finds each port that it
created, as long as no later call names it; and once `unregister_ports` has returned, none
finds a port that it named, as long as libjack does not create it again. -/
theorem scope_finds_returned {as : List Action} {s : State} {pre mid post : List Observation}
    {port : OwnedPortUuid} {result : Option JackPort}
    (h : portMaps.exec init as =
      some (s, pre ++ entered :: (mid ++ scopeFound port result :: post)))
    (hstays : left ∉ mid) :
    (∀ before items after, pre = before ++ called (.registerPorts items) :: after →
      port ∈ createdBy items → returned ∈ after →
      (∀ ports, called (.unregisterPorts ports) ∈ after → port ∉ ports) → result.isSome) ∧
    (∀ before ports after, pre = before ++ called (.unregisterPorts ports) :: after →
      port ∈ ports → returned ∈ after →
      (∀ items, called (.registerPorts items) ∈ after → port ∉ createdBy items) →
      result = none) := by
  obtain ⟨n, hlow, _, hall⟩ := scope_reads h
  have hresult := hall mid port result post rfl hstays
  constructor
  · rintro before items after rfl hcreated hreturned hkept
    rw [List.append_assoc, List.cons_append] at h
    obtain ⟨ops, htake, hops⟩ := take_of_returned (returns_of_called h) hreturned hlow
    rw [hresult, htake, replay_split, AList.lookup_isSome]
    apply mem_performed
    · exact (mem_registerAll items).mpr (Or.inl hcreated)
    · intro ports hports
      exact hkept ports (hops _ hports)
  · rintro before ports after rfl hnamed hreturned hkept
    rw [List.append_assoc, List.cons_append] at h
    obtain ⟨ops, htake, hops⟩ := take_of_returned (returns_of_called h) hreturned hlow
    rw [hresult, htake, replay_split, AList.lookup_eq_none]
    apply not_mem_performed
    · intro hmem
      exact (mem_eraseAll.mp hmem).2 hnamed
    · intro items hitems
      exact hkept items (hops _ hitems)

/-- A registration returns, and a callback that begins after it looks the port up. -/
def returnedRun : List Action :=
  [.step (.call (.registerPorts [.created ⟨⟨7⟩⟩])), .step .main, .step .main, .step .main,
    .step (.acquire .process), .scopePortByOwnedUuid ⟨⟨7⟩⟩]

theorem scope_finds_returned_register :
    ∃ s result, portMaps.exec init returnedRun =
        some (s, [called (.registerPorts [.created ⟨⟨7⟩⟩]), returned, entered,
          scopeFound ⟨⟨7⟩⟩ result]) ∧
      result.isSome = true := by
  have hmap : (portMaps.exec init returnedRun).map Prod.snd =
      some ([called (.registerPorts [.created ⟨⟨7⟩⟩]), returned] ++ entered ::
        ([] ++ scopeFound ⟨⟨7⟩⟩ (some 0) :: [])) := rfl
  obtain ⟨⟨s, tr⟩, hrun, rfl⟩ := Option.map_eq_some_iff.mp hmap
  have hfinds := (scope_finds_returned hrun (by simp)).1
  exact ⟨s, some 0, hrun, hfinds [] _ [returned] rfl (by decide) (by simp) (by simp)⟩

end Deciding

end Jack2.Ports
