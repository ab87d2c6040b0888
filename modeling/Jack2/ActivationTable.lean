import Mathlib.Data.List.Nodup
import Jack2.Activation
import Jack2.CallbackTable

/-!
# The table an activation leaves

Each setter call of an activation is for a kind of its own, stores the address of a box of
that activation or nothing, and the timebase comes last.
-/
namespace Jack2

variable {P N : Type*}

/-- The kinds that an activation sets or clears. -/
def setterKinds (process notification timebase : Bool) : List CallbackKind :=
  ([.threadInit, .process, .shutdown, .freewheel, .bufferSize, .sampleRate, .clientRegistration,
    .portRegistration, .portConnect, .portRename, .graphOrder, .xrun,
    .propertyChange] : List CallbackKind) ++
  (if notification then [.latency] else []) ++ (if process then [.sync] else []) ++
  (if process && timebase then [.timebase] else [])

/-- All kinds but those that only some activations touch. -/
theorem mem_setterKinds {process notification timebase : Bool} {k : CallbackKind} :
    k ∈ setterKinds process notification timebase ↔
      (k = .latency → notification = true) ∧ (k = .sync → process = true) ∧
        (k = .timebase → process = true ∧ timebase = true) := by
  cases process <;> cases notification <;> cases timebase <;> cases k <;> decide

theorem nodup_setterKinds (process notification timebase : Bool) :
    (setterKinds process notification timebase).Nodup := by
  cases process <;> cases notification <;> cases timebase <;> decide

/-- The table that one activation on its own should leave. -/
def activationTable (process notification : Option BoxPtr) (flags : ActivateFlags) : Table
  | .threadInit => process.map (Entry.mk .threadInitCallback)
  | .process => process.map (Entry.mk .processCallback)
  | .shutdown => notification.map (Entry.mk .shutdownCallback)
  | .freewheel => notification.map (Entry.mk .freewheelCallback)
  | .bufferSize => notification.map (Entry.mk .bufferSizeCallback)
  | .sampleRate => notification.map (Entry.mk .sampleRateCallback)
  | .clientRegistration => notification.map (Entry.mk .clientRegistrationCallback)
  | .portRegistration => notification.map (Entry.mk .portRegistrationCallback)
  | .portConnect => notification.map (Entry.mk .portConnectCallback)
  | .portRename => notification.map (Entry.mk .portRenameCallback)
  | .graphOrder => notification.map (Entry.mk .graphOrderCallback)
  | .xrun => notification.map (Entry.mk .xrunCallback)
  | .propertyChange => notification.map (Entry.mk .propertyChangeCallback)
  | .latency =>
    if flags.contains .latency then notification.map (Entry.mk .latencyCallback) else none
  | .sync => if flags.contains .sync then process.map (Entry.mk .syncCallback) else none
  | .timebase =>
    if flags.contains .timebase then process.map (Entry.mk .timebaseCallback) else none

section Setters

variable (process notification : Option BoxPtr) (flags : ActivateFlags)

/-- The setter calls before the one for the timebase. -/
def untimedSetters (process notification : Option BoxPtr) (flags : ActivateFlags) : List Call :=
  processCalls process ++ notificationCalls notification ++ latencyCalls notification flags ++
    syncCalls process flags

theorem setters_eq_append : setters process notification flags =
    untimedSetters process notification flags ++ timebaseCalls process flags := by
  simp [setters, laterSetters, untimedSetters]

theorem untimedSetters_kind : (untimedSetters process notification flags).map Call.kind =
    (setterKinds process.isSome notification.isSome false).map some := by
  cases process with
  | none => cases notification <;> rfl
  | some p => cases notification <;> rfl

theorem timebaseCalls_kind : (timebaseCalls process flags).map Call.kind =
    (if process.isSome && flags.contains .timebase then [CallbackKind.timebase] else []).map
      some := by
  cases process with
  | none => rfl
  | some p => cases h : flags.contains .timebase <;> simp [timebaseCalls, Call.kind, h]

theorem setterKinds_eq_append (process notification timebase : Bool) :
    setterKinds process notification timebase = setterKinds process notification false ++
      (if process && timebase then [.timebase] else []) := by
  cases process <;> simp [setterKinds]

theorem setters_kind : (setters process notification flags).map Call.kind =
    (setterKinds process.isSome notification.isSome (flags.contains .timebase)).map some := by
  rw [setters_eq_append, List.map_append, untimedSetters_kind, timebaseCalls_kind,
    ← List.map_append, ← setterKinds_eq_append]

theorem setters_kind_isSome : ∀ c ∈ setters process notification flags, c.kind.isSome = true := by
  intro c hc
  have hmem := List.mem_map_of_mem (f := Call.kind) hc
  rw [setters_kind] at hmem
  obtain ⟨k, _, hk⟩ := List.mem_map.mp hmem
  rw [← hk]
  rfl

theorem setters_kind_nodup : ((setters process notification flags).map Call.kind).Nodup := by
  rw [setters_kind]
  exact List.Nodup.map (fun _ _ h => Option.some.inj h) (nodup_setterKinds _ _ _)

variable {process notification flags}

theorem not_timebase {c : Call} (hc : c ∈ untimedSetters process notification flags) :
    c.kind ≠ some .timebase := by
  intro htimebase
  have hmem := List.mem_map_of_mem (f := Call.kind) hc
  rw [untimedSetters_kind, htimebase] at hmem
  obtain ⟨k, hk, hsome⟩ := List.mem_map.mp hmem
  cases hsome
  exact Bool.false_ne_true ((mem_setterKinds.mp hk).2.2 rfl).2

theorem entry_arg {fn : CallbackFn} {arg : Option BoxPtr} {e : Entry}
    (h : arg.map (Entry.mk fn) = some e) : arg = some e.arg := by
  obtain ⟨p, hp, rfl⟩ := Option.map_eq_some_iff.mp h
  exact hp

theorem setCall_value {kind : CallbackKind} {fn : CallbackFn} {arg : Option BoxPtr} {e : Entry}
    (h : (setCall kind fn arg).value = some e) : arg = some e.arg :=
  entry_arg h

/-- An entry of the table carries the address of one of the two boxes. -/
theorem activationTable_arg {k : CallbackKind} {e : Entry}
    (h : activationTable process notification flags k = some e) :
    process = some e.arg ∨ notification = some e.arg := by
  cases k with
  | threadInit => exact .inl (entry_arg h)
  | process => exact .inl (entry_arg h)
  | sync | timebase =>
    simp only [activationTable] at h
    split at h
    · exact .inl (entry_arg h)
    · cases h
  | latency =>
    simp only [activationTable] at h
    split at h
    · exact .inr (entry_arg h)
    · cases h
  | _ => exact .inr (entry_arg h)

/-- Each setter call stores what the activation's own table has for its kind. -/
theorem setters_value_eq {c : Call} (hc : c ∈ setters process notification flags)
    {k : CallbackKind} (hk : c.kind = some k) :
    c.value = activationTable process notification flags k := by
  simp only [setters, laterSetters, List.mem_append] at hc
  rcases hc with hc | ((hc | hc) | hc) | hc
  · simp only [processCalls, List.mem_cons, List.not_mem_nil, or_false] at hc
    rcases hc with rfl | rfl <;> cases hk <;> rfl
  · simp only [notificationCalls, List.mem_cons, List.not_mem_nil, or_false] at hc
    rcases hc with rfl | rfl | rfl | rfl | rfl | rfl | rfl | rfl | rfl | rfl | rfl <;>
      cases hk <;> rfl
  · cases notification with
    | none => cases hc
    | some p =>
      obtain rfl := List.mem_singleton.mp hc
      cases hk
      simp only [activationTable, setCall, Call.value]
      split <;> rfl
  · cases process with
    | none => cases hc
    | some p =>
      obtain rfl := List.mem_singleton.mp hc
      cases hk
      simp only [activationTable, setCall, Call.value]
      split <;> rfl
  · cases process with
    | none => cases hc
    | some p =>
      simp only [timebaseCalls] at hc
      split at hc
      · rename_i hflag
        obtain rfl := List.mem_singleton.mp hc
        cases hk
        simp [activationTable, hflag, Call.value]
      · cases hc

/-- What is stored carries the address of one of the two boxes. -/
theorem setters_value {c : Call} (hc : c ∈ setters process notification flags) {e : Entry}
    (he : c.value = some e) : process = some e.arg ∨ notification = some e.arg := by
  obtain ⟨k, hk⟩ := Option.isSome_iff_exists.mp (setters_kind_isSome _ _ _ c hc)
  rw [setters_value_eq hc hk] at he
  exact activationTable_arg he

/-- The kinds an activation does not touch are empty in its own table. -/
theorem activationTable_of_notMem {k : CallbackKind}
    (hk : k ∉ setterKinds process.isSome notification.isSome (flags.contains .timebase)) :
    activationTable process notification flags k = none := by
  rw [mem_setterKinds] at hk
  cases process <;> cases notification <;> cases k <;> simp_all [activationTable]

/-- Successful setter calls write the activation's own table over the kinds they touch. -/
theorem effects_setters (t : Table) (k : CallbackKind) :
    effects (fun _ => 0) (setters process notification flags) t k =
      if k ∈ setterKinds process.isSome notification.isSome (flags.contains .timebase) then
        activationTable process notification flags k else t k := by
  have hkinds := setters_kind process notification flags
  split
  · rename_i hk
    have hmem := List.mem_map_of_mem (f := some) hk
    rw [← hkinds] at hmem
    obtain ⟨c, hc, hck⟩ := List.mem_map.mp hmem
    rw [effects_of_mem (setters_kind_isSome _ _ _) (setters_kind_nodup _ _ _) hc hck]
    simp [codeOf, setters_value_eq hc hck]
  · rename_i hk
    refine effects_of_notMem (setters_kind_isSome _ _ _) ?_ t
    intro c hc hck
    have hmem := List.mem_map_of_mem (f := Call.kind) hc
    rw [hkinds, hck] at hmem
    obtain ⟨j, hj, he⟩ := List.mem_map.mp hmem
    cases he
    exact hk hj

/-- When the sequence fails, no call for the timebase passed: it would have been the last. -/
theorem passing_not_timebase {answers : Call → Int}
    (hfail : ∃ c ∈ setters process notification flags, codeOf answers c < 0) {c : Call}
    (hc : c ∈ passing answers (setters process notification flags)) :
    c.kind ≠ some .timebase := by
  rw [setters_eq_append] at hc hfail
  rw [passing_append] at hc
  split at hc
  · rename_i hpass
    rcases List.mem_append.mp hc with hc | hc
    · exact not_timebase hc
    · obtain ⟨d, hd, hneg⟩ := hfail
      rcases List.mem_append.mp hd with hd | hd
      · have := hpass d hd
        omega
      · have hc' := passing_subset hc
        cases process with
        | none => cases hd
        | some p =>
          simp only [timebaseCalls] at hd hc hc'
          split at hd
          · rename_i hflag
            rw [if_pos hflag, passing_cons, ← List.mem_singleton.mp hd, if_neg (by omega)] at hc
            cases hc
          · cases hd
  · exact not_timebase (passing_subset hc)

/-- So a failing sequence leaves the timebase entry as it was. -/
theorem effects_passing_timebase {answers : Call → Int}
    (hfail : ∃ c ∈ setters process notification flags, codeOf answers c < 0) (t : Table) :
    effects answers (passing answers (setters process notification flags)) t .timebase =
      t .timebase :=
  effects_of_notMem (fun c hc => setters_kind_isSome _ _ _ c (passing_subset hc))
    (fun _ hc => passing_not_timebase hfail hc) t

end Setters

end Jack2
