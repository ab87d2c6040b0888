import Jack2.Notification
import Jack2.Uuid

/-!
# Where identifiers are built

`Uuid`, `OwnedPortUuid` and `PortId` stand for non-zero numbers. Some of the places that
build one check the number, the others trust what libjack passes or returns.
-/
namespace Jack2

inductive Identifier where
  | uuid (uuid : Uuid)
  | ownedPortUuid (uuid : OwnedPortUuid)
  | portId (id : PortId)
  deriving DecidableEq, Repr

def Identifier.NonZero : Identifier → Prop
  | .uuid u => u.value ≠ 0
  | .ownedPortUuid u => u.uuid.value ≠ 0
  | .portId i => i.value ≠ 0

/-- The identifiers in a message. -/
def Notification.identifiers : Notification → List Identifier
  | .portRegister port | .portUnregister port | .portRename port _ _ => [.portId port]
  | .portConnect a b | .portDisconnect a b => [.portId a, .portId b]
  | .propertyChange subject _ _ => [.uuid subject]
  | _ => []

/-- `OwnedPortUuid::new`, which refuses a null port and a zero. -/
def OwnedPortUuid.new (port : Option JackPort) (jackPortUuid : JackPort → UInt64) :
    Option OwnedPortUuid :=
  port.bind fun port => if jackPortUuid port = 0 then none else some ⟨⟨jackPortUuid port⟩⟩

/-- `Uuid(NonZeroU64::new_unchecked(..))` in `Port::uuid`, `ProcessPort::uuid` and
`PropertyDescription::subject`. -/
def Uuid.newUnchecked (uuid : UInt64) : Uuid := ⟨uuid⟩

/-- What libjack passes or returns, or a caller supplies, where an identifier is built. -/
inductive Input where
  | callback (c : ServerCall)
  | ownedPortUuid (port : Option JackPort) (jackPortUuid : JackPort → UInt64)
  | portUuid (uuid : UInt64)
  | processPortUuid (uuid : UInt64)
  | subject (uuid : UInt64)
  | fromStr (s : List UInt8)
  | fromRaw (ptr : Option (List UInt8))
  | new (uuid : { uuid : UInt64 // uuid ≠ 0 })

namespace Input

/-- The identifiers that are built. -/
def built (sys : Sys) (lib : UuidParse) : Input → List Identifier
  | .callback c => ((c.sends sys).map Notification.identifiers).getD []
  | .ownedPortUuid port jackPortUuid =>
    ((OwnedPortUuid.new port jackPortUuid).map Identifier.ownedPortUuid).toList
  | .portUuid uuid | .processPortUuid uuid | .subject uuid => [.uuid (Uuid.newUnchecked uuid)]
  | .fromStr s =>
    match Uuid.fromStr lib s with
    | .done (.ok uuid) => [.uuid uuid]
    | _ => []
  | .fromRaw ptr =>
    match Uuid.fromRaw lib ptr with
    | .done (some uuid) => [.uuid uuid]
    | _ => []
  | .new uuid => [.uuid ⟨uuid.val⟩]

/-- What libjack promises: port UUIDs, port ids and the subjects of descriptions are not
zero. The subject of a property change is any number. -/
def Admissible : Input → Prop
  | .callback (.portRegistration port _) => port ≠ 0
  | .callback (.portConnect a b _) => a ≠ 0 ∧ b ≠ 0
  | .callback (.portRename port _ _) => port ≠ 0
  | .portUuid uuid | .processPortUuid uuid | .subject uuid => uuid ≠ 0
  | _ => True

theorem ownedPortUuid_nonZero {port : Option JackPort} {jackPortUuid : JackPort → UInt64}
    {uuid : OwnedPortUuid} (h : OwnedPortUuid.new port jackPortUuid = some uuid) :
    uuid.uuid.value ≠ 0 := by
  obtain ⟨p, _, hp⟩ := Option.bind_eq_some_iff.mp h
  split at hp
  · cases hp
  · cases hp
    assumption

theorem fromRaw_nonZero {lib : UuidParse} {ptr : Option (List UInt8)} {uuid : Uuid}
    (h : Uuid.fromRaw lib ptr = .done (some uuid)) : uuid.value ≠ 0 := by
  cases ptr with
  | none => cases h
  | some s =>
    cases hparse : (Uuid.fromStr lib s).unwrap with
    | done u =>
      simp only [Uuid.fromRaw, hparse, Outcome.map, Outcome.done.injEq, Option.some.injEq] at h
      subst h
      exact Uuid.fromStr_value_ne_zero (Outcome.unwrap_eq_done.mp hparse)
    | panic => simp [Uuid.fromRaw, hparse, Outcome.map] at h
    | undefined => simp [Uuid.fromRaw, hparse, Outcome.map] at h

/-- The callbacks other than the property change pass on the non-zero ids they are given. -/
theorem callback_nonZero (sys : Sys) {c : ServerCall} (h : Admissible (.callback c))
    (hc : ∀ subject key change, c ≠ .propertyChange subject key change) :
    ∀ n, c.sends sys = some n → ∀ id ∈ n.identifiers, id.NonZero := by
  intro n hn id hid
  cases c with
  | portRegistration port register =>
    simp only [ServerCall.sends, portRegistrationCallback] at hn
    split at hn <;> cases hn <;> rw [List.mem_singleton.mp hid] <;> exact h
  | portConnect a b connect =>
    simp only [ServerCall.sends, portConnectCallback] at hn
    split at hn <;> cases hn <;>
      rcases List.mem_cons.mp hid with rfl | hid
    · exact h.1
    · rw [List.mem_singleton.mp hid]
      exact h.2
    · exact h.1
    · rw [List.mem_singleton.mp hid]
      exact h.2
  | portRename port oldName newName =>
    cases hn
    rw [List.mem_singleton.mp hid]
    exact h
  | propertyChange subject key change => exact absurd rfl (hc subject key change)
  | clientRegistration name register =>
    simp only [ServerCall.sends, clientRegistrationCallback] at hn
    split at hn <;> cases hn <;> cases hid
  | latency mode =>
    simp only [ServerCall.sends, latencyCallback] at hn
    split at hn <;> cases hn
    cases hid
  | _ => cases hn; cases hid

/-- Every input but a property change builds non-zero identifiers only. -/
theorem built_nonZero (sys : Sys) (lib : UuidParse) {input : Input} (h : input.Admissible)
    (hinput : ∀ subject key change, input ≠ .callback (.propertyChange subject key change)) :
    ∀ id ∈ input.built sys lib, id.NonZero := by
  intro id hid
  cases input with
  | callback c =>
    have hc : ∀ subject key change, c ≠ .propertyChange subject key change := by
      rintro subject key change rfl
      exact hinput subject key change rfl
    cases hn : c.sends sys with
    | none => simp [built, hn] at hid
    | some n =>
      simp only [built, hn, Option.map_some, Option.getD_some] at hid
      exact callback_nonZero sys h hc n hn id hid
  | ownedPortUuid port jackPortUuid =>
    simp only [built, Option.mem_toList, Option.map_eq_some_iff] at hid
    obtain ⟨uuid, huuid, rfl⟩ := hid
    exact ownedPortUuid_nonZero huuid
  | portUuid uuid => rw [List.mem_singleton.mp hid]; exact h
  | processPortUuid uuid => rw [List.mem_singleton.mp hid]; exact h
  | subject uuid => rw [List.mem_singleton.mp hid]; exact h
  | fromStr s =>
    simp only [built] at hid
    split at hid
    · rw [List.mem_singleton.mp hid]
      exact Uuid.fromStr_value_ne_zero ‹_›
    · cases hid
  | fromRaw ptr =>
    simp only [built] at hid
    split at hid
    · rw [List.mem_singleton.mp hid]
      exact fromRaw_nonZero ‹_›
    · cases hid
  | new uuid => rw [List.mem_singleton.mp hid]; exact uuid.property

/-- Whatever libjack passes or returns within its promises, no identifier is zero if and
only if it is not a property change with the subject zero. -/
theorem built_nonZero_iff (sys : Sys) (lib : UuidParse) {input : Input} (h : input.Admissible) :
    (∀ id ∈ input.built sys lib, id.NonZero) ↔
      ∀ key change, input ≠ .callback (.propertyChange 0 key change) := by
  constructor
  · rintro hbuilt key change rfl
    exact hbuilt (.uuid ⟨0⟩) (List.mem_singleton_self _) rfl
  · intro hzero
    by_cases hchange : ∃ subject key change, input = .callback (.propertyChange subject key change)
    · obtain ⟨subject, key, change, rfl⟩ := hchange
      intro id hid
      rw [List.mem_singleton.mp hid]
      rintro rfl
      exact hzero key change rfl
    · exact built_nonZero sys lib h fun subject key change he => hchange ⟨subject, key, change, he⟩

theorem built_nonZero_iff_portConnect :
    (Input.callback (.portConnect 1 2 1)).Admissible ∧
      ∀ id ∈ (Input.callback (.portConnect 1 2 1)).built ⟨0, 1, 0, 1, 2⟩ none, id.NonZero := by
  have hadmissible : (Input.callback (.portConnect 1 2 1)).Admissible := ⟨by decide, by decide⟩
  exact ⟨hadmissible, (built_nonZero_iff ⟨0, 1, 0, 1, 2⟩ none hadmissible).mpr nofun⟩

/-- All properties of all subjects are removed. -/
theorem propertyChange_builds_zero :
    (Input.callback (.propertyChange 0 none 2)).Admissible ∧
      ¬∀ id ∈ (Input.callback (.propertyChange 0 none 2)).built ⟨0, 1, 0, 1, 2⟩ none,
        id.NonZero := by
  refine ⟨trivial, ?_⟩
  intro h
  exact h (.uuid ⟨0⟩) (List.mem_singleton_self _) rfl

end Input

end Jack2
