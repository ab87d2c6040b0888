import Jack2.ForeignMemory
import Jack2.UuidText

/-!
# What libjack hands over is released

Each function moves the memory from one set of owned pointers to another. `Keeps` says that
the ledger stays settled on the way, `Breaks` that it cannot be.
-/
namespace Jack2.ForeignMemory

open Jack2.Run Jack2.Ledger

structure Valid (m : Memory) (owned : Multiset Ptr) : Prop where
  live : Live m.entries owned
  fresh : ∀ p : Ptr, m.next ≤ p.number → Fresh m.entries p
  foreign : Ledger.Entry.taken clientName ∉ m.entries
  next_pos : 0 < m.next

structure Keeps (m : Memory) (owned : Multiset Ptr) (m' : Memory) (owned' : Multiset Ptr) :
    Prop where
  valid : Valid m owned → Valid m' owned'
  settled : Valid m owned → Settled m.entries owned → Settled m'.entries owned'

structure Breaks (m : Memory) (owned : Multiset Ptr) (m' : Memory) (owned' : Multiset Ptr) :
    Prop where
  valid : Valid m owned → Valid m' owned'
  unsettled : Valid m owned → ¬Settled m'.entries owned'

variable {m m₁ m₂ : Memory} {o o₁ o₂ : Multiset Ptr}

theorem valid_init : Valid .init 0 := by
  refine ⟨live_nil, ?_, ?_, Nat.one_pos⟩
  · intro p _
    exact ⟨List.not_mem_nil, List.not_mem_nil⟩
  · exact List.not_mem_nil

namespace Valid

/-- The number of a pointer in the ledger is below the next one. -/
theorem lt_next (h : Valid m o) {p : Ptr} (hp : p ∈ o) : p.number < m.next := by
  by_contra hlt
  exact live_notMem h.live (h.fresh p (Nat.not_lt.mp hlt)) hp

theorem notMem_clientName (h : Valid m o) : clientName ∉ o :=
  fun hmem => h.foreign (h.live.live _ hmem).1

theorem fresh_take (h : Valid m o) (kind : Kind) (p : Ptr) (hp : m.next + 1 ≤ p.number) :
    Fresh (m.take kind).entries p := by
  obtain ⟨htaken, hgiven⟩ := h.fresh p (by omega)
  have hne : p ≠ ⟨kind, m.next⟩ := by
    rintro rfl
    exact absurd hp (by simp)
  constructor
  · simp [htaken, hne]
  · simp [hgiven]

theorem foreign_take (h : Valid m o) (kind : Kind) :
    Ledger.Entry.taken clientName ∉ (m.take kind).entries := by
  have hne : clientName ≠ ⟨kind, m.next⟩ := by
    intro heq
    have hnumber := congrArg Ptr.number heq
    have hpos := h.next_pos
    simp only [clientName] at hnumber
    omega
  simp [h.foreign, hne]

theorem fresh_give (h : Valid m o) {p : Ptr} (hp : p.number < m.next) (q : Ptr)
    (hq : m.next ≤ q.number) : Fresh (m.give p).entries q := by
  obtain ⟨htaken, hgiven⟩ := h.fresh q hq
  have hne : q ≠ p := by
    rintro rfl
    omega
  constructor
  · simp [htaken]
  · simp [hgiven, hne]

theorem take (h : Valid m o) (kind : Kind) : Valid (m.take kind) (⟨kind, m.next⟩ ::ₘ o) where
  live := live_take h.live (h.fresh _ (Nat.le_refl _))
  fresh := h.fresh_take kind
  foreign := h.foreign_take kind
  next_pos := Nat.succ_pos _

/-- What is handed over and not kept leaves the rest as it was. -/
theorem leak (h : Valid m o) (kind : Kind) : Valid (m.take kind) o where
  live := live_leak h.live _
  fresh := h.fresh_take kind
  foreign := h.foreign_take kind
  next_pos := Nat.succ_pos _

theorem give {p : Ptr} (h : Valid m (p ::ₘ o)) : Valid (m.give p) o where
  live := live_give h.live
  fresh := h.fresh_give (h.lt_next (Multiset.mem_cons_self p o))
  foreign := by simpa using h.foreign
  next_pos := h.next_pos

theorem stray (h : Valid m o) : Valid (m.give clientName) o where
  live := live_stray h.live h.notMem_clientName
  fresh := h.fresh_give h.next_pos
  foreign := by simpa using h.foreign
  next_pos := h.next_pos

end Valid

section Steps

theorem Keeps.refl (m : Memory) (o : Multiset Ptr) : Keeps m o m o := ⟨id, fun _ => id⟩

theorem Keeps.trans (h₁ : Keeps m o m₁ o₁) (h₂ : Keeps m₁ o₁ m₂ o₂) : Keeps m o m₂ o₂ where
  valid hv := h₂.valid (h₁.valid hv)
  settled hv hs := h₂.settled (h₁.valid hv) (h₁.settled hv hs)

theorem keeps_take (m : Memory) (o : Multiset Ptr) (kind : Kind) :
    Keeps m o (m.take kind) (⟨kind, m.next⟩ ::ₘ o) where
  valid hv := hv.take kind
  settled _ hs := settled_take hs _

theorem keeps_give (m : Memory) (o : Multiset Ptr) (p : Ptr) :
    Keeps m (p ::ₘ o) (m.give p) o where
  valid hv := hv.give
  settled hv hs := settled_give hv.live hs

/-- A block that is handed over and released at once. -/
theorem keeps_take_give (m : Memory) (o : Multiset Ptr) (kind : Kind) :
    Keeps m o ((m.take kind).give ⟨kind, m.next⟩) o :=
  (keeps_take m o kind).trans (keeps_give _ o _)

theorem breaks_leak (m : Memory) (o : Multiset Ptr) (kind : Kind) :
    Breaks m o (m.take kind) o where
  valid hv := hv.leak kind
  unsettled hv :=
    have hfresh := hv.fresh ⟨kind, m.next⟩ (Nat.le_refl _)
    not_settled_leak hfresh (live_notMem hv.live hfresh)

theorem breaks_stray (m : Memory) (o : Multiset Ptr) : Breaks m o (m.give clientName) o where
  valid hv := hv.stray
  unsettled hv := not_settled_stray hv.foreign

theorem keeps_handDescriptions (m : Memory) (o : Multiset Ptr) (count : ℕ) :
    Keeps m o (m.handDescriptions count).2
      (((m.handDescriptions count).1.map (Ptr.mk .description) : List Ptr) + o) := by
  induction count generalizing m o with
  | zero => simpa [Memory.handDescriptions] using Keeps.refl m o
  | succ count ih =>
    have hrest := ih (m.take .description) (⟨.description, m.next⟩ ::ₘ o)
    rw [Multiset.add_cons] at hrest
    simpa [Memory.handDescriptions, ← Multiset.cons_coe] using (keeps_take m o _).trans hrest

theorem keeps_freeDescriptions (m : Memory) (o : Multiset Ptr) (descriptions : List ℕ) :
    Keeps m ((descriptions.map (Ptr.mk .description) : List Ptr) + o)
      (descriptions.foldl Memory.jackFreeDescription m) o := by
  induction descriptions generalizing m with
  | nil => simpa using Keeps.refl m o
  | cons desc descriptions ih =>
    have hfirst := keeps_give m ((descriptions.map (Ptr.mk .description) : List Ptr) + o)
      ⟨.description, desc⟩
    have hall := hfirst.trans (ih (m.jackFreeDescription desc))
    simpa [← Multiset.cons_coe] using hall

end Steps

/-- A function that keeps the ledger settled exactly where `C` holds. -/
def Decides (C : Prop) (m : Memory) (owned : Multiset Ptr) (m' : Memory) (owned' : Multiset Ptr) :
    Prop := (C ∧ Keeps m owned m' owned') ∨ (¬C ∧ Breaks m owned m' owned')

theorem Decides.valid {C : Prop} (h : Decides C m o m₁ o₁) (hv : Valid m o) : Valid m₁ o₁ := by
  rcases h with ⟨_, hk⟩ | ⟨_, hb⟩
  · exact hk.valid hv
  · exact hb.valid hv

theorem Decides.settled_iff {C : Prop} (h : Decides C m o m₁ o₁) (hv : Valid m o)
    (hs : Settled m.entries o) : Settled m₁.entries o₁ ↔ C := by
  rcases h with ⟨hc, hk⟩ | ⟨hc, hb⟩
  · exact iff_of_true (hk.settled hv hs) hc
  · exact iff_of_false (hb.unsettled hv) hc

section Functions

variable (m : Memory) (o : Multiset Ptr)

/-- The block that `JackStr` releases is one that the client owns. -/
theorem name_breaks (string : CString) : Breaks m o (name string m).2 o := breaks_stray m o

theorem clientNameByUuid_keeps (answer : Option CString) :
    Keeps m o (clientNameByUuid answer m).2 o := by
  cases answer with
  | none => exact Keeps.refl m o
  | some string => exact keeps_take_give m o .block

/-- A list that is not null is never released. -/
theorem portNames_some (cells : List (Option CString)) :
    portNames (some cells) m = (.undefined, m.take .block) := by
  simp [portNames, Memory.answer, PortList.toVec, PortList.readFrom_undefined, dropping]

theorem portNames_decides (answer : Option (List (Option CString))) :
    Decides (answer = none) m o (portNames answer m).2 o := by
  cases answer with
  | none => exact Or.inl ⟨rfl, Keeps.refl m o⟩
  | some cells =>
    rw [portNames_some]
    exact Or.inr ⟨Option.some_ne_none cells, breaks_leak m o .block⟩

/-- The string is released only after it was parsed. -/
theorem uuidForClientName_decides (lib : UuidParse) (answer : Option CString) :
    Decides (∀ s ∈ answer, ∃ uuid, Uuid.fromStr lib s.bytes = .done (.ok uuid)) m o
      (uuidForClientName lib answer m).2 o := by
  cases answer with
  | none => exact Or.inl ⟨by simp, Keeps.refl m o⟩
  | some string =>
    simp only [uuidForClientName, Memory.answer, Uuid.fromRaw, Option.mem_some_iff, forall_eq']
    cases hparse : (Uuid.fromStr lib string.bytes).unwrap with
    | done uuid =>
      exact Or.inl ⟨⟨uuid, Outcome.unwrap_eq_done.mp hparse⟩, keeps_take_give m o .block⟩
    | panic =>
      refine Or.inr ⟨?_, breaks_leak m o .block⟩
      rintro ⟨uuid, hok⟩
      rw [hok] at hparse
      cases hparse
    | undefined =>
      refine Or.inr ⟨?_, breaks_leak m o .block⟩
      rintro ⟨uuid, hok⟩
      rw [hok] at hparse
      cases hparse

theorem uuid_memory (lib : UuidParse) (answer : Option CString) :
    (uuid lib answer m).2 = (uuidForClientName lib answer m).2 := by
  simp only [uuid, uuidForClientName]
  split <;> simp_all

theorem property_keeps (answer : Answer (Int × CString × Option CString)) :
    Keeps m o (property answer m).2 o := by
  match answer with
  | none => exact Keeps.refl m o
  | some (ret, string, type) =>
    simp only [property]
    cases checkRet ret with
    | error e => exact Keeps.refl m o
    | ok _ =>
      have hvalue := keeps_take m o .block
      cases type with
      | none => exact hvalue.trans (keeps_give _ o _)
      | some type =>
        have htype := keeps_take_give (m.take .block) (⟨.block, m.next⟩ ::ₘ o) .block
        exact (hvalue.trans htype).trans (keeps_give _ o _)

end Functions

/-- What is left to release by the result that a property call may return. -/
def ownedBy {α : Type*} (owned : α → Multiset Ptr) : Except Error α → Multiset Ptr
  | .ok a => owned a
  | .error _ => 0

section Results

variable (m : Memory) (o : Multiset Ptr)

theorem properties_keeps (answer : Answer Int) :
    Keeps m o (properties answer m).2
      (ownedBy PropertyDescription.owned (properties answer m).1 + o) := by
  match answer with
  | none => simpa [properties, ownedBy] using Keeps.refl m o
  | some ret =>
    simp only [properties]
    cases checkRet ret with
    | error e => simpa [ownedBy] using Keeps.refl m o
    | ok _ => exact keeps_take m o .description

theorem allProperties_keeps (answer : Answer (Int × Bool)) :
    Keeps m o (allProperties answer m).2
      (ownedBy PropertyDescriptionList.owned (allProperties answer m).1 + o) := by
  match answer with
  | none => simpa [allProperties, ownedBy] using Keeps.refl m o
  | some (count, array) =>
    simp only [allProperties]
    cases checkRet count with
    | error e => simpa [ownedBy] using Keeps.refl m o
    | ok _ =>
      cases array with
      | false => simpa [ownedBy, PropertyDescriptionList.owned] using Keeps.refl m o
      | true =>
        have hdescs := keeps_handDescriptions (m.take .block) (⟨.block, m.next⟩ ::ₘ o) count.toNat
        have hall := (keeps_take m o .block).trans hdescs
        simpa [ownedBy, PropertyDescriptionList.owned, add_assoc] using hall

/-- The destructors release what their values own, each description and then the array. -/
theorem drop_keeps (r : Result) : Keeps m (r.owned + o) (r.drop m) o := by
  cases r with
  | description d => exact keeps_give m o _
  | descriptionList l =>
    obtain ⟨ptr, descriptions⟩ := l
    cases ptr with
    | none =>
      simpa [Result.owned, Result.drop, PropertyDescriptionList.owned,
        PropertyDescriptionList.drop] using Keeps.refl m o
    | some ptr =>
      have hdescs := keeps_freeDescriptions m (⟨.block, ptr⟩ ::ₘ o) descriptions
      have hall := hdescs.trans (keeps_give _ o ⟨.block, ptr⟩)
      simpa [Result.owned, Result.drop, PropertyDescriptionList.owned,
        PropertyDescriptionList.drop, Memory.jackFree, add_assoc] using hall

end Results

section Runs

variable {lib : UuidParse} {s t : State} {l : Label}

theorem holding_owned {α : Type*} (s : State) (result : α → Result)
    (r : Except Error α × Memory) :
    (s.holding result r).owned = ownedBy (fun a => (result a).owned) r.1 + s.owned := by
  rcases r with ⟨_ | a, m⟩ <;> simp [State.holding, State.owned, ownedBy]

theorem holding_memory {α : Type*} (s : State) (result : α → Result)
    (r : Except Error α × Memory) : (s.holding result r).memory = r.2 := by
  rcases r with ⟨_ | a, m⟩ <;> rfl

theorem owned_erase {r : Result} (h : r ∈ s.held) :
    r.owned + ((s.held.erase r).map Result.owned).sum = s.owned :=
  List.sum_map_erase Result.owned h

/-- One call or drop moves the memory as its own function does. -/
theorem perform_decides (h : perform lib s l = some t) :
    Decides (l.Balances lib) s.memory s.owned t.memory t.owned := by
  cases l with
  | ports answer => cases h; exact portNames_decides _ _ answer
  | portGetAllConnections answer => cases h; exact portNames_decides _ _ answer
  | connections answer => cases h; exact portNames_decides _ _ answer
  | name string => cases h; exact Or.inr ⟨not_false, name_breaks _ _ string⟩
  | uuid answer =>
    cases h
    simp only [State.copied, uuid_memory]
    exact uuidForClientName_decides _ _ lib answer
  | uuidForClientName answer => cases h; exact uuidForClientName_decides _ _ lib answer
  | clientNameByUuid answer => cases h; exact Or.inl ⟨trivial, clientNameByUuid_keeps _ _ answer⟩
  | property answer => cases h; exact Or.inl ⟨trivial, property_keeps _ _ answer⟩
  | properties answer =>
    cases h
    rw [holding_owned, holding_memory]
    exact Or.inl ⟨trivial, properties_keeps _ _ answer⟩
  | allProperties answer =>
    cases h
    rw [holding_owned, holding_memory]
    exact Or.inl ⟨trivial, allProperties_keeps _ _ answer⟩
  | drop r =>
    simp only [perform] at h
    split at h
    · rename_i hmem
      cases h
      have hkeeps := drop_keeps s.memory ((s.held.erase r).map Result.owned).sum r
      rw [owned_erase hmem] at hkeeps
      exact Or.inl ⟨trivial, hkeeps⟩
    · cases h

theorem step_decides (h : step lib s l = some t) :
    Decides (l.Balances lib) s.memory s.owned t.memory t.owned := by
  unfold step at h
  split at h
  · exact perform_decides h
  · cases h

end Runs

/-- The ledger stays balanced exactly through the calls that reach none of the defects. -/
theorem balanced_iff_balances (lib : UuidParse) {ls : List Label} {t : State}
    (h : run (step lib) init ls = some t) :
    Throughout State.Balanced (step lib) init ls ↔ ∀ l ∈ ls, l.Balances lib := by
  rw [← along_label h]
  have hinv : ∀ s l u, Valid s.memory s.owned → step lib s l = some u →
      Valid u.memory u.owned := fun s l u hv hu => (step_decides hu).valid hv
  have hkeep : ∀ s l u, Valid s.memory s.owned → s.Balanced → step lib s l = some u →
      (u.Balanced ↔ l.Balances lib) := fun s l u hv hs hu => (step_decides hu).settled_iff hv hs
  exact throughout_iff_along hinv hkeep h valid_init settled_nil

section Runs

/-- The smallest number that libjack takes for a UUID. -/
def value : CString := ⟨[52, 50, 57, 52, 57, 54, 55, 50, 57, 54], by decide⟩

theorem value_parsed : Jack2.Uuid.fromStr (libjackParse true) value.bytes =
    .done (.ok ⟨4294967296⟩) := rfl

/-- Null and other answers, and the results dropped in the order they came. -/
def balancedRun : List Label :=
  [.ports none, .properties (some 2), .uuid (some value), .allProperties (some (2, true)),
    .property (some (0, value, some value)), .clientNameByUuid none, .property (some (-1, value, none)),
    .drop (.description ⟨1⟩), .drop (.descriptionList ⟨some 3, [4, 5]⟩)]

theorem balanced_iff_balances_balancedRun : ∃ t, run (step (libjackParse true)) init balancedRun = some t ∧
    t.held = [] ∧ Throughout State.Balanced (step (libjackParse true)) init balancedRun := by
  have hrun : run (step (libjackParse true)) init balancedRun =
      some ⟨⟨[.taken ⟨.description, 1⟩, .taken ⟨.block, 2⟩, .given ⟨.block, 2⟩,
        .taken ⟨.block, 3⟩, .taken ⟨.description, 4⟩, .taken ⟨.description, 5⟩,
        .taken ⟨.block, 6⟩, .taken ⟨.block, 7⟩, .given ⟨.block, 7⟩, .given ⟨.block, 6⟩,
        .given ⟨.description, 1⟩, .given ⟨.description, 4⟩, .given ⟨.description, 5⟩,
        .given ⟨.block, 3⟩], 8⟩, [], true⟩ := by rfl
  refine ⟨_, hrun, rfl, (balanced_iff_balances (libjackParse true) hrun).mpr ?_⟩
  simp only [balancedRun, List.forall_mem_cons, Label.Balances]
  simpa using ⟨_, value_parsed⟩

/-- `Client::name` gives libjack the string that the client still owns. -/
theorem name_not_balanced :
    ∃ t, run (step (libjackParse true)) init [.name value] = some t ∧ ¬t.Balanced := by
  refine ⟨_, rfl, ?_⟩
  intro hsettled
  exact absurd (hsettled.rightful [] clientName [] rfl).1 (by simp)

end Runs

end Jack2.ForeignMemory
