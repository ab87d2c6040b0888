import Mathlib.Data.List.TakeWhile
import Mathlib.Logic.Function.Basic
import Jack2.Callbacks

/-!
# libjack as a table of callbacks

libjack keeps, for each kind of callback, the last function and argument that were set,
until they are replaced, cleared, released or the client is closed. A call takes effect
when its code is zero. No operation of the crate makes one call twice, so the codes of
an operation are a function of the call.
-/
namespace Jack2

/-- The last function and argument set for each kind. -/
abbrev Table := CallbackKind → Option Entry

def emptyTable : Table := fun _ => none

namespace Call

/-- The kind of callback that a call sets or clears. -/
def kind : Call → Option CallbackKind
  | .set k _ => some k
  | .setTimebase _ _ | .releaseTimebase => some .timebase
  | _ => none

/-- What a call stores there. -/
def value : Call → Option Entry
  | .set _ entry => entry
  | .setTimebase _ entry => some entry
  | _ => none

def effect (c : Call) (t : Table) : Table :=
  match c with
  | .set k entry => Function.update t k entry
  | .setTimebase _ entry => Function.update t .timebase (some entry)
  | .releaseTimebase => Function.update t .timebase none
  | .clientClose => emptyTable
  | _ => t

theorem effect_of_kind {c : Call} {k : CallbackKind} (h : c.kind = some k) (t : Table) :
    c.effect t = Function.update t k c.value := by
  cases c <;> simp_all [kind, effect, value]

theorem effect_forall {c : Call} {t : Table} {Q : Entry → Prop} (ht : ∀ k e, t k = some e → Q e)
    (hc : ∀ e, c.value = some e → Q e) (k : CallbackKind) (e : Entry)
    (he : c.effect t k = some e) : Q e := by
  cases hkind : c.kind with
  | none => cases c <;> simp_all [kind, effect, emptyTable] <;> exact ht k e he
  | some j =>
    rw [effect_of_kind hkind] at he
    by_cases hkj : k = j
    · subst k
      rw [Function.update_self] at he
      exact hc e he
    · rw [Function.update_of_ne hkj] at he
      exact ht k e he

end Call

/-- The code a call is recorded with. -/
def codeOf (answers : Call → Int) (c : Call) : Int := if c.isVoid then 0 else answers c

def tableJack (answers : Call → Int) : Libjack Table where
  call _ c t := (answers c, if codeOf answers c = 0 then c.effect t else t)

/-- The effects of a list of calls on the table. -/
def effects (answers : Call → Int) (cs : List Call) (t : Table) : Table :=
  cs.foldl (fun t c => if codeOf answers c = 0 then c.effect t else t) t

/-- The calls before the first one with a negative code. -/
def passing (answers : Call → Int) (cs : List Call) : List Call :=
  cs.takeWhile fun c => 0 ≤ codeOf answers c

section Effects

variable {answers : Call → Int}

@[simp] theorem effects_nil (t : Table) : effects answers [] t = t := rfl

@[simp] theorem effects_cons (c : Call) (cs : List Call) (t : Table) :
    effects answers (c :: cs) t =
      effects answers cs (if codeOf answers c = 0 then c.effect t else t) := rfl

@[simp] theorem call_tableJack_code (client : JackClient) (c : Call) (w : World Table) :
    (w.call (tableJack answers) client c).1 = codeOf answers c := rfl

@[simp] theorem call_tableJack_jack (client : JackClient) (c : Call) (w : World Table) :
    (w.call (tableJack answers) client c).2.jack =
      if codeOf answers c = 0 then c.effect w.jack else w.jack := rfl

theorem passing_cons (c : Call) (cs : List Call) :
    passing answers (c :: cs) =
      if 0 ≤ codeOf answers c then c :: passing answers cs else [] := by
  simp [passing, List.takeWhile_cons]

theorem passing_subset {cs : List Call} {c : Call} (h : c ∈ passing answers cs) : c ∈ cs :=
  (List.takeWhile_sublist _).subset h

theorem passing_eq_self {cs : List Call} (h : ∀ c ∈ cs, 0 ≤ codeOf answers c) :
    passing answers cs = cs := by
  simpa [passing, List.takeWhile_eq_self_iff] using h

theorem passing_append (as bs : List Call) : passing answers (as ++ bs) =
    if ∀ c ∈ as, 0 ≤ codeOf answers c then as ++ passing answers bs else passing answers as := by
  induction as with
  | nil => simp [passing]
  | cons a as ih =>
    rw [List.cons_append, passing_cons, passing_cons, ih]
    by_cases ha : 0 ≤ codeOf answers a
    · simp only [ha, if_true, List.forall_mem_cons, true_and, List.cons_append]
      split <;> rfl
    · simp [ha]

/-- Checked calls fail exactly when one of them has a negative code. -/
theorem checkedCalls_isOk (answers : Call → Int) (client : JackClient) (cs : List Call) (w : World Table) :
    (checkedCalls (tableJack answers) client cs w).1 =
      if ∀ c ∈ cs, 0 ≤ codeOf answers c then .ok () else .error .unknown := by
  induction cs generalizing w with
  | nil => simp [checkedCalls]
  | cons c cs ih =>
    rw [checkedCalls_cons, call_tableJack_code]
    by_cases hc : codeOf answers c < 0
    · simp [hc, Int.not_le.mpr hc]
    · have hpos := Int.not_lt.mp hc
      rw [checkRet_of_nonneg hpos, Checked.andThen_ok, ih]
      simp [hpos]

/-- They leave the table with the effects of the calls before the first failing one. -/
theorem checkedCalls_jack (answers : Call → Int) (client : JackClient) (cs : List Call) (w : World Table) :
    (checkedCalls (tableJack answers) client cs w).2.jack =
      effects answers (passing answers cs) w.jack := by
  induction cs generalizing w with
  | nil => rfl
  | cons c cs ih =>
    rw [checkedCalls_cons, call_tableJack_code, passing_cons]
    by_cases hc : codeOf answers c < 0
    · have hne : codeOf answers c ≠ 0 := by omega
      simp [hc, Int.not_le.mpr hc, hne]
    · have hpos := Int.not_lt.mp hc
      rw [checkRet_of_nonneg hpos, Checked.andThen_ok, ih, if_pos hpos]
      rfl

/-- Calls for other kinds leave an entry alone. -/
theorem effects_of_notMem {cs : List Call} {k : CallbackKind}
    (hset : ∀ c ∈ cs, c.kind.isSome = true) (hk : ∀ c ∈ cs, c.kind ≠ some k) (t : Table) :
    effects answers cs t k = t k := by
  induction cs generalizing t with
  | nil => rfl
  | cons c cs ih =>
    obtain ⟨j, hj⟩ := Option.isSome_iff_exists.mp (hset c List.mem_cons_self)
    have hne : k ≠ j := by
      intro he
      exact hk c List.mem_cons_self (he ▸ hj)
    rw [effects_cons, ih (fun d hd => hset d (List.mem_cons_of_mem c hd))
      fun d hd => hk d (List.mem_cons_of_mem c hd), Call.effect_of_kind hj]
    split
    · exact Function.update_of_ne hne _ _
    · rfl

/-- Where no kind occurs twice, an entry is what its one call made of it. -/
theorem effects_of_mem {cs : List Call} (hset : ∀ c ∈ cs, c.kind.isSome = true)
    (hnodup : (cs.map Call.kind).Nodup) {c : Call} (hc : c ∈ cs) {k : CallbackKind}
    (hk : c.kind = some k) (t : Table) :
    effects answers cs t k = if codeOf answers c = 0 then c.value else t k := by
  induction cs generalizing t with
  | nil => cases hc
  | cons d cs ih =>
    have hrest : ∀ e ∈ cs, e.kind.isSome = true := fun e he => hset e (List.mem_cons_of_mem d he)
    obtain ⟨hd, hn⟩ := List.nodup_cons.mp (List.map_cons ▸ hnodup)
    rw [effects_cons]
    rcases List.mem_cons.mp hc with rfl | hc
    · have hother : ∀ e ∈ cs, e.kind ≠ some k := by
        intro e he heq
        exact hd (List.mem_map.mpr ⟨e, he, heq.trans hk.symm⟩)
      rw [effects_of_notMem hrest hother, Call.effect_of_kind hk]
      split <;> simp
    · obtain ⟨j, hj⟩ := Option.isSome_iff_exists.mp (hset d List.mem_cons_self)
      have hne : k ≠ j := by
        rintro rfl
        exact hd (List.mem_map.mpr ⟨c, hc, hk.trans hj.symm⟩)
      rw [ih hrest hn hc, Call.effect_of_kind hj]
      have hkeep : (if codeOf answers d = 0 then Function.update t j d.value else t) k = t k := by
        split
        · exact Function.update_of_ne hne _ _
        · rfl
      rw [hkeep]

/-- What holds of every entry before and of every value that is stored holds after. -/
theorem effects_forall {cs : List Call} {t : Table} {Q : Entry → Prop}
    (ht : ∀ k e, t k = some e → Q e)
    (hcs : ∀ c ∈ cs, codeOf answers c = 0 → ∀ e, c.value = some e → Q e) :
    ∀ k e, effects answers cs t k = some e → Q e := by
  induction cs generalizing t with
  | nil => exact ht
  | cons c cs ih =>
    rw [effects_cons]
    refine ih ?_ fun d hd => hcs d (List.mem_cons_of_mem c hd)
    split
    · exact Call.effect_forall ht (hcs c List.mem_cons_self ‹_›)
    · exact ht

end Effects

end Jack2
