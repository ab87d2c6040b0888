import Jack2.Libjack
import Jack2.Run
import Mathlib.Data.List.Basic

/-!
# Monitoring an input port

libjack counts the monitor requests of a port. Beside the count that the calls of the
crate lead to, a state carries the count that the two methods should lead to: a request
counts up or down, and `ensure_monitor` makes sure that monitoring is on or off.
-/
namespace Jack2.Monitor

open Jack2.Run

section Libjack

/-- The count is never below zero. -/
def jackPortRequestMonitor (count : ℕ) (onoff : Bool) : ℕ := if onoff then count + 1 else count - 1

def jackPortEnsureMonitor (count : ℕ) (onoff : Bool) : ℕ := if onoff then max count 1 else 0

def jackPortMonitoringInput (count : ℕ) : Int := if 0 < count then 1 else 0

end Libjack

/-- `Port::request_monitor`, with the code that libjack returns. -/
def requestMonitor (count : ℕ) (onoff : Bool) (ret : Int) : Except Error Unit × ℕ :=
  (checkRet ret, jackPortRequestMonitor count onoff)

/-- `Port::ensure_monitor`. It calls `jack_port_request_monitor` as well. -/
def ensureMonitor (count : ℕ) (onoff : Bool) (ret : Int) : Except Error Unit × ℕ :=
  (checkRet ret, jackPortRequestMonitor count onoff)

/-- `Port::monitoring_input` -/
def monitoringInput (count : ℕ) : Bool := jackPortMonitoringInput count == 1

@[simp] theorem monitoringInput_iff {count : ℕ} : monitoringInput count = true ↔ 0 < count := by
  by_cases h : 0 < count <;> simp [monitoringInput, jackPortMonitoringInput, h]

inductive Op where
  | requestMonitor (onoff : Bool)
  | ensureMonitor (onoff : Bool)
  deriving DecidableEq, Repr

def Op.perform (count : ℕ) (ret : Int) : Op → Except Error Unit × ℕ
  | .requestMonitor onoff => Monitor.requestMonitor count onoff ret
  | .ensureMonitor onoff => Monitor.ensureMonitor count onoff ret

/-- What the method should do to the count. -/
def Op.law (count : ℕ) : Op → ℕ
  | .requestMonitor onoff => jackPortRequestMonitor count onoff
  | .ensureMonitor onoff => jackPortEnsureMonitor count onoff

section Law

/-- The count after requests alone. -/
def requests (count : ℕ) (rs : List Bool) : ℕ := rs.foldl jackPortRequestMonitor count

@[simp] theorem requests_nil (count : ℕ) : requests count [] = count := rfl
@[simp] theorem requests_cons (count : ℕ) (r : Bool) (rs : List Bool) :
    requests count (r :: rs) = requests (jackPortRequestMonitor count r) rs := rfl

/-- Monitoring is what was ensured. -/
theorem law_ensured (count : ℕ) (onoff : Bool) :
    monitoringInput ((Op.ensureMonitor onoff).law count) = onoff := by
  cases onoff <;> simp [Op.law, jackPortEnsureMonitor, monitoringInput, jackPortMonitoringInput]

/-- To ensure it again, any number of times, changes nothing. -/
theorem law_ensured_again (count n : ℕ) (onoff : Bool) :
    (List.replicate (n + 1) (Op.ensureMonitor onoff)).foldl Op.law count =
      (Op.ensureMonitor onoff).law count := by
  have hagain : (Op.ensureMonitor onoff).law ((Op.ensureMonitor onoff).law count) =
      (Op.ensureMonitor onoff).law count := by
    cases onoff <;> simp [Op.law, jackPortEnsureMonitor]
  induction n with
  | zero => rfl
  | succ n ih =>
    rw [List.replicate_succ', List.foldl_append, ih]
    exact hagain

/-- Monitoring stays on as long as the requests that turn it off do not outnumber those
that turn it on, counted from where they start. -/
theorem stays_on_iff (count : ℕ) (rs : List Bool) :
    (∀ rs', rs' <+: rs → monitoringInput (requests count rs') = true) ↔
      ∀ rs', rs' <+: rs → rs'.count false < count + rs'.count true := by
  induction rs generalizing count with
  | nil => simp
  | cons r rs ih =>
    have hsplit : ∀ P : List Bool → Prop, (∀ rs', rs' <+: r :: rs → P rs') ↔
        P [] ∧ ∀ rs', rs' <+: rs → P (r :: rs') := by
      intro P
      simp only [List.prefix_cons_iff]
      constructor
      · intro h
        exact ⟨h [] (Or.inl rfl), fun rs' hrs => h _ (Or.inr ⟨rs', rfl, hrs⟩)⟩
      · rintro ⟨hnil, hcons⟩ rs' (rfl | ⟨t, rfl, ht⟩)
        · exact hnil
        · exact hcons t ht
    have hrest := ih (jackPortRequestMonitor count r)
    rw [hsplit, hsplit]
    simp only [requests_nil, requests_cons]
    rw [hrest, monitoringInput_iff, List.count_nil, List.count_nil, Nat.add_zero]
    refine and_congr_right fun hpos => forall_congr' fun rs' => imp_congr_right fun _ => ?_
    cases r <;> simp [jackPortRequestMonitor] <;> omega

/-- Only the count itself answers every series of requests the same. -/
theorem requests_determine {a b : ℕ}
    (h : ∀ rs, monitoringInput (requests a rs) = monitoringInput (requests b rs)) : a = b := by
  have hoff : ∀ n c, requests c (List.replicate n false) = c - n := by
    intro n
    induction n with
    | zero => intro c; rfl
    | succ n ih =>
      intro c
      rw [List.replicate_succ, requests_cons, ih, jackPortRequestMonitor, if_neg Bool.false_ne_true]
      omega
  have hle : ∀ n, 0 < a - n ↔ 0 < b - n := by
    intro n
    rw [← hoff n a, ← hoff n b, ← monitoringInput_iff, ← monitoringInput_iff, h]
  have ha := hle a
  have hb := hle b
  omega

end Law

/-- `law` is read by no call. -/
structure State where
  count : ℕ
  law : ℕ
  deriving DecidableEq, Repr

/-- A port whose count is what it is when the crate first calls. -/
def start (count : ℕ) : State := ⟨count, count⟩

/-- A call and the code that libjack returns. -/
structure Label where
  op : Op
  ret : Int
  deriving DecidableEq, Repr

/-- A call that returns `Ok`. -/
def step (s : State) (l : Label) : Option State :=
  match l.op.perform s.count l.ret with
  | (.ok (), count) => some ⟨count, l.op.law s.law⟩
  | (.error _, _) => none

theorem step_cases {s t : State} {l : Label} (h : step s l = some t) :
    0 ≤ l.ret ∧ t = ⟨(l.op.perform s.count l.ret).2, l.op.law s.law⟩ := by
  unfold step at h
  by_cases hret : l.ret < 0
  · cases hop : l.op <;>
      simp [hop, Op.perform, requestMonitor, ensureMonitor, checkRet_of_neg hret] at h
  · have hok := Int.not_lt.mp hret
    refine ⟨hok, ?_⟩
    cases hop : l.op <;>
      simp only [hop, Op.perform, requestMonitor, ensureMonitor, checkRet_of_nonneg hok,
        Option.some.injEq] at h <;> exact h.symm

/-- Monitoring now, and after any requests to come, is what it should be. -/
def Lawful (s : State) : Prop :=
  ∀ rs, monitoringInput (requests s.count rs) = monitoringInput (requests s.law rs)

theorem lawful_iff {s : State} : Lawful s ↔ s.count = s.law := by
  constructor
  · exact requests_determine
  · intro h rs
    rw [h]

/-- A request that counts up or down by one does what should be ensured: monitoring is
turned on at count zero, or off at a count of at most one. -/
def Counts (s : State) (l : Label) : Prop :=
  match l.op with
  | .requestMonitor _ => True
  | .ensureMonitor true => s.count = 0
  | .ensureMonitor false => s.count ≤ 1

theorem lawful_step {s t : State} {l : Label} (hs : Lawful s) (h : step s l = some t) :
    Lawful t ↔ Counts s l := by
  obtain ⟨_, rfl⟩ := step_cases h
  rw [lawful_iff] at hs ⊢
  cases hop : l.op with
  | requestMonitor onoff =>
    simp [Counts, hop, Op.perform, requestMonitor, Op.law, hs]
  | ensureMonitor onoff =>
    cases onoff <;>
      simp only [Counts, hop, Op.perform, ensureMonitor, Op.law, jackPortRequestMonitor,
        jackPortEnsureMonitor, if_true, Bool.false_eq_true, if_false, ← hs] <;> omega

/-- In a run of calls that all return `Ok`, from any count, the law holds throughout exactly
when every `ensure_monitor` is called where one request has the same effect. -/
theorem monitor_lawful_iff {count : ℕ} {ls : List Label} {t : State}
    (hrun : run step (start count) ls = some t) :
    Throughout Lawful step (start count) ls ↔ Along Counts step (start count) ls :=
  have hstep : ∀ s l t, True → Lawful s → step s l = some t → (Lawful t ↔ Counts s l) :=
    fun _ _ _ _ => lawful_step
  throughout_iff_along (fun _ _ _ _ _ => trivial) hstep hrun trivial (lawful_iff.mpr rfl)

/-- Monitoring is requested, ensured and no longer requested. -/
def ensuredRun : List Label :=
  [⟨.requestMonitor true, 0⟩, ⟨.ensureMonitor true, 0⟩, ⟨.requestMonitor false, 0⟩]

theorem monitor_lawful_iff_ensuredRun : ∃ t, run step (start 0) ensuredRun = some t ∧
    (Throughout Lawful step (start 0) ensuredRun ↔ Along Counts step (start 0) ensuredRun) := by
  have hrun : run step (start 0) ensuredRun = some ⟨1, 0⟩ := rfl
  exact ⟨_, hrun, monitor_lawful_iff hrun⟩

/-- Monitoring is requested twice and then ensured to be off. -/
def ensuredOffRun : List Label :=
  [⟨.requestMonitor true, 0⟩, ⟨.requestMonitor true, 0⟩, ⟨.ensureMonitor false, 0⟩]

theorem ensuredOffRun_unlawful : ∃ t, run step (start 0) ensuredOffRun = some t ∧
    monitoringInput t.count = true ∧ ¬ Lawful t :=
  ⟨⟨1, 0⟩, rfl, rfl, fun h => absurd (lawful_iff.mp h) (by decide)⟩

end Jack2.Monitor
