import Mathlib.Algebra.BigOperators.Group.Finset.Basic
import Mathlib.Algebra.Order.BigOperators.Group.Finset
import Mathlib.Data.List.Infix
import Jack2.OnceCell
import Jack2.Registration

/-!
# Opening clients

`ClientBuilder::build`, `sys::weak_library` and `sys::library` on any number of threads.
The three of them share two cells and a `Once`: the library, the reference to it, and the
log handlers. A thread that finds one of them being initialized waits.
-/
namespace Jack2.Opening

open Registration (CString.new)

/-- The constants `JackOptions_*` of the generated bindings. The server name has a bit apart
from those of `ClientOptions`. -/
structure JackOptions where
  nullOption : UInt32
  noStartServer : UInt32
  useExactName : UInt32
  serverName : UInt32
  null : nullOption = 0
  named : serverName ≠ 0
  separate : (noStartServer ||| useExactName) &&& serverName = 0

/-- The bits of the C header. -/
def JackOptions.header : JackOptions := ⟨0, 1, 2, 4, rfl, by decide, by decide⟩

/-- The bits are among those of the declared flags. -/
structure ClientOptions (sys : JackOptions) where
  bits : UInt32
  declared : bits &&& (sys.noStartServer ||| sys.useExactName) = bits

/-- The builder without its context. The bit of the server name says whether there is one,
which libjack reads before it takes the argument. -/
structure ClientBuilder (sys : JackOptions) where
  name : List UInt8
  flags : UInt32
  serverName : Option CString
  announced : flags &&& sys.serverName ≠ 0 ↔ serverName.isSome = true

/-- `crate::Error` with what it carries; `ε` is `libloading::Error`. -/
inductive Error (ε : Type*) where
  | invalidCString (position : ℕ) (bytes : List UInt8)
  | libraryError (e : ε)
  | failure (status : UInt32)

/-- The loaded library, with the one symbol that `build` looks up itself. It is assumed to
have `jack_set_error_function` and `jack_set_info_function`, so the initialiser of the `Once`,
which calls both, does not panic. -/
structure Jack (ε : Type*) where
  jackClientOpen : Except ε Unit

/-- The arguments of `jack_client_open`. -/
structure Request where
  name : CString
  options : UInt32
  serverName : Option CString
  deriving DecidableEq

/-- What `jack_client_open` returns, and the status that it writes. -/
structure Answer where
  client : Option JackClient
  status : UInt32
  deriving DecidableEq, Repr

/-- What is called outside of the crate. -/
inductive Call where
  | dlopen
  | setErrorFunction
  | setInfoFunction
  | clientOpen (request : Request) (answer : Answer)
  deriving DecidableEq

variable {ι ε : Type*} {sys : JackOptions}

namespace ClientBuilder

def new (sys : JackOptions) (clientName : List UInt8) : ClientBuilder sys where
  name := clientName
  flags := sys.nullOption
  serverName := none
  announced := by simp [sys.null]

def withFlags (self : ClientBuilder sys) (flags : ClientOptions sys) : ClientBuilder sys where
  name := self.name
  flags := self.flags ||| flags.bits
  serverName := self.serverName
  announced := by
    have hbits : flags.bits &&& sys.serverName = 0 := by
      rw [← flags.declared, UInt32.and_assoc, sys.separate, UInt32.and_zero]
    rw [or_and, hbits, UInt32.or_zero]
    exact self.announced

def withServerName (self : ClientBuilder sys) (serverName : CString) : ClientBuilder sys where
  name := self.name
  flags := self.flags ||| sys.serverName
  serverName := some serverName
  announced := by
    have hbit : (self.flags ||| sys.serverName) &&& sys.serverName = sys.serverName := by
      rw [or_and, UInt32.and_self, UInt32.or_comm]
      exact UInt32.toBitVec_inj.mp (by ext i; simp)
    simp [hbit, sys.named]

/-- The name, then the symbol, then the call. -/
def request (self : ClientBuilder sys) (lib : Jack ε) : Except (Error ε) Request :=
  match CString.new self.name with
  | none => .error (.invalidCString (self.name.idxOf 0) self.name)
  | some name =>
    match lib.jackClientOpen with
    | .error e => .error (.libraryError e)
    | .ok () => .ok ⟨name, self.flags, self.serverName⟩

end ClientBuilder

/-- `NonNull::new(client).ok_or(Failure(status))` -/
def Answer.result : Answer → Except (Error ε) (JackClient × UInt32)
  | ⟨none, status⟩ => .error (.failure status)
  | ⟨some client, status⟩ => .ok (client, status)

/-- A call of one of the three functions. -/
inductive Job (sys : JackOptions) where
  | weakLibrary
  | library
  | build (builder : ClientBuilder sys)

/-- What a call returned. -/
inductive Returned (sys : JackOptions) (ε : Type*) where
  | weakLibrary (r : Except ε (Jack ε))
  /-- It panicked where there is nothing. -/
  | library (r : Option (Jack ε))
  | build (builder : ClientBuilder sys) (r : Except (Error ε) (JackClient × UInt32))

/-- Where a thread is. -/
inductive Pc (sys : JackOptions) (ε : Type*) where
  | idle
  /-- At `get_or_init` of the cell in `library`. -/
  | library
  /-- At `get_or_init` of the cell in `weak_library`. -/
  | weak (job : Job sys)
  /-- In the initializer, before the call of `dlopen` and after it. -/
  | load (job : Job sys)
  | loaded (job : Job sys) (r : Except ε (Jack ε))
  /-- Behind `weak_library`. -/
  | answered (job : Job sys) (r : Except ε (Jack ε))
  /-- At `call_once`. -/
  | log (builder : ClientBuilder sys) (lib : Jack ε)
  | setError (builder : ClientBuilder sys) (lib : Jack ε)
  | setInfo (builder : ClientBuilder sys) (lib : Jack ε)
  | logged (builder : ClientBuilder sys) (lib : Jack ε)
  /-- Behind `call_once`. -/
  | opening (builder : ClientBuilder sys) (lib : Jack ε)

def Job.start : Job sys → Pc sys ε
  | .library => .library
  | job => .weak job

structure State (ι : Type*) (sys : JackOptions) (ε : Type*) where
  library : OnceCell ι (Except ε (Jack ε))
  reference : OnceCell ι (Jack ε)
  jackLog : OnceCell ι Unit
  pc : ι → Pc sys ε
  calls : List Call
  returned : List (Returned sys ε)

/-- A thread calls one of the functions, goes on, or returns from `jack_client_open`. -/
inductive Label (ι : Type*) (sys : JackOptions) where
  | start (i : ι) (job : Job sys)
  | advance (i : ι)
  | opened (i : ι) (answer : Answer)

def init : State ι sys ε := ⟨.empty, .empty, .empty, fun _ => .idle, [], []⟩

section Steps

variable [DecidableEq ι]

namespace State

def goto (s : State ι sys ε) (i : ι) (p : Pc sys ε) : State ι sys ε :=
  { s with pc := Function.update s.pc i p }

def finish (s : State ι sys ε) (i : ι) (r : Returned sys ε) : State ι sys ε :=
  { s with pc := Function.update s.pc i .idle, returned := s.returned ++ [r] }

def call (s : State ι sys ε) (c : Call) : State ι sys ε := { s with calls := s.calls ++ [c] }

/-- The `?` of `build`, or the `unwrap` of `library`, which unwinds the initializer of the
reference. -/
def answer (s : State ι sys ε) (i : ι) : Job sys → Except ε (Jack ε) → State ι sys ε
  | .weakLibrary, r => s.finish i (.weakLibrary r)
  | .library, .ok lib => { s with reference := .full lib }.finish i (.library (some lib))
  | .library, .error _ => { s with reference := .empty }.finish i (.library none)
  | .build builder, .ok lib => s.goto i (.log builder lib)
  | .build builder, .error e => s.finish i (.build builder (.error (.libraryError e)))

end State

/-- The `k`-th call of `dlopen` answers `load k`. -/
def advance (load : ℕ → Except ε (Jack ε)) (s : State ι sys ε) (i : ι) :
    Pc sys ε → Option (State ι sys ε)
  | .idle => none
  | .library =>
    match s.reference with
    | .empty => some ({ s with reference := .running i }.goto i (.weak .library))
    | .running _ => none
    | .full lib => some (s.finish i (.library (some lib)))
  | .weak job =>
    match s.library with
    | .empty => some ({ s with library := .running i }.goto i (.load job))
    | .running _ => none
    | .full r => some (s.goto i (.answered job r))
  | .load job => some ((s.call .dlopen).goto i (.loaded job (load (s.calls.count .dlopen))))
  | .loaded job r => some ({ s with library := .full r }.goto i (.answered job r))
  | .answered job r => some (s.answer i job r)
  | .log builder lib =>
    match s.jackLog with
    | .empty => some ({ s with jackLog := .running i }.goto i (.setError builder lib))
    | .running _ => none
    | .full () => some (s.goto i (.opening builder lib))
  | .setError builder lib => some ((s.call .setErrorFunction).goto i (.setInfo builder lib))
  | .setInfo builder lib => some ((s.call .setInfoFunction).goto i (.logged builder lib))
  | .logged builder lib => some ({ s with jackLog := .full () }.goto i (.opening builder lib))
  | .opening builder lib =>
    match builder.request lib with
    | .error e => some (s.finish i (.build builder (.error e)))
    | .ok _ => none

def step (load : ℕ → Except ε (Jack ε)) (s : State ι sys ε) : Label ι sys → Option (State ι sys ε)
  | .start i job =>
    match s.pc i with
    | .idle => some (s.goto i job.start)
    | _ => none
  | .advance i => advance load s i (s.pc i)
  | .opened i answer =>
    match s.pc i with
    | .opening builder lib =>
      match builder.request lib with
      | .ok request =>
        some ((s.call (.clientOpen request answer)).finish i (.build builder answer.result))
      | .error _ => none
    | _ => none

abbrev run (load : ℕ → Except ε (Jack ε)) :
    State ι sys ε → List (Label ι sys) → Option (State ι sys ε) := Run.run (step load)

end Steps

/-- The initializer in `weak_library`. -/
def libraryInit : Initializer (Pc sys ε) (Except ε (Jack ε)) Call where
  inside
    | .load _ | .loaded _ _ => true
    | _ => false
  value
    | .loaded _ r => some r
    | _ => none
  done
    | .loaded _ _ => [.dlopen]
    | _ => []
  whole := [.dlopen]

/-- The one in `library`, which makes no calls itself. -/
def referenceInit : Initializer (Pc sys ε) (Jack ε) Call where
  inside
    | .weak .library | .load .library | .loaded .library _ | .answered .library _ => true
    | _ => false
  value
    | .answered _ (.ok lib) => some lib
    | _ => none
  done _ := []
  whole := []

/-- The closure that `call_once` calls. -/
def logInit : Initializer (Pc sys ε) Unit Call where
  inside
    | .setError _ _ | .setInfo _ _ | .logged _ _ => true
    | _ => false
  value _ := some ()
  done
    | .setInfo _ _ => [.setErrorFunction]
    | .logged _ _ => [.setErrorFunction, .setInfoFunction]
    | _ => []
  whole := [.setErrorFunction, .setInfoFunction]

/-- What `build` does with the library, up to the call of `jack_client_open`. -/
def ClientBuilder.prepare (self : ClientBuilder sys) (library : Except ε (Jack ε)) :
    Except (Error ε) Request :=
  match library with
  | .error e => .error (.libraryError e)
  | .ok lib => self.request lib

namespace Returned

/-- The answer is that of a call alone on its own, with `library` as the only attempt to load it. -/
def Sequential (library : Except ε (Jack ε)) : Returned sys ε → Prop
  | .weakLibrary r => r = library
  | .library r => r = library.toOption
  | .build builder r =>
    match builder.prepare library with
    | .error e => r = .error e
    | .ok _ => ∃ answer : Answer, r = answer.result

/-- The call of `jack_client_open` behind the answer of `build`. -/
def opened (library : Except ε (Jack ε)) : Returned sys ε → Option Call
  | .build builder r =>
    match builder.prepare library, r with
    | .ok request, .ok (client, status) => some (.clientOpen request ⟨some client, status⟩)
    | .ok request, .error (.failure status) => some (.clientOpen request ⟨none, status⟩)
    | _, _ => none
  | _ => none

end Returned

/-- What a thread knows at its control point. -/
def Pc.Knows (first : Except ε (Jack ε)) (library : Option (Except ε (Jack ε)))
    (jackLog : Option Unit) : Pc sys ε → Prop
  | .loaded _ r => r = first
  | .answered _ r => library = some r
  | .log _ lib | .setError _ lib | .setInfo _ lib | .logged _ lib => library = some (.ok lib)
  | .opening _ lib => library = some (.ok lib) ∧ jackLog = some ()
  | _ => True

/-- The steps a thread has before it at most. -/
def Pc.remaining : Pc sys ε → ℕ
  | .idle => 0
  | .opening _ _ => 1
  | .logged _ _ => 2
  | .setInfo _ _ => 3
  | .setError _ _ => 4
  | .log _ _ => 5
  | .answered _ _ => 6
  | .loaded _ _ => 7
  | .load _ => 8
  | .weak _ => 9
  | .library => 10

namespace State

variable (first : Except ε (Jack ε)) (s : State ι sys ε)

def opens : List Call := s.returned.filterMap (Returned.opened first)

/-- The calls of the two initializers. -/
def libraryCalls : List Call := s.library.effects libraryInit s.pc
def logCalls : List Call := s.jackLog.effects logInit s.pc

end State

def Label.thread : Label ι sys → ι
  | .start i _ => i
  | .advance i => i
  | .opened i _ => i

section Invariant

/-- Who initializes what, and what the cells hold and the threads know. -/
structure Valid (load : ℕ → Except ε (Jack ε)) (s : State ι sys ε) : Prop where
  library : s.library.InitializedAt libraryInit s.pc
  reference : s.reference.InitializedAt referenceInit s.pc
  jackLog : s.jackLog.InitializedAt logInit s.pc
  knows : ∀ i, (s.pc i).Knows (load 0) s.library.get s.jackLog.get
  cached : ∀ r, s.library.get = some r → r = load 0
  referenced : ∀ lib, s.reference.get = some lib → load 0 = .ok lib
  /-- The log handlers come after the library, and clients after both. -/
  logged : s.jackLog ≠ .empty → ∃ lib, s.library.get = some (.ok lib)
  opened : s.opens (load 0) ≠ [] → s.jackLog.get = some ()
  calls : s.calls = s.libraryCalls ++ s.logCalls ++ s.opens (load 0)
  sequential : ∀ r ∈ s.returned, r.Sequential (load 0)

variable {load : ℕ → Except ε (Jack ε)} {s t : State ι sys ε}

theorem Pc.Knows.mono {first : Except ε (Jack ε)} {l l' : Option (Except ε (Jack ε))}
    {g g' : Option Unit} {p : Pc sys ε} (h : p.Knows first l g)
    (hl : ∀ r, l = some r → l' = some r) (hg : g = some () → g' = some ()) :
    p.Knows first l' g' := by
  cases p with
  | idle | library | weak | load => trivial
  | loaded => exact h
  | answered | log | setError | setInfo | logged => exact hl _ h
  | opening => exact ⟨hl _ h.1, hg h.2⟩

/-- What a step of thread `i` from `p` to `q` does to the three cells, the calls and the
answers. -/
structure Moved [DecidableEq ι] (first : Except ε (Jack ε)) (s t : State ι sys ε) (i : ι)
    (p q : Pc sys ε) (libraryNew logNew : List Call) (r : Option (Returned sys ε)) : Prop where
  before : s.pc i = p
  after : t.pc = Function.update s.pc i q
  library : OnceCell.Move libraryInit i p q s.library t.library libraryNew
  reference : OnceCell.Move referenceInit i p q s.reference t.reference []
  jackLog : OnceCell.Move logInit i p q s.jackLog t.jackLog logNew
  returned : t.returned = s.returned ++ r.toList
  calls : t.calls = s.calls ++ libraryNew ++ logNew ++ r.toList.filterMap (Returned.opened first)
  knows : q.Knows first t.library.get t.jackLog.get
  sequential : ∀ x ∈ r, x.Sequential first
  opened : ∀ x ∈ r, x.opened first ≠ none → s.jackLog.get = some ()
  shorter : p ≠ .idle → q.remaining < p.remaining

theorem valid_init : Valid load (init : State ι sys ε) where
  library := .init fun _ => rfl
  reference := .init fun _ => rfl
  jackLog := .init fun _ => rfl
  knows := fun _ => trivial
  cached := nofun
  referenced := nofun
  logged := fun h => absurd rfl h
  opened := fun h => absurd rfl h
  calls := rfl
  sequential := nofun

section Points

variable {i : ι} {p q : Pc sys ε}

theorem remaining_pos (h : p ≠ .idle) : (Pc.idle : Pc sys ε).remaining < p.remaining := by
  cases p <;> simp_all [Pc.remaining]

theorem stay_reference (h : referenceInit.inside q = referenceInit.inside p)
    {c : OnceCell ι (Jack ε)} : OnceCell.Move referenceInit i p q c c [] :=
  .stay h (fun _ => rfl) fun _ => rfl

theorem knows_log {l : Option (Except ε (Jack ε))} {g : Option Unit}
    (h : logInit.inside q = true) (hknows : q.Knows first l g) : ∃ lib, l = some (.ok lib) := by
  cases q with
  | setError _ lib | setInfo _ lib | logged _ lib => exact ⟨lib, hknows⟩
  | _ => simp [logInit] at h

end Points

section Calls

theorem libraryCalls_begins (s : State ι sys ε) : s.libraryCalls <+: [.dlopen] := by
  rw [State.libraryCalls]
  rcases s.library with _ | j | r
  · exact List.nil_prefix
  · rcases hp : s.pc j <;> simp [OnceCell.effects, libraryInit, hp]
  · exact List.prefix_refl _

theorem logCalls_begins (s : State ι sys ε) :
    s.logCalls <+: [.setErrorFunction, .setInfoFunction] := by
  rw [State.logCalls]
  rcases s.jackLog with _ | j | r
  · exact List.nil_prefix
  · rcases hp : s.pc j <;> simp [OnceCell.effects, logInit, hp]
  · exact List.prefix_refl _

theorem Valid.full (hs : Valid load s) (h : s.jackLog ≠ .empty) : s.libraryCalls = [.dlopen] := by
  obtain ⟨lib, hlib⟩ := hs.logged h
  rw [State.libraryCalls, OnceCell.eq_full hlib]
  rfl

theorem Valid.opens_eq_nil (hs : Valid load s) (h : s.jackLog = .empty) :
    s.opens (load 0) = [] := by
  by_contra hne
  simpa [h] using hs.opened hne

/-- Before the library is loaded there are no log handlers and no clients. -/
theorem Valid.unloaded (hs : Valid load s) {j : ι} (hj : s.library = .running j) :
    s.logCalls = [] ∧ s.opens (load 0) = [] := by
  have hempty : s.jackLog = .empty := by
    by_contra hne
    obtain ⟨lib, hlib⟩ := hs.logged hne
    simp [hj] at hlib
  refine ⟨?_, hs.opens_eq_nil hempty⟩
  rw [State.logCalls, hempty]
  rfl

theorem Valid.count_dlopen (hs : Valid load s) {i : ι} {job : Job sys} (hp : s.pc i = .load job) :
    s.calls.count .dlopen = 0 := by
  have hrun : s.library = .running i := (hs.library i).mp (by rw [hp]; rfl)
  obtain ⟨hlog, hopens⟩ := hs.unloaded hrun
  have hnone : s.libraryCalls = [] := by
    rw [State.libraryCalls, hrun]
    simp [OnceCell.effects, hp, libraryInit]
  simp [hs.calls, hlog, hopens, hnone]

/-- The steps that all threads together have before them at most. -/
def State.remaining [Fintype ι] (s : State ι sys ε) : ℕ := ∑ i, (s.pc i).remaining

theorem remaining_le [Fintype ι] (s : State ι sys ε) : s.remaining ≤ 10 * Fintype.card ι := by
  have hbound : ∀ p : Pc sys ε, p.remaining ≤ 10 := by
    intro p
    cases p <;> simp [Pc.remaining]
  have hsum := Finset.sum_le_card_nsmul Finset.univ (fun i => (s.pc i).remaining) 10
    fun i _ => hbound (s.pc i)
  rw [Nat.nsmul_eq_mul, Finset.card_univ] at hsum
  rw [State.remaining]
  omega

end Calls

section Moves

variable [DecidableEq ι] {i : ι} {p q : Pc sys ε} {first : Except ε (Jack ε)}

/-- No call returns. -/
theorem moved_on {a b : List Call} (hp : s.pc i = p) (hpc : t.pc = Function.update s.pc i q)
    (hreturned : t.returned = s.returned) (hcalls : t.calls = s.calls ++ a ++ b)
    (hlib : OnceCell.Move libraryInit i p q s.library t.library a)
    (href : OnceCell.Move referenceInit i p q s.reference t.reference [])
    (hlog : OnceCell.Move logInit i p q s.jackLog t.jackLog b)
    (hknows : q.Knows first t.library.get t.jackLog.get)
    (hshorter : p ≠ .idle → q.remaining < p.remaining) : Moved first s t i p q a b none where
  before := hp
  after := hpc
  library := hlib
  reference := href
  jackLog := hlog
  returned := by simp [hreturned]
  calls := by simp [hcalls]
  knows := hknows
  sequential := by simp
  opened := by simp
  shorter := hshorter

/-- The cells stay as they are. -/
theorem moved_goto (hp : s.pc i = p)
    (hlib : libraryInit.inside p = false ∧ libraryInit.inside q = false)
    (href : referenceInit.inside q = referenceInit.inside p)
    (hlog : logInit.inside p = false ∧ logInit.inside q = false)
    (hknows : q.Knows first s.library.get s.jackLog.get)
    (hshorter : p ≠ .idle → q.remaining < p.remaining) :
    Moved first s (s.goto i q) i p q [] [] none :=
  moved_on hp rfl rfl (by simp [State.goto]) (.outside hlib.1 hlib.2) (stay_reference href)
    (.outside hlog.1 hlog.2) hknows hshorter

/-- A call returns, without a client. -/
theorem moved_finish (hp : s.pc i = p) (hlib : libraryInit.inside p = false)
    (href : referenceInit.inside p = false) (hlog : logInit.inside p = false) {r : Returned sys ε}
    (hseq : r.Sequential first) (hopened : r.opened first = none) :
    Moved first s (s.finish i r) i p .idle [] [] (some r) where
  before := hp
  after := rfl
  library := .outside hlib rfl
  reference := .outside href rfl
  jackLog := .outside hlog rfl
  returned := rfl
  calls := by simp [State.finish, hopened]
  knows := trivial
  sequential := by simpa using hseq
  opened := by simp [hopened]
  shorter := remaining_pos

theorem answer_moved (hs : Valid load s) {job : Job sys} {r : Except ε (Jack ε)}
    (hp : s.pc i = .answered job r) :
    ∃ q x, Moved (load 0) s (s.answer i job r) i (.answered job r) q [] [] x := by
  have hget : s.library.get = some r := by simpa [hp, Pc.Knows] using hs.knows i
  have hr : r = load 0 := hs.cached r hget
  cases job with
  | weakLibrary => exact ⟨_, _, moved_finish hp rfl rfl rfl hr rfl⟩
  | library =>
    cases r with
    | error e =>
      have hseq : (Returned.library none : Returned sys ε).Sequential (load 0) := by
        simp [Returned.Sequential, ← hr, Except.toOption]
      exact ⟨.idle, some (.library none),
        { before := hp, after := rfl, library := .outside rfl rfl
          reference := .unwind rfl rfl rfl, jackLog := .outside rfl rfl, returned := rfl
          calls := by simp [State.answer, State.finish, Returned.opened], knows := trivial
          sequential := by simpa using hseq, opened := by simp [Returned.opened]
          shorter := remaining_pos }⟩
    | ok lib =>
      have hseq : (Returned.library (some lib) : Returned sys ε).Sequential (load 0) := by
        simp [Returned.Sequential, ← hr, Except.toOption]
      exact ⟨.idle, some (.library (some lib)),
        { before := hp, after := rfl, library := .outside rfl rfl
          reference := .finish rfl rfl rfl rfl, jackLog := .outside rfl rfl, returned := rfl
          calls := by simp [State.answer, State.finish, Returned.opened], knows := trivial
          sequential := by simpa using hseq, opened := by simp [Returned.opened]
          shorter := remaining_pos }⟩
  | build builder =>
    cases r with
    | error e =>
      refine ⟨_, _, moved_finish hp rfl rfl rfl ?_ ?_⟩
      · simp [Returned.Sequential, ← hr, ClientBuilder.prepare]
      · simp [Returned.opened, ← hr, ClientBuilder.prepare]
    | ok lib =>
      exact ⟨_, _, moved_goto hp ⟨rfl, rfl⟩ rfl ⟨rfl, rfl⟩ hget (by simp [Pc.remaining])⟩

theorem advance_moved (hs : Valid load s) (h : advance load s i p = some t) (hp : s.pc i = p) :
    ∃ q a b x, Moved (load 0) s t i p q a b x := by
  have hknows := hs.knows i
  rw [hp] at hknows
  cases p with
  | idle => simp [advance] at h
  | library =>
    rcases hcell : s.reference with _ | j | lib
    · obtain rfl : _ = t := by simpa [advance, hcell] using h
      refine ⟨.weak .library, [], [], none,
        moved_on hp rfl rfl (by simp [State.goto]) ?_ ?_ ?_ trivial (by simp [Pc.remaining])⟩
      · exact .outside rfl rfl
      · rw [hcell]
        exact .enter rfl rfl
      · exact .outside rfl rfl
    · simp [advance, hcell] at h
    · obtain rfl : _ = t := by simpa [advance, hcell] using h
      have hlib : load 0 = .ok lib := hs.referenced lib (by rw [hcell]; rfl)
      refine ⟨_, _, _, _, moved_finish hp rfl rfl rfl ?_ rfl⟩
      simp [Returned.Sequential, hlib, Except.toOption]
  | weak job =>
    rcases hcell : s.library with _ | j | r
    · obtain rfl : _ = t := by simpa [advance, hcell] using h
      refine ⟨.load job, [], [], none,
        moved_on hp rfl rfl (by simp [State.goto]) ?_ ?_ ?_ trivial (by simp [Pc.remaining])⟩
      · rw [hcell]
        exact .enter rfl rfl
      · exact stay_reference (by cases job <;> rfl)
      · exact .outside rfl rfl
    · simp [advance, hcell] at h
    · obtain rfl : _ = t := by simpa [advance, hcell] using h
      have hget : s.library.get = some r := by rw [hcell]; rfl
      exact ⟨_, _, _, _, moved_goto hp ⟨rfl, rfl⟩ (by cases job <;> rfl) ⟨rfl, rfl⟩ hget
        (by simp [Pc.remaining])⟩
  | load job =>
    obtain rfl : _ = t := by simpa [advance] using h
    rw [hs.count_dlopen hp]
    refine ⟨_, [.dlopen], [], none,
      moved_on hp rfl rfl (by simp [State.goto, State.call]) ?_ ?_ ?_ rfl (by simp [Pc.remaining])⟩
    · exact .stay rfl (fun _ => rfl) nofun
    · exact stay_reference (by cases job <;> rfl)
    · exact .outside rfl rfl
  | loaded job r =>
    obtain rfl : _ = t := by simpa [advance] using h
    refine ⟨.answered job r, [], [], none,
      moved_on hp rfl rfl (by simp [State.goto]) ?_ ?_ ?_ rfl (by simp [Pc.remaining])⟩
    · exact .finish rfl rfl rfl rfl
    · exact stay_reference (by cases job <;> rfl)
    · exact .outside rfl rfl
  | answered job r =>
    obtain rfl : _ = t := by simpa [advance] using h
    obtain ⟨q, x, hmoved⟩ := answer_moved hs hp
    exact ⟨q, [], [], x, hmoved⟩
  | log builder lib =>
    rcases hcell : s.jackLog with _ | j | ⟨⟩
    · obtain rfl : _ = t := by simpa [advance, hcell] using h
      refine ⟨.setError builder lib, [], [], none,
        moved_on hp rfl rfl (by simp [State.goto]) ?_ ?_ ?_ hknows (by simp [Pc.remaining])⟩
      · exact .outside rfl rfl
      · exact .outside rfl rfl
      · rw [hcell]
        exact .enter rfl rfl
    · simp [advance, hcell] at h
    · obtain rfl : _ = t := by simpa [advance, hcell] using h
      have hget : s.jackLog.get = some () := by rw [hcell]; rfl
      exact ⟨_, _, _, _, moved_goto hp ⟨rfl, rfl⟩ rfl ⟨rfl, rfl⟩ ⟨hknows, hget⟩
        (by simp [Pc.remaining])⟩
  | setError builder lib =>
    obtain rfl : _ = t := by simpa [advance] using h
    refine ⟨.setInfo builder lib, [], [.setErrorFunction], none,
      moved_on hp rfl rfl (by simp [State.goto, State.call]) ?_ ?_ ?_ hknows (by simp [Pc.remaining])⟩
    · exact .outside rfl rfl
    · exact .outside rfl rfl
    · exact .stay rfl (fun _ => rfl) nofun
  | setInfo builder lib =>
    obtain rfl : _ = t := by simpa [advance] using h
    refine ⟨.logged builder lib, [], [.setInfoFunction], none,
      moved_on hp rfl rfl (by simp [State.goto, State.call]) ?_ ?_ ?_ hknows (by simp [Pc.remaining])⟩
    · exact .outside rfl rfl
    · exact .outside rfl rfl
    · exact .stay rfl (fun _ => rfl) nofun
  | logged builder lib =>
    obtain rfl : _ = t := by simpa [advance] using h
    refine ⟨.opening builder lib, [], [], none,
      moved_on hp rfl rfl (by simp [State.goto]) ?_ ?_ ?_ ⟨hknows, rfl⟩ (by simp [Pc.remaining])⟩
    · exact .outside rfl rfl
    · exact .outside rfl rfl
    · exact .finish rfl rfl rfl rfl
  | opening builder lib =>
    have hload := hs.cached _ hknows.1
    cases hreq : builder.request lib with
    | ok request => simp [advance, hreq] at h
    | error e =>
      obtain rfl : _ = t := by simpa [advance, hreq] using h
      refine ⟨_, _, _, _, moved_finish hp rfl rfl rfl ?_ ?_⟩
      · simp [Returned.Sequential, ← hload, ClientBuilder.prepare, hreq]
      · simp [Returned.opened, ← hload, ClientBuilder.prepare, hreq]

theorem step_moved (hs : Valid load s) {l : Label ι sys} (h : step load s l = some t) :
    ∃ p q a b x, Moved (load 0) s t l.thread p q a b x := by
  cases l with
  | start i job =>
    cases hp : s.pc i with
    | idle =>
      obtain rfl : _ = t := by simpa [step, hp] using h
      refine ⟨.idle, job.start, [], [], none, moved_goto hp ⟨rfl, ?_⟩ ?_ ⟨rfl, ?_⟩ ?_
        fun hne => absurd rfl hne⟩
      · cases job <;> rfl
      · cases job <;> rfl
      · cases job <;> rfl
      · cases job <;> trivial
    | _ => simp [step, hp] at h
  | advance i => exact ⟨s.pc i, advance_moved hs h rfl⟩
  | opened i answer =>
    cases hp : s.pc i with
    | opening builder lib =>
      have hknows := hs.knows i
      rw [hp] at hknows
      have hload := hs.cached _ hknows.1
      cases hreq : builder.request lib with
      | error e => simp [step, hp, hreq] at h
      | ok request =>
        obtain rfl : _ = t := by simpa [step, hp, hreq] using h
        have hopened : (Returned.build builder (answer.result : Except (Error ε) _)).opened (load 0) =
            some (.clientOpen request answer) := by
          obtain ⟨client, status⟩ := answer
          cases client <;>
            simp [Returned.opened, ← hload, ClientBuilder.prepare, hreq, Answer.result]
        exact ⟨_, .idle, [], [], some (.build builder answer.result),
          { before := hp, after := rfl, library := .outside rfl rfl
            reference := .outside rfl rfl, jackLog := .outside rfl rfl, returned := rfl
            calls := by simp [State.finish, State.call, hopened], knows := trivial
            sequential := by
              simp [Returned.Sequential, ← hload, ClientBuilder.prepare, hreq]
            opened := fun _ _ _ => hknows.2, shorter := remaining_pos }⟩
    | _ => simp [step, hp] at h

/-- The calls of the initializers and of the builds keep their order. -/
theorem Moved.calls_eq {a b : List Call} {r : Option (Returned sys ε)} (hs : Valid load s)
    (h : Moved (load 0) s t i p q a b r) :
    t.calls = t.libraryCalls ++ t.logCalls ++ t.opens (load 0) := by
  obtain rfl := h.before
  have hlib : t.libraryCalls = s.libraryCalls ++ a := by
    rw [State.libraryCalls, h.after]
    exact hs.library.effects_step h.library
  have hlog : t.logCalls = s.logCalls ++ b := by
    rw [State.logCalls, h.after]
    exact hs.jackLog.effects_step h.jackLog
  rw [h.calls, hs.calls, hlib, hlog, State.opens, State.opens, h.returned, List.filterMap_append]
  by_cases ha : a = []
  · by_cases hb : b = []
    · simp [ha, hb]
    · have hrun := hs.jackLog.running_of_new h.jackLog hb
      have hopens : s.opens (load 0) = [] := by
        by_contra hne
        simpa [hrun] using hs.opened hne
      rw [State.opens] at hopens
      simp [ha, hopens]
  · obtain ⟨hlog, hopens⟩ := hs.unloaded (hs.library.running_of_new h.library ha)
    rw [State.opens] at hopens
    simp [hlog, hopens]

theorem Moved.valid {a b : List Call} {r : Option (Returned sys ε)} (hs : Valid load s)
    (h : Moved (load 0) s t i p q a b r) : Valid load t := by
  have hcalls := h.calls_eq hs
  obtain rfl := h.before
  have hlib : ∀ r, s.library.get = some r → t.library.get = some r :=
    fun r => hs.library.get_step h.library
  have hlog : s.jackLog.get = some () → t.jackLog.get = some () := hs.jackLog.get_step h.jackLog
  have hlibrary := hs.library.step h.library
  have hreference := hs.reference.step h.reference
  have hjackLog := hs.jackLog.step h.jackLog
  rw [← h.after] at hlibrary hreference hjackLog
  refine ⟨hlibrary, hreference, hjackLog, ?_, ?_, ?_, ?_, ?_, hcalls, ?_⟩
  · intro j
    rw [h.after]
    by_cases hj : j = i
    · subst j
      rw [Function.update_self]
      exact h.knows
    · rw [Function.update_of_ne hj]
      exact (hs.knows j).mono hlib hlog
  · refine h.library.stored hs.cached fun r _ hvalue => ?_
    have hknows := hs.knows i
    revert hvalue hknows
    cases s.pc i <;> simp +contextual [libraryInit, Pc.Knows]
  · refine h.reference.stored hs.referenced fun lib _ hvalue => ?_
    have hknows := hs.knows i
    revert hvalue hknows
    rcases s.pc i with _ | _ | _ | _ | _ | ⟨job, e | lib'⟩ | _ | _ | _ | _ | _ <;>
      simp only [referenceInit, reduceCtorEq, false_implies, Option.some.injEq]
    rintro rfl hget
    exact (hs.cached _ hget).symm
  · intro hne
    rcases hs.jackLog.asked h.jackLog hne with hasked | hin
    · obtain ⟨lib, hget⟩ := hs.logged hasked
      exact ⟨lib, hlib _ hget⟩
    · exact knows_log hin h.knows
  · intro hne
    rw [State.opens, h.returned, List.filterMap_append] at hne
    by_cases hold : s.opens (load 0) = []
    · rw [State.opens] at hold
      rw [hold, List.nil_append] at hne
      obtain ⟨c, hc⟩ := List.exists_mem_of_ne_nil _ hne
      obtain ⟨x, hx, hopened⟩ := List.mem_filterMap.mp hc
      have hopen : x.opened (load 0) ≠ none := by simp [hopened]
      exact hlog (h.opened x (Option.mem_toList.mp hx) hopen)
    · exact hlog (hs.opened hold)
  · intro x hx
    rw [h.returned] at hx
    rcases List.mem_append.mp hx with hx | hx
    · exact hs.sequential x hx
    · exact h.sequential x (Option.mem_toList.mp hx)

theorem valid_step (hs : Valid load s) {l : Label ι sys} (h : step load s l = some t) :
    Valid load t := by
  obtain ⟨p, q, a, b, x, hmoved⟩ := step_moved hs h
  exact hmoved.valid hs

theorem valid_run {ls : List (Label ι sys)} (h : run load init ls = some t) : Valid load t :=
  Run.run_invariant (fun _ _ _ hs hstep => valid_step hs hstep) h valid_init

end Moves

end Invariant

section Runs

variable [DecidableEq ι] {load : ℕ → Except ε (Jack ε)} {s t : State ι sys ε}

/-- A call of `jack_client_open` that a builder led to. -/
theorem opened_some {r : Returned sys ε} {library : Except ε (Jack ε)} {request : Request}
    {answer : Answer} (h : r.opened library = some (.clientOpen request answer)) :
    ∃ builder : ClientBuilder sys, builder.prepare library = .ok request := by
  cases r with
  | weakLibrary r => simp [Returned.opened] at h
  | library r => simp [Returned.opened] at h
  | build builder r =>
    refine ⟨builder, ?_⟩
    cases hprepare : builder.prepare library with
    | error e => simp [Returned.opened, hprepare] at h
    | ok made =>
      rcases r with (⟨position, bytes⟩ | e | status) | ⟨client, status⟩ <;>
        simp [Returned.opened, hprepare] at h
      · rw [h.1]
      · rw [h.1]

theorem prepare_announced {builder : ClientBuilder sys} {library : Except ε (Jack ε)}
    {request : Request} (h : builder.prepare library = .ok request) :
    request.options &&& sys.serverName ≠ 0 ↔ request.serverName.isSome = true := by
  rcases library with e | lib
  · simp [ClientBuilder.prepare] at h
  · rw [ClientBuilder.prepare, ClientBuilder.request] at h
    rcases hname : CString.new builder.name with _ | name
    · simp [hname] at h
    · rcases hsym : lib.jackClientOpen with e | ⟨⟩
      · simp [hname, hsym] at h
      · obtain rfl : _ = request := by simpa [hname, hsym] using h
        exact builder.announced

/-- Every call returns what it would return alone, and libjack is told of a server name
exactly when one is passed. -/
theorem answers_sequential {ls : List (Label ι sys)} (h : run load init ls = some t) :
    (∀ r ∈ t.returned, r.Sequential (load 0)) ∧
      ∀ request answer, .clientOpen request answer ∈ t.calls →
        (request.options &&& sys.serverName ≠ 0 ↔ request.serverName.isSome = true) := by
  have hvalid := valid_run h
  refine ⟨hvalid.sequential, fun request answer hmem => ?_⟩
  rw [hvalid.calls] at hmem
  rcases List.mem_append.mp hmem with hinit | hopen
  · rcases List.mem_append.mp hinit with hlib | hlog
    · simpa using (libraryCalls_begins t).subset hlib
    · simpa using (logCalls_begins t).subset hlog
  · obtain ⟨r, _, hr⟩ := List.mem_filterMap.mp hopen
    obtain ⟨builder, hbuilder⟩ := opened_some hr
    exact prepare_announced hbuilder

/-- A step of a call that has begun. -/
def Label.Continues : Label ι sys → Prop
  | .start _ _ => False
  | _ => True

/-- Some thread can go on. -/
def Enabled (load : ℕ → Except ε (Jack ε)) (s : State ι sys ε) : Prop :=
  ∃ l t, l.Continues ∧ step load s l = some t

theorem enabled_of_advance {i : ι} {p : Pc sys ε} (hp : s.pc i = p)
    (h : (advance load s i p).isSome = true) : Enabled load s := by
  obtain ⟨t, ht⟩ := Option.isSome_iff_exists.mp h
  refine ⟨.advance i, t, trivial, ?_⟩
  rw [step, hp, ht]

/-- The thread that loads the library waits for nobody. -/
theorem Valid.enabled_library (hs : Valid load s) {j : ι} (hj : s.library = .running j) :
    Enabled load s := by
  have hin := (hs.library j).mpr hj
  cases hp : s.pc j with
  | load | loaded => exact enabled_of_advance hp rfl
  | _ => simp [hp, libraryInit] at hin

theorem Valid.enabled_weak (hs : Valid load s) {i : ι} {job : Job sys} (hp : s.pc i = .weak job) :
    Enabled load s := by
  rcases hcell : s.library with _ | j | r
  · exact enabled_of_advance hp (by simp [advance, hcell])
  · exact hs.enabled_library hcell
  · exact enabled_of_advance hp (by simp [advance, hcell])

/-- The thread that initializes the reference waits for the library at most. -/
theorem Valid.enabled_reference (hs : Valid load s) {j : ι} (hj : s.reference = .running j) :
    Enabled load s := by
  have hin := (hs.reference j).mpr hj
  cases hp : s.pc j with
  | weak => exact hs.enabled_weak hp
  | load | loaded | answered => exact enabled_of_advance hp rfl
  | _ => simp [hp, referenceInit] at hin

theorem Valid.enabled_log (hs : Valid load s) {j : ι} (hj : s.jackLog = .running j) :
    Enabled load s := by
  have hin := (hs.jackLog j).mpr hj
  cases hp : s.pc j with
  | setError | setInfo | logged => exact enabled_of_advance hp rfl
  | _ => simp [hp, logInit] at hin

theorem Valid.enabled (hs : Valid load s) {i : ι} (hi : s.pc i ≠ .idle) : Enabled load s := by
  cases hp : s.pc i with
  | idle => exact absurd hp hi
  | library =>
    rcases hcell : s.reference with _ | j | lib
    · exact enabled_of_advance hp (by simp [advance, hcell])
    · exact hs.enabled_reference hcell
    · exact enabled_of_advance hp (by simp [advance, hcell])
  | weak => exact hs.enabled_weak hp
  | load | loaded | answered | setError | setInfo | logged => exact enabled_of_advance hp rfl
  | log =>
    rcases hcell : s.jackLog with _ | j | ⟨⟩
    · exact enabled_of_advance hp (by simp [advance, hcell])
    · exact hs.enabled_log hcell
    · exact enabled_of_advance hp (by simp [advance, hcell])
  | opening builder lib =>
    cases hreq : builder.request lib with
    | error e => exact enabled_of_advance hp (by simp [advance, hreq])
    | ok request =>
      have hsome : (step load s (.opened i ⟨none, 0⟩)).isSome = true := by simp [step, hp, hreq]
      obtain ⟨t, ht⟩ := Option.isSome_iff_exists.mp hsome
      exact ⟨.opened i ⟨none, 0⟩, t, trivial, ht⟩

variable [Fintype ι]

theorem remaining_step (hs : Valid load s) {l : Label ι sys} (hl : l.Continues)
    (h : step load s l = some t) : t.remaining < s.remaining := by
  obtain ⟨p, q, a, b, x, hmoved⟩ := step_moved hs h
  obtain rfl := hmoved.before
  have hbusy : s.pc l.thread ≠ .idle := by
    cases l with
    | start i job => exact hl.elim
    | advance i | opened i answer => intro hidle; simp_all [step, advance, Label.thread]
  refine Finset.sum_lt_sum (fun j _ => ?_) ⟨l.thread, Finset.mem_univ _, ?_⟩
  · rw [hmoved.after]
    by_cases hj : j = l.thread
    · subst j
      rw [Function.update_self]
      exact (hmoved.shorter hbusy).le
    · rw [Function.update_of_ne hj]
  · rw [hmoved.after, Function.update_self]
    exact hmoved.shorter hbusy

/-- The calls that have begun return, whatever the threads do: as long as there is one, some
thread can go on, and together they go on for ten steps a thread at most. -/
theorem calls_return {ls : List (Label ι sys)} (h : run load init ls = some s) :
    (∀ ls t, (∀ l ∈ ls, l.Continues) → run load s ls = some t →
      ls.length ≤ 10 * Fintype.card ι ∧ ((∃ i, t.pc i ≠ .idle) → Enabled load t)) ∧
    ∃ ls t, (∀ l ∈ ls, l.Continues) ∧ run load s ls = some t ∧ ∀ i, t.pc i = .idle := by
  have hvalid := valid_run h
  have hstep : ∀ (u : State ι sys ε) l v, l.Continues → Valid load u → step load u l = some v →
      Valid load v ∧ v.remaining < u.remaining :=
    fun u l v hl hu huv => ⟨valid_step hu huv, remaining_step hu hl huv⟩
  constructor
  · intro ls t hls hrun
    constructor
    · have hlength := Run.run_length_le hstep hls hrun hvalid
      have hbound := remaining_le s
      omega
    · rintro ⟨i, hi⟩
      exact (Run.run_invariant (fun _ _ _ hu huv => valid_step hu huv) hrun hvalid).enabled hi
  · refine Run.exists_run_final hstep (fun u hu hnot => ?_) hvalid
    obtain ⟨i, hi⟩ := not_forall.mp hnot
    exact hu.enabled hi

end Runs

section Example

/-- A second call of `dlopen` would fail. -/
def loadsOnce : ℕ → Except Unit (Jack Unit) := fun k => if k = 0 then .ok ⟨.ok ()⟩ else .error ()

def namedServer : ClientBuilder .header :=
  (ClientBuilder.new .header [115, 105]).withServerName ⟨[100], by decide⟩

/-- One thread builds a client and has to load the library for it while another one, which is
in `library`, waits. -/
def buildBesideLibrary : List (Label Bool .header) :=
  [.start true .library, .start false (.build namedServer), .advance true, .advance false,
    .advance false, .advance false, .advance true, .advance true, .advance false] ++
    List.replicate 4 (.advance false) ++ [.opened false ⟨some 7, 0⟩]

theorem answers_sequential_besideLibrary :
    ∃ t, run loadsOnce init buildBesideLibrary = some t ∧ t.returned.length = 2 ∧
      ∀ r ∈ t.returned, r.Sequential (loadsOnce 0) := by
  have hmap : (run loadsOnce init buildBesideLibrary).map (fun t => t.returned.length) =
      some 2 := rfl
  obtain ⟨t, hrun, hlength⟩ := Option.map_eq_some_iff.mp hmap
  exact ⟨t, hrun, hlength, (answers_sequential hrun).1⟩

theorem calls_return_besideLibrary :
    ∃ t, run loadsOnce init (buildBesideLibrary.take 5) = some t ∧
      ∃ ls u, run loadsOnce t ls = some u ∧ ∀ i, u.pc i = .idle := by
  have hmap : (run loadsOnce init (buildBesideLibrary.take 5)).map (fun t => t.calls) =
      some [.dlopen] := rfl
  obtain ⟨t, hrun, _⟩ := Option.map_eq_some_iff.mp hmap
  obtain ⟨_, ls, u, _, hrest, hidle⟩ := calls_return hrun
  exact ⟨t, hrun, ls, u, hrest, hidle⟩

end Example

end Jack2.Opening
