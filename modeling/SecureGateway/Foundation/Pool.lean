import Mathlib.Algebra.Ring.Nat
import SecureGateway.Foundation.Program

/-!
# Interleaved programs over one world

Requests start threads, each running the program of its request. A step lets one thread
perform its next operation, which reads and changes the shared world at once, starts a new
thread, or lets time pass. A run records the pools before and after each of its steps.
-/
namespace Interleaving

structure System where
  sig : Signature
  World : Type
  Request : Type
  Failure : Type
  Result : Type
  Tick : Type
  handler : Request → Prog sig Failure Result
  /-- The world once `op` has been answered with the reply, if it can be. -/
  respond : World → (op : sig.Op) → sig.Reply op → Option World
  advance : Tick → World → World

variable {S : System}

structure Thread (S : System) where
  request : S.Request
  history : History S.sig
  program : Prog S.sig S.Failure S.Result

namespace Thread

def start (q : S.Request) : Thread S := ⟨q, [], S.handler q⟩

def outcome (th : Thread S) : Option (Except S.Failure S.Result) :=
  match th.program with
  | .finish outcome => some outcome
  | .perform _ _ => none

/-- The operation the thread performs next. -/
def nextOp (th : Thread S) : Option S.sig.Op :=
  match th.program with
  | .finish _ => none
  | .perform op _ => some op

end Thread

structure Pool (S : System) where
  world : S.World
  threads : List (Thread S)

namespace Pool

def initial (w : S.World) : Pool S := ⟨w, []⟩

end Pool

inductive Label (S : System) where
  | spawn (q : S.Request)
  | act (i : ℕ) (x : Exchange S.sig)
  | tick (t : S.Tick)

inductive Step : Pool S → Label S → Pool S → Prop
  | spawn (p : Pool S) (q : S.Request) :
      Step p (.spawn q) ⟨p.world, p.threads ++ [Thread.start q]⟩
  | act {p : Pool S} {i : ℕ} {th : Thread S} {op : S.sig.Op}
      {resume : S.sig.Reply op → Prog S.sig S.Failure S.Result} {r : S.sig.Reply op}
      {w : S.World} (hi : p.threads[i]? = some th) (hp : th.program = .perform op resume)
      (hw : S.respond p.world op r = some w) :
      Step p (.act i ⟨op, r⟩)
        ⟨w, p.threads.set i ⟨th.request, th.history ++ [⟨op, r⟩], resume r⟩⟩
  | tick (p : Pool S) (t : S.Tick) : Step p (.tick t) ⟨S.advance t p.world, p.threads⟩

structure Transition (S : System) where
  before : Pool S
  label : Label S
  after : Pool S

inductive Run (p : Pool S) : List (Transition S) → Pool S → Prop
  | refl : Run p [] p
  | snoc {ts : List (Transition S)} {q q' : Pool S} {l : Label S} (hr : Run p ts q)
      (hs : Step q l q') : Run p (ts ++ [⟨q, l, q'⟩]) q'

section Threads

variable {p p' : Pool S} {l : Label S} {i : ℕ} {x : Exchange S.sig} {th : Thread S}

/-- What an operation of thread `i` does to that thread. -/
theorem Step.act_inv (h : Step p (.act i x) p') :
    ∃ th resume, p.threads[i]? = some th ∧ th.program = .perform x.op resume ∧
      S.respond p.world x.op x.reply = some p'.world ∧
      p'.threads = p.threads.set i ⟨th.request, th.history ++ [x], resume x.reply⟩ := by
  cases h with
  | act hi hp hw => exact ⟨_, _, hi, hp, hw, rfl⟩

theorem Step.spawn_inv {q : S.Request} (h : Step p (.spawn q) p') :
    p'.world = p.world ∧ p'.threads = p.threads ++ [Thread.start q] := by
  cases h
  exact ⟨rfl, rfl⟩

theorem Step.tick_inv {t : S.Tick} (h : Step p (.tick t) p') :
    p'.world = S.advance t p.world ∧ p'.threads = p.threads := by
  cases h
  exact ⟨rfl, rfl⟩

/-- A thread of the pool after a step was there before, is new, or has just acted. -/
theorem Step.thread_cases {j : ℕ} {th' : Thread S} (h : Step p l p')
    (hj : p'.threads[j]? = some th') :
    p.threads[j]? = some th' ∨ (∃ q, l = .spawn q ∧ j = p.threads.length ∧ th' = .start q) ∨
      ∃ x th resume, l = .act j x ∧ p.threads[j]? = some th ∧ th.program = .perform x.op resume ∧
        S.respond p.world x.op x.reply = some p'.world ∧
        th' = ⟨th.request, th.history ++ [x], resume x.reply⟩ := by
  cases h with
  | spawn q =>
    rcases lt_trichotomy j p.threads.length with hlt | heq | hgt
    · exact .inl (by simpa [List.getElem?_append_left hlt] using hj)
    · subst heq
      exact .inr (.inl ⟨q, rfl, rfl, by simpa using hj.symm⟩)
    · have hnone : (p.threads ++ [Thread.start q])[j]? = none := by
        rw [List.getElem?_eq_none_iff]
        simp
        omega
      simp only [hnone] at hj
      cases hj
  | @act i th op resume r w hi hp hw =>
    by_cases hij : i = j
    · subst hij
      have hlt : i < p.threads.length := (List.getElem?_eq_some_iff.mp hi).1
      simp only [List.getElem?_set_self hlt, Option.some.injEq] at hj
      exact .inr (.inr ⟨⟨op, r⟩, th, resume, rfl, hi, hp, hw, hj.symm⟩)
    · exact .inl (by simpa [List.getElem?_set_ne hij] using hj)
  | tick t => exact .inl hj

/-- A thread that did not act is in the pool after the step as it was. -/
theorem Step.thread_other (h : Step p l p') (hi : p.threads[i]? = some th)
    (hne : ∀ x, l ≠ .act i x) : p'.threads[i]? = some th := by
  have hlt : i < p.threads.length := (List.getElem?_eq_some_iff.mp hi).1
  cases h with
  | spawn q => simpa [List.getElem?_append_left hlt] using hi
  | @act j _ op _ r _ _ _ _ =>
    have hij : j ≠ i := fun he => hne ⟨op, r⟩ (by rw [he])
    simpa [List.getElem?_set_ne hij] using hi
  | tick t => exact hi

/-- Threads never disappear, keep their request, and their histories only grow. -/
theorem Step.thread_persists (h : Step p l p') (hi : p.threads[i]? = some th) :
    ∃ th', p'.threads[i]? = some th' ∧ th'.request = th.request ∧ th.history <+: th'.history := by
  by_cases ha : ∃ x, l = .act i x
  · obtain ⟨x, rfl⟩ := ha
    obtain ⟨th₀, resume, hi₀, -, -, hts⟩ := h.act_inv
    rw [hi] at hi₀
    cases hi₀
    have hlt : i < p.threads.length := (List.getElem?_eq_some_iff.mp hi).1
    refine ⟨⟨th.request, th.history ++ [x], resume x.reply⟩, ?_, rfl, List.prefix_append _ _⟩
    rw [hts, List.getElem?_set_self hlt]
  · push Not at ha
    exact ⟨th, h.thread_other hi ha, rfl, List.prefix_rfl⟩

end Threads

theorem Run.cons {p q r : Pool S} {l : Label S} {ts : List (Transition S)} (hs : Step p l q)
    (hr : Run q ts r) : Run p (⟨p, l, q⟩ :: ts) r := by
  induction hr with
  | refl => exact Run.refl.snoc hs
  | snoc _ hs' ih => exact ih.snoc hs'

section Invariants

variable {w : S.World} {ts : List (Transition S)} {p : Pool S}

/-- Every transition of a run is a step. -/
theorem Run.step {p₀ : Pool S} (h : Run p₀ ts p) {t : Transition S} (ht : t ∈ ts) :
    Step t.before t.label t.after := by
  induction h with
  | refl => simp at ht
  | snoc _ hs ih =>
    rcases List.mem_append.mp ht with ht | ht
    · exact ih ht
    · cases List.mem_singleton.mp ht
      exact hs

theorem Run.snoc_inv {p₀ : Pool S} {t : Transition S} (h : Run p₀ (ts ++ [t]) p) :
    Run p₀ ts t.before ∧ Step t.before t.label t.after ∧ t.after = p := by
  generalize he : ts ++ [t] = us at h
  cases h with
  | refl => simp at he
  | snoc hr hs =>
    obtain ⟨rfl, ht⟩ := List.append_inj' he rfl
    cases ht
    exact ⟨hr, hs, rfl⟩

/-- The part of a run before one of its transitions. -/
theorem Run.upTo {p₀ : Pool S} {t : Transition S} {us : List (Transition S)}
    (h : Run p₀ (ts ++ t :: us) p) : Run p₀ ts t.before := by
  induction us using List.reverseRecOn generalizing p with
  | nil => exact h.snoc_inv.1
  | append_singleton us u ih =>
    rw [← List.cons_append, ← List.append_assoc] at h
    exact ih h.snoc_inv.1

/-- The part of a run from one of its transitions on. -/
theorem Run.onward {p₀ : Pool S} {t : Transition S} {us : List (Transition S)}
    (h : Run p₀ (ts ++ t :: us) p) : Run t.after us p := by
  induction us using List.reverseRecOn generalizing p with
  | nil =>
    obtain ⟨-, -, rfl⟩ := h.snoc_inv
    exact .refl
  | append_singleton us u ih =>
    rw [← List.cons_append, ← List.append_assoc] at h
    obtain ⟨hr, hs, rfl⟩ := h.snoc_inv
    exact (ih hr).snoc hs

/-- A property of pools that holds at the start and survives every step that the run takes
holds throughout. -/
theorem Run.invariant_along {p₀ : Pool S} (Inv : Pool S → Prop) (Good : Transition S → Prop)
    (h : Run p₀ ts p) (h₀ : Inv p₀)
    (hstep : ∀ {q l q'}, Step q l q' → Good ⟨q, l, q'⟩ → Inv q → Inv q')
    (hgood : ∀ t ∈ ts, Good t) : Inv p ∧ ∀ t ∈ ts, Inv t.before ∧ Inv t.after := by
  induction h with
  | refl => exact ⟨h₀, by simp⟩
  | @snoc ts q q' l _ hs ih =>
    obtain ⟨hq, hts⟩ := ih fun t ht => hgood t (List.mem_append_left _ ht)
    have hq' := hstep hs (hgood _ (by simp)) hq
    refine ⟨hq', fun t ht => ?_⟩
    rcases List.mem_append.mp ht with ht | ht
    · exact hts t ht
    · cases List.mem_singleton.mp ht
      exact ⟨hq, hq'⟩

/-- What a thread has performed, it performed in a step of the run. -/
theorem Run.exchange {i : ℕ} {th : Thread S} {h₁ h₂ : History S.sig} {x : Exchange S.sig}
    (h : Run (.initial w) ts p) (hi : p.threads[i]? = some th)
    (hx : th.history = h₁ ++ x :: h₂) :
    ∃ ts₁ t ts₂ th₀, ts = ts₁ ++ t :: ts₂ ∧ t.label = .act i x ∧
      t.before.threads[i]? = some th₀ ∧ th₀.request = th.request ∧ th₀.history = h₁ := by
  induction h generalizing th h₂ with
  | refl => simp [Pool.initial] at hi
  | @snoc ts q q' l _ hs ih =>
    have hearlier {th' : Thread S} {h₂' : History S.sig} (hi' : q.threads[i]? = some th')
        (hq : th'.request = th.request) (hx' : th'.history = h₁ ++ x :: h₂') :
        ∃ ts₁ t ts₂ th₀, ts ++ [⟨q, l, q'⟩] = ts₁ ++ t :: ts₂ ∧ t.label = .act i x ∧
          t.before.threads[i]? = some th₀ ∧ th₀.request = th.request ∧ th₀.history = h₁ := by
      obtain ⟨ts₁, t, ts₂, th₀, rfl, hl, hi₀, hq₀, hh₀⟩ := ih hi' hx'
      exact ⟨ts₁, t, ts₂ ++ [⟨q, l, q'⟩], th₀, by simp, hl, hi₀, hq₀.trans hq, hh₀⟩
    rcases hs.thread_cases hi with hi' | ⟨r, -, -, rfl⟩ | ⟨y, th', resume, rfl, hi', -, -, rfl⟩
    · exact hearlier hi' rfl hx
    · simp [Thread.start] at hx
    · rcases List.eq_nil_or_concat' h₂ with rfl | ⟨h₂', z, rfl⟩
      · obtain ⟨hh, hy⟩ := List.append_inj' hx rfl
        cases hy
        exact ⟨ts, _, [], th', rfl, rfl, hi', rfl, hh⟩
      · have hx' : th'.history ++ [y] = (h₁ ++ x :: h₂') ++ [z] := by simpa using hx
        exact hearlier hi' rfl (List.append_inj' hx' rfl).1

/-- A thread of a run is in every later pool, with a longer history. -/
theorem Run.thread_persists {p₀ : Pool S} {i : ℕ} {th : Thread S} (h : Run p₀ ts p)
    (hi : p₀.threads[i]? = some th) :
    ∃ th', p.threads[i]? = some th' ∧ th'.request = th.request ∧ th.history <+: th'.history := by
  induction h with
  | refl => exact ⟨th, hi, rfl, List.prefix_rfl⟩
  | snoc _ hs ih =>
    obtain ⟨th', hi', hq, hle⟩ := ih
    obtain ⟨th'', hi'', hq', hle'⟩ := hs.thread_persists hi'
    exact ⟨th'', hi'', hq'.trans hq, hle.trans hle'⟩

theorem Run.persists_from {p₀ : Pool S} {t : Transition S} {i : ℕ} {th : Thread S}
    (h : Run p₀ ts p) (ht : t ∈ ts) (hi : t.before.threads[i]? = some th) :
    ∃ th', p.threads[i]? = some th' ∧ th'.request = th.request ∧ th.history <+: th'.history := by
  have hs := h.step ht
  obtain ⟨ts₁, ts₂, rfl⟩ := List.append_of_mem ht
  exact (h.onward.cons hs).thread_persists hi

/-- The exchange of thread `i` that a step is. -/
def Label.exchangeOf (i : ℕ) : Label S → Option (Exchange S.sig)
  | .act j x => if j = i then some x else none
  | _ => none

/-- The history of a thread is what it has performed in the run, in order. -/
theorem Run.exchanges_eq (h : Run (.initial w) ts p) (i : ℕ) :
    ts.filterMap (fun t => t.label.exchangeOf i) = (p.threads[i]?.map (·.history)).getD [] := by
  induction h with
  | refl => simp [Pool.initial]
  | @snoc ts q q' l _ hs ih =>
    rw [List.filterMap_append, ih]
    cases hs with
    | tick t => simp [Label.exchangeOf]
    | spawn r =>
      rcases lt_trichotomy i q.threads.length with hlt | rfl | hgt
      · simp [Label.exchangeOf, List.getElem?_append_left hlt]
      · simp [Label.exchangeOf, Thread.start]
      · have hnone : q.threads[i]? = none := List.getElem?_eq_none (by omega)
        have hnone' : (q.threads ++ [Thread.start r])[i]? = none :=
          List.getElem?_eq_none (by simp; omega)
        simp [Label.exchangeOf, hnone, hnone']
    | @act j th op resume r w hj hp hw =>
      by_cases hij : j = i
      · subst hij
        have hlt : j < q.threads.length := (List.getElem?_eq_some_iff.mp hj).1
        simp [Label.exchangeOf, hj, List.getElem?_set_self hlt]
      · simp [Label.exchangeOf, hij, List.getElem?_set_ne hij]

theorem Run.history_eq {i : ℕ} {th : Thread S} (h : Run (.initial w) ts p)
    (hi : p.threads[i]? = some th) :
    th.history = ts.filterMap (fun t => t.label.exchangeOf i) := by
  rw [h.exchanges_eq i, hi]
  rfl

/-- A thread remembers what it has performed in a run. -/
theorem Run.mem_history {t : Transition S} {i : ℕ} {x : Exchange S.sig} {th : Thread S}
    (h : Run (.initial w) ts p) (ht : t ∈ ts) (hl : t.label = .act i x)
    (hi : p.threads[i]? = some th) : x ∈ th.history := by
  rw [h.history_eq hi, List.mem_filterMap]
  exact ⟨t, ht, by simp [hl, Label.exchangeOf]⟩

/-- The last exchange of a thread: every other one of the run is in its history before that. -/
theorem Run.last_exchange {i : ℕ} {th : Thread S} {h' : History S.sig} {x : Exchange S.sig}
    (h : Run (.initial w) ts p) (hi : p.threads[i]? = some th) (hx : th.history = h' ++ [x]) :
    ∃ ts₁ t ts₂, ts = ts₁ ++ t :: ts₂ ∧ t.label = .act i x ∧
      ∀ t' ∈ ts₁ ++ ts₂, ∀ y, t'.label = .act i y → y ∈ h' := by
  obtain ⟨ts₁, t, ts₂, th₀, rfl, hl, hi₀, -, hh₀⟩ := h.exchange hi hx
  refine ⟨ts₁, t, ts₂, rfl, hl, fun t' ht' y hy => ?_⟩
  rcases List.mem_append.mp ht' with ht' | ht'
  · rw [← hh₀]
    exact h.upTo.mem_history ht' hy hi₀
  · have hall : h' ++ [x] = h' ++ x :: ts₂.filterMap (fun t => t.label.exchangeOf i) := by
      rw [← hx, h.history_eq hi, List.filterMap_append, ← h.upTo.history_eq hi₀, hh₀]
      simp [hl, Label.exchangeOf]
    have hlater : ts₂.filterMap (fun t => t.label.exchangeOf i) = [] := by
      simpa using hall
    have hnone := List.filterMap_eq_nil_iff.mp hlater t' ht'
    simp [hy, Label.exchangeOf] at hnone

theorem Run.invariant {p₀ : Pool S} {Inv : Pool S → Prop} (h : Run p₀ ts p) (h₀ : Inv p₀)
    (hstep : ∀ {q l q'}, Step q l q' → Inv q → Inv q') :
    Inv p ∧ ∀ t ∈ ts, Inv t.before ∧ Inv t.after :=
  Run.invariant_along Inv (fun _ => True) h h₀ (fun hs _ => hstep hs) fun _ _ => trivial

/-- What the programs of a system guarantee, whatever the replies. -/
structure Discipline (S : System) where
  ok : S.Request → History S.sig → S.sig.Op → Prop
  post : S.Request → History S.sig → Except S.Failure S.Result → Prop
  handler : ∀ q, (S.handler q).wp (ok q) (post q) []

namespace Discipline

variable (D : Discipline S)

/-- The guarantee of a thread from where it stands. -/
def Keeps (th : Thread S) : Prop := th.program.wp (D.ok th.request) (D.post th.request) th.history

def Holds (p : Pool S) : Prop := ∀ (i : ℕ) (th : Thread S), p.threads[i]? = some th → D.Keeps th

variable {D}

theorem Keeps.resume {th : Thread S} {x : Exchange S.sig}
    {resume : S.sig.Reply x.op → Prog S.sig S.Failure S.Result} (h : D.Keeps th)
    (hp : th.program = .perform x.op resume) :
    D.ok th.request th.history x.op ∧ D.Keeps ⟨th.request, th.history ++ [x], resume x.reply⟩ := by
  rw [Keeps, hp] at h
  exact ⟨h.1, h.2 x.reply⟩

theorem Keeps.finished {th : Thread S} {outcome : Except S.Failure S.Result} (h : D.Keeps th)
    (ho : th.outcome = some outcome) : D.post th.request th.history outcome := by
  cases hp : th.program with
  | finish outcome' =>
    simp only [Thread.outcome, hp, Option.some.injEq] at ho
    subst ho
    simpa [Keeps, hp] using h
  | perform op resume => simp [Thread.outcome, hp] at ho

variable (D)

theorem holds_initial (w : S.World) : D.Holds (.initial w) := by
  intro i th hi
  simp [Pool.initial] at hi

theorem holds_step {q q' : Pool S} {l : Label S} (hs : Step q l q') (h : D.Holds q) :
    D.Holds q' := by
  intro i th hi
  rcases hs.thread_cases hi with hi | ⟨r, -, -, rfl⟩ | ⟨x, th₀, resume, -, hi₀, hp, -, rfl⟩
  · exact h i th hi
  · exact D.handler r
  · exact ((h i th₀ hi₀).resume hp).2

theorem holds_run (h : Run (.initial w) ts p) :
    D.Holds p ∧ ∀ t ∈ ts, D.Holds t.before ∧ D.Holds t.after :=
  h.invariant (D.holds_initial w) fun hs => D.holds_step hs

/-- Every operation of a run was allowed by the history of its thread. -/
theorem act_ok {t : Transition S} {i : ℕ} {x : Exchange S.sig} (h : Run (.initial w) ts p)
    (ht : t ∈ ts) (hl : t.label = .act i x) :
    ∃ th, t.before.threads[i]? = some th ∧ D.ok th.request th.history x.op := by
  have hs := h.step ht
  rw [hl] at hs
  obtain ⟨th, resume, hi, hp, -, -⟩ := hs.act_inv
  exact ⟨th, hi, ((((D.holds_run h).2 t ht).1 i th hi).resume hp).1⟩

theorem exchange_ok {i : ℕ} {th : Thread S} {h₁ h₂ : History S.sig} {x : Exchange S.sig}
    (h : Run (.initial w) ts p) (hi : p.threads[i]? = some th)
    (hx : th.history = h₁ ++ x :: h₂) : D.ok th.request h₁ x.op := by
  obtain ⟨ts₁, t, ts₂, th₀, rfl, hl, hi₀, hq, rfl⟩ := h.exchange hi hx
  obtain ⟨th₁, hi₁, hok⟩ := D.act_ok h (by simp) hl
  rw [hi₀] at hi₁
  cases hi₁
  exact hq ▸ hok

end Discipline

end Invariants

section Counting

variable {w : S.World} {ts : List (Transition S)} {p : Pool S}

/-- The step is an exchange of the given kind. -/
def Label.counts (kind : Exchange S.sig → Bool) : Label S → Bool
  | .act _ x => kind x
  | _ => false

theorem sum_map_set {α : Type} {f : α → ℕ} {l : List α} {i n : ℕ} {a b : α}
    (hi : l[i]? = some a) (hb : f b = f a + n) :
    ((l.set i b).map f).sum = (l.map f).sum + n := by
  induction l generalizing i with
  | nil => simp at hi
  | cons c l ih =>
    cases i with
    | zero =>
      simp only [List.getElem?_cons_zero, Option.some.injEq] at hi
      subst hi
      simp only [List.set_cons_zero, List.map_cons, List.sum_cons, hb]
      omega
    | succ i =>
      have hl := ih (by simpa using hi)
      simp only [List.set_cons_succ, List.map_cons, List.sum_cons, hl]
      omega

/-- The exchanges of a run are those of its threads. -/
theorem Run.countP_exchanges (kind : Exchange S.sig → Bool) (h : Run (.initial w) ts p) :
    ts.countP (fun t => t.label.counts kind) =
      (p.threads.map fun th => th.history.countP kind).sum := by
  induction h with
  | refl => simp [Pool.initial]
  | snoc _ hs ih =>
    rw [List.countP_append, ih]
    cases hs with
    | spawn q => simp [Label.counts, Thread.start]
    | tick t => simp [Label.counts]
    | @act i th op resume r w hi hp hw =>
      refine (sum_map_set hi ?_).symm
      simp [Label.counts, List.countP_append]

/-- Exchanges that a thread performs once or never count the threads that have performed one. -/
theorem Run.countP_threads {kind : Exchange S.sig → Bool} {f : Thread S → Bool}
    (h : Run (.initial w) ts p)
    (hf : ∀ th ∈ p.threads, th.history.countP kind = if f th = true then 1 else 0) :
    ts.countP (fun t => t.label.counts kind) = p.threads.countP f := by
  rw [h.countP_exchanges kind]
  generalize p.threads = threads at hf ⊢
  induction threads with
  | nil => rfl
  | cons th threads ih =>
    rw [List.map_cons, List.sum_cons, List.countP_cons, hf th (by simp),
      ih fun th' hth' => hf th' (List.mem_cons_of_mem _ hth'), Nat.add_comm]

end Counting

section Schedules

/-- A step of a schedule, which also says how the operation it lets happen is answered. -/
inductive Move (S : System) where
  | spawn (q : S.Request)
  | act (i : ℕ) (answer : S.World → (op : S.sig.Op) → S.sig.Reply op)
  | tick (t : S.Tick)

def Pool.move (p : Pool S) : Move S → Option (Transition S)
  | .spawn q => some ⟨p, .spawn q, ⟨p.world, p.threads ++ [.start q]⟩⟩
  | .tick t => some ⟨p, .tick t, ⟨S.advance t p.world, p.threads⟩⟩
  | .act i answer =>
    match p.threads[i]? with
    | some ⟨q, h, .perform op resume⟩ =>
      let r := answer p.world op
      match S.respond p.world op r with
      | some w =>
        some ⟨p, .act i ⟨op, r⟩, ⟨w, p.threads.set i ⟨q, h ++ [⟨op, r⟩], resume r⟩⟩⟩
      | none => none
    | _ => none

/-- The transitions of a schedule, if each of its moves is possible. -/
def Pool.play (p : Pool S) : List (Move S) → Option (List (Transition S))
  | [] => some []
  | m :: ms => do
    let t ← p.move m
    let ts ← t.after.play ms
    return t :: ts

theorem Pool.move_step {p : Pool S} {m : Move S} {t : Transition S} (h : p.move m = some t) :
    t.before = p ∧ Step p t.label t.after := by
  cases m with
  | spawn q =>
    cases h
    exact ⟨rfl, .spawn p q⟩
  | tick x =>
    cases h
    exact ⟨rfl, .tick p x⟩
  | act i answer =>
    simp only [Pool.move] at h
    split at h
    · next q hist op resume hi =>
      split at h
      · next w hw =>
        cases h
        exact ⟨rfl, .act hi rfl hw⟩
      · cases h
    · cases h

/-- A schedule that can be played is a run. -/
theorem Pool.play_run {p : Pool S} {ms : List (Move S)} {ts : List (Transition S)}
    (h : p.play ms = some ts) : ∃ q, Run p ts q := by
  induction ms generalizing p ts with
  | nil =>
    cases h
    exact ⟨p, .refl⟩
  | cons m ms ih =>
    simp only [Pool.play, Option.bind_eq_bind, Option.bind_eq_some_iff] at h
    obtain ⟨t, ht, ts', hts, he⟩ := h
    obtain ⟨rfl, hs⟩ := Pool.move_step ht
    obtain ⟨q, hr⟩ := ih hts
    cases he
    exact ⟨q, hr.cons hs⟩

end Schedules

section Scheduling

variable (suspends : S.sig.Op → Bool)

/-- The thread has ended or awaits the reply to an operation that suspends it. -/
def Thread.Waiting (th : Thread S) : Prop := ∀ op, th.nextOp = some op → suspends op = true

/-- Threads switch only where they await: while one acts or starts, every other one waits. -/
def Cooperative (ts : List (Transition S)) : Prop :=
  ∀ t ∈ ts, ∀ (j : ℕ) (th : Thread S), t.before.threads[j]? = some th →
    ((∃ q, t.label = .spawn q) ∨ ∃ i x, t.label = .act i x ∧ i ≠ j) → th.Waiting suspends

/-- The same, computed for one transition. -/
def Transition.cooperates (t : Transition S) : Bool :=
  let waits (th : Thread S) : Bool := th.nextOp.all suspends
  match t.label with
  | .spawn _ => t.before.threads.all waits
  | .act i _ => t.before.threads.zipIdx.all fun th => th.2 = i || waits th.1
  | .tick _ => true

theorem cooperative_of_cooperates {ts : List (Transition S)}
    (h : ts.all (Transition.cooperates suspends) = true) : Cooperative suspends ts := by
  have hwaits : ∀ {th : Thread S}, th.nextOp.all suspends = true → th.Waiting suspends := by
    intro th hall op hop
    simpa [hop] using hall
  intro t ht j th hj hl
  have hc := List.all_eq_true.mp h t ht
  rcases hl with ⟨q, hl⟩ | ⟨i, x, hl, hij⟩
  · simp only [Transition.cooperates, hl, List.all_eq_true] at hc
    exact hwaits (hc th (List.mem_of_getElem? hj))
  · simp only [Transition.cooperates, hl, List.all_eq_true] at hc
    have hmem : (th, j) ∈ t.before.threads.zipIdx := by
      rw [List.mem_zipIdx_iff_getElem?]
      exact hj
    have hor := hc (th, j) hmem
    simp only [Bool.or_eq_true, decide_eq_true_eq] at hor
    rcases hor with he | hw
    · exact (hij he.symm).elim
    · exact hwaits hw

end Scheduling

end Interleaving
