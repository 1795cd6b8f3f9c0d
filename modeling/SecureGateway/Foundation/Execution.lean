import SecureGateway.Foundation.Pool

/-!
# Programs run alone

An environment answers every operation at once, from a state it keeps. A program run against
one always ends: what it performed, its outcome and the final state are a function of the first
state. An environment that answers as the world of a system does gives a run of that system.
-/
namespace Interleaving

abbrev Environment (S : Signature) (σ : Type) := σ → (op : S.Op) → S.Reply op × σ

/-- How a program ended. -/
structure Execution (S : Signature) (ε α σ : Type) where
  history : History S
  outcome : Except ε α
  state : σ

namespace Prog

variable {S : Signature} {ε α β σ τ : Type} {env : Environment S σ} {env' : Environment S τ}

def exec (env : Environment S σ) : σ → Prog S ε α → Execution S ε α σ
  | s, finish outcome => ⟨[], outcome, s⟩
  | s, perform op resume =>
    let rest := (resume (env s op).1).exec env (env s op).2
    ⟨⟨op, (env s op).1⟩ :: rest.history, rest.outcome, rest.state⟩

section Rules

variable {s : σ}

@[simp] theorem exec_finish (outcome : Except ε α) :
    (finish outcome : Prog S ε α).exec env s = ⟨[], outcome, s⟩ := rfl

@[simp] theorem exec_pure (a : α) : (pure a : Prog S ε α).exec env s = ⟨[], .ok a, s⟩ := rfl

@[simp] theorem exec_throw (x : ε) : (throw x : Prog S ε α).exec env s = ⟨[], .error x, s⟩ := rfl

theorem exec_bind_ok {p : Prog S ε α} {f : α → Prog S ε β} {a : α}
    (h : (p.exec env s).outcome = .ok a) :
    (p >>= f).exec env s =
      ⟨(p.exec env s).history ++ ((f a).exec env (p.exec env s).state).history,
        ((f a).exec env (p.exec env s).state).outcome,
        ((f a).exec env (p.exec env s).state).state⟩ := by
  change (p.bind f).exec env s = _
  induction p generalizing s with
  | finish outcome =>
    cases h
    rfl
  | perform op resume ih => simp [bind, exec, ih (env s op).1 h]

theorem exec_bind_error {p : Prog S ε α} {f : α → Prog S ε β} {x : ε}
    (h : (p.exec env s).outcome = .error x) :
    (p >>= f).exec env s = ⟨(p.exec env s).history, .error x, (p.exec env s).state⟩ := by
  change (p.bind f).exec env s = _
  induction p generalizing s with
  | finish outcome =>
    cases h
    rfl
  | perform op resume ih => simp [bind, exec, ih (env s op).1 h]

/-- A sequence that ends well: both parts do, and what they performed stands side by side. -/
theorem exec_bind_inv {p : Prog S ε α} {f : α → Prog S ε β} {b : β}
    (h : ((p >>= f).exec env s).outcome = .ok b) :
    ∃ a, (p.exec env s).outcome = .ok a ∧
      ((f a).exec env (p.exec env s).state).outcome = .ok b ∧
      ((p >>= f).exec env s).history =
        (p.exec env s).history ++ ((f a).exec env (p.exec env s).state).history := by
  cases hp : (p.exec env s).outcome with
  | ok a =>
    rw [exec_bind_ok hp] at h ⊢
    exact ⟨a, rfl, h, rfl⟩
  | error x =>
    rw [exec_bind_error hp] at h
    cases h

theorem exec_tryCatch_ok {p : Prog S ε α} {f : ε → Prog S ε α} {a : α}
    (h : (p.exec env s).outcome = .ok a) : (p.tryCatch f).exec env s = p.exec env s := by
  induction p generalizing s with
  | finish outcome =>
    cases h
    rfl
  | perform op resume ih => simp [Prog.tryCatch, exec, ih (env s op).1 h]

theorem exec_tryCatch_error {p : Prog S ε α} {f : ε → Prog S ε α} {x : ε}
    (h : (p.exec env s).outcome = .error x) :
    (p.tryCatch f).exec env s =
      ⟨(p.exec env s).history ++ ((f x).exec env (p.exec env s).state).history,
        ((f x).exec env (p.exec env s).state).outcome,
        ((f x).exec env (p.exec env s).state).state⟩ := by
  induction p generalizing s with
  | finish outcome =>
    cases h
    rfl
  | perform op resume ih => simp [Prog.tryCatch, exec, ih (env s op).1 h]

/-- What a precondition promises of every run holds of this one. -/
theorem exec_wp {ok : History S → S.Op → Prop} {post : History S → Except ε α → Prop}
    {h : History S} {p : Prog S ε α} (hp : wp ok post h p) (env : Environment S σ) (s : σ) :
    (∀ k x l, (p.exec env s).history = k ++ x :: l → ok (h ++ k) x.op) ∧
      post (h ++ (p.exec env s).history) (p.exec env s).outcome := by
  induction p generalizing h s with
  | finish outcome => exact ⟨by simp, by simpa using hp⟩
  | perform op resume ih =>
    obtain ⟨hops, hpost⟩ := ih (env s op).1 (hp.2 (env s op).1) (env s op).2
    constructor
    · intro k x l hsplit
      cases k with
      | nil =>
        cases hsplit
        simpa using hp.1
      | cons y k =>
        obtain ⟨rfl, hrest⟩ := List.cons.inj hsplit
        simpa using hops k x l hrest
    · simpa [exec] using hpost

/-- The case of a precondition that does not look back. -/
theorem exec_wp_mem {ok : S.Op → Prop} {post : History S → Except ε α → Prop} {p : Prog S ε α}
    (hp : wp (fun _ => ok) post [] p) (env : Environment S σ) (s : σ) :
    (∀ x ∈ (p.exec env s).history, ok x.op) ∧
      post (p.exec env s).history (p.exec env s).outcome := by
  obtain ⟨hops, hpost⟩ := exec_wp hp env s
  refine ⟨?_, by simpa using hpost⟩
  intro x hx
  obtain ⟨k, l, hsplit⟩ := List.append_of_mem hx
  exact hops k x l hsplit

/-- Every reply is one of the environment. -/
theorem exec_replies {p : Prog S ε α} {s : σ} {op : S.Op} {r : S.Reply op}
    (h : ⟨op, r⟩ ∈ (p.exec env s).history) : ∃ s', r = (env s' op).1 := by
  induction p generalizing s with
  | finish outcome => cases h
  | perform op' resume ih =>
    rcases List.mem_cons.mp h with heq | hrest
    · cases heq
      exact ⟨s, rfl⟩
    · exact ih _ hrest

/-- What the environment never replies is not in a history. -/
theorem notMem_of_replies {p : Prog S ε α} {s : σ} {op : S.Op} {r : S.Reply op}
    (h : ∀ s', r ≠ (env s' op).1) : ⟨op, r⟩ ∉ (p.exec env s).history := by
  intro hmem
  obtain ⟨s', hs'⟩ := exec_replies hmem
  exact h s' hs'

end Rules

/-- The outcome and the final state alone. -/
def run (env : Environment S σ) (s : σ) (p : Prog S ε α) : Except ε α × σ :=
  ((p.exec env s).outcome, (p.exec env s).state)

section Results

variable {s s' : σ}

/-- An operation whose answer is known. -/
theorem run_call_bind {op : S.Op} {r : S.Reply op} (h : env s op = (r, s'))
    (f : S.Reply op → Prog S ε α) : (call op >>= f).run env s = (f r).run env s' := by
  change ((perform op f).exec env s).outcome |> fun o => (o, ((perform op f).exec env s).state) = _
  simp only [exec, h]
  rfl

theorem run_bind_ok {p : Prog S ε α} {f : α → Prog S ε β} {a : α}
    (h : p.run env s = (.ok a, s')) : (p >>= f).run env s = (f a).run env s' := by
  obtain ⟨ho, rfl⟩ := Prod.mk.inj h
  simp only [run, exec_bind_ok ho]

theorem run_bind_error {p : Prog S ε α} {f : α → Prog S ε β} {x : ε}
    (h : p.run env s = (.error x, s')) : (p >>= f).run env s = (.error x, s') := by
  obtain ⟨ho, rfl⟩ := Prod.mk.inj h
  simp only [run, exec_bind_error ho]

end Results

end Prog

section Systems

variable {S : System} {σ : Type}

/-- Thread `i`, left to itself, runs to its end, while every other thread stays as it is. -/
theorem Run.exec {p₀ p : Pool S} {ts : List (Transition S)} {i : ℕ} {th : Thread S}
    (env : Environment S.sig σ) (world : σ → S.World)
    (henv : ∀ s op, S.respond (world s) op (env s op).1 = some (world (env s op).2))
    (h : Run p₀ ts p) (hi : p.threads[i]? = some th) (s : σ) (hs : world s = p.world) :
    ∃ us, (∀ t ∈ us, ∃ x, t.label = .act i x) ∧
      Run p₀ (ts ++ us) ⟨world (th.program.exec env s).state,
        p.threads.set i ⟨th.request, th.history ++ (th.program.exec env s).history,
          .finish (th.program.exec env s).outcome⟩⟩ := by
  obtain ⟨q, hist, prog⟩ := th
  have hlt : i < p.threads.length := (List.getElem?_eq_some_iff.mp hi).1
  induction prog generalizing p ts hist s with
  | finish outcome =>
    refine ⟨[], by simp, ?_⟩
    have hsame : p.threads.set i ⟨q, hist, .finish outcome⟩ = p.threads := by
      rw [← (List.getElem?_eq_some_iff.mp hi).2]
      exact List.set_getElem_self hlt
    simpa [Prog.exec, hs, hsame] using h
  | perform op resume ih =>
    let next : Pool S := ⟨world (env s op).2, p.threads.set i
      ⟨q, hist ++ [⟨op, (env s op).1⟩], resume (env s op).1⟩⟩
    have hstep : Step p (.act i ⟨op, (env s op).1⟩) next :=
      .act hi rfl (by rw [← hs]; exact henv s op)
    obtain ⟨us, hus, hr⟩ := ih (env s op).1 (h.snoc hstep) (env s op).2 rfl _
      (List.getElem?_set_self hlt) (by simpa [next] using hlt)
    refine ⟨⟨p, .act i ⟨op, (env s op).1⟩, next⟩ :: us, ?_, ?_⟩
    · intro t ht
      rcases List.mem_cons.mp ht with rfl | ht
      · exact ⟨_, rfl⟩
      · exact hus t ht
    · simpa [Prog.exec, next, List.append_assoc, List.set_set] using hr

end Systems

end Interleaving
