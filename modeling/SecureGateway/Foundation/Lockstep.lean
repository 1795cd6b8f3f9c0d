import SecureGateway.Foundation.Execution

/-!
# Two executions side by side

Two programs run against two environments. As long as neither history is loud, they end alike
and leave related states. The rules follow the programs; where the two perform one operation,
the environments have to answer it alike from related states.
-/
namespace Interleaving

variable {S : Signature} {ε α β σ τ : Type} {Quiet : History S → Prop} {R : σ → τ → Prop}
  {env : Environment S σ} {env' : Environment S τ} {s : σ} {t : τ}

def Lockstep (Quiet : History S → Prop) (R : σ → τ → Prop) (e : Execution S ε α σ)
    (e' : Execution S ε α τ) : Prop :=
  Quiet e.history → Quiet e'.history → e.outcome = e'.outcome ∧ R e.state e'.state

/-- Both parts of a quiet history are quiet. -/
def Splits (Quiet : History S → Prop) : Prop := ∀ h k, Quiet (h ++ k) → Quiet h ∧ Quiet k

theorem Lockstep.finish (outcome : Except ε α) (h : R s t) :
    Lockstep Quiet R ((Prog.finish outcome : Prog S ε α).exec env s)
      ((Prog.finish outcome : Prog S ε α).exec env' t) :=
  fun _ _ => ⟨rfl, h⟩

section Rules

variable (hsplit : Splits Quiet) {p q : Prog S ε α}

include hsplit in
theorem quiet_of_bind {f : α → Prog S ε β} (h : Quiet ((p >>= f).exec env s).history) :
    Quiet (p.exec env s).history := by
  cases hp : (p.exec env s).outcome with
  | ok a =>
    rw [Prog.exec_bind_ok hp] at h
    exact (hsplit _ _ h).1
  | error x =>
    rw [Prog.exec_bind_error hp] at h
    exact h

include hsplit in
theorem quiet_of_tryCatch {f : ε → Prog S ε α} (h : Quiet ((p.tryCatch f).exec env s).history) :
    Quiet (p.exec env s).history := by
  cases hp : (p.exec env s).outcome with
  | ok a =>
    rw [Prog.exec_tryCatch_ok hp] at h
    exact h
  | error x =>
    rw [Prog.exec_tryCatch_error hp] at h
    exact (hsplit _ _ h).1

include hsplit in
/-- One operation each, not necessarily the same one. -/
theorem Lockstep.call_bind {op op' : S.Op} {f : S.Reply op → Prog S ε α}
    {g : S.Reply op' → Prog S ε α}
    (h : Lockstep Quiet R ((f (env s op).1).exec env (env s op).2)
      ((g (env' t op').1).exec env' (env' t op').2)) :
    Lockstep Quiet R ((Prog.call op >>= f).exec env s) ((Prog.call op' >>= g).exec env' t) :=
  fun hquiet hquiet' => h (hsplit [⟨op, (env s op).1⟩] _ hquiet).2
    (hsplit [⟨op', (env' t op').1⟩] _ hquiet').2

include hsplit in
/-- The second parts go on from the same value, in related states. -/
theorem Lockstep.bind {f g : α → Prog S ε β}
    (hp : Lockstep Quiet R (p.exec env s) (q.exec env' t))
    (hf : ∀ a s' t', (p.exec env s).outcome = .ok a → R s' t' →
      Lockstep Quiet R ((f a).exec env s') ((g a).exec env' t')) :
    Lockstep Quiet R ((p >>= f).exec env s) ((q >>= g).exec env' t) := by
  intro hquiet hquiet'
  obtain ⟨houtcome, hstate⟩ := hp (quiet_of_bind hsplit hquiet) (quiet_of_bind hsplit hquiet')
  cases hok : (p.exec env s).outcome with
  | ok a =>
    have hok' := houtcome.symm.trans hok
    rw [Prog.exec_bind_ok hok] at hquiet ⊢
    rw [Prog.exec_bind_ok hok'] at hquiet' ⊢
    exact hf a _ _ hok hstate (hsplit _ _ hquiet).2 (hsplit _ _ hquiet').2
  | error x =>
    rw [Prog.exec_bind_error hok, Prog.exec_bind_error (houtcome.symm.trans hok)]
    exact ⟨rfl, hstate⟩

include hsplit in
theorem Lockstep.tryCatch {f g : ε → Prog S ε α}
    (hp : Lockstep Quiet R (p.exec env s) (q.exec env' t))
    (hf : ∀ x s' t', R s' t' → Lockstep Quiet R ((f x).exec env s') ((g x).exec env' t')) :
    Lockstep Quiet R ((p.tryCatch f).exec env s) ((q.tryCatch g).exec env' t) := by
  intro hquiet hquiet'
  obtain ⟨houtcome, hstate⟩ :=
    hp (quiet_of_tryCatch hsplit hquiet) (quiet_of_tryCatch hsplit hquiet')
  cases hok : (p.exec env s).outcome with
  | ok a =>
    rw [Prog.exec_tryCatch_ok hok, Prog.exec_tryCatch_ok (houtcome.symm.trans hok)]
    exact ⟨houtcome, hstate⟩
  | error x =>
    have hok' := houtcome.symm.trans hok
    rw [Prog.exec_tryCatch_error hok] at hquiet ⊢
    rw [Prog.exec_tryCatch_error hok'] at hquiet' ⊢
    exact hf x _ _ hstate (hsplit _ _ hquiet).2 (hsplit _ _ hquiet').2

/-- Both environments answer `op` alike and keep the relation. -/
def AnswersAlike (R : σ → τ → Prop) (env : Environment S σ) (env' : Environment S τ)
    (op : S.Op) : Prop :=
  ∀ s t, R s t → (env s op).1 = (env' t op).1 ∧ R (env s op).2 (env' t op).2

/-- A program of operations that are answered alike runs alike. -/
theorem Lockstep.of_only (hp : p.Only (AnswersAlike R env env')) (h : R s t) :
    Lockstep Quiet R (p.exec env s) (p.exec env' t) := by
  have hrun : (p.exec env s).outcome = (p.exec env' t).outcome ∧
      R (p.exec env s).state (p.exec env' t).state := by
    induction hp generalizing s t with
    | finish outcome => exact ⟨rfl, h⟩
    | @perform op resume hop _ ih =>
      obtain ⟨hreply, hnext⟩ := hop s t h
      simp only [Prog.exec, ← hreply]
      exact ih _ hnext
  exact fun _ _ => hrun

end Rules

end Interleaving
