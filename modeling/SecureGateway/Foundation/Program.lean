import Mathlib.Data.List.Infix

/-!
# Programs over an interface

A program performs operations one at a time and goes on with the reply to each; it finishes
with a value or an exception. A precondition of a program says that every operation it
performs is allowed by what it has seen before, whatever the replies are.
-/
namespace Interleaving

structure Signature where
  Op : Type
  Reply : Op → Type

/-- An operation and the reply to it. -/
structure Exchange (S : Signature) where
  op : S.Op
  reply : S.Reply op

/-- What a program has performed so far, oldest first. -/
abbrev History (S : Signature) := List (Exchange S)

inductive Prog (S : Signature) (ε α : Type) where
  | finish (outcome : Except ε α)
  | perform (op : S.Op) (resume : S.Reply op → Prog S ε α)

namespace Prog

variable {S T : Signature} {ε α β : Type}

def bind : Prog S ε α → (α → Prog S ε β) → Prog S ε β
  | finish (.ok a), f => f a
  | finish (.error x), _ => finish (.error x)
  | perform op resume, f => perform op fun r => (resume r).bind f

def tryCatch : Prog S ε α → (ε → Prog S ε α) → Prog S ε α
  | finish (.ok a), _ => finish (.ok a)
  | finish (.error x), f => f x
  | perform op resume, f => perform op fun r => (resume r).tryCatch f

instance : Monad (Prog S ε) where
  pure a := finish (.ok a)
  bind := Prog.bind

instance : MonadExceptOf ε (Prog S ε) where
  throw x := finish (.error x)
  tryCatch := Prog.tryCatch

/-- One operation. -/
def call (op : S.Op) : Prog S ε (S.Reply op) := perform op fun r => finish (.ok r)

def liftExcept : Except ε α → Prog S ε α := finish

theorem liftExcept_ok_bind (a : α) (f : α → Prog S ε β) : liftExcept (.ok a) >>= f = f a := rfl

theorem liftExcept_error_bind (x : ε) (f : α → Prog S ε β) :
    liftExcept (.error x) >>= f = finish (.error x) := rfl

/-- The same program over a larger interface. -/
def embed (op : S.Op → T.Op) (reply : ∀ e, T.Reply (op e) → S.Reply e) :
    Prog S ε α → Prog T ε α
  | finish outcome => finish outcome
  | perform e resume => perform (op e) fun r => (resume (reply e r)).embed op reply

/-- From history `h` on, every operation is allowed by the history before it, and every
outcome satisfies `post` with the history at the end. -/
def wp (ok : History S → S.Op → Prop) (post : History S → Except ε α → Prop) :
    History S → Prog S ε α → Prop
  | h, finish outcome => post h outcome
  | h, perform op resume => ok h op ∧ ∀ r, wp ok post (h ++ [⟨op, r⟩]) (resume r)

variable {ok : History S → S.Op → Prop} {post post' : History S → Except ε α → Prop}
  {h : History S} {p : Prog S ε α}

@[simp] theorem wp_finish (outcome : Except ε α) :
    wp ok post h (finish outcome) ↔ post h outcome := Iff.rfl

@[simp] theorem wp_liftExcept (outcome : Except ε α) :
    wp ok post h (liftExcept outcome) ↔ post h outcome := Iff.rfl

/-- What is left to show of a sequence once its first part has ended. -/
def Sequel (ok : History S → S.Op → Prop) (post : History S → Except ε β → Prop)
    (f : α → Prog S ε β) (h : History S) : Except ε α → Prop
  | .ok a => wp ok post h (f a)
  | .error x => post h (.error x)

@[simp] theorem sequel_ok {post : History S → Except ε β → Prop} {f : α → Prog S ε β} (a : α) :
    Sequel ok post f h (.ok a) ↔ wp ok post h (f a) := Iff.rfl

@[simp] theorem wp_bind {post : History S → Except ε β → Prop} (p : Prog S ε α)
    (f : α → Prog S ε β) : wp ok post h (p >>= f) ↔ wp ok (Sequel ok post f) h p := by
  change wp ok post h (p.bind f) ↔ _
  induction p generalizing h with
  | finish outcome => cases outcome <;> rfl
  | perform op resume ih => exact and_congr Iff.rfl (forall_congr' fun r => ih r)

theorem wp_call_bind (op : S.Op) (f : S.Reply op → Prog S ε α) :
    wp ok post h (call op >>= f) ↔ ok h op ∧ ∀ r, wp ok post (h ++ [⟨op, r⟩]) (f r) := Iff.rfl

/-- What is left to show of a guarded part once it has ended. -/
def Recovery (ok : History S → S.Op → Prop) (post : History S → Except ε α → Prop)
    (f : ε → Prog S ε α) (h : History S) : Except ε α → Prop
  | .ok a => post h (.ok a)
  | .error x => wp ok post h (f x)

@[simp] theorem recovery_ok {f : ε → Prog S ε α} (a : α) :
    Recovery ok post f h (.ok a) ↔ post h (.ok a) := Iff.rfl

@[simp] theorem recovery_error {f : ε → Prog S ε α} (x : ε) :
    Recovery ok post f h (.error x) ↔ wp ok post h (f x) := Iff.rfl

@[simp] theorem wp_tryCatch (p : Prog S ε α) (f : ε → Prog S ε α) :
    wp ok post h (p.tryCatch f) ↔ wp ok (Recovery ok post f) h p := by
  induction p generalizing h with
  | finish outcome => cases outcome <;> rfl
  | perform op resume ih => exact and_congr Iff.rfl (forall_congr' fun r => ih r)

/-- Consequence. The history only grows, so the weaker postcondition may use that. -/
theorem wp_mono (hp : wp ok post h p)
    (himp : ∀ h' outcome, h <+: h' → post h' outcome → post' h' outcome) :
    wp ok post' h p := by
  induction p generalizing h with
  | finish outcome => exact himp h outcome List.prefix_rfl hp
  | perform op resume ih =>
    obtain ⟨hok, hr⟩ := hp
    refine ⟨hok, fun r => ih r (hr r) ?_⟩
    intro h' outcome hle
    exact himp h' outcome ((List.prefix_append h _).trans hle)

/-- Consequence on both sides. -/
theorem wp_weaken {ok' : History S → S.Op → Prop} (hp : wp ok post h p)
    (hok : ∀ h' op, ok h' op → ok' h' op)
    (hpost : ∀ h' outcome, post h' outcome → post' h' outcome) :
    wp ok' post' h p := by
  induction p generalizing h with
  | finish outcome => exact hpost h outcome hp
  | perform op resume ih => exact ⟨hok h op hp.1, fun r => ih r (hp.2 r)⟩

/-- Every operation the program can perform satisfies `P`. -/
inductive Only (P : S.Op → Prop) : Prog S ε α → Prop
  | finish (outcome : Except ε α) : Only P (finish outcome)
  | perform {op : S.Op} {resume : S.Reply op → Prog S ε α} (hop : P op)
      (hr : ∀ r, Only P (resume r)) : Only P (perform op resume)

section Only

variable {P : S.Op → Prop}

@[simp] theorem only_pure (a : α) : (pure a : Prog S ε α).Only P := .finish (.ok a)

@[simp] theorem only_throw (x : ε) : (throw x : Prog S ε α).Only P := .finish (.error x)

@[simp] theorem only_liftExcept (outcome : Except ε α) :
    (liftExcept outcome : Prog S ε α).Only P := .finish outcome

theorem only_call_bind {op : S.Op} {f : S.Reply op → Prog S ε α} (hop : P op)
    (hf : ∀ r, (f r).Only P) : (call op >>= f).Only P := .perform hop hf

theorem Only.mono {p : Prog S ε α} {Q : S.Op → Prop} (hp : p.Only P)
    (h : ∀ op, P op → Q op) : p.Only Q := by
  induction hp with
  | finish outcome => exact .finish outcome
  | perform hop _ ih => exact .perform (h _ hop) ih

theorem only_bind {p : Prog S ε α} {f : α → Prog S ε β} (hp : p.Only P)
    (hf : ∀ a, (f a).Only P) : (p >>= f).Only P := by
  change (p.bind f).Only P
  induction hp with
  | finish outcome =>
    cases outcome with
    | ok a => exact hf a
    | error x => exact .finish _
  | perform hop _ ih => exact .perform hop ih

theorem only_tryCatch {p : Prog S ε α} {f : ε → Prog S ε α} (hp : p.Only P)
    (hf : ∀ x, (f x).Only P) : (p.tryCatch f).Only P := by
  induction hp with
  | finish outcome =>
    cases outcome with
    | ok a => exact .finish _
    | error x => exact hf x
  | perform hop _ ih => exact .perform hop ih

theorem only_of_forall (hP : ∀ op, P op) (p : Prog S ε α) : p.Only P := by
  induction p with
  | finish outcome => exact .finish outcome
  | perform op resume ih => exact .perform (hP op) ih

theorem Only.embed {op : S.Op → T.Op} {reply : ∀ e, T.Reply (op e) → S.Reply e}
    {Q : T.Op → Prop} {p : Prog S ε α} (hp : p.Only P) (hQ : ∀ e, P e → Q (op e)) :
    (p.embed op reply).Only Q := by
  induction hp with
  | finish outcome => exact .finish outcome
  | @perform e _ hop _ ih => exact .perform (hQ e hop) fun r => ih (reply e r)

theorem only_embed {op : S.Op → T.Op} {reply : ∀ e, T.Reply (op e) → S.Reply e}
    {Q : T.Op → Prop} (hQ : ∀ e, Q (op e)) (p : Prog S ε α) : (p.embed op reply).Only Q :=
  (only_of_forall (fun _ => trivial) p : p.Only fun _ => True).embed fun e _ => hQ e

/-- A precondition that does not look back bounds the operations. -/
theorem only_of_wp (hp : wp (fun _ => P) post h p) : p.Only P := by
  induction p generalizing h with
  | finish outcome => exact .finish outcome
  | perform op resume ih => exact .perform hp.1 fun r => ih r (hp.2 r)

/-- A program of operations that are never forbidden needs no further argument. -/
theorem wp_of_only (hp : p.Only P) (hok : ∀ h op, P op → ok h op)
    (hpost : ∀ h' outcome, h <+: h' → post h' outcome) : wp ok post h p := by
  induction hp generalizing h with
  | finish outcome => exact hpost h outcome List.prefix_rfl
  | perform hop _ ih =>
    refine ⟨hok h _ hop, fun r => ih r ?_⟩
    intro h' outcome hle
    exact hpost h' outcome ((List.prefix_append h _).trans hle)

/-- A program of `P` operations extends a history of `P` operations to another one. -/
theorem wp_only_history (hp : p.Only P) (hh : ∀ x ∈ h, P x.op)
    (hok : ∀ h op, (∀ x ∈ h, P x.op) → P op → ok h op)
    (hpost : ∀ h' outcome, (∀ x ∈ h', P x.op) → post h' outcome) : wp ok post h p := by
  induction hp generalizing h with
  | finish outcome => exact hpost h outcome hh
  | perform hop _ ih =>
    refine ⟨hok h _ hh hop, fun r => ih r fun x hx => ?_⟩
    rcases List.mem_append.mp hx with hx | hx
    · exact hh x hx
    · cases List.mem_singleton.mp hx
      exact hop

/-- A history whose last operation satisfies `Q` is extended to another one. -/
theorem wp_only_last {Q : S.Op → Prop} (hp : p.Only P) (hPQ : ∀ op, P op → Q op)
    (hh : ∃ k x, h = k ++ [x] ∧ Q x.op) (hok : ∀ h op, P op → ok h op)
    (hpost : ∀ h' outcome, h <+: h' → (∃ k x, h' = k ++ [x] ∧ Q x.op) → post h' outcome) :
    wp ok post h p := by
  induction hp generalizing h with
  | finish outcome => exact hpost h outcome List.prefix_rfl hh
  | @perform op _ hop _ ih =>
    refine ⟨hok h op hop, fun r => ih r ⟨h, ⟨op, r⟩, rfl, hPQ op hop⟩ ?_⟩
    intro h' outcome hle
    exact hpost h' outcome ((List.prefix_append h _).trans hle)

end Only

/-- An embedded program keeps its own discipline, translated, and adds nothing else to the
history. -/
theorem wp_embed {op : S.Op → T.Op} {reply : ∀ e, T.Reply (op e) → S.Reply e}
    {okT : History T → T.Op → Prop} {postT : History T → Except ε α → Prop} {k : History T}
    (hp : wp ok post h p)
    (hok : ∀ h' l e, (∀ x ∈ l, ∃ e, x.op = op e) → ok h' e → okT (k ++ l) (op e))
    (hpost : ∀ h' k' outcome, k <+: k' → post h' outcome → postT k' outcome) :
    wp okT postT k (p.embed op reply) := by
  induction p generalizing h k with
  | finish outcome => exact hpost h k outcome List.prefix_rfl hp
  | perform e resume ih =>
    refine ⟨by simpa using hok h [] e (by simp) hp.1, fun r => ih _ (hp.2 (reply e r)) ?_ ?_⟩
    · intro h' l e' hl he'
      rw [List.append_assoc]
      refine hok h' _ e' (fun x hx => ?_) he'
      rcases List.mem_cons.mp hx with rfl | hx
      · exact ⟨e, rfl⟩
      · exact hl x hx
    · intro h' k' outcome hle
      exact hpost h' k' outcome ((List.prefix_append k _).trans hle)

/-- The same, where the postcondition looks at the exchanges: every one of the program stands
in the larger history, with a reply that translates to its own. -/
theorem wp_embed_image {op : S.Op → T.Op} {reply : ∀ e, T.Reply (op e) → S.Reply e}
    {okT : History T → T.Op → Prop} {postT : History T → Except ε α → Prop} {k : History T}
    (hp : wp ok post h p) (hok : ∀ h' k' e, ok h' e → okT k' (op e))
    (hpost : ∀ h' l outcome, post (h ++ h') outcome →
      (∀ y ∈ h', ∃ r, ⟨op y.op, r⟩ ∈ l ∧ reply y.op r = y.reply) → postT (k ++ l) outcome) :
    wp okT postT k (p.embed op reply) := by
  induction p generalizing h k with
  | finish outcome =>
    have hend := hpost [] [] outcome (by simpa using hp) (by simp)
    rw [List.append_nil] at hend
    exact hend
  | perform e resume ih =>
    refine ⟨hok h k e hp.1, fun r => ih _ (hp.2 (reply e r)) ?_⟩
    intro h' l outcome hp' himage
    rw [List.append_assoc]
    refine hpost (⟨e, reply e r⟩ :: h') _ outcome (by simpa using hp') ?_
    intro y hy
    rcases List.mem_cons.mp hy with rfl | hy
    · exact ⟨r, List.mem_cons_self, rfl⟩
    · obtain ⟨r', hr', heq⟩ := himage y hy
      exact ⟨r', List.mem_cons_of_mem _ hr', heq⟩

end Prog

end Interleaving
