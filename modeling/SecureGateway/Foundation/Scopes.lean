import SecureGateway.Foundation.Program
import Mathlib.Tactic.Common

/-!
# Variables, scopes and resources

Programs with variables that outlive an exception, `try` with `finally` over them, and the
resources that a history has acquired and not released.
-/
namespace Interleaving

section Scopes

variable {S : Signature} {σ ε α β : Type}

/-- The same operations, with the outcome as a value. -/
def Prog.settle {ε' : Type} : Prog S ε α → Prog S ε' (Except ε α)
  | .finish outcome => .finish (.ok outcome)
  | .perform op resume => .perform op fun r => (resume r).settle

@[simp] theorem Prog.wp_settle {ε' : Type} {ok : History S → S.Op → Prop}
    {post : History S → Except ε' (Except ε α) → Prop} {h : History S} (p : Prog S ε α) :
    wp ok post h p.settle ↔ wp ok (fun h' outcome => post h' (.ok outcome)) h p := by
  induction p generalizing h with
  | finish outcome => rfl
  | perform op resume ih => exact and_congr Iff.rfl (forall_congr' fun r => ih r)

/-- A program with variables; an exception leaves them as they are. -/
def Scoped (S : Signature) (σ ε α : Type) := σ → Prog S (ε × σ) (α × σ)

namespace Scoped

instance : Monad (Scoped S σ ε) where
  pure a := fun s => .finish (.ok (a, s))
  bind p f := fun s => p s >>= fun x => f x.1 x.2

def perform (op : S.Op) : Scoped S σ ε (S.Reply op) := fun s =>
  .perform op fun r => .finish (.ok (r, s))

/-- A value, or the exception that came in its place. -/
def orRaise : Except ε α → Scoped S σ ε α
  | .ok a => fun s => .finish (.ok (a, s))
  | .error x => fun s => .finish (.error (x, s))

def read : Scoped S σ ε σ := fun s => .finish (.ok (s, s))

def update (f : σ → σ) : Scoped S σ ε Unit := fun s => .finish (.ok ((), f s))

/-- `final` runs however `p` ends; an exception of `final` takes the place of its outcome. -/
def tryFinally (p : Scoped S σ ε α) (final : Scoped S σ ε Unit) : Scoped S σ ε α := fun s =>
  (p s).settle >>= fun outcome =>
    match outcome with
    | .ok (a, s) => final s >>= fun x => .finish (.ok (a, x.2))
    | .error (e, s) => final s >>= fun x => .finish (.error (e, x.2))

/-- A postcondition on the outcome and on the variables. -/
def Settled (post : History S → σ → Except ε α → Prop) (h : History S) :
    Except (ε × σ) (α × σ) → Prop
  | .ok (a, s) => post h s (.ok a)
  | .error (x, s) => post h s (.error x)

/-- `Prog.wp`, from a history and from variables. -/
def wp (ok : History S → S.Op → Prop) (post : History S → σ → Except ε α → Prop)
    (h : History S) (s : σ) (p : Scoped S σ ε α) : Prop :=
  (p s).wp ok (Settled post) h

variable {ok : History S → S.Op → Prop} {post post' : History S → σ → Except ε α → Prop}
  {h : History S} {s : σ} {p : Scoped S σ ε α}

@[simp] theorem wp_pure (a : α) : wp ok post h s (pure a) ↔ post h s (.ok a) := Iff.rfl

@[simp] theorem wp_orRaise (outcome : Except ε α) :
    wp ok post h s (orRaise outcome) ↔ post h s outcome := by
  cases outcome <;> rfl

@[simp] theorem wp_perform {op : S.Op} {post : History S → σ → Except ε (S.Reply op) → Prop} :
    wp ok post h s (perform op) ↔ ok h op ∧ ∀ r, post (h ++ [⟨op, r⟩]) s (.ok r) := Iff.rfl

@[simp] theorem wp_read {post : History S → σ → Except ε σ → Prop} :
    wp ok post h s read ↔ post h s (.ok s) := Iff.rfl

@[simp] theorem wp_update {post : History S → σ → Except ε Unit → Prop} (f : σ → σ) :
    wp ok post h s (update f) ↔ post h (f s) (.ok ()) := Iff.rfl

/-- What is left to show of a sequence once its first part has ended. -/
def Sequel (ok : History S → S.Op → Prop) (post : History S → σ → Except ε β → Prop)
    (f : α → Scoped S σ ε β) (h : History S) (s : σ) : Except ε α → Prop
  | .ok a => wp ok post h s (f a)
  | .error x => post h s (.error x)

@[simp] theorem sequel_ok {post : History S → σ → Except ε β → Prop} {f : α → Scoped S σ ε β}
    (a : α) : Sequel ok post f h s (.ok a) ↔ wp ok post h s (f a) := Iff.rfl

@[simp] theorem sequel_error {post : History S → σ → Except ε β → Prop} {f : α → Scoped S σ ε β}
    (x : ε) : Sequel ok post f h s (.error x) ↔ post h s (.error x) := Iff.rfl

@[simp] theorem wp_bind {post : History S → σ → Except ε β → Prop} (p : Scoped S σ ε α)
    (f : α → Scoped S σ ε β) : wp ok post h s (p >>= f) ↔ wp ok (Sequel ok post f) h s p := by
  have hsequel : Prog.Sequel ok (Settled post) (fun x => f x.1 x.2) =
      Settled (Sequel ok post f) := by
    funext h outcome
    cases outcome <;> rfl
  unfold wp
  rw [← hsequel]
  exact Prog.wp_bind (p s) fun x => f x.1 x.2

theorem wp_perform_bind {op : S.Op} {post : History S → σ → Except ε β → Prop}
    (f : S.Reply op → Scoped S σ ε β) : wp ok post h s (perform op >>= f) ↔
      ok h op ∧ ∀ r, wp ok post (h ++ [⟨op, r⟩]) s (f r) := wp_bind _ _

/-- Going on with a value, unless it is an exception. -/
theorem wp_orRaise_bind {post : History S → σ → Except ε β → Prop} {outcome : Except ε α}
    {f : α → Scoped S σ ε β} (hok : ∀ a, outcome = .ok a → wp ok post h s (f a))
    (herror : ∀ x, outcome = .error x → post h s (.error x)) :
    wp ok post h s (orRaise outcome >>= f) := by
  rw [wp_bind, wp_orRaise]
  cases outcome with
  | ok a => exact hok a rfl
  | error x => exact herror x rfl

/-- What is left to show once the guarded part has ended: the finalizer, and after it the
outcome, unless the finalizer raises. -/
def Finally (ok : History S → S.Op → Prop) (post : History S → σ → Except ε α → Prop)
    (final : Scoped S σ ε Unit) (h : History S) (s : σ) (outcome : Except ε α) : Prop :=
  wp ok (fun h' s' result => post h' s' (result.bind fun _ => outcome)) h s final

/-- A finalizer, and then an outcome that was there before. -/
theorem wp_final (final : Scoped S σ ε Unit) (resume : σ → Except (ε × σ) (α × σ))
    (outcome : Except ε α) (hresume : ∀ h s, Settled post h (resume s) ↔ post h s outcome) :
    (final s >>= fun x => Prog.finish (resume x.2)).wp ok (Settled post) h ↔
      Finally ok post final h s outcome := by
  have hsequel : Prog.Sequel ok (Settled post) (fun x => Prog.finish (resume x.2)) =
      Settled fun h' s' (result : Except ε Unit) => post h' s' (result.bind fun _ => outcome) := by
    funext h' result
    rcases result with ⟨x, s'⟩ | ⟨u, s'⟩
    · rfl
    · exact propext (hresume h' s')
  rw [Prog.wp_bind, hsequel]
  rfl

@[simp] theorem wp_tryFinally (p : Scoped S σ ε α) (final : Scoped S σ ε Unit) :
    wp ok post h s (tryFinally p final) ↔ wp ok (Finally ok post final) h s p := by
  unfold tryFinally wp
  rw [Prog.wp_bind, Prog.wp_settle]
  refine iff_of_eq (congrArg (fun post => Prog.wp ok post h (p s)) ?_)
  funext h outcome
  rcases outcome with ⟨x, s⟩ | ⟨a, s⟩
  · have hfinal := @wp_final S σ ε α ok post h s final (fun s => .error (x, s)) (.error x)
    exact propext (hfinal fun _ _ => Iff.rfl)
  · have hfinal := @wp_final S σ ε α ok post h s final (fun s => .ok (a, s)) (.ok a)
    exact propext (hfinal fun _ _ => Iff.rfl)

/-- Consequence. The history only grows, so the weaker postcondition may use that. -/
theorem wp_mono (hp : wp ok post h s p)
    (himp : ∀ h' s' outcome, h <+: h' → post h' s' outcome → post' h' s' outcome) :
    wp ok post' h s p := by
  refine Prog.wp_mono hp fun h' outcome hle => ?_
  rcases outcome with ⟨x, s'⟩ | ⟨a, s'⟩
  · exact himp h' s' (.error x) hle
  · exact himp h' s' (.ok a) hle

end Scoped

end Scopes

section Ledgers

/-- Which exchanges acquire a resource, and which give one back. -/
structure Ledger (S : Signature) (ρ : Type) where
  acquires : Exchange S → Option ρ
  releases : Exchange S → Option ρ

namespace Ledger

variable {S : Signature} {ρ ε α : Type} [DecidableEq ρ] (L : Ledger S ρ)

def heldAfter (r : ρ) (before : Bool) (x : Exchange S) : Bool :=
  if L.acquires x = some r then true else if L.releases x = some r then false else before

/-- Whether a resource is held at the end of a history. -/
def held (h : History S) (r : ρ) : Bool := h.foldl (L.heldAfter r) false

def acquired (h : History S) (r : ρ) : ℕ := h.countP fun x => L.acquires x = some r

def released (h : History S) (r : ρ) : ℕ := h.countP fun x => L.releases x = some r

variable {L} {h : History S} {x : Exchange S} {r : ρ}

@[simp] theorem held_append : L.held (h ++ [x]) r = L.heldAfter r (L.held h r) x := by
  rw [held, List.foldl_append]
  rfl

/-- An exchange that takes nothing and gives nothing back. -/
theorem held_append_of_none (ha : L.acquires x = none) (hr : L.releases x = none) :
    L.held (h ++ [x]) r = L.held h r := by
  simp [heldAfter, ha, hr]

theorem held_append_acquire {r' : ρ} (ha : L.acquires x = some r') (hr : L.releases x = none) :
    L.held (h ++ [x]) r = true ↔ r = r' ∨ L.held h r = true := by
  rw [held_append, heldAfter, ha, hr]
  by_cases he : r' = r
  · simp [he]
  · simp [he, Ne.symm he]

theorem held_append_release {r' : ρ} (ha : L.acquires x = none) (hr : L.releases x = some r') :
    L.held (h ++ [x]) r = true ↔ L.held h r = true ∧ r ≠ r' := by
  rw [held_append, heldAfter, ha, hr]
  by_cases he : r' = r
  · simp [he]
  · simp [he, Ne.symm he]

/-- An exchange takes only what is free and gives back only what is held. -/
def Orderly (L : Ledger S ρ) (h : History S) (x : Exchange S) : Prop :=
  (∀ r, L.acquires x = some r → L.held h r = false ∧ L.releases x = none) ∧
    ∀ r, L.releases x = some r → L.held h r = true

/-- What has been acquired has been released once, but for what is held. -/
def Balanced (L : Ledger S ρ) (h : History S) : Prop :=
  ∀ r, L.acquired h r = L.released h r + (L.held h r).toNat

theorem balanced_append (hh : L.Balanced h) (hx : L.Orderly h x) : L.Balanced (h ++ [x]) := by
  intro r
  have hr := hh r
  unfold acquired released at hr ⊢
  rw [held_append, heldAfter, List.countP_append, List.countP_append, List.countP_singleton,
    List.countP_singleton]
  by_cases ha : L.acquires x = some r
  · obtain ⟨hfree, hkeep⟩ := hx.1 r ha
    rw [hfree] at hr
    simp [ha, hkeep, hr]
  · by_cases hrel : L.releases x = some r
    · rw [hx.2 r hrel] at hr
      simp [ha, hrel, hr]
    · simp [ha, hrel, hr]

/-- A program that is orderly whatever the replies are keeps its ledger balanced. -/
theorem wp_balanced {ok : History S → S.Op → Prop} {post : History S → Except ε α → Prop}
    {p : Prog S ε α} (hp : p.wp ok post h) (hh : L.Balanced h)
    (hok : ∀ h op r, ok h op → L.Orderly h ⟨op, r⟩) :
    p.wp ok (fun h' outcome => post h' outcome ∧ L.Balanced h') h := by
  induction p generalizing h with
  | finish outcome => exact ⟨hp, hh⟩
  | perform op resume ih =>
    exact ⟨hp.1, fun r => ih r (hp.2 r) (balanced_append hh (hok h op r hp.1))⟩

end Ledger

end Ledgers

end Interleaving
