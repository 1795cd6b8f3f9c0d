import SecureGateway.Foundation.Pool

/-!
# What programs leave behind

A program read through an observation of its exchanges: which lists of observations it can make
before which outcome, whatever the replies are.
-/
namespace Interleaving

namespace Prog

variable {S T : Signature} {ε ε' α β ω : Type} {obs : Exchange S → List ω}

/-- Every outcome comes with observations that `E` allows. -/
def Leaves (obs : Exchange S → List ω) (E : Except ε α → List ω → Prop) : Prog S ε α → Prop
  | finish outcome => E outcome []
  | perform op resume => ∀ r, (resume r).Leaves obs fun outcome seen =>
      E outcome (obs ⟨op, r⟩ ++ seen)

variable {E E' : Except ε α → List ω → Prop} {p : Prog S ε α}

@[simp] theorem leaves_finish (outcome : Except ε α) :
    (finish outcome).Leaves obs E ↔ E outcome [] := Iff.rfl

theorem leaves_call_bind {op : S.Op} {f : S.Reply op → Prog S ε α} :
    (call op >>= f).Leaves obs E ↔
      ∀ r, (f r).Leaves obs fun outcome seen => E outcome (obs ⟨op, r⟩ ++ seen) := Iff.rfl

theorem Leaves.mono (hp : p.Leaves obs E) (h : ∀ outcome seen, E outcome seen → E' outcome seen) :
    p.Leaves obs E' := by
  induction p generalizing E E' with
  | finish outcome => exact h outcome [] hp
  | perform op resume ih => exact fun r => ih r (hp r) fun outcome seen => h outcome _

/-- A sequence leaves what its parts leave, one after the other. -/
theorem leaves_bind {p : Prog S ε β} {f : β → Prog S ε α} {F : Except ε β → List ω → Prop}
    (hp : p.Leaves obs F)
    (hok : ∀ b seen, F (.ok b) seen → (f b).Leaves obs fun outcome later =>
      E outcome (seen ++ later))
    (herror : ∀ x seen, F (.error x) seen → E (.error x) seen) : (p >>= f).Leaves obs E := by
  change (p.bind f).Leaves obs E
  induction p generalizing E F with
  | finish outcome =>
    cases outcome with
    | ok b => exact hok b [] hp
    | error x => exact herror x [] hp
  | perform op resume ih =>
    refine fun r => ih r (hp r) (fun b seen hb => ?_) fun x seen => herror x _
    simpa only [List.append_assoc] using hok b _ hb

theorem leaves_tryCatch {f : ε → Prog S ε α} {F : Except ε α → List ω → Prop}
    (hp : p.Leaves obs F) (hok : ∀ a seen, F (.ok a) seen → E (.ok a) seen)
    (herror : ∀ x seen, F (.error x) seen → (f x).Leaves obs fun outcome later =>
      E outcome (seen ++ later)) : (p.tryCatch f).Leaves obs E := by
  induction p generalizing E F with
  | finish outcome =>
    cases outcome with
    | ok a => exact hok a [] hp
    | error x => exact herror x [] hp
  | perform op resume ih =>
    refine fun r => ih r (hp r) (fun a seen => hok a _) fun x seen hx => ?_
    simpa only [List.append_assoc] using herror x _ hx

section Silent

/-- Nothing is observed, and every exception satisfies `P`. -/
def Silent (obs : Exchange S → List ω) (P : ε → Prop) (p : Prog S ε α) : Prop :=
  p.Leaves obs fun outcome seen => seen = [] ∧ ∀ x, outcome = .error x → P x

variable {P P' : ε → Prop}

theorem Silent.mono (hp : p.Silent obs P) (h : ∀ x, P x → P' x) : p.Silent obs P' := by
  refine Leaves.mono hp fun outcome seen hseen => ⟨hseen.1, fun x hx => ?_⟩
  exact h x (hseen.2 x hx)

theorem silent_pure (a : α) : (pure a : Prog S ε α).Silent obs P := by
  refine ⟨rfl, fun x hx => ?_⟩
  cases hx

theorem silent_throw {x : ε} (hx : P x) : (throw x : Prog S ε α).Silent obs P := by
  refine ⟨rfl, fun y hy => ?_⟩
  cases hy
  exact hx

theorem silent_liftExcept {outcome : Except ε α} (h : ∀ x, outcome = .error x → P x) :
    (liftExcept outcome : Prog S ε α).Silent obs P := ⟨rfl, h⟩

theorem silent_call {op : S.Op} (hop : ∀ r, obs ⟨op, r⟩ = []) :
    (call op : Prog S ε (S.Reply op)).Silent obs P := by
  intro r
  refine ⟨by rw [hop r, List.nil_append], fun x hx => ?_⟩
  cases hx

theorem silent_call_bind {op : S.Op} {f : S.Reply op → Prog S ε α} (hop : ∀ r, obs ⟨op, r⟩ = [])
    (hf : ∀ r, (f r).Silent obs P) : (call op >>= f).Silent obs P := by
  intro r
  rw [hop r]
  exact hf r

theorem silent_bind {p : Prog S ε β} {f : β → Prog S ε α} (hp : p.Silent obs P)
    (hf : ∀ b, (f b).Silent obs P) : (p >>= f).Silent obs P := by
  refine leaves_bind hp (fun b seen hseen => ?_) fun x seen hseen => ?_
  · rw [hseen.1]
    exact hf b
  · refine ⟨hseen.1, fun y hy => ?_⟩
    cases hy
    exact hseen.2 x rfl

theorem silent_tryCatch {f : ε → Prog S ε α} (hp : p.Silent obs P)
    (hf : ∀ x, P x → (f x).Silent obs P') : (p.tryCatch f).Silent obs P' := by
  refine leaves_tryCatch hp (fun a seen hseen => ?_) fun x seen hseen => ?_
  · refine ⟨hseen.1, fun y hy => ?_⟩
    cases hy
  · rw [hseen.1]
    exact hf x (hseen.2 x rfl)

/-- Over a larger interface that does not observe the operations either. -/
theorem Silent.embed {obsT : Exchange T → List ω} {op : S.Op → T.Op}
    {reply : ∀ e, T.Reply (op e) → S.Reply e} (hp : p.Silent obs P)
    (hobs : ∀ e r, obsT ⟨op e, r⟩ = []) : (p.embed op reply).Silent obsT P := by
  induction p with
  | finish outcome => exact ⟨rfl, hp.2⟩
  | perform e resume ih =>
    intro r
    rw [hobs e r]
    refine ih _ (Leaves.mono (hp _) fun outcome seen hseen => ?_)
    exact ⟨(List.append_eq_nil_iff.mp hseen.1).2, hseen.2⟩

end Silent

section Entries

variable {ν : Type} {entry : ν → List ω} {before : List ν} {Q : List ν → Except ε α → Prop}

/-- What is observed comes in whole entries; with those before it they satisfy `Q` at the end. -/
def Tells (obs : Exchange S → List ω) (entry : ν → List ω) (before : List ν)
    (Q : List ν → Except ε α → Prop) (p : Prog S ε α) : Prop :=
  p.Leaves obs fun outcome seen => ∃ told, seen = told.flatMap entry ∧ Q (before ++ told) outcome

theorem Tells.mono {Q' : List ν → Except ε α → Prop} (hp : p.Tells obs entry before Q)
    (h : ∀ told outcome, Q told outcome → Q' told outcome) : p.Tells obs entry before Q' := by
  refine Leaves.mono hp fun outcome seen hseen => ?_
  obtain ⟨told, heq, hQ⟩ := hseen
  exact ⟨told, heq, h _ _ hQ⟩

theorem tells_finish {outcome : Except ε α} (h : Q before outcome) :
    (finish outcome : Prog S ε α).Tells obs entry before Q :=
  ⟨[], rfl, by rwa [List.append_nil]⟩

theorem tells_call_bind {op : S.Op} {f : S.Reply op → Prog S ε α} (hop : ∀ r, obs ⟨op, r⟩ = [])
    (hf : ∀ r, (f r).Tells obs entry before Q) : (call op >>= f).Tells obs entry before Q := by
  intro r
  rw [hop r]
  exact hf r

/-- The entries of one part stand before those of the next. -/
theorem Tells.onward {f : Prog S ε β} {R : List ν → Except ε β → Prop} {seen : List ω}
    {told : List ν} (hf : f.Tells obs entry (before ++ told) R)
    (hseen : seen = told.flatMap entry) :
    f.Leaves obs fun outcome later =>
      ∃ told', seen ++ later = told'.flatMap entry ∧ R (before ++ told') outcome := by
  refine Leaves.mono hf fun outcome later hlater => ?_
  obtain ⟨more, heq, hR⟩ := hlater
  refine ⟨told ++ more, ?_, ?_⟩
  · rw [hseen, heq, List.flatMap_append]
  · rwa [← List.append_assoc]

theorem tells_bind {p : Prog S ε β} {f : β → Prog S ε α} {F : List ν → Except ε β → Prop}
    (hp : p.Tells obs entry before F)
    (hok : ∀ told b, F told (.ok b) → (f b).Tells obs entry told Q)
    (herror : ∀ told x, F told (.error x) → Q told (.error x)) :
    (p >>= f).Tells obs entry before Q := by
  refine leaves_bind hp (fun b seen hseen => ?_) fun x seen hseen => ?_
  · obtain ⟨told, heq, hF⟩ := hseen
    exact (hok _ b hF).onward heq
  · obtain ⟨told, heq, hF⟩ := hseen
    exact ⟨told, heq, herror _ x hF⟩

theorem Silent.tells {P : ε → Prop} (hp : p.Silent obs P) (hok : ∀ a, Q before (.ok a))
    (herror : ∀ x, P x → Q before (.error x)) : p.Tells obs entry before Q := by
  refine Leaves.mono hp fun outcome seen hseen => ⟨[], hseen.1, ?_⟩
  rw [List.append_nil]
  cases outcome with
  | ok a => exact hok a
  | error x => exact herror x (hseen.2 x rfl)

/-- A part that is silent, and what its exceptions are turned into. -/
theorem Silent.tells_tryCatch {P : ε → Prop} {f : ε → Prog S ε α} (hp : p.Silent obs P)
    (hok : ∀ a, Q before (.ok a)) (hf : ∀ x, P x → (f x).Tells obs entry before Q) :
    (p.tryCatch f).Tells obs entry before Q := by
  refine leaves_tryCatch hp (fun a seen hseen => ⟨[], hseen.1, ?_⟩) fun x seen hseen => ?_
  · rw [List.append_nil]
    exact hok a
  · rw [hseen.1]
    exact hf x (hseen.2 x rfl)

end Entries

/-- The observations of a history. -/
abbrev observed (obs : Exchange S → List ω) (h : History S) : List ω := h.flatMap obs

theorem wp_of_leaves {h : History S} (hp : p.Leaves obs E) :
    p.wp (fun _ _ => True) (fun h' outcome => ∃ seen, observed obs h' = observed obs h ++ seen ∧
      E outcome seen) h := by
  induction p generalizing h E with
  | finish outcome => exact ⟨[], by simp, hp⟩
  | perform op resume ih =>
    refine ⟨trivial, fun r => wp_mono (ih r (hp r)) fun h' outcome _ hpost => ?_⟩
    obtain ⟨seen, heq, hE⟩ := hpost
    refine ⟨obs ⟨op, r⟩ ++ seen, ?_, hE⟩
    rw [heq, observed, observed, List.flatMap_append, List.flatMap_singleton, List.append_assoc]

/-- A program of `P` operations, where what is allowed goes by the history it starts from. -/
theorem wp_of_only_from {P : S.Op → Prop} {ok : History S → S.Op → Prop}
    {post : History S → Except ε α → Prop} {h : History S} (hp : p.Only P)
    (hok : ∀ h' op, h <+: h' → P op → ok h' op)
    (hpost : ∀ h' outcome, h <+: h' → post h' outcome) : p.wp ok post h := by
  induction hp generalizing h with
  | finish outcome => exact hpost h outcome List.prefix_rfl
  | @perform op resume hop _ ih =>
    refine ⟨hok h op List.prefix_rfl hop, fun r => ih r ?_ ?_⟩
    · exact fun h' op' hle => hok h' op' ((List.prefix_append h _).trans hle)
    · exact fun h' outcome hle => hpost h' outcome ((List.prefix_append h _).trans hle)

end Prog

section Threads

variable {S : System} {ω β : Type} {w : S.World} {ts : List (Transition S)} {p : Pool S}

/-- What the threads of a system leave when they end. -/
theorem Run.leaves {obs : Exchange S.sig → List ω}
    {E : S.Request → Except S.Failure S.Result → List ω → Prop}
    (hE : ∀ q, (S.handler q).Leaves obs (E q)) (hr : Run (.initial w) ts p) {i : ℕ}
    {th : Thread S} (hi : p.threads[i]? = some th) {outcome : Except S.Failure S.Result}
    (ho : th.outcome = some outcome) : E th.request outcome (Prog.observed obs th.history) := by
  let D : Discipline S :=
    { ok := fun _ _ _ => True
      post := fun q h outcome => E q outcome (Prog.observed obs h)
      handler := fun q => Prog.wp_mono (Prog.wp_of_leaves (hE q)) fun h' outcome _ hpost => by
        obtain ⟨seen, heq, hseen⟩ := hpost
        rw [heq]
        exact hseen }
  exact ((D.holds_run hr).1 i th hi).finished ho

/-- What a thread has performed after a step, some thread had performed before, or the step is. -/
theorem Step.mem_history {q q' : Pool S} {l : Label S} (hs : Step q l q') {th' : Thread S}
    (hth' : th' ∈ q'.threads) {y : Exchange S.sig} (hy : y ∈ th'.history) :
    (∃ th ∈ q.threads, th.request = th'.request ∧ y ∈ th.history) ∨
      ∃ i th, l = .act i y ∧ q.threads[i]? = some th ∧ th.request = th'.request := by
  obtain ⟨j, hj⟩ := List.mem_iff_getElem?.mp hth'
  rcases hs.thread_cases hj with hj | ⟨r, -, -, rfl⟩ | ⟨x, th, resume, rfl, hi, -, -, rfl⟩
  · exact Or.inl ⟨th', List.mem_of_getElem? hj, rfl, hy⟩
  · cases hy
  · rcases List.mem_append.mp hy with hy | hy
    · exact Or.inl ⟨th, List.mem_of_getElem? hi, rfl, hy⟩
    · cases List.mem_singleton.mp hy
      exact Or.inr ⟨j, th, rfl, hi, rfl⟩

/-- A thread is there after the step, with what it had performed. -/
theorem Step.mem_threads {q q' : Pool S} {l : Label S} (hs : Step q l q') {th : Thread S}
    (hth : th ∈ q.threads) :
    ∃ th' ∈ q'.threads, th'.request = th.request ∧ ∀ y ∈ th.history, y ∈ th'.history := by
  obtain ⟨i, hi⟩ := List.mem_iff_getElem?.mp hth
  obtain ⟨th', hi', hrequest, hle⟩ := hs.thread_persists hi
  exact ⟨th', List.mem_of_getElem? hi', hrequest, fun y hy => hle.subset hy⟩

/-- What a step performs, its thread has performed after it. -/
theorem Step.performs {q q' : Pool S} {i : ℕ} {x : Exchange S.sig} (hs : Step q (.act i x) q')
    {th : Thread S} (hi : q.threads[i]? = some th) :
    ∃ th' ∈ q'.threads, th'.request = th.request ∧ x ∈ th'.history := by
  obtain ⟨th₀, resume, hi₀, -, -, hthreads⟩ := hs.act_inv
  cases hi.symm.trans hi₀
  refine ⟨⟨th.request, th.history ++ [x], resume x.reply⟩, ?_, rfl, by simp⟩
  have hlt : i < q.threads.length := (List.getElem?_eq_some_iff.mp hi).1
  rw [hthreads]
  exact List.mem_of_getElem? (List.getElem?_set_self hlt)

theorem flatMap_set_perm {α : Type} {f : α → List β} {l : List α} {i : ℕ} {a b : α} {m : List β}
    (hi : l[i]? = some a) (hb : f b = f a ++ m) :
    ((l.set i b).flatMap f).Perm (l.flatMap f ++ m) := by
  induction l generalizing i with
  | nil => simp at hi
  | cons c l ih =>
    cases i with
    | zero =>
      simp only [List.getElem?_cons_zero, Option.some.injEq] at hi
      subst hi
      rw [List.set_cons_zero, List.flatMap_cons, List.flatMap_cons, hb, List.append_assoc,
        List.append_assoc]
      exact (List.perm_append_comm).append_left _
    | succ i =>
      rw [List.set_cons_succ, List.flatMap_cons, List.flatMap_cons, List.append_assoc]
      exact (ih (by simpa using hi)).append_left _

/-- A log of the world that only exchanges lengthen holds what the threads have written to it,
each entry as often as it was written. -/
theorem Run.collected {written : Exchange S.sig → List β} {log : S.World → List β}
    (hact : ∀ {v op r v'}, S.respond v op r = some v' → log v' = log v ++ written ⟨op, r⟩)
    (htick : ∀ t v, log (S.advance t v) = log v) (hr : Run (.initial w) ts p) :
    (log p.world).Perm
      (log w ++ p.threads.flatMap fun th => Prog.observed written th.history) := by
  induction hr with
  | refl => simp [Pool.initial]
  | snoc _ hs ih =>
    cases hs with
    | spawn q => simpa [Thread.start] using ih
    | tick t => simpa [htick] using ih
    | @act i th op resume r world hi hp hw =>
      rw [hact hw]
      have hset := flatMap_set_perm (f := fun th => Prog.observed written th.history)
        (b := ⟨th.request, th.history ++ [⟨op, r⟩], resume r⟩) (m := written ⟨op, r⟩) hi
        (by simp [Prog.observed])
      refine (ih.append_right _).trans ?_
      rw [List.append_assoc]
      exact (hset.symm).append_left _

end Threads

end Interleaving
