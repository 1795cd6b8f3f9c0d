import SecureGateway.Foundation.Pool

/-!
# Operations that leave no trace

Two systems differ in their programs only: one performs silent operations, which the world
answers in any way without changing, and goes on as the other does. Deleting the silent steps
of a run of the first gives a run of the second, and they can be put back with any replies.
-/
namespace Interleaving

namespace Prog

variable {S : Signature} {ε α β : Type}

/-- The first program is the second with silent operations in between. -/
inductive Erases (silent : S.Op → Prop) : Prog S ε α → Prog S ε α → Prop
  | finish (outcome : Except ε α) : Erases silent (finish outcome) (finish outcome)
  | perform {op : S.Op} {resume resume' : S.Reply op → Prog S ε α} (hop : ¬ silent op)
      (hr : ∀ r, Erases silent (resume r) (resume' r)) :
      Erases silent (perform op resume) (perform op resume')
  | drop {op : S.Op} {resume : S.Reply op → Prog S ε α} {p : Prog S ε α} (hop : silent op)
      (hr : ∀ r, Erases silent (resume r) p) : Erases silent (perform op resume) p

variable {silent : S.Op → Prop}

theorem Erases.refl {p : Prog S ε α} (hp : p.Only fun op => ¬ silent op) : Erases silent p p := by
  induction hp with
  | finish outcome => exact .finish outcome
  | perform hop _ ih => exact .perform hop ih

theorem Erases.call_bind {op : S.Op} {f g : S.Reply op → Prog S ε α} (hop : ¬ silent op)
    (hf : ∀ r, Erases silent (f r) (g r)) : Erases silent (call op >>= f) (call op >>= g) :=
  .perform hop hf

theorem Erases.bind {p p' : Prog S ε α} {f g : α → Prog S ε β} (hp : Erases silent p p')
    (hf : ∀ a, Erases silent (f a) (g a)) : Erases silent (p >>= f) (p' >>= g) := by
  change Erases silent (p.bind f) (p'.bind g)
  induction hp with
  | finish outcome =>
    cases outcome with
    | ok a => exact hf a
    | error x => exact .finish _
  | perform hop _ ih => exact .perform hop ih
  | drop hop _ ih => exact .drop hop ih

theorem Erases.tryCatch {p p' : Prog S ε α} {f g : ε → Prog S ε α} (hp : Erases silent p p')
    (hf : ∀ x, Erases silent (f x) (g x)) : Erases silent (p.tryCatch f) (p'.tryCatch g) := by
  induction hp with
  | finish outcome =>
    cases outcome with
    | ok a => exact .finish _
    | error x => exact hf x
  | perform hop _ ih => exact .perform hop ih
  | drop hop _ ih => exact .drop hop ih

theorem Erases.finish_inv {outcome : Except ε α} {p : Prog S ε α}
    (h : Erases silent (.finish outcome) p) : p = .finish outcome := by
  cases h
  rfl

/-- An audible operation is performed by both. -/
theorem Erases.perform_inv {op : S.Op} {resume : S.Reply op → Prog S ε α} {p : Prog S ε α}
    (h : Erases silent (.perform op resume) p) (hop : ¬ silent op) :
    ∃ resume', p = .perform op resume' ∧ ∀ r, Erases silent (resume r) (resume' r) := by
  cases h with
  | perform _ hr => exact ⟨_, rfl, hr⟩
  | drop hs _ => exact (hop hs).elim

theorem Erases.drop_inv {op : S.Op} {resume : S.Reply op → Prog S ε α} {p : Prog S ε α}
    (h : Erases silent (.perform op resume) p) (hop : silent op) (r : S.Reply op) :
    Erases silent (resume r) p := by
  cases h with
  | perform hn _ => exact (hn hop).elim
  | drop _ hr => exact hr r

end Prog

/-- The same system with other programs. -/
abbrev System.withHandler (S : System)
    (handler : S.Request → Prog S.sig S.Failure S.Result) : System :=
  { S with handler }

variable {S : System} {handler : S.Request → Prog S.sig S.Failure S.Result}

/-- What is seen of a step from outside: the world before and after it, and what was done. -/
structure Observation (S : System) where
  before : S.World
  label : Label S
  after : S.World

def Label.forget : Label (S.withHandler handler) → Label S
  | .spawn q => .spawn q
  | .act i x => .act i x
  | .tick t => .tick t

def Transition.observe (t : Transition S) : Observation S :=
  ⟨t.before.world, t.label, t.after.world⟩

/-- The observation of a step of the system with silent operations. -/
def Transition.observeIn (t : Transition (S.withHandler handler)) : Observation S :=
  ⟨t.before.world, t.label.forget, t.after.world⟩

section Silent

variable (silent : S.sig.Op → Prop) [DecidablePred silent]

def Label.audible : Label S → Bool
  | .act _ x => ¬ silent x.op
  | _ => true

/-- The observations of the audible steps of a run, in order. -/
def audibleSteps (ts : List (Transition (S.withHandler handler))) : List (Observation S) :=
  (ts.map Transition.observeIn).filter fun o => o.label.audible silent

/-- A thread and its counterpart without silent operations. -/
structure Counterpart (th : Thread (S.withHandler handler)) (th' : Thread S) : Prop where
  request_eq : th'.request = th.request
  history_eq : th'.history = th.history.filter fun x => ¬ silent x.op
  erases : Prog.Erases silent th.program th'.program

/-- A pool and its counterpart without silent operations. -/
structure Mirrors (p : Pool (S.withHandler handler)) (p' : Pool S) : Prop where
  world_eq : p'.world = p.world
  length_eq : p'.threads.length = p.threads.length
  threads : ∀ (i : ℕ) (th : Thread (S.withHandler handler)), p.threads[i]? = some th →
    ∃ th', p'.threads[i]? = some th' ∧ Counterpart silent th th'

/-- The silent operations of a run were answered by `answer`. -/
def AnsweredBy (answer : History S.sig → (op : S.sig.Op) → S.sig.Reply op)
    (ts : List (Transition (S.withHandler handler))) : Prop :=
  ∀ t ∈ ts, ∀ i x, t.label = .act i x → silent x.op →
    ∀ th, t.before.threads[i]? = some th → x.reply = answer th.history x.op

/-- The thread has no silent operation to perform next. -/
def Thread.Drained (th : Thread (S.withHandler handler)) : Prop :=
  ∀ op, th.nextOp = some op → ¬ silent op

end Silent

section Mirroring

variable {silent : S.sig.Op → Prop} [DecidablePred silent]
  {p : Pool (S.withHandler handler)} {p' : Pool S}

theorem mirrors_initial (w : S.World) :
    Mirrors silent (.initial w : Pool (S.withHandler handler)) (.initial w) :=
  ⟨rfl, rfl, by simp [Pool.initial]⟩

theorem mirrors_spawn (h : Mirrors silent p p') (q : S.Request)
    (hh : Prog.Erases silent (handler q) (S.handler q)) :
    Mirrors silent (⟨p.world, p.threads ++ [.start q]⟩ : Pool (S.withHandler handler))
      ⟨p'.world, p'.threads ++ [.start q]⟩ := by
  have hlen := h.length_eq
  refine ⟨h.world_eq, by simp [hlen], fun i th hi => ?_⟩
  rcases lt_trichotomy i p.threads.length with hlt | heq | hgt
  · rw [List.getElem?_append_left hlt] at hi
    obtain ⟨th', hi', hc⟩ := h.threads i th hi
    exact ⟨th', by rw [List.getElem?_append_left (by omega)]; exact hi', hc⟩
  · subst heq
    refine ⟨.start q, by simp [← hlen], ?_⟩
    obtain rfl : th = .start q := by simpa using hi.symm
    exact ⟨rfl, rfl, hh⟩
  · have hnone : (p.threads ++ [(.start q : Thread (S.withHandler handler))])[i]? = none := by
      rw [List.getElem?_eq_none_iff]
      simp
      omega
    simp only [hnone] at hi
    cases hi

/-- The other threads of a pool keep their counterparts when one thread moves on. -/
theorem mirrors_set {i : ℕ} {th : Thread (S.withHandler handler)} {th' : Thread S} {w : S.World}
    (h : Mirrors silent p p') (hi : i < p.threads.length) (hc : Counterpart silent th th') :
    Mirrors silent (⟨w, p.threads.set i th⟩ : Pool (S.withHandler handler))
      ⟨w, p'.threads.set i th'⟩ := by
  have hlen := h.length_eq
  refine ⟨rfl, by simp [hlen], fun j thj hj => ?_⟩
  by_cases hij : i = j
  · subst hij
    rw [List.getElem?_set_self hi] at hj
    cases hj
    exact ⟨th', List.getElem?_set_self (by omega), hc⟩
  · rw [List.getElem?_set_ne hij] at hj
    obtain ⟨th'', hj', hc'⟩ := h.threads j thj hj
    exact ⟨th'', by rw [List.getElem?_set_ne hij]; exact hj', hc'⟩

/-- A silent step has no counterpart. -/
theorem mirrors_silent {i : ℕ} {th : Thread (S.withHandler handler)} {x : Exchange S.sig}
    {resume : S.sig.Reply x.op → Prog S.sig S.Failure S.Result} (h : Mirrors silent p p')
    (hi : p.threads[i]? = some th) (hp : th.program = .perform x.op resume) (hx : silent x.op) :
    Mirrors silent (⟨p.world, p.threads.set i ⟨th.request, th.history ++ [x], resume x.reply⟩⟩ :
      Pool (S.withHandler handler)) p' := by
  obtain ⟨th', hi', hc⟩ := h.threads i th hi
  have hlt : i < p.threads.length := (List.getElem?_eq_some_iff.mp hi).1
  have hc' : Counterpart silent
      (⟨th.request, th.history ++ [x], resume x.reply⟩ : Thread (S.withHandler handler)) th' := by
    refine ⟨hc.request_eq, ?_, ?_⟩
    · rw [hc.history_eq]
      simp [hx]
    · have he := hc.erases
      rw [hp] at he
      exact he.drop_inv hx x.reply
  have hset : p'.threads.set i th' = p'.threads := by
    rw [← (List.getElem?_eq_some_iff.mp hi').2]
    exact List.set_getElem_self _
  have hm : Mirrors silent
      (⟨p.world, p.threads.set i ⟨th.request, th.history ++ [x], resume x.reply⟩⟩ :
        Pool (S.withHandler handler)) ⟨p.world, p'.threads.set i th'⟩ := mirrors_set h hlt hc'
  rw [hset, ← h.world_eq] at hm
  rw [← h.world_eq]
  exact hm

/-- An audible step is a step of both. -/
theorem mirrors_audible {i : ℕ} {th : Thread (S.withHandler handler)} {x : Exchange S.sig}
    {resume : S.sig.Reply x.op → Prog S.sig S.Failure S.Result} {w : S.World}
    (h : Mirrors silent p p') (hi : p.threads[i]? = some th)
    (hp : th.program = .perform x.op resume) (hx : ¬ silent x.op)
    (hw : S.respond p.world x.op x.reply = some w) :
    ∃ q', Step p' (.act i x) q' ∧ Mirrors silent
      (⟨w, p.threads.set i ⟨th.request, th.history ++ [x], resume x.reply⟩⟩ :
        Pool (S.withHandler handler)) q' := by
  obtain ⟨th', hi', hc⟩ := h.threads i th hi
  have hlt : i < p.threads.length := (List.getElem?_eq_some_iff.mp hi).1
  have he := hc.erases
  rw [hp] at he
  obtain ⟨resume', hp', hr⟩ := he.perform_inv hx
  refine ⟨⟨w, p'.threads.set i ⟨th'.request, th'.history ++ [x], resume' x.reply⟩⟩,
    .act hi' hp' (by rw [h.world_eq]; exact hw), mirrors_set h hlt ⟨hc.request_eq, ?_, hr x.reply⟩⟩
  rw [hc.history_eq]
  simp [hx]

/-- Deleting the silent steps of a run leaves a run of the system without them. -/
theorem Run.erase {w : S.World} {ts : List (Transition (S.withHandler handler))}
    (hsilent : ∀ (w : S.World) (op : S.sig.Op) (r : S.sig.Reply op), silent op →
      S.respond w op r = some w)
    (hh : ∀ q, Prog.Erases silent (handler q) (S.handler q))
    (h : Run (.initial w : Pool (S.withHandler handler)) ts p) :
    ∃ ts' p', Run (S := S) (.initial w) ts' p' ∧
      ts'.map Transition.observe = audibleSteps silent ts ∧ Mirrors silent p p' := by
  induction h with
  | refl => exact ⟨[], .initial w, .refl, rfl, mirrors_initial w⟩
  | @snoc ts q q' l _ hs ih =>
    obtain ⟨ts', p', hr, hobs, hm⟩ := ih
    cases hs with
    | spawn r =>
      refine ⟨_, _, hr.snoc (.spawn p' r), ?_, mirrors_spawn hm r (hh r)⟩
      simp [audibleSteps, Transition.observe, Transition.observeIn, Label.forget, Label.audible,
        hobs, hm.world_eq]
    | tick t =>
      refine ⟨_, _, hr.snoc (.tick p' t), ?_, ⟨?_, hm.length_eq, hm.threads⟩⟩
      · simp [audibleSteps, Transition.observe, Transition.observeIn, Label.forget, Label.audible,
          hobs, hm.world_eq]
      · simp [hm.world_eq]
    | @act i th op resume r w' hi hp hw =>
      by_cases hx : silent op
      · have hsame : w' = q.world := by
          have := hsilent q.world op r hx
          rw [hw] at this
          exact Option.some.inj this
        subst hsame
        refine ⟨ts', p', hr, ?_,
          @mirrors_silent S handler silent _ q p' i th ⟨op, r⟩ resume hm hi hp hx⟩
        rw [hobs]
        simp [audibleSteps, Transition.observeIn, Label.forget, Label.audible, hx]
      · obtain ⟨p'', hs', hm'⟩ :=
          @mirrors_audible S handler silent _ q p' i th ⟨op, r⟩ resume w' hm hi hp hx hw
        refine ⟨_, p'', hr.snoc hs', ?_, hm'⟩
        simp [audibleSteps, Transition.observe, Transition.observeIn, Label.forget, Label.audible,
          hx, hobs, hm.world_eq, hm'.world_eq]

theorem audibleSteps_append (ts us : List (Transition (S.withHandler handler))) :
    audibleSteps silent (ts ++ us) = audibleSteps silent ts ++ audibleSteps silent us := by
  simp [audibleSteps]

omit [DecidablePred silent] in
theorem answeredBy_append {answer : History S.sig → (op : S.sig.Op) → S.sig.Reply op}
    {ts us : List (Transition (S.withHandler handler))} (ht : AnsweredBy silent answer ts)
    (hu : AnsweredBy silent answer us) : AnsweredBy silent answer (ts ++ us) := by
  intro t hmem
  rcases List.mem_append.mp hmem with hmem | hmem
  · exact ht t hmem
  · exact hu t hmem

/-- A thread performs the silent operations it stands before, with any replies. -/
theorem Run.drain (hsilent : ∀ (w : S.World) (op : S.sig.Op) (r : S.sig.Reply op), silent op →
      S.respond w op r = some w)
    (answer : History S.sig → (op : S.sig.Op) → S.sig.Reply op)
    {p₀ : Pool (S.withHandler handler)} {ts : List (Transition (S.withHandler handler))}
    (h : Run p₀ ts p) (hm : Mirrors silent p p') {i : ℕ} {th : Thread (S.withHandler handler)}
    (hi : p.threads[i]? = some th) :
    ∃ us q, Run p₀ (ts ++ us) q ∧ audibleSteps silent us = [] ∧ AnsweredBy silent answer us ∧
      Mirrors silent q p' ∧ (∃ th', q.threads[i]? = some th' ∧ th'.Drained silent) ∧
      ∀ j ≠ i, q.threads[j]? = p.threads[j]? := by
  obtain ⟨r, hist, prog⟩ := th
  induction prog generalizing p ts hist with
  | finish outcome =>
    refine ⟨[], p, by simpa using h, rfl, by simp [AnsweredBy], hm, ⟨_, hi, ?_⟩, fun _ _ => rfl⟩
    simp [Thread.Drained, Thread.nextOp]
  | perform op resume ih =>
    by_cases hop : silent op
    · have hlt : i < p.threads.length := (List.getElem?_eq_some_iff.mp hi).1
      let x : Exchange S.sig := ⟨op, answer hist op⟩
      let next : Pool (S.withHandler handler) :=
        ⟨p.world, p.threads.set i ⟨r, hist ++ [x], resume (answer hist op)⟩⟩
      have hstep : Step p (.act i x) next := .act hi rfl (hsilent p.world op _ hop)
      have hm' : Mirrors silent next p' :=
        @mirrors_silent S handler silent _ p p' i ⟨r, hist, .perform op resume⟩ x resume hm hi rfl
          hop
      obtain ⟨us, q, hr, hobs, hans, hmq, hth, hother⟩ := ih (answer hist op) (h.snoc hstep) hm'
        (hist ++ [x]) (List.getElem?_set_self hlt)
      refine ⟨⟨p, .act i x, next⟩ :: us, q, by simpa [List.append_assoc] using hr, ?_, ?_, hmq, hth,
        ?_⟩
      · have hq : audibleSteps silent [(⟨p, .act i x, next⟩ :
            Transition (S.withHandler handler))] = [] := by
          simp [audibleSteps, Transition.observeIn, Label.forget, Label.audible, x, hop]
        rw [← List.singleton_append, audibleSteps_append, hq, hobs, List.nil_append]
      · rw [← List.singleton_append]
        refine answeredBy_append (fun t ht j y hl _ th hth => ?_) hans
        cases List.mem_singleton.mp ht
        cases hl
        rw [hi] at hth
        cases hth
        rfl
      · intro j hj
        rw [hother j hj]
        exact List.getElem?_set_ne (Ne.symm hj)
    · refine ⟨[], p, by simpa using h, rfl, by simp [AnsweredBy], hm, ⟨_, hi, ?_⟩, fun _ _ => rfl⟩
      intro op' hop'
      cases hop'
      exact hop

/-- The counterpart of a drained thread performs the same operation next. -/
theorem Counterpart.next {th : Thread (S.withHandler handler)} {th' : Thread S} {op : S.sig.Op}
    {resume' : S.sig.Reply op → Prog S.sig S.Failure S.Result} (h : Counterpart silent th th')
    (hd : th.Drained silent) (hp' : th'.program = .perform op resume') :
    ¬ silent op ∧ ∃ resume, th.program = .perform op resume := by
  have he := h.erases
  rw [hp'] at he
  cases hp : th.program with
  | finish outcome =>
    rw [hp] at he
    cases he.finish_inv
  | perform op₀ resume₀ =>
    have hop : ¬ silent op₀ := hd op₀ (by simp [Thread.nextOp, hp])
    rw [hp] at he
    obtain ⟨resume₁, heq, -⟩ := he.perform_inv hop
    cases heq
    exact ⟨hop, resume₀, rfl⟩

theorem Mirrors.back (h : Mirrors silent p p') {i : ℕ} {th' : Thread S}
    (hi : p'.threads[i]? = some th') :
    ∃ th, p.threads[i]? = some th ∧ Counterpart silent th th' := by
  have hlt : i < p.threads.length := by
    rw [← h.length_eq]
    exact (List.getElem?_eq_some_iff.mp hi).1
  obtain ⟨th'', hi'', hc⟩ := h.threads i p.threads[i] (List.getElem?_eq_getElem hlt)
  rw [hi] at hi''
  cases hi''
  exact ⟨_, List.getElem?_eq_getElem hlt, hc⟩

/-- Some run with silent operations, answered by `answer`, shows these observations and ends in a
counterpart of the pool, with no thread left before a silent operation. -/
def Restored (silent : S.sig.Op → Prop) [DecidablePred silent]
    (handler : S.Request → Prog S.sig S.Failure S.Result)
    (answer : History S.sig → (op : S.sig.Op) → S.sig.Reply op) (w : S.World)
    (observations : List (Observation S)) (p' : Pool S) : Prop :=
  ∃ ts p, Run (.initial w : Pool (S.withHandler handler)) ts p ∧
    audibleSteps silent ts = observations ∧ AnsweredBy silent answer ts ∧ Mirrors silent p p' ∧
    ∀ (i : ℕ) (th : Thread (S.withHandler handler)), p.threads[i]? = some th → th.Drained silent

/-- Thread `i` has moved and is drained again, while the others are as they were. -/
theorem restored_step (hsilent : ∀ (w : S.World) (op : S.sig.Op) (r : S.sig.Reply op), silent op →
      S.respond w op r = some w)
    {answer : History S.sig → (op : S.sig.Op) → S.sig.Reply op} {w : S.World}
    {ts : List (Transition (S.withHandler handler))} {p₁ : Pool (S.withHandler handler)}
    {l : Label (S.withHandler handler)} {q' : Pool S}
    (hr : Run (.initial w : Pool (S.withHandler handler)) ts p)
    (hans : AnsweredBy silent answer ts)
    (hdrained : ∀ (i : ℕ) (th : Thread (S.withHandler handler)), p.threads[i]? = some th →
      th.Drained silent)
    (hs : Step p l p₁) (hl : l.forget.audible silent = true) (hm : Mirrors silent p₁ q') (i : ℕ)
    (th : Thread (S.withHandler handler)) (hi : p₁.threads[i]? = some th)
    (hother : ∀ j th, j ≠ i → p₁.threads[j]? = some th → p.threads[j]? = some th) :
    Restored silent handler answer w
      (audibleSteps silent ts ++ [⟨p.world, l.forget, p₁.world⟩]) q' := by
  obtain ⟨us, p₂, hr₂, hobs₂, hans₂, hm₂, ⟨th₂, hi₂, hd₂⟩, hsame⟩ :=
    (hr.snoc hs).drain hsilent answer hm hi
  refine ⟨_, p₂, hr₂, ?_, answeredBy_append (answeredBy_append hans ?_) hans₂, hm₂, ?_⟩
  · rw [audibleSteps_append, audibleSteps_append, hobs₂]
    simp [audibleSteps, Transition.observeIn, hl]
  · intro t ht j x hlx hx
    cases List.mem_singleton.mp ht
    change l = _ at hlx
    subst hlx
    simp [Label.forget, Label.audible, hx] at hl
  · intro j thj hj
    by_cases hij : j = i
    · subst hij
      rw [hi₂] at hj
      cases hj
      exact hd₂
    · rw [hsame j hij] at hj
      exact hdrained j thj (hother j thj hij hj)

/-- A run without silent operations is what is heard of a run with them, whatever the replies to
them are. -/
theorem Run.restore {w : S.World} {ts' : List (Transition S)}
    (hsilent : ∀ (w : S.World) (op : S.sig.Op) (r : S.sig.Reply op), silent op →
      S.respond w op r = some w)
    (hh : ∀ q, Prog.Erases silent (handler q) (S.handler q))
    (answer : History S.sig → (op : S.sig.Op) → S.sig.Reply op)
    (h : Run (S := S) (.initial w) ts' p') :
    Restored silent handler answer w (ts'.map Transition.observe) p' := by
  induction h with
  | refl =>
    exact ⟨[], .initial w, .refl, rfl, by simp [AnsweredBy], mirrors_initial w,
      by simp [Pool.initial]⟩
  | @snoc ts' q q' l _ hs ih =>
    obtain ⟨ts, p, hr, hobs, hans, hm, hdrained⟩ := ih
    rw [List.map_append, ← hobs]
    cases hs with
    | spawn r =>
      have hm₁ := mirrors_spawn hm r (hh r)
      have hstep := restored_step hsilent hr hans hdrained (.spawn p r) rfl hm₁ p.threads.length
        (.start r) (by simp) ?_
      · simpa [Transition.observe, hm.world_eq, Label.forget] using hstep
      · intro j th hj hth
        rcases lt_trichotomy j p.threads.length with hlt | heq | hgt
        · rwa [List.getElem?_append_left hlt] at hth
        · exact (hj heq).elim
        · have hlt := (List.getElem?_eq_some_iff.mp hth).1
          simp only [List.length_append, List.length_singleton] at hlt
          omega
    | tick t =>
      refine ⟨_, _, hr.snoc (.tick p t), ?_, answeredBy_append hans ?_,
        ⟨by simp [hm.world_eq], hm.length_eq, hm.threads⟩, hdrained⟩
      · rw [audibleSteps_append]
        simp [audibleSteps, Transition.observeIn, Transition.observe, Label.forget, Label.audible,
          hm.world_eq]
      · intro t' ht' j x hlx hx
        cases List.mem_singleton.mp ht'
        cases hlx
    | @act i th' op resume' r w' hi' hp' hw =>
      obtain ⟨th, hi, hc⟩ := hm.back hi'
      obtain ⟨hop, resume, hp⟩ := hc.next (hdrained i th hi) hp'
      have hw' : S.respond p.world op r = some w' := by
        rw [← hm.world_eq]
        exact hw
      have hlt : i < p.threads.length := (List.getElem?_eq_some_iff.mp hi).1
      have he := hc.erases
      rw [hp, hp'] at he
      obtain ⟨resume₁, heq, hres⟩ := he.perform_inv hop
      cases heq
      have hm₁ : Mirrors silent
          (⟨w', p.threads.set i ⟨th.request, th.history ++ [⟨op, r⟩], resume r⟩⟩ :
            Pool (S.withHandler handler))
          ⟨w', q.threads.set i ⟨th'.request, th'.history ++ [⟨op, r⟩], resume' r⟩⟩ := by
        refine mirrors_set hm hlt ⟨hc.request_eq, ?_, hres r⟩
        rw [hc.history_eq]
        simp [hop]
      have hstep := restored_step hsilent hr hans hdrained (.act hi hp hw')
        (by simp [Label.forget, Label.audible, hop]) hm₁ i _ (List.getElem?_set_self hlt) ?_
      · simpa [Transition.observe, hm.world_eq, Label.forget] using hstep
      · intro j thj hij hj
        rwa [List.getElem?_set_ne (Ne.symm hij)] at hj

end Mirroring

end Interleaving
