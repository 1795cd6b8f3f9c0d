import SecureGateway.Foundation.Pool

/-!
# Noninterference between requests

Some requests of a system form a compartment: they depend on a part of the world that the
others do not change. Deleting the others from a run leaves a run in which the requests of the
compartment see the same replies and end the same way.
-/
namespace Interleaving

variable {S : System}

/-- A group of requests, and when two worlds look the same to it. -/
structure Compartment (S : System) where
  discipline : Discipline S
  own : S.Request → Bool
  agree : S.World → S.World → Prop
  agree_refl : ∀ w, agree w w
  agree_trans : ∀ {w v u}, agree w v → agree v u → agree w u
  agree_symm : ∀ {w v}, agree w v → agree v w
  /-- The others change nothing that the compartment can tell. -/
  foreign : ∀ {q h w op r w'}, own q = false → discipline.ok q h op →
    S.respond w op r = some w' → agree w w'
  /-- Its own operations are answered from what it can tell. -/
  internal : ∀ {q h w v op r w'}, own q = true → discipline.ok q h op → agree w v →
    S.respond w op r = some w' → ∃ v', S.respond v op r = some v' ∧ agree w' v'
  advance : ∀ {w v} (t : S.Tick), agree w v → agree (S.advance t w) (S.advance t v)

/-- A step without the number of the thread that takes it. -/
inductive Event (S : System) where
  | spawn (q : S.Request)
  | act (q : S.Request) (x : Exchange S.sig)
  | tick (t : S.Tick)

def Transition.event (t : Transition S) : Option (Event S) :=
  match t.label with
  | .spawn q => some (.spawn q)
  | .act i x => t.before.threads[i]?.map fun th => .act th.request x
  | .tick k => some (.tick k)

namespace Compartment

variable (C : Compartment S)

/-- Time passes for everyone; all else concerns the compartment if its request does. -/
def Concerns : Event S → Bool
  | .spawn q => C.own q
  | .act q _ => C.own q
  | .tick _ => true

def threads (p : Pool S) : List (Thread S) := p.threads.filter fun th => C.own th.request

def events (ts : List (Transition S)) : List (Event S) :=
  (ts.filterMap Transition.event).filter C.Concerns

end Compartment

section Lists

variable {α : Type} {P : α → Bool} {l : List α} {i : ℕ} {a b : α}

theorem getElem?_filter (hi : l[i]? = some a) (ha : P a = true) :
    (l.filter P)[(l.take i).countP P]? = some a := by
  induction l generalizing i with
  | nil => simp at hi
  | cons c l ih =>
    cases i with
    | zero =>
      simp only [List.getElem?_cons_zero, Option.some.injEq] at hi
      simp [hi, ha]
    | succ i =>
      have hl := ih (by simpa using hi)
      rw [List.take_succ_cons, List.countP_cons, List.filter_cons]
      split
      · simpa using hl
      · simpa using hl

/-- A member of the filtered list, and where it stood. -/
theorem exists_getElem?_of_filter {j : ℕ} (hj : (l.filter P)[j]? = some b) :
    ∃ k, l[k]? = some b ∧ (l.take k).countP P = j := by
  induction l generalizing j with
  | nil => simp at hj
  | cons c l ih =>
    rw [List.filter_cons] at hj
    by_cases hc : P c = true
    · rw [if_pos hc] at hj
      cases j with
      | zero =>
        refine ⟨0, ?_, by simp⟩
        simpa using hj
      | succ j =>
        obtain ⟨k, hk, hcount⟩ := ih (by simpa using hj)
        exact ⟨k + 1, by simpa using hk, by simp [hcount, hc]⟩
    · rw [if_neg hc] at hj
      obtain ⟨k, hk, hcount⟩ := ih hj
      exact ⟨k + 1, by simpa using hk, by simp [hcount, hc]⟩

theorem filter_set_of_true (hi : l[i]? = some a) (ha : P a = true) (hb : P b = true) :
    (l.set i b).filter P = (l.filter P).set ((l.take i).countP P) b := by
  induction l generalizing i with
  | nil => simp at hi
  | cons c l ih =>
    cases i with
    | zero =>
      simp only [List.getElem?_cons_zero, Option.some.injEq] at hi
      simp [hi, ha, hb]
    | succ i =>
      have hl := ih (by simpa using hi)
      rw [List.set_cons_succ, List.take_succ_cons, List.countP_cons, List.filter_cons,
        List.filter_cons, hl]
      split
      · simp
      · simp

theorem filter_set_of_false (hi : l[i]? = some a) (ha : P a = false) (hb : P b = false) :
    (l.set i b).filter P = l.filter P := by
  induction l generalizing i with
  | nil => simp at hi
  | cons c l ih =>
    cases i with
    | zero =>
      simp only [List.getElem?_cons_zero, Option.some.injEq] at hi
      simp [hi, ha, hb]
    | succ i =>
      rw [List.set_cons_succ, List.filter_cons, List.filter_cons, ih (by simpa using hi)]

end Lists

namespace Compartment

variable {C : Compartment S}

/-- A pool without the requests outside the compartment. -/
structure Purged (C : Compartment S) (p p' : Pool S) : Prop where
  agree : C.agree p.world p'.world
  threads_eq : p'.threads = C.threads p

variable {p p' q : Pool S} {l : Label S} {w : S.World} {ts us : List (Transition S)}

theorem purged_initial (C : Compartment S) (w : S.World) :
    Purged C (.initial w) (.initial w) := ⟨C.agree_refl w, rfl⟩

theorem events_append (C : Compartment S) (ts us : List (Transition S)) :
    C.events (ts ++ us) = C.events ts ++ C.events us := by
  simp [events]

/-- The step of a request of the compartment is taken without the others too. -/
theorem purged_act {i : ℕ} {th : Thread S} {op : S.sig.Op}
    {resume : S.sig.Reply op → Prog S.sig S.Failure S.Result} {r : S.sig.Reply op} {w : S.World}
    (h : Purged C p p') (hi : p.threads[i]? = some th) (hp : th.program = .perform op resume)
    (hw : S.respond p.world op r = some w) (hown : C.own th.request = true)
    (hok : C.discipline.ok th.request th.history op) :
    ∃ q', Step p' (.act ((p.threads.take i).countP fun th => C.own th.request) ⟨op, r⟩) q' ∧
      Purged C ⟨w, p.threads.set i ⟨th.request, th.history ++ [⟨op, r⟩], resume r⟩⟩ q' ∧
      p'.threads[(p.threads.take i).countP fun th => C.own th.request]? = some th := by
  have hi' : p'.threads[(p.threads.take i).countP fun th => C.own th.request]? = some th := by
    rw [h.threads_eq]
    exact getElem?_filter hi hown
  obtain ⟨v, hv, hagree⟩ := C.internal hown hok h.agree hw
  refine ⟨_, .act hi' hp hv, ⟨hagree, ?_⟩, hi'⟩
  change p'.threads.set _ _ = List.filter _ (p.threads.set i _)
  rw [filter_set_of_true hi hown hown, h.threads_eq]
  rfl

theorem cooperative_nil (suspends : S.sig.Op → Bool) :
    Cooperative suspends ([] : List (Transition S)) := by
  intro t ht
  cases ht

/-- While a request of the compartment moves, the others in it wait if everyone else does. -/
theorem Purged.cooperative {suspends : S.sig.Op → Bool} {l' : Label S} {q' : Pool S}
    (h : Purged C p p') (hc : Cooperative suspends [⟨p, l, q⟩])
    (hspawn : ∀ request, l' = .spawn request → ∃ request', l = .spawn request')
    (hact : ∀ i' x', l' = .act i' x' → ∃ i x, l = .act i x ∧
      i' = (p.threads.take i).countP fun th => C.own th.request) :
    Cooperative suspends [⟨p', l', q'⟩] := by
  intro t ht j th hj hl
  cases List.mem_singleton.mp ht
  change p'.threads[j]? = some th at hj
  rw [h.threads_eq] at hj
  obtain ⟨k, hk, hcount⟩ := exists_getElem?_of_filter hj
  refine hc _ (List.mem_singleton.mpr rfl) k th hk ?_
  rcases hl with ⟨request, hl⟩ | ⟨i', x', hl, hne⟩
  · exact .inl (hspawn request hl)
  · obtain ⟨i, x, hli, hi⟩ := hact i' x' hl
    refine .inr ⟨i, x, hli, ?_⟩
    rintro rfl
    exact hne (hi.trans hcount)

/-- What is left of a step: nothing, or the step of the compartment. -/
structure Residue (C : Compartment S) (t : Transition S) (p' : Pool S)
    (us : List (Transition S)) (q' : Pool S) : Prop where
  run : Run p' us q'
  purged : Purged C t.after q'
  events_eq : C.events us = C.events [t]
  cooperative : ∀ suspends, Cooperative suspends [t] → Cooperative suspends us

/-- Every step is taken without the others too, or is one of theirs. -/
theorem purged_step (hd : C.discipline.Holds p) (h : Purged C p p') (hs : Step p l q) :
    ∃ us q', Residue C ⟨p, l, q⟩ p' us q' := by
  cases hs with
  | tick t =>
    refine ⟨_, _, Run.refl.snoc (.tick p' t), ⟨C.advance t h.agree, h.threads_eq⟩, ?_, ?_⟩
    · simp [events, Transition.event]
    · intro suspends hc
      exact h.cooperative hc (by simp) (by simp)
  | spawn request =>
    cases hown : C.own request with
    | true =>
      refine ⟨_, _, Run.refl.snoc (.spawn p' request), ⟨h.agree, ?_⟩, ?_, ?_⟩
      · simp [threads, h.threads_eq, Thread.start, hown]
      · simp [events, Transition.event]
      · intro suspends hc
        exact h.cooperative hc (by simp) (by simp)
    | false =>
      refine ⟨[], p', .refl, ⟨h.agree, ?_⟩, ?_, fun suspends _ => cooperative_nil suspends⟩
      · simp [threads, h.threads_eq, Thread.start, hown]
      · simp [events, Transition.event, Concerns, hown]
  | @act i th op resume r w hi hp hw =>
    obtain ⟨hok, -⟩ := (hd i th hi).resume (x := ⟨op, r⟩) hp
    cases hown : C.own th.request with
    | true =>
      obtain ⟨q', hs', hq', hi'⟩ := purged_act h hi hp hw hown hok
      refine ⟨_, q', Run.refl.snoc hs', hq', ?_, ?_⟩
      · simp [events, Transition.event, hi, hi']
      · intro suspends hc
        refine h.cooperative hc (by simp) fun i' x' hl => ?_
        cases hl
        exact ⟨i, _, rfl, rfl⟩
    | false =>
      have hworld := C.foreign hown hok hw
      refine ⟨[], p', .refl, ⟨C.agree_trans (C.agree_symm hworld) h.agree, ?_⟩, ?_,
        fun suspends _ => cooperative_nil suspends⟩
      · change p'.threads = List.filter _ (p.threads.set i _)
        rw [filter_set_of_false hi hown hown]
        exact h.threads_eq
      · simp [events, Transition.event, hi, Concerns, hown]

end Compartment

theorem Run.append {p q r : Pool S} {ts us : List (Transition S)} (h : Run p ts q)
    (h' : Run q us r) : Run p (ts ++ us) r := by
  induction h' with
  | refl => simpa using h
  | snoc _ hs ih =>
    rw [← List.append_assoc]
    exact ih.snoc hs

theorem cooperative_append {suspends : S.sig.Op → Bool} {ts us : List (Transition S)} :
    Cooperative suspends (ts ++ us) ↔ Cooperative suspends ts ∧ Cooperative suspends us :=
  List.forall_mem_append

/-- Without the requests outside a compartment, those inside go through the same run. -/
theorem Run.purge (C : Compartment S) {w : S.World} {ts : List (Transition S)} {p : Pool S}
    (h : Run (.initial w) ts p) :
    ∃ ts' p', Run (.initial w) ts' p' ∧ C.Purged p p' ∧ C.events ts' = C.events ts ∧
      ∀ suspends, Cooperative suspends ts → Cooperative suspends ts' := by
  induction h with
  | refl => exact ⟨[], _, .refl, C.purged_initial w, rfl, fun _ hc => hc⟩
  | @snoc ts q q' l hr hs ih =>
    obtain ⟨ts', p', hr', hp', he, hc⟩ := ih
    obtain ⟨us, q'', hus⟩ := Compartment.purged_step (C.discipline.holds_run hr).1 hp' hs
    refine ⟨ts' ++ us, q'', hr'.append hus.run, hus.purged, ?_, ?_⟩
    · rw [C.events_append, C.events_append, he, hus.events_eq]
    · intro suspends hts
      obtain ⟨hbefore, hlast⟩ := cooperative_append.mp hts
      exact cooperative_append.mpr ⟨hc suspends hbefore, hus.cooperative suspends hlast⟩

end Interleaving
