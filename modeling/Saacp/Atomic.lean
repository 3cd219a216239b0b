/-
**Programs made of atomic sections**, run alone (`Prog.run`) or interleaved (`Pool.run`).

A program has returned, or is about to perform one atomic section whose answer decides how it
goes on. The client gives the family `Act` of sections, indexed by the type of their answer, and
a semantics on the shared state; a section also gets an input from outside, such as a clock.

`Pool.Safe.run` is the invariant rule for pools, in rely/guarantee form. A side condition on the
sections restricts which schedules it speaks about.
-/
import Mathlib.Logic.Relation
import Mathlib.Data.List.Basic

set_option autoImplicit false

namespace Atomic

open List

/-- A program over the sections `Act` that returns an `α`. -/
inductive Prog (Act : Type → Type) (α : Type) : Type 1
  | ret (a : α) : Prog Act α
  | step {β : Type} (act : Act β) (k : β → Prog Act α) : Prog Act α

/-- What a section does. The thread is there for a client that records who did what. -/
structure Semantics (Act : Type → Type) (ι σ : Type) : Type 1 where
  exec : (tid : ℕ) → {β : Type} → Act β → ι → σ → σ × β

variable {Act : Type → Type} {ι σ α β δ : Type}

namespace Prog

def bind (p : Prog Act α) (f : α → Prog Act β) : Prog Act β :=
  match p with
  | ret a => f a
  | step act k => step act fun b => (k b).bind f

def map (f : α → β) (p : Prog Act α) : Prog Act β := p.bind fun a => ret (f a)

def andThen {ε : Type} (p : Prog Act (Except ε α)) (f : α → Prog Act (Except ε β)) :
    Prog Act (Except ε β) :=
  p.bind fun r =>
    match r with
    | .error err => ret (.error err)
    | .ok a => f a

def next {κ : Type} (f : ∀ {γ : Type}, Act γ → κ) : Prog Act α → Option κ
  | ret _ => none
  | step act _ => some (f act)

theorem map_eq_ret {f : α → β} {p : Prog Act α} {b : β} (h : p.map f = ret b) :
    ∃ a, p = ret a ∧ f a = b := by
  cases p with
  | ret a => exact ⟨a, rfl, ret.inj h⟩
  | step act k => cases h

def all : List (Prog Act α) → Prog Act (List α)
  | [] => ret []
  | p :: ps => p.bind fun a => (all ps).bind fun as => ret (a :: as)

def embed {Act' : Type → Type} (f : ∀ {γ : Type}, Act γ → Act' γ) : Prog Act α → Prog Act' α
  | ret a => ret a
  | step act k => step (f act) fun b => (k b).embed f

/-- Runs a program alone, as thread `0`, with one input for each section; what is left is returned.
-/
def run (sem : Semantics Act ι σ) : Prog Act α → (ℕ → ι) → σ → (ℕ → ι) × σ × α
  | ret a, inp, s => (inp, s, a)
  | step act k, inp, s =>
    (k (sem.exec 0 act (inp 0) s).2).run sem (fun n => inp (n + 1)) (sem.exec 0 act (inp 0) s).1

variable (sem : Semantics Act ι σ)

@[simp] theorem run_ret (a : α) (inp : ℕ → ι) (s : σ) :
    (ret a : Prog Act α).run sem inp s = (inp, s, a) := rfl

@[simp] theorem run_step {γ : Type} (act : Act γ) (k : γ → Prog Act α) (inp : ℕ → ι) (s : σ) :
    (step act k).run sem inp s = (k (sem.exec 0 act (inp 0) s).2).run sem (fun n => inp (n + 1))
        (sem.exec 0 act (inp 0) s).1 := rfl

@[simp] theorem run_bind (p : Prog Act α) (f : α → Prog Act β) (inp : ℕ → ι) (s : σ) :
    (p.bind f).run sem inp s =
      (f (p.run sem inp s).2.2).run sem (p.run sem inp s).1 (p.run sem inp s).2.1 := by
  induction p generalizing inp s with
  | ret a => rfl
  | step act k ih => exact ih _ _ _

@[simp] theorem run_map (f : α → β) (p : Prog Act α) (inp : ℕ → ι) (s : σ) :
    (p.map f).run sem inp s =
      ((p.run sem inp s).1, (p.run sem inp s).2.1, f (p.run sem inp s).2.2) :=
  run_bind sem p _ inp s

@[simp] theorem run_andThen {ε : Type} (p : Prog Act (Except ε α)) (f : α → Prog Act (Except ε β))
    (inp : ℕ → ι) (s : σ) :
    (p.andThen f).run sem inp s =
      match (p.run sem inp s).2.2 with
      | .error err => ((p.run sem inp s).1, (p.run sem inp s).2.1, .error err)
      | .ok a => (f a).run sem (p.run sem inp s).1 (p.run sem inp s).2.1 := by
  rw [andThen, run_bind]
  cases (p.run sem inp s).2.2 <;> rfl

def each {κ : Type} (act : κ → Act α) (l : List κ) : Prog Act (List α) :=
  all (l.map fun i => step (act i) ret)

theorem each_cons {κ : Type} (act : κ → Act α) (i : κ) (l : List κ) :
    each act (i :: l) = step (act i) fun a => (each act l).bind fun as => ret (a :: as) := rfl

theorem run_each_state {κ : Type} (act : κ → Act α) (f : σ → κ → σ)
    (hexec : ∀ i inp s, (sem.exec 0 (act i) inp s).1 = f s i) (l : List κ) (inp : ℕ → ι) (s : σ) :
    ((each act l).run sem inp s).2.1 = l.foldl f s := by
  induction l generalizing inp s with
  | nil => rfl
  | cons i l ih =>
    rw [each_cons, run_step, run_bind, run_ret, ih, hexec, foldl_cons]

theorem run_each_answers {κ : Type} (act : κ → Act α) (g : κ → α) (P : List κ → σ → Prop)
    (hanswer : ∀ i l inp s, P (i :: l) s → (sem.exec 0 (act i) inp s).2 = g i)
    (hstep : ∀ i l inp s, P (i :: l) s → P l (sem.exec 0 (act i) inp s).1) (l : List κ)
    (inp : ℕ → ι) (s : σ) (hs : P l s) : ((each act l).run sem inp s).2.2 = l.map g := by
  induction l generalizing inp s with
  | nil => rfl
  | cons i l ih =>
    rw [each_cons, run_step, run_bind, run_ret, ih _ _ (hstep i l _ s hs), hanswer i l _ s hs,
      map_cons]

/-- Every section the program can get to satisfies `P`. -/
def Only (P : ∀ {γ : Type}, Act γ → Prop) : Prog Act α → Prop
  | ret _ => True
  | step act k => P act ∧ ∀ b, (k b).Only P

section Only

variable {P : ∀ {γ : Type}, Act γ → Prop}

variable {p : Prog Act α}

theorem Only.mono {Q : ∀ {γ : Type}, Act γ → Prop} (hp : p.Only P)
    (h : ∀ {γ : Type} (a : Act γ), P a → Q a) : p.Only Q := by
  induction p with
  | ret a => trivial
  | step act k ih => exact ⟨h act hp.1, fun b => ih b (hp.2 b)⟩

theorem Only.bind {f : α → Prog Act β} (hp : p.Only P) (hf : ∀ a, (f a).Only P) :
    (p.bind f).Only P := by
  induction p with
  | ret a => exact hf a
  | step act k ih => exact ⟨hp.1, fun b => ih b (hp.2 b)⟩

theorem Only.map (f : α → β) (hp : p.Only P) : (p.map f).Only P :=
  hp.bind fun _ => trivial

theorem Only.andThen {ε : Type} {p : Prog Act (Except ε α)} {f : α → Prog Act (Except ε β)}
    (hp : p.Only P) (hf : ∀ a, (f a).Only P) : (p.andThen f).Only P := by
  refine hp.bind ?_
  intro r
  cases r with
  | error err => trivial
  | ok a => exact hf a

theorem Only.each {κ : Type} {act : κ → Act α} (h : ∀ i, P (act i)) (l : List κ) :
    (Prog.each act l).Only P := by
  induction l with
  | nil => trivial
  | cons i l ih =>
    rw [each_cons]
    exact ⟨h i, fun b => Only.bind ih fun _ => trivial⟩

theorem Only.all {ps : List (Prog Act α)} (h : ∀ p ∈ ps, p.Only P) : (Prog.all ps).Only P := by
  induction ps with
  | nil => trivial
  | cons p ps ih =>
    refine Only.bind (h p mem_cons_self) fun a => Only.bind (ih ?_) fun as => trivial
    intro q hq
    exact h q (mem_cons_of_mem _ hq)

end Only

/-- Every section the program can get to satisfies `R`, together with what follows it. -/
def Steps (R : ∀ {γ : Type}, Act γ → (γ → Prog Act α) → Prop) : Prog Act α → Prop
  | ret _ => True
  | step act k => R act k ∧ ∀ b, (k b).Steps R

/-- The program cannot return without a section that satisfies `P`. -/
def Must (P : ∀ {γ : Type}, Act γ → Prop) : Prog Act α → Prop
  | ret _ => False
  | step act k => P act ∨ ∀ b, (k b).Must P

/-- A section that is answered as `C` says is followed by one that satisfies `P`. -/
def Followed (C : ∀ {γ : Type}, Act γ → γ → Prop) (P : ∀ {γ : Type}, Act γ → Prop) :
    Prog Act α → Prop
  | ret _ => True
  | step act k => ∀ b, (C act b → (k b).Must P) ∧ (k b).Followed C P

section Followed

variable {C : ∀ {γ : Type}, Act γ → γ → Prop} {P : ∀ {γ : Type}, Act γ → Prop}

variable {p : Prog Act α}

theorem Must.bind (hp : p.Must P) (f : α → Prog Act β) : (p.bind f).Must P := by
  induction p with
  | ret a => exact hp.elim
  | step act k ih => exact hp.imp_right fun h b => ih b (h b)

theorem Must.after {f : α → Prog Act β} (hf : ∀ a, (f a).Must P) (p : Prog Act α) :
    (p.bind f).Must P := by
  induction p with
  | ret a => exact hf a
  | step act k ih => exact .inr fun b => ih b

theorem Must.each {κ : Type} {act : κ → Act α} {l : List κ} {i : κ} (hi : i ∈ l) (h : P (act i)) :
    (Prog.each act l).Must P := by
  induction l with
  | nil => exact absurd hi not_mem_nil
  | cons j l ih =>
    rw [each_cons]
    rcases mem_cons.mp hi with rfl | hi
    · exact .inl h
    · exact .inr fun b => Must.bind (ih hi) _

theorem Followed.bind {f : α → Prog Act β} (hp : p.Only fun act => ∀ b, ¬ C act b)
    (hf : ∀ a, (f a).Followed C P) : (p.bind f).Followed C P := by
  induction p with
  | ret a => exact hf a
  | step act k ih => exact fun b => ⟨fun hC => absurd hC (hp.1 b), ih b (hp.2 b)⟩

theorem Followed.of_only (hp : p.Only fun act => ∀ b, ¬ C act b) : p.Followed C P := by
  induction p with
  | ret a => trivial
  | step act k ih => exact fun b => ⟨fun hC => absurd hC (hp.1 b), ih b (hp.2 b)⟩

theorem Followed.map (hp : p.Followed C P) (f : α → β) : (p.map f).Followed C P := by
  induction p with
  | ret a => trivial
  | step act k ih => exact fun b => ⟨fun hC => Must.bind ((hp b).1 hC) _, ih b (hp b).2⟩

end Followed

theorem run_all {P : σ → Prop} (ps : List (Prog Act α))
    (hkeep : ∀ p ∈ ps, ∀ inp s, P s → P (p.run sem inp s).2.1) (inp : ℕ → ι) (s : σ) (hs : P s) :
    P ((all ps).run sem inp s).2.1 := by
  induction ps generalizing inp s with
  | nil => exact hs
  | cons p ps ih =>
    simp only [all, run_bind, run_ret]
    apply ih
    · intro q hq
      exact hkeep q (mem_cons_of_mem _ hq)
    · exact hkeep p mem_cons_self inp s hs

end Prog

/-! ## Interleavings -/

/-- One entry of a schedule: thread `i` performs its next section, or the daemon acts. -/
inductive Tick (ι δ : Type)
  | thread (i : ℕ) (inp : ι)
  | daemon (d : δ)

structure Pool (Act : Type → Type) (σ α : Type) : Type 1 where
  threads : List (Prog Act α)
  state : σ

namespace Pool

variable (sem : Semantics Act ι σ) (act : δ → σ → σ)

variable (p : Pool Act σ α)

/-- One entry of the schedule. A thread that has returned, or does not exist, stays put. -/
def tick : Tick ι δ → Pool Act σ α
  | .thread i inp =>
    match p.threads[i]? with
    | some (.step a k) =>
      { threads := p.threads.set i (k (sem.exec i a inp p.state).2)
        state := (sem.exec i a inp p.state).1 }
    | _ => p
  | .daemon d => { p with state := act d p.state }

def run (ticks : List (Tick ι δ)) : Pool Act σ α :=
  ticks.foldl (tick sem act) p

theorem run_append (before after : List (Tick ι δ)) :
    p.run sem act (before ++ after) = (p.run sem act before).run sem act after :=
  foldl_append

def returned : Bool :=
  p.threads.all fun q =>
    match q with
    | .ret _ => true
    | .step _ _ => false

def answer (i : ℕ) : Option α :=
  match p.threads[i]? with
  | some (.ret a) => some a
  | _ => none

theorem answer_eq_some {p : Pool Act σ α} {i : ℕ} {a : α} :
    p.answer i = some a ↔ p.threads[i]? = some (.ret a) := by
  unfold answer
  split
  · rename_i b hb
    rw [hb, Option.some.injEq, Option.some.injEq, Prog.ret.injEq]
  · rename_i hne
    constructor
    · exact nofun
    · intro h
      exact absurd h (hne a)

theorem tick_thread_cases (i : ℕ) (inp : ι) : p.tick sem act (.thread i inp) = p ∨
      ∃ (γ : Type) (a : Act γ) (k : γ → Prog Act α), p.threads[i]? = some (.step a k) ∧
        p.tick sem act (.thread i inp) =
          { threads := p.threads.set i (k (sem.exec i a inp p.state).2)
            state := (sem.exec i a inp p.state).1 } := by
  rcases hi : p.threads[i]? with _ | ⟨a | ⟨a, k⟩⟩
  · exact .inl (by simp [tick, hi])
  · exact .inl (by simp [tick, hi])
  · exact .inr ⟨_, a, k, rfl, by simp [tick, hi]⟩

theorem length_threads_tick (t : Tick ι δ) :
    (p.tick sem act t).threads.length = p.threads.length := by
  cases t with
  | daemon d => rfl
  | thread i inp =>
    obtain hsame | ⟨γ, a, k, -, hmoved⟩ := tick_thread_cases sem act p i inp
    · rw [hsame]
    · rw [hmoved, length_set]

@[simp] theorem length_threads_run (ticks : List (Tick ι δ)) :
    (p.run sem act ticks).threads.length = p.threads.length := by
  induction ticks generalizing p with
  | nil => rfl
  | cons t ticks ih => exact (ih _).trans (length_threads_tick sem act p t)

theorem ret_of_returned {p : Pool Act σ α} (h : p.returned = true) {i : ℕ}
    (hi : i < p.threads.length) : ∃ a, p.threads[i]? = some (.ret a) := by
  have hq := all_eq_true.mp h p.threads[i] (getElem_mem hi)
  rw [List.getElem?_eq_getElem hi]
  split at hq
  · rename_i a ha
    exact ⟨a, by rw [ha]⟩
  · cases hq

end Pool

/-- A side condition on the steps of a schedule, read in the state before the step. -/
structure Condition (Act : Type → Type) (ι σ δ : Type) : Type 1 where
  section_ok : (tid : ℕ) → {β : Type} → Act β → ι → σ → Prop
  daemon_ok : δ → σ → Prop

def Condition.any : Condition Act ι σ δ where
  section_ok _ _ _ _ _ := True
  daemon_ok _ _ := True

namespace Pool

variable (sem : Semantics Act ι σ) (act : δ → σ → σ) (cond : Condition Act ι σ δ)

def Allows (p : Pool Act σ α) : Tick ι δ → Prop
  | .thread i inp =>
    match p.threads[i]? with
    | some (.step a _) => cond.section_ok i a inp p.state
    | _ => True
  | .daemon d => cond.daemon_ok d p.state

def Respects (p : Pool Act σ α) : List (Tick ι δ) → Prop
  | [] => True
  | t :: ticks => p.Allows cond t ∧ (p.tick sem act t).Respects ticks

theorem respects_any (p : Pool Act σ α) (ticks : List (Tick ι δ)) :
    p.Respects sem act .any ticks := by
  induction ticks generalizing p with
  | nil => trivial
  | cons t ticks ih =>
    refine ⟨?_, ih _⟩
    unfold Allows
    split
    · split <;> trivial
    · trivial

section

variable [∀ tid {γ : Type} (a : Act γ) inp s, Decidable (cond.section_ok tid a inp s)]
  [∀ d s, Decidable (cond.daemon_ok d s)]

instance (p : Pool Act σ α) (t : Tick ι δ) : Decidable (p.Allows cond t) :=
  match t with
  | .thread i inp =>
    match h : p.threads[i]? with
    | some (.step a _) =>
      decidable_of_iff (cond.section_ok i a inp p.state) (by rw [Allows, h])
    | some (.ret _) => isTrue (by rw [Allows, h]; trivial)
    | none => isTrue (by rw [Allows, h]; trivial)
  | .daemon d => inferInstanceAs (Decidable (cond.daemon_ok d p.state))

def decideRespects (p : Pool Act σ α) (ticks : List (Tick ι δ)) :
    Decidable (p.Respects sem act cond ticks) :=
  match ticks with
  | [] => isTrue trivial
  | t :: ticks =>
    have := decideRespects (p.tick sem act t) ticks
    inferInstanceAs (Decidable (p.Allows cond t ∧ (p.tick sem act t).Respects sem act cond ticks))

instance (p : Pool Act σ α) (ticks : List (Tick ι δ)) :
    Decidable (p.Respects sem act cond ticks) := decideRespects sem act cond p ticks

end

end Pool

/-- What every section keeps that meets the side condition, a schedule keeps. -/
theorem Pool.run_inv {sem : Semantics Act ι σ} {act : δ → σ → σ} {cond : Condition Act ι σ δ}
    {I : σ → Prop}
    (hsection : ∀ (tid : ℕ) (γ : Type) (a : Act γ) inp s, cond.section_ok tid a inp s → I s →
      I (sem.exec tid a inp s).1) (hdaemon : ∀ d s, cond.daemon_ok d s → I s → I (act d s))
    {p : Pool Act σ α} (hp : I p.state) (ticks : List (Tick ι δ))
    (hok : p.Respects sem act cond ticks) : I (p.run sem act ticks).state := by
  induction ticks generalizing p with
  | nil => exact hp
  | cons t ticks ih =>
    refine ih ?_ hok.2
    have hallows := hok.1
    cases t with
    | daemon d => exact hdaemon d p.state hallows hp
    | thread i inp =>
      obtain hsame | ⟨γ, a, k, hi, hmoved⟩ := tick_thread_cases sem act p i inp
      · rw [hsame]
        exact hp
      · unfold Pool.Allows at hallows
        simp only [hi] at hallows
        rw [hmoved]
        exact hsection i γ a inp p.state hallows hp

theorem Pool.run_project {τ : Type} (sem : Semantics Act ι σ) (sem' : Semantics Act ι τ)
    (act : δ → σ → σ) (act' : δ → τ → τ) (f : τ → σ)
    (hexec : ∀ (tid : ℕ) (γ : Type) (a : Act γ) inp s,
      sem.exec tid a inp (f s) = (f (sem'.exec tid a inp s).1, (sem'.exec tid a inp s).2))
    (hact : ∀ d s, act d (f s) = f (act' d s)) (p : Pool Act τ α) (ticks : List (Tick ι δ)) :
    (Pool.mk p.threads (f p.state)).run sem act ticks =
      ⟨(p.run sem' act' ticks).threads, f (p.run sem' act' ticks).state⟩ := by
  induction ticks generalizing p with
  | nil => rfl
  | cons t ticks ih =>
    have htick : (Pool.mk p.threads (f p.state)).tick sem act t =
        ⟨(p.tick sem' act' t).threads, f (p.tick sem' act' t).state⟩ := by
      cases t with
      | daemon d => simp only [tick, hact]
      | thread i inp =>
        rcases hi : p.threads[i]? with _ | ⟨a | ⟨a, k⟩⟩
        · simp only [tick, hi]
        · simp only [tick, hi]
        · simp only [tick, hi, hexec]
    exact (congrArg (fun q => Pool.run sem act q ticks) htick).trans (ih _)

/-! ## The rely/guarantee rule -/

/-- An invariant, and for each thread a preorder that every section of every other thread moves
along. -/
structure Protocol (σ : Type) where
  inv : σ → Prop
  rely : ℕ → σ → σ → Prop
  rely_refl : ∀ i s, rely i s s
  rely_trans : ∀ {i a b c}, rely i a b → rely i b c → rely i a c

/-- A property of the state that the moves of the others cannot undo for thread `tid`. -/
def Protocol.Stable {σ : Type} (pr : Protocol σ) (tid : ℕ) (K : σ → Prop) : Prop :=
  ∀ s s', pr.rely tid s s' → K s → K s'

section Rule

variable (sem : Semantics Act ι σ) (act : δ → σ → σ) (cond : Condition Act ι σ δ)
  (pr : Protocol σ)

/-- Whatever the others do, thread `tid` running this program keeps the protocol, and its answer
satisfies `post`. -/
def Prog.Safe (tid : ℕ) (post : α → σ → Prop) : Prog Act α → σ → Prop
  | .ret a, s => ∀ s', pr.rely tid s s' → pr.inv s' → post a s'
  | .step a k, s => ∀ s', pr.rely tid s s' → pr.inv s' → ∀ inp, cond.section_ok tid a inp s' →
      pr.inv (sem.exec tid a inp s').1 ∧ (∀ j, j ≠ tid → pr.rely j s' (sem.exec tid a inp s').1) ∧
        (k (sem.exec tid a inp s').2).Safe tid post (sem.exec tid a inp s').1

variable {sem act cond pr}

variable {tid : ℕ} {post : α → σ → Prop} {p : Prog Act α} {s : σ} {K : σ → Prop}

theorem Prog.Safe.mono {s' : σ} (h : p.Safe sem cond pr tid post s) (hrely : pr.rely tid s s') :
    p.Safe sem cond pr tid post s' := by
  cases p with
  | ret | step => exact fun t ht => h t (pr.rely_trans hrely ht)

theorem Prog.Safe.weaken {post' : α → σ → Prop} (h : p.Safe sem cond pr tid post s)
    (himp : ∀ a t, post a t → post' a t) : p.Safe sem cond pr tid post' s := by
  induction p generalizing s with
  | ret a => exact fun t hrely hinv => himp a t (h t hrely hinv)
  | step b k ih =>
    intro t hrely hinv inp hok
    obtain ⟨hinv', hothers, hk⟩ := h t hrely hinv inp hok
    exact ⟨hinv', hothers, ih _ hk⟩

theorem Prog.Safe.ret_of_stable {a : α} (hK : pr.Stable tid K) (hpost : ∀ s', K s' → post a s')
    (hs : K s) : (Prog.ret a : Prog Act α).Safe sem cond pr tid post s := by
  intro s' hrely _
  exact hpost s' (hK s s' hrely hs)

theorem Prog.Safe.step_to {γ : Type} {a : Act γ} {k : γ → Prog Act α} (K' : γ → σ → Prop)
    (hK : pr.Stable tid K) (hstep : ∀ s' inp, pr.inv s' → K s' → cond.section_ok tid a inp s' →
      pr.inv (sem.exec tid a inp s').1 ∧ (∀ j, j ≠ tid → pr.rely j s' (sem.exec tid a inp s').1) ∧
        K' (sem.exec tid a inp s').2 (sem.exec tid a inp s').1)
    (hk : ∀ b s', K' b s' → (k b).Safe sem cond pr tid post s') (hs : K s) :
    (Prog.step a k).Safe sem cond pr tid post s := by
  intro s' hrely hinv inp hok
  obtain ⟨hinv', hothers, hK'⟩ := hstep s' inp hinv (hK s s' hrely hs) hok
  exact ⟨hinv', hothers, hk _ _ hK'⟩

theorem Prog.Safe.step_of_stable {γ : Type} {a : Act γ} {k : γ → Prog Act α} (hK : pr.Stable tid K)
    (hstep : ∀ s' inp, pr.inv s' → cond.section_ok tid a inp s' →
      pr.inv (sem.exec tid a inp s').1 ∧ ∀ j, pr.rely j s' (sem.exec tid a inp s').1)
    (hk : ∀ b s', K s' → (k b).Safe sem cond pr tid post s') (hs : K s) :
    (Prog.step a k).Safe sem cond pr tid post s := by
  refine Prog.Safe.step_to (fun _ => K) hK ?_ hk hs
  intro s' inp hinv hKs hok
  obtain ⟨hinv', hmove⟩ := hstep s' inp hinv hok
  exact ⟨hinv', fun j _ => hmove j, hK _ _ (hmove tid) hKs⟩

/-- A program continued by another: the answer of the first is what the second starts
from. -/
theorem Prog.Safe.bind {mid : α → σ → Prop} {post : β → σ → Prop} {f : α → Prog Act β}
    (h : p.Safe sem cond pr tid mid s)
    (hf : ∀ a t, pr.inv t → mid a t → (f a).Safe sem cond pr tid post t) :
    (p.bind f).Safe sem cond pr tid post s := by
  induction p generalizing s with
  | ret a =>
    have hnext : ∀ t, pr.rely tid s t → pr.inv t → (f a).Safe sem cond pr tid post t :=
      fun t hrely hinv => hf a t hinv (h t hrely hinv)
    show (f a).Safe sem cond pr tid post s
    cases hfa : f a with
    | ret | step =>
      intro t hrely hinv
      have := hnext t hrely hinv
      rw [hfa] at this
      exact this t (pr.rely_refl tid t) hinv
  | step b k ih =>
    intro t hrely hinv inp hcond
    obtain ⟨hinv', hothers, hk⟩ := h t hrely hinv inp hcond
    exact ⟨hinv', hothers, ih _ hk⟩

structure Pool.Safe (sem : Semantics Act ι σ) (cond : Condition Act ι σ δ) (pr : Protocol σ)
    (post : ℕ → α → σ → Prop) (p : Pool Act σ α) : Prop where
  inv : pr.inv p.state
  threads : ∀ (i : ℕ) (q : Prog Act α), p.threads[i]? = some q →
    q.Safe sem cond pr i (post i) p.state

variable {post : ℕ → α → σ → Prop}

def DaemonSafe (act : δ → σ → σ) (cond : Condition Act ι σ δ) (pr : Protocol σ) : Prop :=
  ∀ d s, pr.inv s → cond.daemon_ok d s → pr.inv (act d s) ∧ ∀ j, pr.rely j s (act d s)

theorem Pool.Safe.tick (hdaemon : DaemonSafe act cond pr) {p : Pool Act σ α}
    (h : p.Safe sem cond pr post) (t : Tick ι δ) (hok : p.Allows cond t) :
    (p.tick sem act t).Safe sem cond pr post := by
  cases t with
  | daemon d =>
    obtain ⟨hinv, hmove⟩ := hdaemon d p.state h.inv hok
    exact ⟨hinv, fun i q hq => (h.threads i q hq).mono (hmove i)⟩
  | thread i inp =>
    obtain hsame | ⟨γ, a, k, hi, hmoved⟩ := Pool.tick_thread_cases sem act p i inp
    · rw [hsame]
      exact h
    unfold Pool.Allows at hok
    simp only [hi] at hok
    obtain ⟨hinv, hothers, hk⟩ := h.threads i _ hi p.state (pr.rely_refl _ _) h.inv inp hok
    rw [hmoved]
    refine ⟨hinv, ?_⟩
    intro j q hq
    rw [List.getElem?_set] at hq
    split at hq
    · rename_i hij
      subst hij
      split at hq
      · cases hq
        exact hk
      · cases hq
    · rename_i hij
      exact (h.threads j q hq).mono (hothers j (Ne.symm hij))

/-- **The rule.** Along every schedule that meets the side condition the invariant holds. -/
theorem Pool.Safe.run (hdaemon : DaemonSafe act cond pr) {p : Pool Act σ α}
    (h : p.Safe sem cond pr post) (ticks : List (Tick ι δ)) (hok : p.Respects sem act cond ticks) :
    (p.run sem act ticks).Safe sem cond pr post := by
  induction ticks generalizing p with
  | nil => exact h
  | cons t ticks ih => exact ih (h.tick hdaemon t hok.1) hok.2

theorem Pool.Safe.post_of_ret {p : Pool Act σ α} (h : p.Safe sem cond pr post) {i : ℕ} {a : α}
    (hi : p.threads[i]? = some (.ret a)) : post i a p.state :=
  h.threads i _ hi p.state (pr.rely_refl _ _) h.inv

end Rule

end Atomic
