/-
**Positions in a schedule**: which section was performed when, and in which state.

An `Execution` keeps the schedule of a pool, and a position in it is a number of entries: `state n`
is the shared state after the first `n` of them, and `Performs n i a` says that entry `n` is thread
`i` performing section `a`. A thread's way through its program is a `Trail`, taken apart from the
front, one section at a time (`Trail.of_step`), each with its position and state.
-/
import Saacp.Atomic
import Mathlib.Order.Nat
import Mathlib.Data.Nat.Init
import Mathlib.Data.List.Forall2

set_option autoImplicit false

namespace Atomic

open List

variable {Act : Type → Type} {ι σ δ α β : Type}

structure Execution (Act : Type → Type) (ι σ δ α : Type) : Type 1 where
  sem : Semantics Act ι σ
  act : δ → σ → σ
  start : Pool Act σ α
  ticks : List (Tick ι δ)

namespace Execution

variable (e : Execution Act ι σ δ α)

def pool (n : ℕ) : Pool Act σ α := e.start.run e.sem e.act (e.ticks.take n)

def state (n : ℕ) : σ := (e.pool n).state

def prog (n i : ℕ) : Option (Prog Act α) := (e.pool n).threads[i]?

def answer (n i : ℕ) : Option α := (e.pool n).answer i

def moves (n i : ℕ) : Bool :=
  match e.ticks[n]? with
  | some (.thread j _) => i == j
  | _ => false

/-- Entry `n` of the schedule is thread `i`, which performs section `a`. -/
def Performs (n i : ℕ) {γ : Type} (a : Act γ) : Prop :=
  ∃ inp k, e.ticks[n]? = some (.thread i inp) ∧ e.prog n i = some (.step a k)

/-- Whether entry `n` of the schedule is thread `i`, performing a section of the kind `P`. -/
def performs (P : ∀ {γ : Type}, Act γ → Bool) (n i : ℕ) : Bool :=
  e.moves n i &&
    match e.prog n i with
    | some (.step a _) => P a
    | _ => false

def does (P : ∀ {γ : Type}, Act γ → Bool) (n : ℕ) : Bool :=
  match e.ticks[n]? with
  | some (.thread i _) => e.performs P n i
  | _ => false

/-- How many of the first `n` entries are sections of the kind `P`. -/
def count (P : ∀ {γ : Type}, Act γ → Bool) (n : ℕ) : ℕ := (List.range n).countP (e.does P)

variable {e}

variable {n l i : ℕ} {γ : Type} {p q : Prog Act β}

open Option Nat Pool Execution Prog

theorem pool_succ {t : Tick ι δ} (h : e.ticks[n]? = some t) :
    e.pool (n + 1) = (e.pool n).tick e.sem e.act t := by
  rw [pool, take_add_one, h, toList_some, run_append]
  rfl

theorem pool_succ_of_none (h : e.ticks[n]? = none) : e.pool (n + 1) = e.pool n := by
  rw [pool, take_add_one, h, toList_none, append_nil, pool]

theorem state_of_length_le (h : e.ticks.length ≤ n) : e.state n = e.state e.ticks.length := by
  rw [state, pool, take_of_length_le h, state, pool, take_length]

theorem pool_succ_cases (e : Execution Act ι σ δ α) (n : ℕ) : e.pool (n + 1) = e.pool n ∨
      (∃ d, e.pool (n + 1) = ⟨(e.pool n).threads, e.act d (e.state n)⟩) ∨
      ∃ (i : ℕ) (inp : ι) (γ : Type) (a : Act γ) (k : γ → Prog Act α),
        e.ticks[n]? = some (.thread i inp) ∧ e.prog n i = some (.step a k) ∧
        e.pool (n + 1) = ⟨(e.pool n).threads.set i (k (e.sem.exec i a inp (e.state n)).2),
            (e.sem.exec i a inp (e.state n)).1⟩ := by
  rcases ht : e.ticks[n]? with _ | ⟨i, inp⟩ | d
  · exact .inl (pool_succ_of_none ht)
  · rw [pool_succ ht]
    obtain hsame | ⟨γ, a, k, hi, hmoved⟩ := tick_thread_cases e.sem e.act (e.pool n) i inp
    · exact .inl hsame
    · exact .inr (.inr ⟨i, inp, γ, a, k, rfl, hi, hmoved⟩)
  · rw [pool_succ ht]
    exact .inr (.inl ⟨d, rfl⟩)

theorem rel_succ_at (e : Execution Act ι σ δ α) (R : σ → σ → Prop)
    (hrefl : R (e.state n) (e.state n)) (hdaemon : ∀ d, R (e.state n) (e.act d (e.state n)))
    (hsection : ∀ (i : ℕ) (inp : ι) (γ : Type) (a : Act γ), e.ticks[n]? = some (.thread i inp) →
      e.Performs n i a → R (e.state n) (e.sem.exec i a inp (e.state n)).1) :
    R (e.state n) (e.state (n + 1)) := by
  obtain hsame | ⟨d, hmoved⟩ | ⟨i, inp, γ, a, k, ht, hi, hmoved⟩ := e.pool_succ_cases n
  · rw [show e.state (n + 1) = e.state n from congrArg Pool.state hsame]
    exact hrefl
  · rw [show e.state (n + 1) = _ from congrArg Pool.state hmoved]
    exact hdaemon d
  · rw [show e.state (n + 1) = _ from congrArg Pool.state hmoved]
    exact hsection i inp γ a ht ⟨inp, k, ht, hi⟩

theorem rel_succ (e : Execution Act ι σ δ α) (R : σ → σ → Prop) (hrefl : R (e.state n) (e.state n))
    (hdaemon : ∀ d, R (e.state n) (e.act d (e.state n)))
    (hsection : ∀ (i : ℕ) (inp : ι) (γ : Type) (a : Act γ), e.Performs n i a →
      R (e.state n) (e.sem.exec i a inp (e.state n)).1) : R (e.state n) (e.state (n + 1)) :=
  e.rel_succ_at R hrefl hdaemon fun i inp γ a _ => hsection i inp γ a

theorem rel_of_steps (e : Execution Act ι σ δ α) (R : σ → σ → Prop) (hrefl : ∀ s, R s s)
    (htrans : ∀ a b c, R a b → R b c → R a c) (hnl : n ≤ l)
    (hsteps : ∀ m, n ≤ m → m < l → R (e.state m) (e.state (m + 1))) :
    R (e.state n) (e.state l) := by
  induction l, hnl using le_induction with
  | base => exact hrefl _
  | succ l hnl ih =>
    refine htrans _ _ _ (ih ?_) (hsteps l hnl (lt_succ_self l))
    intro m hnm hml
    exact hsteps m hnm (lt_succ_of_lt hml)

theorem Performs.succ_at {a : Act γ} (h : e.Performs n i a) :
    ∃ inp k, e.ticks[n]? = some (.thread i inp) ∧ e.prog n i = some (.step a k) ∧
      e.prog (n + 1) i = some (k (e.sem.exec i a inp (e.state n)).2) ∧
      e.state (n + 1) = (e.sem.exec i a inp (e.state n)).1 := by
  obtain ⟨inp, k, ht, hi⟩ := h
  have hlt : i < (e.pool n).threads.length := (List.getElem?_eq_some_iff.mp hi).1
  have htick : e.pool (n + 1) = ⟨(e.pool n).threads.set i (k (e.sem.exec i a inp (e.state n)).2),
        (e.sem.exec i a inp (e.state n)).1⟩ := by
    rw [pool_succ ht, tick]
    simp only [show (e.pool n).threads[i]? = some (.step a k) from hi]
    rfl
  refine ⟨inp, k, ht, hi, ?_, congrArg Pool.state htick⟩
  rw [prog, htick]
  exact List.getElem?_set_self hlt

theorem Performs.succ {a : Act γ} (h : e.Performs n i a) : ∃ inp k, e.prog n i = some (.step a k) ∧
      e.prog (n + 1) i = some (k (e.sem.exec i a inp (e.state n)).2) ∧
      e.state (n + 1) = (e.sem.exec i a inp (e.state n)).1 := by
  obtain ⟨inp, k, -, hsucc⟩ := h.succ_at
  exact ⟨inp, k, hsucc⟩

theorem Performs.lt {a : Act γ} (h : e.Performs n i a) : n < e.ticks.length := by
  obtain ⟨inp, k, ht, -⟩ := h
  exact (List.getElem?_eq_some_iff.mp ht).1

theorem Performs.moves {a : Act γ} (h : e.Performs n i a) : e.moves n i = true := by
  obtain ⟨inp, k, ht, -⟩ := h
  rw [Execution.moves, ht]
  exact BEq.rfl

theorem Performs.unique {j : ℕ} {γ' : Type} {a : Act γ} {b : Act γ'} (ha : e.Performs n i a)
    (hb : e.Performs n j b) : i = j ∧ ∀ {κ : Type} (f : ∀ {γ : Type}, Act γ → κ), f a = f b := by
  obtain ⟨inp, k, ht, hi⟩ := ha
  obtain ⟨inp', k', ht', hj⟩ := hb
  rw [ht, some.injEq, Tick.thread.injEq] at ht'
  obtain ⟨rfl, -⟩ := ht'
  rw [hi, some.injEq] at hj
  refine ⟨rfl, fun f => ?_⟩
  cases hj
  rfl

theorem moves_iff : e.moves n i = true ↔ ∃ inp, e.ticks[n]? = some (.thread i inp) := by
  unfold moves
  split
  · rename_i j inp ht
    rw [beq_iff_eq]
    constructor
    · rintro rfl
      exact ⟨inp, ht⟩
    · rintro ⟨inp', h⟩
      rw [ht, some.injEq, Tick.thread.injEq] at h
      exact h.1.symm
  · rename_i hne
    constructor
    · exact nofun
    · rintro ⟨inp, h⟩
      exact absurd h (hne i inp)

section Kinds

variable {P : ∀ {γ : Type}, Act γ → Bool}

variable {n : ℕ}

theorem performs_iff {i : ℕ} :
    e.performs P n i = true ↔ ∃ (γ : Type) (a : Act γ), e.Performs n i a ∧ P a = true := by
  unfold performs
  rw [Bool.and_eq_true, moves_iff]
  constructor
  · rintro ⟨⟨inp, ht⟩, hP⟩
    split at hP
    · rename_i γ a k hi
      exact ⟨γ, a, ⟨inp, k, ht, hi⟩, hP⟩
    · cases hP
  · rintro ⟨γ, a, ⟨inp, k, ht, hi⟩, hP⟩
    refine ⟨⟨inp, ht⟩, ?_⟩
    rw [hi]
    exact hP

theorem does_iff :
    e.does P n = true ↔ ∃ (i : ℕ) (γ : Type) (a : Act γ), e.Performs n i a ∧ P a = true := by
  unfold does
  split
  · rename_i i inp ht
    rw [performs_iff]
    constructor
    · rintro ⟨γ, a, ha⟩
      exact ⟨i, γ, a, ha⟩
    · rintro ⟨j, γ, a, ⟨inp', k, ht', hj⟩, hP⟩
      obtain rfl : i = j := by
        rw [ht] at ht'
        cases ht'
        rfl
      exact ⟨γ, a, ⟨inp', k, ht', hj⟩, hP⟩
  · rename_i hne
    constructor
    · exact nofun
    · rintro ⟨i, γ, a, ⟨inp, k, ht, -⟩, -⟩
      exact absurd ht (hne i inp)

theorem count_succ (n : ℕ) :
    e.count P (n + 1) = e.count P n + if e.does P n = true then 1 else 0 := by
  rw [count, range_succ, countP_append, countP_singleton, count]

theorem count_mono {m : ℕ} (h : n ≤ m) : e.count P n ≤ e.count P m := by
  induction m, h using le_induction with
  | base => exact le_refl _
  | succ m h ih =>
    rw [count_succ]
    omega

theorem count_le : e.count P n ≤ n := by
  refine (countP_le_length).trans_eq ?_
  rw [length_range]

theorem count_lt_count {x m : ℕ} (hn : n ≤ x) (hm : x < m) (hx : e.does P x = true) :
    e.count P n < e.count P m := by
  have hstep := count_succ (e := e) (P := P) x
  have hbefore := count_mono (e := e) (P := P) hn
  have hafter : e.count P (x + 1) ≤ e.count P m := count_mono hm
  rw [if_pos hx] at hstep
  omega

end Kinds

theorem prog_succ_of_not_moves (h : e.moves n i = false) : e.prog (n + 1) i = e.prog n i := by
  obtain hsame | ⟨d, hmoved⟩ | ⟨j, inp, γ, a, k, ht, -, hmoved⟩ := e.pool_succ_cases n
  · rw [prog, hsame, prog]
  · rw [prog, hmoved, prog]
  · have hne : j ≠ i := by
      intro hji
      rw [moves, ht, hji] at h
      simp at h
    rw [prog, hmoved, prog]
    exact getElem?_set_ne hne

theorem moves_cases {p : Prog Act α} (hp : e.prog n i = some p) (h : e.moves n i = true) :
    (∃ b, p = .ret b ∧ e.prog (n + 1) i = some p) ∨
      ∃ (γ : Type) (a : Act γ) (k : γ → Prog Act α), p = .step a k ∧ e.Performs n i a := by
  unfold moves at h
  split at h
  · rename_i j inp ht
    obtain rfl : i = j := by simpa using h
    cases p with
    | ret b =>
      refine .inl ⟨b, rfl, ?_⟩
      rw [prog, pool_succ ht, tick]
      simp only [show (e.pool n).threads[i]? = some (.ret b) from hp]
    | step a k => exact .inr ⟨_, a, k, rfl, inp, k, ht, hp⟩
  · cases h

theorem answer_eq_some {b : α} :
    e.answer n i = some b ↔ e.prog n i = some (.ret b) := Pool.answer_eq_some

/-! ## The way of a thread through its program -/

/-- Thread `i` gets from program `p` at position `n` to program `q` at position `l`, every section
in between with its position. The programs may be parts of what the thread runs. -/
inductive Trail (e : Execution Act ι σ δ α) (i : ℕ) {β : Type} :
    Prog Act β → ℕ → Prog Act β → ℕ → Prop
  | refl {p : Prog Act β} {n l : ℕ} (h : n ≤ l) : Trail e i p n p l
  | step {γ : Type} {a : Act γ} {k : γ → Prog Act β} {q : Prog Act β} {n m l : ℕ} {inp : ι}
      (hnm : n ≤ m) (hml : m < l) (ht : e.ticks[m]? = some (.thread i inp))
      (ha : e.Performs m i a)
      (hstate : e.state (m + 1) = (e.sem.exec i a inp (e.state m)).1)
      (h : Trail e i (k (e.sem.exec i a inp (e.state m)).2) (m + 1) q l) :
      Trail e i (.step a k) n q l

theorem Trail.of_eq (h : p = q) (i n : ℕ) : Trail e i p n q n :=
  h ▸ .refl (le_refl n)

theorem Trail.mono {n' : ℕ} (h : Trail e i p n q l) (hn : n' ≤ n) : Trail e i p n' q l := by
  cases h with
  | refl h => exact .refl (hn.trans h)
  | step hnm hml ht ha hstate h => exact .step (hn.trans hnm) hml ht ha hstate h

theorem Trail.le (h : Trail e i p n q l) : n ≤ l := by
  cases h with
  | refl h => exact h
  | step hnm hml _ _ _ _ => exact hnm.trans hml.le

theorem Trail.extend {l' : ℕ} (h : Trail e i p n q l) (hl : l ≤ l') : Trail e i p n q l' := by
  induction h with
  | refl h => exact .refl (h.trans hl)
  | step hnm hml ht ha hstate _ ih => exact .step hnm (hml.trans_le hl) ht ha hstate (ih hl)

theorem trail {p : Prog Act α} (hp : e.prog n i = some p) (hnl : n ≤ l) :
    ∃ q, e.prog l i = some q ∧ Trail e i p n q l := by
  obtain ⟨d, rfl⟩ := Nat.exists_eq_add_of_le hnl
  clear hnl
  -- from the front, over the positions that are left
  induction d generalizing n p with
  | zero => exact ⟨p, hp, .refl (le_refl _)⟩
  | succ d ih =>
    have hlen : n + (d + 1) = n + 1 + d := by omega
    rw [hlen]
    by_cases hmoves : e.moves n i = true
    · obtain ⟨b, rfl, hnext⟩ | ⟨γ, a, k, rfl, ha⟩ := moves_cases hp hmoves
      · obtain ⟨q, hq, htrail⟩ := ih hnext
        exact ⟨q, hq, htrail.mono (le_succ n)⟩
      · obtain ⟨inp, k', ht, hk', hnext, hstate⟩ := ha.succ_at
        obtain rfl : k = k' := by
          rw [hp, some.injEq, step.injEq] at hk'
          exact eq_of_heq hk'.2.2
        obtain ⟨q, hq, htrail⟩ := ih hnext
        exact ⟨q, hq, .step (le_refl n) (by omega) ht ha hstate htrail⟩
    · obtain ⟨q, hq, htrail⟩ :=
        ih ((prog_succ_of_not_moves (Bool.not_eq_true _ ▸ hmoves)).trans hp)
      exact ⟨q, hq, htrail.mono (le_succ n)⟩

theorem Trail.of_ret {b : β} (h : Trail e i (.ret b) n q l) : q = .ret b := by
  cases h with
  | refl _ => rfl

variable {k : γ → Prog Act β}

/-- A program about to perform a section still is, or has performed it at the scheduled input. -/
theorem Trail.of_step_at {a : Act γ} (h : Trail e i (.step a k) n q l) :
    q = .step a k ∨ ∃ m inp, n ≤ m ∧ m < l ∧ e.ticks[m]? = some (.thread i inp) ∧
      e.Performs m i a ∧ e.state (m + 1) = (e.sem.exec i a inp (e.state m)).1 ∧
      Trail e i (k (e.sem.exec i a inp (e.state m)).2) (m + 1) q l := by
  cases h with
  | refl _ => exact .inl rfl
  | step hnm hml ht ha hstate h => exact .inr ⟨_, _, hnm, hml, ht, ha, hstate, h⟩

theorem Trail.of_step {a : Act γ} (h : Trail e i (.step a k) n q l) :
    q = .step a k ∨ ∃ m inp, n ≤ m ∧ m < l ∧ e.Performs m i a ∧
      e.state (m + 1) = (e.sem.exec i a inp (e.state m)).1 ∧
      Trail e i (k (e.sem.exec i a inp (e.state m)).2) (m + 1) q l := by
  obtain hsame | ⟨m, inp, hnm, hml, -, hstep⟩ := h.of_step_at
  · exact .inl hsame
  · exact .inr ⟨m, inp, hnm, hml, hstep⟩

theorem Trail.of_step_ret_at {a : Act γ} {b : β} (h : Trail e i (.step a k) n (.ret b) l) :
    ∃ m inp, n ≤ m ∧ m < l ∧ e.ticks[m]? = some (.thread i inp) ∧ e.Performs m i a ∧
      e.state (m + 1) = (e.sem.exec i a inp (e.state m)).1 ∧
      Trail e i (k (e.sem.exec i a inp (e.state m)).2) (m + 1) (.ret b) l := by
  obtain hsame | hstep := h.of_step_at
  · cases hsame
  · exact hstep

theorem Trail.of_step_ret {a : Act γ} {b : β} (h : Trail e i (.step a k) n (.ret b) l) :
    ∃ m inp, n ≤ m ∧ m < l ∧ e.Performs m i a ∧
      e.state (m + 1) = (e.sem.exec i a inp (e.state m)).1 ∧
      Trail e i (k (e.sem.exec i a inp (e.state m)).2) (m + 1) (.ret b) l := by
  obtain ⟨m, inp, hnm, hml, -, hstep⟩ := h.of_step_ret_at
  exact ⟨m, inp, hnm, hml, hstep⟩

theorem Trail.of_bind {p : Prog Act γ} {f : γ → Prog Act β} (h : Trail e i (p.bind f) n q l) :
    (∃ b m, Trail e i p n (.ret b) m ∧ Trail e i (f b) m q l) ∨
      ∃ (γ' : Type) (a : Act γ') (k : γ' → Prog Act γ),
        q = (Prog.step a k).bind f ∧ Trail e i p n (.step a k) l := by
  induction p generalizing n with
  | ret b => exact .inl ⟨b, n, .refl (le_refl n), h⟩
  | step a k ih =>
    obtain rfl | ⟨m, inp, hnm, hml, ht, ha, hstate, hrest⟩ := h.of_step_at
    · exact .inr ⟨_, a, k, rfl, .refl h.le⟩
    · obtain ⟨b, m', hfirst, hthen⟩ | ⟨γ', a', k', hq, hfirst⟩ := ih _ hrest
      · exact .inl ⟨b, m', .step hnm hfirst.le ht ha hstate hfirst, hthen⟩
      · exact .inr ⟨γ', a', k', hq, .step hnm hml ht ha hstate hfirst⟩

theorem Trail.of_bind_ret {p : Prog Act γ} {f : γ → Prog Act β} {c : β}
    (h : Trail e i (p.bind f) n (.ret c) l) :
    ∃ b m, Trail e i p n (.ret b) m ∧ Trail e i (f b) m (.ret c) l := by
  obtain hdone | ⟨γ', a, k, hq, -⟩ := h.of_bind
  · exact hdone
  · cases hq

theorem Trail.of_andThen_ok {ε : Type} {p : Prog Act (Except ε γ)} {f : γ → Prog Act (Except ε β)}
    {c : β} (h : Trail e i (p.andThen f) n (.ret (.ok c)) l) :
    ∃ b m, Trail e i p n (.ret (.ok b)) m ∧ Trail e i (f b) m (.ret (.ok c)) l := by
  obtain ⟨r, m, hfirst, hthen⟩ := h.of_bind_ret
  cases r with
  | error err => cases hthen.of_ret
  | ok b => exact ⟨b, m, hfirst, hthen⟩

theorem Trail.of_each_ret {κ : Type} {a : κ → Act γ} {ks : List κ} {bs : List γ}
    (h : Trail e i (each a ks) n (.ret bs) l) :
    List.Forall₂ (fun k b => ∃ m inp, b = (e.sem.exec i (a k) inp (e.state m)).2) ks bs := by
  induction ks generalizing n l bs with
  | nil =>
    cases h.of_ret
    exact .nil
  | cons k ks ih =>
    rw [each_cons] at h
    obtain ⟨m, inp, -, -, -, -, h⟩ := h.of_step_ret
    obtain ⟨bs', m', hrest, hdone⟩ := h.of_bind_ret
    cases hdone.of_ret
    exact .cons ⟨m, inp, rfl⟩ (ih hrest)

theorem Trail.mem_all_ret {ps : List (Prog Act γ)} {bs : List γ}
    (h : Trail e i (all ps) n (.ret bs) l) {b : γ} (hb : b ∈ bs) :
    ∃ p ∈ ps, ∃ n' l', n ≤ n' ∧ l' ≤ l ∧ Trail e i p n' (.ret b) l' := by
  induction ps generalizing n l bs with
  | nil =>
    cases h.of_ret
    exact absurd hb not_mem_nil
  | cons p ps ih =>
    obtain ⟨b', m, hfirst, hthen⟩ := h.of_bind_ret
    obtain ⟨bs', m', hrest, hdone⟩ := hthen.of_bind_ret
    cases hdone.of_ret
    rcases mem_cons.mp hb with rfl | hb
    · exact ⟨p, mem_cons_self, n, m, le_refl n, hthen.le, hfirst⟩
    · obtain ⟨q, hq, n', l', hmn, hlm, htrail⟩ := ih hrest hb
      exact ⟨q, mem_cons_of_mem p hq, n', l', hfirst.le.trans hmn, hlm.trans hdone.le, htrail⟩

theorem Performs.trail_map {p : Prog Act γ} {f : γ → α} {γ' : Type}
    {a : Act γ'} (h : e.Performs n i a) (hp : e.prog 0 i = some (p.map f)) :
    ∃ k, e.prog n i = some ((Prog.step a k).map f) ∧ Trail e i p 0 (.step a k) n := by
  obtain ⟨inp, k, -, hi⟩ := h
  obtain ⟨q, hq, htrail⟩ := trail hp (Nat.zero_le n)
  obtain rfl : q = .step a k := some.inj (hq.symm.trans hi)
  obtain ⟨b, m, -, hthen⟩ | ⟨γ'', a', k', hsame, hfirst⟩ := htrail.of_bind
  · cases hthen.of_ret
  · cases hsame
    exact ⟨k', hi, hfirst⟩

theorem trail_map_answer {p : Prog Act γ} {f : γ → α} {b : α} (h : e.answer n i = some b)
    (hp : e.prog 0 i = some (p.map f)) : ∃ c, b = f c ∧ Trail e i p 0 (.ret c) n := by
  obtain ⟨q, hq, htrail⟩ := trail hp (zero_le n)
  obtain rfl : q = .ret b := some.inj (hq.symm.trans (answer_eq_some.mp h))
  obtain ⟨c, m, hfirst, hthen⟩ := htrail.of_bind_ret
  exact ⟨c, by cases hthen.of_ret; rfl, hfirst.extend hthen.le⟩

theorem Performs.lt_of_answer {m : ℕ} {a : Act γ} (h : e.Performs m i a)
    (hanswer : (e.answer n i).isSome) : m < n := by
  by_contra hle
  obtain ⟨b, hb⟩ := isSome_iff_exists.mp hanswer
  obtain ⟨inp, k, -, hi⟩ := h
  obtain ⟨q, hq, htrail⟩ := trail (answer_eq_some.mp hb) (Nat.le_of_not_lt hle)
  cases htrail.of_ret
  cases hq.symm.trans hi

theorem answer_mono {m : ℕ} {b : α} (h : e.answer n i = some b) (hnm : n ≤ m) :
    e.answer m i = some b := by
  obtain ⟨q, hq, htrail⟩ := trail (answer_eq_some.mp h) hnm
  cases htrail.of_ret
  exact answer_eq_some.mpr hq

theorem prog_of_not_moves (h : ∀ m < n, e.moves m i = false) : e.prog n i = e.prog 0 i := by
  induction n with
  | zero => rfl
  | succ n ih =>
    rw [prog_succ_of_not_moves (h n (lt_succ_self n))]
    exact ih fun m hm => h m (lt_succ_of_lt hm)

/-! ## Sections a program cannot get to -/

theorem Trail.only {P : ∀ {γ : Type}, Act γ → Prop}
    (h : Trail e i p n q l) (hp : p.Only P) : q.Only P := by
  induction h with
  | refl _ => exact hp
  | step _ _ _ _ _ _ ih => exact ih (hp.2 _)

theorem Performs.only {P : ∀ {γ : Type}, Act γ → Prop} {a : Act γ} (h : e.Performs n i a)
    {p : Prog Act α} (hp : e.prog 0 i = some p) (honly : p.Only P) : P a := by
  obtain ⟨inp, k, -, hi⟩ := h
  obtain ⟨q, hq, htrail⟩ := trail hp (zero_le n)
  obtain rfl : q = .step a k := some.inj (hq.symm.trans hi)
  exact (htrail.only honly).1

theorem Trail.steps {R : ∀ {γ : Type}, Act γ → (γ → Prog Act β) → Prop} (h : Trail e i p n q l)
    (hp : p.Steps R) : q.Steps R := by
  induction h with
  | refl _ => exact hp
  | step _ _ _ _ _ _ ih => exact ih (hp.2 _)

theorem steps_of_prog {R : ∀ {γ : Type}, Act γ → (γ → Prog Act α) → Prop}
    {a : Act γ} {k : γ → Prog Act α} (h : e.prog n i = some (.step a k)) {p : Prog Act α}
    (hp : e.prog 0 i = some p) (hsteps : p.Steps R) : R a k := by
  obtain ⟨q, hq, htrail⟩ := trail hp (zero_le n)
  obtain rfl : q = .step a k := some.inj (hq.symm.trans h)
  exact (htrail.steps hsteps).1

/-! ## Calls

The threads of an execution are often the programs of a list of calls, one each. -/

section Calls

variable {κ : Type} {calls : List κ} {f : κ → Prog Act α}

variable (hstart : e.start.threads = calls.map f)
include hstart

theorem prog_zero_of_call {i : ℕ} {c : κ} (h : calls[i]? = some c) : e.prog 0 i = some (f c) := by
  show e.start.threads[i]? = _
  rw [hstart, getElem?_map, h]
  rfl

theorem call_of_prog {n i : ℕ} {q : Prog Act α}
    (h : e.prog n i = some q) : ∃ c, calls[i]? = some c := by
  have hlen := (List.getElem?_eq_some_iff.mp h).1
  rw [pool, Pool.length_threads_run, hstart, length_map] at hlen
  exact ⟨_, getElem?_eq_getElem hlen⟩

omit hstart

theorem Performs.of_call {P : κ → ∀ {γ : Type}, Act γ → Prop} {n i : ℕ} {γ : Type} {a : Act γ}
    (h : e.Performs n i a) (hstart : e.start.threads = calls.map f)
    (honly : ∀ c, (f c).Only (P c)) : ∃ c, calls[i]? = some c ∧ P c a := by
  have hprog := h
  obtain ⟨_, _, -, hi⟩ := hprog
  obtain ⟨c, hc⟩ := call_of_prog hstart hi
  exact ⟨c, hc, h.only (prog_zero_of_call hstart hc) (honly c)⟩

end Calls

/-! ## Sections a program cannot do without -/

section Must

variable {C : ∀ {γ : Type}, Act γ → γ → Prop} {P : ∀ {γ : Type}, Act γ → Prop}

variable {i n l : ℕ} {p : Prog Act β}

theorem Trail.must {q : Prog Act β} (h : Trail e i p n q l) (hp : p.Must P) :
    (∃ (y : ℕ) (γ : Type) (a : Act γ), n ≤ y ∧ y < l ∧ e.Performs y i a ∧ P a) ∨ q.Must P := by
  induction h with
  | refl _ => exact .inr hp
  | step hnm hml _ ha _ _ ih =>
    rcases hp with hP | hlater
    · exact .inl ⟨_, _, _, hnm, hml, ha, hP⟩
    · obtain ⟨y, γ, a, hmy, hyl, hy, hP⟩ | hq := ih (hlater _)
      · exact .inl ⟨y, γ, a, by omega, hyl, hy, hP⟩
      · exact .inr hq

theorem Trail.must_ret {b : β} (h : Trail e i p n (.ret b) l)
    (hp : p.Must P) : ∃ (y : ℕ) (γ : Type) (a : Act γ), n ≤ y ∧ y < l ∧ e.Performs y i a ∧ P a := by
  obtain hperformed | hq := h.must hp
  · exact hperformed
  · exact hq.elim

theorem Trail.followed {q : Prog Act β} (h : Trail e i p n q l)
    (hp : p.Followed C P) : q.Followed C P := by
  induction h with
  | refl _ => exact hp
  | step _ _ _ _ _ _ ih => exact ih (hp _).2

theorem Performs.followed {γ : Type} {a : Act γ} (h : e.Performs n i a)
    {p : Prog Act α} (hp : e.prog 0 i = some p) (hfollowed : p.Followed C P)
    (hC : ∀ inp, C a (e.sem.exec i a inp (e.state n)).2) (hreturned : (e.answer l i).isSome) :
    ∃ (y : ℕ) (γ' : Type) (b : Act γ'), n < y ∧ y < l ∧ e.Performs y i b ∧ P b := by
  obtain ⟨inp, k, hprog, hnext, -⟩ := h.succ
  obtain ⟨q, hq, hbefore⟩ := trail hp (zero_le n)
  obtain rfl : q = .step a k := some.inj (hq.symm.trans hprog)
  have hmust := (hbefore.followed hfollowed _).1 (hC inp)
  obtain ⟨b, hb⟩ := isSome_iff_exists.mp hreturned
  obtain ⟨q, hq, hafter⟩ := trail hnext (h.lt_of_answer hreturned)
  obtain rfl : q = .ret b := some.inj (hq.symm.trans (answer_eq_some.mp hb))
  exact hafter.must_ret hmust

end Must

/-! ## What the threads have under way -/

section Ledger

variable (m : σ → ℤ) (f : Prog Act α → Bool)

/-- A section after which the state has as much more as its thread has less under way. -/
def Balanced (sem : Semantics Act ι σ) {γ : Type} (a : Act γ) (k : γ → Prog Act α) : Prop :=
  ∀ i inp s, m (sem.exec i a inp s).1 + (f (k (sem.exec i a inp s).2)).toNat =
    m s + (f (.step a k)).toNat

variable {m f}

theorem countP_set {p q : Prog Act α} {ps : List (Prog Act α)} {i : ℕ} (hi : ps[i]? = some p) :
    (ps.set i q).countP f + (f p).toNat = ps.countP f + (f q).toNat := by
  obtain ⟨hlt, rfl⟩ := List.getElem?_eq_some_iff.mp hi
  have hset : (ps.set i q).countP f =
      ps.countP f - (if f ps[i] = true then 1 else 0) + if f q = true then 1 else 0 :=
    List.countP_set hlt
  have hpos : f ps[i] = true → 0 < ps.countP f := fun h =>
    countP_pos_iff.mpr ⟨_, getElem_mem hlt, h⟩
  rw [hset]
  cases hp : f ps[i] with
  | false => cases f q <;> simp
  | true =>
    have := hpos hp
    cases f q <;> simp <;> omega

/-- **Ledger**: what the state and the threads have, together, stays the same. -/
theorem ledger (e : Execution Act ι σ δ α)
    (hsteps : ∀ i p, e.prog 0 i = some p → p.Steps (Balanced m f e.sem))
    (hact : ∀ d s, m (e.act d s) = m s) (n : ℕ) :
    m (e.state n) + (e.pool n).threads.countP f = m e.start.state + e.start.threads.countP f := by
  induction n with
  | zero => rfl
  | succ n ih =>
    rw [← ih]
    obtain hsame | ⟨d, hmoved⟩ | ⟨i, inp, γ, a, k, -, hi, hmoved⟩ := e.pool_succ_cases n
    · rw [state, hsame, state]
    · rw [state, hmoved, hact]
    · obtain ⟨p, hp⟩ : ∃ p, e.prog 0 i = some p := by
        have hlt := (List.getElem?_eq_some_iff.mp hi).1
        rw [pool, Pool.length_threads_run] at hlt
        exact ⟨_, getElem?_eq_getElem hlt⟩
      have hbalance := steps_of_prog hi hp (hsteps i p hp) i inp (e.state n)
      have hcount := countP_set (f := f) (q := k (e.sem.exec i a inp (e.state n)).2) hi
      rw [state, hmoved]
      dsimp only
      omega

end Ledger

end Execution

end Atomic
