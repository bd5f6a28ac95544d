import Mathlib.Data.List.Nodup
import Mathlib.Logic.Function.Basic
import Shashlik.Library.SystemRuns

set_option autoImplicit false

/-!
# Linearizable histories

The calls of many clients on one object overlap in time. Their history is linearizable when the
calls can be put in one order that gives the answers which were received and in which no call
stands before one that had returned when it was made. A system that takes a point between the
call and the answer at which the call happens has only such histories.
-/
namespace Linearizability
open SystemRuns

variable {γ ο α σ : Type}

inductive Event (γ ο α : Type) where
  | invoke (client : γ) (op : ο)
  | respond (client : γ) (answer : α)

def Event.client : Event γ ο α → γ
  | .invoke c _ => c
  | .respond c _ => c

/-- The call at one place of the history returns at another one. -/
structure Answered (H : List (Event γ ο α)) (i j : ℕ) (c : γ) (o : ο) (a : α) : Prop where
  invoked : H[i]? = some (.invoke c o)
  responded : H[j]? = some (.respond c a)
  lt : i < j
  between : ∀ k e, i < k → k < j → H[k]? = some e → e.client ≠ c

def Precedes (H : List (Event γ ο α)) (i k : ℕ) : Prop :=
  ∃ j c o a, Answered H i j c o a ∧ j < k

/-- An order of calls, as their places in the history, that explains it. -/
structure Linearizes (spec : σ → ο → σ × α) (s : σ) (H : List (Event γ ο α))
    (order : List (ℕ × ο)) : Prop where
  invoked : ∀ p ∈ order, ∃ c, H[p.1]? = some (.invoke c p.2)
  nodup : (order.map Prod.fst).Nodup
  complete : ∀ i j c o a, Answered H i j c o a → (i, o) ∈ order
  realTime : order.Pairwise (fun p q => ¬ Precedes H q.1 p.1)
  legal : ∀ (n : ℕ) (p : ℕ × ο) (j : ℕ) (c : γ) (a : α), order[n]? = some p →
    Answered H p.1 j c p.2 a → (spec (specRun spec s ((order.take n).map Prod.snd)) p.2).2 = a

def Linearizable (spec : σ → ο → σ × α) (s : σ) (H : List (Event γ ο α)) : Prop :=
  ∃ order, Linearizes spec s H order

/-! ### Histories that grow -/

structure Open (H : List (Event γ ο α)) (i : ℕ) (c : γ) (o : ο) : Prop where
  invoked : H[i]? = some (.invoke c o)
  behind : ∀ k e, i < k → H[k]? = some e → e.client ≠ c

theorem lt_of_getElem? {H : List (Event γ ο α)} {i : ℕ} {e : Event γ ο α}
    (h : H[i]? = some e) : i < H.length := (List.getElem?_eq_some_iff.mp h).1

theorem getElem?_concat_eq_some_iff {ε : Type} {H : List ε} {e e' : ε} {i : ℕ} :
    (H ++ [e])[i]? = some e' ↔ H[i]? = some e' ∨ (i = H.length ∧ e = e') := by
  obtain hlt | heq | hgt := Nat.lt_trichotomy i H.length
  · rw [List.getElem?_append_left hlt]
    exact (or_iff_left (fun h => by omega)).symm
  · subst heq
    simp
  · rw [List.getElem?_eq_none (by simp; omega), List.getElem?_eq_none (by omega)]
    exact iff_of_false (by simp) (by simp; omega)

theorem Open.unique {H : List (Event γ ο α)} {i i' : ℕ} {c : γ} {o o' : ο} (h : Open H i c o)
    (h' : Open H i' c o') : i = i' := by
  obtain hlt | heq | hgt := Nat.lt_trichotomy i i'
  · exact absurd rfl (h.behind i' _ hlt h'.invoked)
  · exact heq
  · exact absurd rfl (h'.behind i _ hgt h.invoked)

theorem Open.not_answered {H : List (Event γ ο α)} {i j : ℕ} {c c' : γ} {o o' : ο} {a : α}
    (h : Open H i c o) : ¬ Answered H i j c' o' a := by
  intro hanswered
  have heq := Option.some.inj (h.invoked.symm.trans hanswered.invoked)
  obtain ⟨rfl, rfl⟩ := Event.invoke.inj heq
  exact h.behind j _ hanswered.lt hanswered.responded rfl

theorem open_concat_iff {H : List (Event γ ο α)} {e : Event γ ο α} {i : ℕ} {c : γ} {o : ο} :
    Open (H ++ [e]) i c o ↔
      (Open H i c o ∧ e.client ≠ c) ∨ (i = H.length ∧ e = .invoke c o) := by
  constructor
  · rintro ⟨hinvoked, hbehind⟩
    obtain hold | ⟨rfl, rfl⟩ := getElem?_concat_eq_some_iff.mp hinvoked
    · refine Or.inl ⟨⟨hold, fun k e' hk he' => ?_⟩, ?_⟩
      · exact hbehind k e' hk (getElem?_concat_eq_some_iff.mpr (Or.inl he'))
      · exact hbehind H.length e (lt_of_getElem? hold)
          (getElem?_concat_eq_some_iff.mpr (Or.inr ⟨rfl, rfl⟩))
    · exact Or.inr ⟨rfl, rfl⟩
  · rintro (⟨⟨hinvoked, hbehind⟩, hclient⟩ | ⟨rfl, rfl⟩)
    · refine ⟨getElem?_concat_eq_some_iff.mpr (Or.inl hinvoked), fun k e' hk he' => ?_⟩
      obtain hold | ⟨-, rfl⟩ := getElem?_concat_eq_some_iff.mp he'
      · exact hbehind k e' hk hold
      · exact hclient
    · refine ⟨getElem?_concat_eq_some_iff.mpr (Or.inr ⟨rfl, rfl⟩), fun k e' hk he' => ?_⟩
      obtain hold | ⟨rfl, -⟩ := getElem?_concat_eq_some_iff.mp he'
      · exact absurd (lt_of_getElem? hold) (by omega)
      · exact absurd hk (Nat.lt_irrefl _)

theorem answered_concat_iff {H : List (Event γ ο α)} {e : Event γ ο α} {i j : ℕ} {c : γ} {o : ο}
    {a : α} : Answered (H ++ [e]) i j c o a ↔
      Answered H i j c o a ∨ (j = H.length ∧ e = .respond c a ∧ Open H i c o) := by
  constructor
  · rintro ⟨hinvoked, hresponded, hlt, hbetween⟩
    have hold (k : ℕ) (e' : Event γ ο α) (hk : i < k) (hkj : k < j) (he' : H[k]? = some e') :
        e'.client ≠ c := hbetween k e' hk hkj (getElem?_concat_eq_some_iff.mpr (Or.inl he'))
    obtain hcall | ⟨rfl, -⟩ := getElem?_concat_eq_some_iff.mp hinvoked
    · obtain hreturn | ⟨rfl, rfl⟩ := getElem?_concat_eq_some_iff.mp hresponded
      · exact Or.inl ⟨hcall, hreturn, hlt, hold⟩
      · exact Or.inr ⟨rfl, rfl, hcall, fun k e' hk he' => hold k e' hk (lt_of_getElem? he') he'⟩
    · obtain hreturn | ⟨rfl, -⟩ := getElem?_concat_eq_some_iff.mp hresponded
      · exact absurd (lt_of_getElem? hreturn) (by omega)
      · exact absurd hlt (Nat.lt_irrefl _)
  · rintro (⟨hinvoked, hresponded, hlt, hbetween⟩ | ⟨rfl, rfl, hinvoked, hbehind⟩)
    · refine ⟨getElem?_concat_eq_some_iff.mpr (Or.inl hinvoked),
        getElem?_concat_eq_some_iff.mpr (Or.inl hresponded), hlt, fun k e' hk hkj he' => ?_⟩
      obtain he' | ⟨rfl, -⟩ := getElem?_concat_eq_some_iff.mp he'
      · exact hbetween k e' hk hkj he'
      · exact absurd (lt_of_getElem? hresponded) (by omega)
    · refine ⟨getElem?_concat_eq_some_iff.mpr (Or.inl hinvoked),
        getElem?_concat_eq_some_iff.mpr (Or.inr ⟨rfl, rfl⟩), lt_of_getElem? hinvoked,
        fun k e' hk hkj he' => ?_⟩
      obtain he' | ⟨rfl, -⟩ := getElem?_concat_eq_some_iff.mp he'
      · exact hbehind k e' hk he'
      · exact absurd hkj (Nat.lt_irrefl _)

theorem not_precedes_last {H : List (Event γ ο α)} {e : Event γ ο α} {i k : ℕ}
    (hk : k < H.length) : Precedes (H ++ [e]) i k ↔ Precedes H i k := by
  constructor
  · rintro ⟨j, c, o, a, hanswered, hj⟩
    obtain hold | ⟨rfl, -, -⟩ := answered_concat_iff.mp hanswered
    · exact ⟨j, c, o, a, hold, hj⟩
    · omega
  · rintro ⟨j, c, o, a, hanswered, hj⟩
    exact ⟨j, c, o, a, answered_concat_iff.mpr (Or.inl hanswered), hj⟩

/-! ### Points -/

/-- What a client waits for. -/
inductive Status (ο α : Type) where
  | idle
  | pending (op : ο)
  | done (answer : α)

/-- A step of a client, or the point at which its call happens. -/
inductive Label (γ ο α : Type) where
  | event (e : Event γ ο α)
  | point (client : γ)

def history (ls : List (Label γ ο α)) : List (Event γ ο α) :=
  ls.filterMap fun
    | .event e => some e
    | .point _ => none

variable (spec : σ → ο → σ × α)

inductive Step [DecidableEq γ] : σ × (γ → Status ο α) → Label γ ο α → σ × (γ → Status ο α) → Prop where
  | invoke (x : σ) (status : γ → Status ο α) (c : γ) (o : ο) (h : status c = .idle) :
    Step (x, status) (.event (.invoke c o)) (x, Function.update status c (.pending o))
  | point (x : σ) (status : γ → Status ο α) (c : γ) (o : ο) (h : status c = .pending o) :
    Step (x, status) (.point c)
      ((spec x o).1, Function.update status c (.done (spec x o).2))
  | respond (x : σ) (status : γ → Status ο α) (c : γ) (a : α) (h : status c = .done a) :
    Step (x, status) (.event (.respond c a)) (x, Function.update status c .idle)

/-- What the order so far says of a waiting client. -/
def Waits (s : σ) (H : List (Event γ ο α)) (order : List (ℕ × ο)) (c : γ) :
    Status ο α → Prop
  | .idle => True
  | .pending o => ∃ i, Open H i c o ∧ ∀ p ∈ order, p.1 ≠ i
  | .done a => ∃ (n : ℕ) (p : ℕ × ο), order[n]? = some p ∧ Open H p.1 c p.2 ∧
      (spec (specRun spec s ((order.take n).map Prod.snd)) p.2).2 = a

/-- The order of the points explains the history. -/
structure Explains (s : σ) (H : List (Event γ ο α)) (order : List (ℕ × ο))
    (t : σ × (γ → Status ο α)) : Prop where
  linearizes : Linearizes spec s H order
  object : t.1 = specRun spec s (order.map Prod.snd)
  waits : ∀ c, Waits spec s H order c (t.2 c)

variable {spec} {s : σ} {H : List (Event γ ο α)} {order : List (ℕ × ο)}

theorem Linearizes.lt_length (h : Linearizes spec s H order) {p : ℕ × ο} (hp : p ∈ order) :
    p.1 < H.length := by
  obtain ⟨c, hc⟩ := h.invoked p hp
  exact lt_of_getElem? hc

theorem Linearizes.concat (h : Linearizes spec s H order) (e : Event γ ο α)
    (hanswer : ∀ c a i o, e = .respond c a → Open H i c o →
      ∃ n, order[n]? = some (i, o) ∧
        (spec (specRun spec s ((order.take n).map Prod.snd)) o).2 = a) :
    Linearizes spec s (H ++ [e]) order where
  invoked p hp := by
    obtain ⟨c, hc⟩ := h.invoked p hp
    exact ⟨c, getElem?_concat_eq_some_iff.mpr (Or.inl hc)⟩
  nodup := h.nodup
  complete i j c o a hanswered := by
    obtain hold | ⟨-, he, hopen⟩ := answered_concat_iff.mp hanswered
    · exact h.complete i j c o a hold
    · obtain ⟨n, hn, -⟩ := hanswer c a i o he hopen
      exact List.mem_of_getElem? hn
  realTime := by
    refine h.realTime.imp_of_mem fun hp _ hnot => ?_
    rwa [not_precedes_last (h.lt_length hp)]
  legal n p j c a hn hanswered := by
    obtain hold | ⟨-, he, hopen⟩ := answered_concat_iff.mp hanswered
    · exact h.legal n p j c a hn hold
    · obtain ⟨m, hm, hlegal⟩ := hanswer c a p.1 p.2 he hopen
      -- the call stands in the order once
      have hmn : m = n := (List.getElem?_inj (List.getElem?_eq_some_iff.mp hm).1
        (h.nodup.of_map Prod.fst)).mp (hm.trans hn.symm)
      rw [← hmn]
      exact hlegal

theorem Linearizes.point (h : Linearizes spec s H order) {i : ℕ} {c : γ} {o : ο}
    (hopen : Open H i c o) (hnew : ∀ p ∈ order, p.1 ≠ i) :
    Linearizes spec s H (order ++ [(i, o)]) where
  invoked p hp := by
    obtain hp | hp := List.mem_append.mp hp
    · exact h.invoked p hp
    · rw [List.mem_singleton.mp hp]
      exact ⟨c, hopen.invoked⟩
  nodup := by
    rw [List.map_append, List.nodup_append]
    refine ⟨h.nodup, by simp, ?_⟩
    rintro k hk k' hk' rfl
    obtain ⟨p, hp, rfl⟩ := List.mem_map.mp hk
    exact hnew p hp (by simpa using hk')
  complete i' j c' o' a hanswered := List.mem_append_left _ (h.complete i' j c' o' a hanswered)
  realTime := by
    rw [List.pairwise_append]
    refine ⟨h.realTime, List.pairwise_singleton _ _, fun p _ q hq => ?_⟩
    rw [List.mem_singleton.mp hq]
    rintro ⟨j, c', o', a, hanswered, -⟩
    exact hopen.not_answered hanswered
  legal n p j c' a hn hanswered := by
    obtain hold | ⟨-, heq⟩ := getElem?_concat_eq_some_iff.mp hn
    · have hlt := (List.getElem?_eq_some_iff.mp hold).1
      rw [List.take_append_of_le_length (Nat.le_of_lt hlt)]
      exact h.legal n p j c' a hold hanswered
    · rw [← heq] at hanswered
      exact absurd hanswered hopen.not_answered

theorem Waits.concat {c : γ} {status : Status ο α} (h : Waits spec s H order c status)
    (e : Event γ ο α) (hclient : e.client ≠ c) : Waits spec s (H ++ [e]) order c status := by
  cases status with
  | idle => trivial
  | pending o =>
    obtain ⟨i, hopen, hnew⟩ := h
    exact ⟨i, open_concat_iff.mpr (Or.inl ⟨hopen, hclient⟩), hnew⟩
  | done a =>
    obtain ⟨n, p, hn, hopen, hanswer⟩ := h
    exact ⟨n, p, hn, open_concat_iff.mpr (Or.inl ⟨hopen, hclient⟩), hanswer⟩

theorem Waits.point {c : γ} {status : Status ο α} (h : Waits spec s H order c status) {i : ℕ}
    {c' : γ} {o : ο} (hopen : Open H i c' o) (hclient : c' ≠ c) :
    Waits spec s H (order ++ [(i, o)]) c status := by
  cases status with
  | idle => trivial
  | pending o' =>
    obtain ⟨i', hopen', hnew⟩ := h
    refine ⟨i', hopen', fun p hp => ?_⟩
    obtain hp | hp := List.mem_append.mp hp
    · exact hnew p hp
    · rintro rfl
      rw [List.mem_singleton.mp hp] at hopen'
      have heq := Option.some.inj (hopen.invoked.symm.trans hopen'.invoked)
      exact hclient (Event.invoke.inj heq).1
  | done a =>
    obtain ⟨n, p, hn, hopen', hanswer⟩ := h
    have hlt := (List.getElem?_eq_some_iff.mp hn).1
    refine ⟨n, p, getElem?_concat_eq_some_iff.mpr (Or.inl hn), hopen', ?_⟩
    rwa [List.take_append_of_le_length (Nat.le_of_lt hlt)]

theorem explains_start (spec : σ → ο → σ × α) (s : σ) :
    Explains spec s ([] : List (Event γ ο α)) [] (s, fun _ => .idle) where
  linearizes :=
    { invoked := fun p hp => absurd hp (by simp)
      nodup := List.nodup_nil
      complete := fun i j c o a h => absurd h.invoked (by simp)
      realTime := List.Pairwise.nil
      legal := fun n p j c a hn => absurd hn (by simp) }
  object := rfl
  waits _ := trivial

theorem history_append (ls ls' : List (Label γ ο α)) :
    history (ls ++ ls') = history ls ++ history ls' := List.filterMap_append

section Runs
variable [DecidableEq γ]

theorem Explains.step {t t' : σ × (γ → Status ο α)} {l : Label γ ο α}
    (h : Explains spec s H order t) (hstep : Step spec t l t') :
    ∃ order', Explains spec s (H ++ history [l]) order' t' := by
  cases hstep with
  | invoke x status c o hidle =>
    refine ⟨order, h.linearizes.concat _ (fun _ _ _ _ he => absurd he (by simp)), h.object, ?_⟩
    intro c'
    dsimp only
    by_cases hc : c' = c
    · subst hc
      rw [Function.update_self]
      refine ⟨H.length, open_concat_iff.mpr (Or.inr ⟨rfl, rfl⟩), fun p hp => ?_⟩
      exact Nat.ne_of_lt (h.linearizes.lt_length hp)
    · rw [Function.update_of_ne hc]
      exact (h.waits c').concat _ (Ne.symm hc)
  | point x status c o hpending =>
    have hwaits := h.waits c
    dsimp only at hwaits
    rw [hpending] at hwaits
    obtain ⟨i, hopen, hnew⟩ := hwaits
    have hobject := h.object
    dsimp only at hobject
    change ∃ order', Explains spec s (H ++ []) order' _
    rw [List.append_nil]
    refine ⟨order ++ [(i, o)], h.linearizes.point hopen hnew, ?_, ?_⟩
    · dsimp only
      rw [List.map_append]
      unfold specRun at hobject ⊢
      rw [run_append, ← hobject]
      rfl
    · intro c'
      dsimp only
      by_cases hc : c' = c
      · subst hc
        rw [Function.update_self]
        refine ⟨order.length, (i, o), by simp, hopen, ?_⟩
        rw [List.take_left, ← hobject]
      · rw [Function.update_of_ne hc]
        exact (h.waits c').point hopen (Ne.symm hc)
  | respond x status c a hdone =>
    have hwaits := h.waits c
    dsimp only at hwaits
    rw [hdone] at hwaits
    obtain ⟨n, p, hn, hopen, hanswer⟩ := hwaits
    refine ⟨order, h.linearizes.concat _ ?_, h.object, ?_⟩
    · intro c' a' i o he hopen'
      obtain ⟨rfl, rfl⟩ := Event.respond.inj he
      obtain rfl := hopen.unique hopen'
      have heq := Option.some.inj (hopen.invoked.symm.trans hopen'.invoked)
      obtain ⟨-, rfl⟩ := Event.invoke.inj heq
      exact ⟨n, hn, hanswer⟩
    · intro c'
      dsimp only
      by_cases hc : c' = c
      · subst hc
        rw [Function.update_self]
        trivial
      · rw [Function.update_of_ne hc]
        exact (h.waits c').concat _ (Ne.symm hc)

/-- Every step of the system on the events that meet the condition is defined, and is one of a
    client or a point, or none. -/
def Follows {τ ε : Type} (step : τ → ε → Option (τ × List (Label γ ο α)))
    (spec : σ → ο → σ × α) (R : τ → σ × (γ → Status ο α) → Prop) (C : ε → Prop) : Prop :=
  ∀ t x e, R t x → C e → ∃ t' ls, step t e = some (t', ls) ∧
    ((ls = [] ∧ R t' x) ∨ ∃ l x', ls = [l] ∧ Step spec x l x' ∧ R t' x')

theorem Follows.explains {τ ε : Type} {step : τ → ε → Option (τ × List (Label γ ο α))}
    {R : τ → σ × (γ → Status ο α) → Prop} {C : ε → Prop} (hfollows : Follows step spec R C)
    {t : τ} {x : σ × (γ → Status ο α)} (hR : R t x) (hx : Explains spec s H order x)
    (es : List ε) (hC : ∀ e ∈ es, C e) :
    ∃ t' labels order' x', outputs step t es = some (t', labels) ∧ R t' x' ∧
      Explains spec s (H ++ history labels.flatten) order' x' := by
  induction es generalizing t x H order with
  | nil =>
    refine ⟨t, [], order, x, rfl, hR, ?_⟩
    rwa [List.flatten_nil, history, List.filterMap_nil, List.append_nil]
  | cons e es ih =>
    obtain ⟨t₁, ls, hstep, hls⟩ := hfollows t x e hR (hC e List.mem_cons_self)
    obtain ⟨order₁, x₁, hR₁, hx₁⟩ : ∃ order₁ x₁, R t₁ x₁ ∧
        Explains spec s (H ++ history ls) order₁ x₁ := by
      obtain ⟨rfl, hR₁⟩ | ⟨l, x₁, rfl, hl, hR₁⟩ := hls
      · refine ⟨order, x, hR₁, ?_⟩
        rwa [history, List.filterMap_nil, List.append_nil]
      · obtain ⟨order₁, hx₁⟩ := hx.step hl
        exact ⟨order₁, x₁, hR₁, hx₁⟩
    obtain ⟨t', labels, order', x', hrun, hR', hx'⟩ :=
      ih hR₁ hx₁ (fun e' he' => hC e' (List.mem_cons_of_mem _ he'))
    refine ⟨t', ls :: labels, order', x', ?_, hR', ?_⟩
    · rw [outputs, hstep]
      dsimp only
      rw [hrun]
      rfl
    · rwa [List.flatten_cons, history_append, ← List.append_assoc]

end Runs

end Linearizability
