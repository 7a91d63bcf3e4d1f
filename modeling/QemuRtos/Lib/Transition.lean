import Mathlib.Data.List.Basic

/-!
# Labelled transition systems with failing steps

A step takes a label and a state to a state or to an error. `Run step P s l t`: from `s` the labels
`l` lead to `t`, every step succeeds, and every step meets the side condition `P` (what the caller
of the step promises) in the state it starts from.

`Run.invariant` is the induction rule of every safety proof: a property that each step keeps holds
at the end of each run. `Traced` is a run with the events of its steps, which `Run.traced` finds.
-/

namespace Lib

universe u

variable {σ τ ι ε : Type*}

/-! ### Steps that fail -/

@[simp] theorem ok_bind {α β : Type u} (a : α) (f : α → Except ε β) : (Except.ok a >>= f) = f a := rfl

@[simp] theorem error_bind {α β : Type u} (e : ε) (f : α → Except ε β) :
    (Except.error e >>= f) = .error e := rfl

theorem bind_eq_ok {α β : Type u} {x : Except ε α} {f : α → Except ε β} {b : β} :
    x >>= f = .ok b ↔ ∃ a, x = .ok a ∧ f a = .ok b := by
  cases x with
  | error e => simp
  | ok a => simp

/-! ### Runs -/

/-- Runs of a step function under a side condition. -/
inductive Run (step : ι → σ → Except ε σ) (P : ι → σ → Prop) : σ → List ι → σ → Prop
  | nil (s : σ) : Run step P s [] s
  | cons {s t u : σ} {i : ι} {l : List ι} : P i s → step i s = .ok t → Run step P t l u →
      Run step P s (i :: l) u

namespace Run

variable {step : ι → σ → Except ε σ} {P Q : ι → σ → Prop}

theorem single {s t : σ} {i : ι} (hp : P i s) (hs : step i s = .ok t) : Run step P s [i] t :=
  .cons hp hs (.nil t)

theorem eq_of_nil {s t : σ} (h : Run step P s [] t) : t = s := by
  cases h
  rfl

theorem uncons {s u : σ} {i : ι} {l : List ι} (h : Run step P s (i :: l) u) :
    ∃ t, P i s ∧ step i s = .ok t ∧ Run step P t l u := by
  cases h with
  | cons hp hs h => exact ⟨_, hp, hs, h⟩

theorem mono (hPQ : ∀ i s, P i s → Q i s) {s t : σ} {l : List ι} (h : Run step P s l t) :
    Run step Q s l t := by
  induction h with
  | nil s => exact .nil s
  | cons hp hs _ ih => exact .cons (hPQ _ _ hp) hs ih

/-- A property that every step keeps holds at the end of every run. -/
theorem invariant {Inv : σ → Prop}
    (hstep : ∀ i s t, Inv s → P i s → step i s = .ok t → Inv t) {s t : σ} {l : List ι}
    (h : Run step P s l t) (hs : Inv s) : Inv t := by
  induction h with
  | nil => exact hs
  | cons hp he _ ih => exact ih (hstep _ _ _ hs hp he)

end Run

/-! ### Runs with their events -/

/-- A run with the events of its steps, in order: `Makes i s es t` says that the step `i` from `s` to `t` makes
the events `es`. -/
inductive Traced {α : Type*} (step : ι → σ → Except ε σ) (P : ι → σ → Prop) (Makes : ι → σ → List α → σ → Prop) :
    σ → List ι → List α → σ → Prop
  | nil (s : σ) : Traced step P Makes s [] [] s
  | cons {s t u : σ} {i : ι} {l : List ι} {es es' : List α} (hp : P i s) (hs : step i s = .ok t)
    (hm : Makes i s es t) (rest : Traced step P Makes t l es' u) : Traced step P Makes s (i :: l) (es ++ es') u

/-- If every step makes events, every run has some. -/
theorem Run.traced {α : Type*} {step : ι → σ → Except ε σ} {P : ι → σ → Prop} {Makes : ι → σ → List α → σ → Prop}
    {Inv : σ → Prop} (hinv : ∀ i s t, Inv s → P i s → step i s = .ok t → Inv t)
    (hmakes : ∀ i s t, Inv s → P i s → step i s = .ok t → ∃ es, Makes i s es t) {s t : σ} {l : List ι}
    (h : Run step P s l t) (hs : Inv s) : ∃ es, Traced step P Makes s l es t := by
  induction h with
  | nil s => exact ⟨[], .nil s⟩
  | cons hp hx _ ih =>
    obtain ⟨es, hm⟩ := hmakes _ _ _ hs hp hx
    obtain ⟨es', hrest⟩ := ih (hinv _ _ _ hs hp hx)
    exact ⟨es ++ es', .cons hp hx hm hrest⟩

/-! ### What a run shows -/

/-- The outputs of a run, up to its first failure, which shows as `none`. -/
def outputs {β : Type*} (step : ι → σ → Except ε (β × σ)) : List ι → σ → List (Option β)
  | [], _ => []
  | i :: l, s => match step i s with
    | .error _ => [none]
    | .ok (b, t) => some b :: outputs step l t

/-- The steps of two systems from related states both fail, or show the same and end in related states. -/
def Agree {β : Type*} (R : σ → τ → Prop) : Except ε (β × σ) → Except ε (β × τ) → Prop
  | .error _, .error _ => True
  | .ok (b, s), .ok (b', t) => b = b' ∧ R s t
  | _, _ => False

theorem outputs_eq {β : Type*} {step : ι → σ → Except ε (β × σ)} {step' : ι → τ → Except ε (β × τ)}
    {R : σ → τ → Prop} (hstep : ∀ i s t, R s t → Agree R (step i s) (step' i t)) (l : List ι) {s : σ} {t : τ}
    (h : R s t) : outputs step l s = outputs step' l t := by
  induction l generalizing s t with
  | nil => rfl
  | cons i l ih =>
    have hi := hstep i s t h
    simp only [outputs]
    cases hs : step i s with
    | error e =>
      cases ht : step' i t with
      | error e' => rfl
      | ok r => rw [hs, ht] at hi; exact hi.elim
    | ok r =>
      cases ht : step' i t with
      | error e' => rw [hs, ht] at hi; exact hi.elim
      | ok r' =>
        rw [hs, ht] at hi
        obtain ⟨hb, hr⟩ := hi
        dsimp only
        rw [hb, ih hr]

/-- The state after a step that shows an output. -/
def next {β : Type*} (step : ι → σ → Except ε (β × σ)) (i : ι) (s : σ) : Except ε σ := (step i s).map Prod.snd

/-- Each run of a system is a run of one that agrees with it. -/
theorem Run.agree {β : Type*} {step : ι → σ → Except ε (β × σ)} {step' : ι → τ → Except ε (β × τ)}
    {R : σ → τ → Prop} (hstep : ∀ i s t, R s t → Agree R (step i s) (step' i t)) {l : List ι} {s s' : σ}
    (h : Run (next step) (fun _ _ => True) s l s') {t : τ} (hr : R s t) :
    ∃ t', Run (next step') (fun _ _ => True) t l t' ∧ R s' t' := by
  induction h generalizing t with
  | nil s => exact ⟨t, .nil t, hr⟩
  | @cons s₁ s₂ s₃ i l hp hs _ ih =>
    have hi := hstep i s₁ t hr
    rw [next] at hs
    cases h₁ : step i s₁ with
    | error e => rw [h₁] at hs; cases hs
    | ok r =>
      cases h₂ : step' i t with
      | error e => rw [h₁, h₂] at hi; exact hi.elim
      | ok r' =>
        rw [h₁] at hs
        rw [h₁, h₂] at hi
        obtain rfl := Except.ok.inj hs
        obtain ⟨t', hrun, hr'⟩ := ih hi.2
        exact ⟨t', .cons trivial (by rw [next, h₂]; rfl) hrun, hr'⟩

/-- Running a list of labels, for runs on fixed inputs. -/
def runAll (step : ι → σ → Except ε σ) : List ι → σ → Except ε σ
  | [], s => .ok s
  | i :: l, s => match step i s with
    | .ok t => runAll step l t
    | .error e => .error e

/-- A test of the result of a step or a run. -/
def succeeds (p : σ → Bool) : Except ε σ → Bool
  | .ok t => p t
  | .error _ => false

theorem of_succeeds {p : σ → Bool} {x : Except ε σ} (h : succeeds p x = true) : ∃ t, x = .ok t ∧ p t = true := by
  cases x with
  | error e => cases h
  | ok t => exact ⟨t, rfl, h⟩

theorem run_of_runAll {step : ι → σ → Except ε σ} {P : ι → σ → Prop} {l : List ι} {s t : σ}
    (hP : ∀ i ∈ l, ∀ s, P i s) (h : runAll step l s = .ok t) : Run step P s l t := by
  induction l generalizing s with
  | nil =>
    obtain rfl := Except.ok.inj h
    exact .nil s
  | cons i l ih =>
    rw [runAll] at h
    cases hs : step i s with
    | error e =>
      rw [hs] at h
      cases h
    | ok u =>
      rw [hs] at h
      exact .cons (hP i List.mem_cons_self s) hs (ih (fun j hj => hP j (List.mem_cons_of_mem _ hj)) h)

/-- A run on fixed inputs, from a start that is itself computed, when every step is allowed in every state. -/
theorem exists_run {α : Type*} (step : ι → σ → Except ε σ) (P : ι → σ → Prop) (start : Except ε α) (f : α → σ)
    (l : List ι) (p : σ → Bool) (h : succeeds (fun a => succeeds p (runAll step l (f a))) start = true)
    (hP : ∀ i ∈ l, ∀ s, P i s) :
    ∃ a t, start = .ok a ∧ Run step P (f a) l t ∧ p t = true := by
  obtain ⟨a, ha, h⟩ := of_succeeds h
  obtain ⟨t, ht, hp⟩ := of_succeeds h
  exact ⟨a, t, ha, run_of_runAll hP ht, hp⟩

/-- Run the labels while the steps are allowed, and test the last state. -/
def checkRun (step : ι → σ → Except ε σ) (P : ι → σ → Prop) [∀ i s, Decidable (P i s)] (p : σ → Bool) :
    List ι → σ → Bool
  | [], s => p s
  | i :: l, s => decide (P i s) && succeeds (checkRun step P p l) (step i s)

theorem run_of_checkRun {step : ι → σ → Except ε σ} {P : ι → σ → Prop} [∀ i s, Decidable (P i s)] {p : σ → Bool}
    {l : List ι} {s : σ} (h : checkRun step P p l s = true) : ∃ t, Run step P s l t ∧ p t = true := by
  induction l generalizing s with
  | nil => exact ⟨s, .nil s, h⟩
  | cons i l ih =>
    rw [checkRun, Bool.and_eq_true_iff] at h
    obtain ⟨hp, h⟩ := h
    obtain ⟨t, hs, h⟩ := of_succeeds h
    obtain ⟨u, hrun, hu⟩ := ih h
    exact ⟨u, .cons (of_decide_eq_true hp) hs hrun, hu⟩

theorem run_of_startCheck {step : ι → σ → Except ε σ} {P : ι → σ → Prop} [∀ i s, Decidable (P i s)] {p : σ → Bool}
    {l : List ι} {start : Except ε σ} (h : succeeds (checkRun step P p l) start = true) :
    ∃ s t, start = .ok s ∧ Run step P s l t ∧ p t = true := by
  obtain ⟨s, hs, h⟩ := of_succeeds h
  obtain ⟨t, hrun, hp⟩ := run_of_checkRun h
  exact ⟨s, t, hs, hrun, hp⟩

end Lib
