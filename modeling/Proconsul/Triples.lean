import Proconsul.RelyGuarantee

/-!
# Programs run alone

A triple speaks of an undisturbed execution: started where the precondition holds, a
program that returns leaves a value and a state that satisfy the postcondition. Of a
program that raises nothing is asked. What a program upholds among others it upholds
alone, so a phase that keeps an invariant counts as one step here.
-/

namespace Triples

open Program RelyGuarantee

universe u v w

variable {σ : Type u} {ε : Type v} {α β : Type w}
variable {P P' : σ → Prop} {Q Q' : α → σ → Prop} {R : β → σ → Prop}

def Triple (P : σ → Prop) (p : Prog σ ε α) (Q : α → σ → Prop) : Prop :=
  ∀ s, P s → ∀ a t, p.run s = (.ok a, t) → Q a t

theorem triple_pure {a : α} (h : ∀ s, P s → Q a s) : Triple P (pure a : Prog σ ε α) Q := by
  rintro s pre _ _ ⟨⟩
  exact h s pre

theorem triple_throwing (e : ε) : Triple P (Prog.throwing e : Prog σ ε α) Q := by
  rintro s _ a t ⟨⟩

theorem triple_atom {f : σ → Except ε α × σ} (h : ∀ s, P s → ∀ a t, f s = (.ok a, t) → Q a t) :
    Triple P (Prog.atom f) Q := h

theorem triple_bind {p : Prog σ ε α} {f : α → Prog σ ε β} (first : Triple P p Q)
    (rest : ∀ a, Triple (Q a) (f a) R) : Triple P (p >>= f) R := by
  intro s pre b t ends
  rcases hp : p.run s with ⟨e | a, s'⟩
  · rw [Prog.run_bind_error hp] at ends
    cases ends
  · rw [Prog.run_bind_ok hp] at ends
    exact rest a s' (first s pre a s' hp) b t ends

theorem Triple.weaken {p : Prog σ ε α} (h : Triple P p Q) (pre : ∀ s, P' s → P s)
    (post : ∀ a s, Q a s → Q' a s) : Triple P' p Q' :=
  fun s hs a t ends => post a t (h s (pre s hs) a t ends)

theorem triple_attempt {Q' : Option α → σ → Prop} {p : Prog σ ε α} (reads : p.Reads)
    (h : Triple P p Q) (value : ∀ a s, Q a s → Q' (some a) s) (raised : ∀ s, P s → Q' none s) :
    Triple P (Prog.attempt p) Q' := by
  intro s pre o t ends
  have same := Prog.run_unchanged reads s
  rw [Prog.run_attempt] at ends
  rcases hp : p.run s with ⟨e | a, s'⟩
  · rw [hp] at ends same
    cases ends
    obtain rfl : t = s := same
    exact raised t pre
  · rw [hp] at ends
    cases ends
    exact value a t (h s pre a t hp)

section Upholding

variable {I : σ → Prop} {G : σ → σ → Prop} {V : α → Prop}

/-- Promises made to others are kept towards nobody. -/
theorem run_assured {p : Prog σ ε α} {seen s : σ}
    (h : Assures I (fun _ _ => True) G (fun a _ => V a) p seen) (inv : I s) :
    I (p.run s).2 ∧ ∀ a, (p.run s).1 = .ok a → V a := by
  induction p generalizing seen s with
  | done r =>
    refine ⟨inv, ?_⟩
    rintro a rfl
    exact h
  | step update next ih =>
    obtain ⟨kept, -, later⟩ := h s trivial inv
    exact ih s later kept

theorem triple_upholds {p : Prog σ ε α} (h : Upholds I G V p) : Triple I p (fun a t => I t ∧ V a) := by
  intro s inv a t ends
  obtain ⟨kept, value⟩ := run_assured (h s) inv
  rw [ends] at kept value
  exact ⟨kept, value a rfl⟩

end Upholding

end Triples
