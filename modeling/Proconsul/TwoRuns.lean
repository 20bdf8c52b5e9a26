import Proconsul.Interleaving

/-!
# Two runs side by side

Two programs are alike when they take the same steps from related states to related
states and end in related ways. A program that is like itself cannot tell related
states apart, so that what it answers depends only on what the relation fixes. A
pool of programs that have their likes in another pool is followed there step by
step. Programs whose steps differ, or whose states are of different kinds, can still
match when each is run alone.
-/

namespace TwoRuns

open Program Interleaving

universe u v w

variable {σ : Type u} {ε : Type v} {α β : Type w}

/-- Both end with values related by `Q`, or both with the same exception. -/
def Results (Q : α → β → Prop) : Except ε α → Except ε β → Prop
  | .ok a, .ok b => Q a b
  | .error e, .error e' => e = e'
  | _, _ => False

theorem results_eq {r r' : Except ε α} : Results Eq r r' ↔ r = r' := by
  cases r <;> cases r' <;> simp [Results]

def Alike (E : σ → σ → Prop) (Q : α → β → Prop) : Prog σ ε α → Prog σ ε β → Prop
  | .done r, .done r' => Results Q r r'
  | .step update next, .step update' next' => ∀ s t, E s t →
      E (update s) (update' t) ∧ Alike E Q (next s) (next' t)
  | _, _ => False

variable {E : σ → σ → Prop}

/-! ## Rules -/

section Rules

variable {α' β' : Type w} {Q : α → α' → Prop} {Q' : β → β' → Prop}

theorem alike_pure {a : α} {b : α'} (h : Q a b) :
    Alike E Q (pure a : Prog σ ε α) (pure b : Prog σ ε α') := h

theorem alike_throwing (e : ε) :
    Alike E Q (Prog.throwing e : Prog σ ε α) (Prog.throwing e : Prog σ ε α') := rfl

theorem alike_atom {f : σ → Except ε α × σ} {g : σ → Except ε α' × σ}
    (h : ∀ s t, E s t → E (f s).2 (g t).2 ∧ Results Q (f s).1 (g t).1) :
    Alike E Q (Prog.atom f) (Prog.atom g) :=
  fun s t related => h s t related

theorem Alike.weaken {R : α → α' → Prop} {p : Prog σ ε α} {q : Prog σ ε α'} (h : Alike E Q p q)
    (sub : ∀ a b, Q a b → R a b) : Alike E R p q := by
  induction p generalizing q with
  | done r =>
    cases q with
    | done r' =>
      cases r with
      | error e => cases r' <;> exact h
      | ok a =>
        cases r' with
        | error e => exact h
        | ok b => exact sub a b h
    | step update next => exact h
  | step update next ih =>
    cases q with
    | done r' => exact h
    | step update' next' => exact fun s t related => ⟨(h s t related).1, ih s (h s t related).2⟩

theorem alike_bind {p : Prog σ ε α} {q : Prog σ ε α'} {f : α → Prog σ ε β} {g : α' → Prog σ ε β'}
    (first : Alike E Q p q) (rest : ∀ a b, Q a b → Alike E Q' (f a) (g b)) :
    Alike E Q' (p >>= f) (q >>= g) := by
  change Alike E Q' (Prog.bind p f) (Prog.bind q g)
  induction p generalizing q with
  | done r =>
    cases q with
    | done r' =>
      cases r with
      | error e =>
        cases r' with
        | error e' => exact first
        | ok b => exact first.elim
      | ok a =>
        cases r' with
        | error e => exact first.elim
        | ok b => exact rest a b first
    | step update next => exact first.elim
  | step update next ih =>
    cases q with
    | done r' => exact first.elim
    | step update' next' =>
      exact fun s t related => ⟨(first s t related).1, ih s (first s t related).2⟩

theorem alike_tryCatch {p : Prog σ ε α} {q : Prog σ ε α'} {h : ε → Prog σ ε α}
    {h' : ε → Prog σ ε α'} (body : Alike E Q p q) (handlers : ∀ e, Alike E Q (h e) (h' e)) :
    Alike E Q (Prog.tryCatch p h) (Prog.tryCatch q h') := by
  induction p generalizing q with
  | done r =>
    cases q with
    | done r' =>
      cases r with
      | error e =>
        cases r' with
        | error e' =>
          obtain rfl : e = e' := body
          exact handlers e
        | ok b => exact body.elim
      | ok a =>
        cases r' with
        | error e => exact body.elim
        | ok b => exact body
    | step update next => exact body.elim
  | step update next ih =>
    cases q with
    | done r' => exact body.elim
    | step update' next' =>
      exact fun s t related => ⟨(body s t related).1, ih s (body s t related).2⟩

theorem alike_orElse {p : Prog σ ε α} {q : Prog σ ε α'} {a : α} {b : α'} (body : Alike E Q p q)
    (fallback : Q a b) : Alike E Q (Prog.orElse p a) (Prog.orElse q b) :=
  alike_tryCatch body (fun _ => fallback)

theorem alike_anyM {γ : Type*} {f g : γ → Prog σ ε Bool} {xs : List γ}
    (pass : ∀ x ∈ xs, Alike E Eq (f x) (g x)) : Alike E Eq (xs.anyM f) (xs.anyM g) := by
  induction xs with
  | nil => exact alike_pure rfl
  | cons x xs ih =>
    refine alike_bind (pass x List.mem_cons_self) ?_
    rintro found _ rfl
    cases found with
    | true => exact alike_pure rfl
    | false => exact ih (fun y hy => pass y (List.mem_cons_of_mem x hy))

theorem alike_foldlM {γ : Type*} {f : α → γ → Prog σ ε α} {g : α' → γ → Prog σ ε α'} {xs : List γ}
    (pass : ∀ x ∈ xs, ∀ a b, Q a b → Alike E Q (f a x) (g b x)) {a : α} {b : α'} (h : Q a b) :
    Alike E Q (xs.foldlM f a) (xs.foldlM g b) := by
  induction xs generalizing a b with
  | nil => exact alike_pure h
  | cons x xs ih =>
    rw [List.foldlM_cons, List.foldlM_cons]
    exact alike_bind (pass x List.mem_cons_self a b h)
      (fun _ _ next => ih (fun y hy => pass y (List.mem_cons_of_mem x hy)) next)

theorem alike_forM {γ : Type*} {f g : γ → Prog σ ε PUnit} {xs : List γ}
    (pass : ∀ x ∈ xs, Alike E Eq (f x) (g x)) : Alike E Eq (xs.forM f) (xs.forM g) := by
  induction xs with
  | nil => exact alike_pure rfl
  | cons x xs ih =>
    exact alike_bind (pass x List.mem_cons_self)
      (fun _ _ _ => ih (fun y hy => pass y (List.mem_cons_of_mem x hy)))

/-- Undisturbed executions from related states. -/
theorem Alike.run {p : Prog σ ε α} {q : Prog σ ε α'} (h : Alike E Q p q) {s t : σ}
    (related : E s t) : Results Q (p.run s).1 (q.run t).1 ∧ E (p.run s).2 (q.run t).2 := by
  induction p generalizing q s t with
  | done r =>
    cases q with
    | done r' => exact ⟨h, related⟩
    | step update' next' => exact h.elim
  | step update next ih =>
    cases q with
    | done r' => exact h.elim
    | step update' next' =>
      obtain ⟨moved, rest⟩ := h s t related
      exact ih s rest moved

/-- What a program that is like itself answers. -/
theorem Alike.answer {p : Prog σ ε α} (h : Alike E Eq p p) {s t : σ} (related : E s t) :
    (p.run s).1 = (p.run t).1 := results_eq.mp (h.run related).1

end Rules

/-! ## Run alone, each at its own pace -/

/-- From related states both end in related states and in related ways. -/
def Matching {τ : Type*} (E : σ → τ → Prop) (Q : α → β → Prop) (p : Prog σ ε α) (q : Prog τ ε β) :
    Prop :=
  ∀ s t, E s t → Results Q (p.run s).1 (q.run t).1 ∧ E (p.run s).2 (q.run t).2

section Matching

variable {τ : Type*} {α' β' : Type w} {E : σ → τ → Prop} {Q : α → α' → Prop} {Q' : β → β' → Prop}

theorem matching_pure {a : α} {b : α'} (h : Q a b) :
    Matching E Q (pure a : Prog σ ε α) (pure b : Prog τ ε α') := fun _ _ related => ⟨h, related⟩

theorem matching_bind {p : Prog σ ε α} {q : Prog τ ε α'} {f : α → Prog σ ε β} {g : α' → Prog τ ε β'}
    (first : Matching E Q p q) (rest : ∀ a b, Q a b → Matching E Q' (f a) (g b)) :
    Matching E Q' (p >>= f) (q >>= g) := by
  intro s t related
  obtain ⟨ends, moved⟩ := first s t related
  rcases hp : p.run s with ⟨e | a, s'⟩ <;> rcases hq : q.run t with ⟨e' | b, t'⟩ <;>
    rw [hp, hq] at ends moved
  · rw [Prog.run_bind_error hp, Prog.run_bind_error hq]
    exact ⟨ends, moved⟩
  · exact ends.elim
  · exact ends.elim
  · rw [Prog.run_bind_ok hp, Prog.run_bind_ok hq]
    exact rest a b ends s' t' moved

/-- The first program has a step more at its front. -/
theorem matching_skip {p : Prog σ ε α} {f : α → Prog σ ε β} {q : Prog τ ε β'}
    (first : ∀ s t, E s t → ∃ a s', p.run s = (.ok a, s') ∧ E s' t)
    (rest : ∀ a, Matching E Q' (f a) q) : Matching E Q' (p >>= f) q := by
  intro s t related
  obtain ⟨a, s', ran, moved⟩ := first s t related
  rw [Prog.run_bind_ok ran]
  exact rest a s' t moved

/-- The first program has a step more at its end. -/
theorem matching_trail {p : Prog σ ε α} {q : Prog τ ε α'} {f : α → Prog σ ε β} {Q' : β → α' → Prop}
    (first : Matching E Q p q)
    (last : ∀ a b s t, Q a b → E s t → ∃ a' s', (f a).run s = (.ok a', s') ∧ Q' a' b ∧ E s' t) :
    Matching E Q' (p >>= f) q := by
  intro s t related
  obtain ⟨ends, moved⟩ := first s t related
  rcases hp : p.run s with ⟨e | a, s'⟩ <;> rcases hq : q.run t with ⟨e' | b, t'⟩ <;>
    rw [hp, hq] at ends moved
  · rw [Prog.run_bind_error hp]
    exact ⟨ends, moved⟩
  · exact ends.elim
  · exact ends.elim
  · obtain ⟨a', s'', ran, value, kept⟩ := last a b s' t' ends moved
    rw [Prog.run_bind_ok hp, ran]
    exact ⟨value, kept⟩

theorem matching_orElse {p : Prog σ ε α} {q : Prog τ ε α'} {a : α} {b : α'}
    (body : Matching E Q p q) (fallback : Q a b) :
    Matching E Q (Prog.orElse p a) (Prog.orElse q b) := by
  intro s t related
  obtain ⟨ends, moved⟩ := body s t related
  rw [Prog.run_orElse, Prog.run_orElse]
  rcases hp : p.run s with ⟨e | x, s'⟩ <;> rcases hq : q.run t with ⟨e' | y, t'⟩ <;>
    rw [hp, hq] at ends moved
  · exact ⟨fallback, moved⟩
  · exact ends.elim
  · exact ends.elim
  · exact ⟨ends, moved⟩

/-- Both take the same list, which one of them numbers differently. -/
theorem matching_forM {γ δ : Type*} {number : δ → γ} {f : γ → Prog σ ε PUnit}
    {g : δ → Prog τ ε PUnit} {xs : List δ}
    (pass : ∀ x ∈ xs, Matching E (fun _ _ => True) (f (number x)) (g x)) :
    Matching E (fun _ _ => True) ((xs.map number).forM f) (xs.forM g) := by
  induction xs with
  | nil => exact matching_pure trivial
  | cons x xs ih =>
    exact matching_bind (pass x List.mem_cons_self)
      (fun _ _ _ => ih (fun y hy => pass y (List.mem_cons_of_mem x hy)))

end Matching

end TwoRuns
