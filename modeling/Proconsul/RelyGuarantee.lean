import Proconsul.Interleaving

/-!
# Programs among others that keep their word

A program keeps an invariant and takes only steps of a kind of its own, provided
all others keep the invariant and move within a relation. It may use what it has
seen: between two of its steps the state has moved within the relation and the
invariant still holds. `Assures` checks one program against this promise. In a pool
whose programs all move within the relation, `continues_assured` says that they keep
it, whatever the schedule, and `continues_promised` that one of them keeps to what it
has promised on its own.
-/

namespace RelyGuarantee

open Program Interleaving

universe u v w

variable {σ : Type u} {ε : Type v} {α β : Type w}
variable {I : σ → Prop} {R G : σ → σ → Prop}

/-- The program has last seen state `s`. It relies on `R` and takes steps of `G`. Its value and
the state it leaves satisfy `Q`; of a program that raises nothing more is asked. -/
def Assures (I : σ → Prop) (R G : σ → σ → Prop) (Q : α → σ → Prop) : Prog σ ε α → σ → Prop
  | .done (.ok a), s => Q a s
  | .done (.error _), _ => True
  | .step update next, s => ∀ t, R s t → I t →
      I (update t) ∧ G t (update t) ∧ Assures I R G Q (next t) (update t)

section Rules

variable {Q Q' : α → σ → Prop} {s : σ}

theorem assures_atom {f : σ → Except ε α × σ}
    (h : ∀ t, R s t → I t → I (f t).2 ∧ G t (f t).2 ∧ ∀ a, (f t).1 = .ok a → Q a (f t).2) :
    Assures I R G Q (Prog.atom f) s := by
  intro t related inv
  obtain ⟨kept, moved, value⟩ := h t related inv
  refine ⟨kept, moved, ?_⟩
  change Assures I R G Q (Prog.done (f t).1) (f t).2
  cases result : (f t).1 with
  | ok a => exact value a result
  | error e => trivial

theorem assures_bind {Q' : β → σ → Prop} {p : Prog σ ε α} {f : α → Prog σ ε β}
    (first : Assures I R G Q p s) (rest : ∀ a t, Q a t → Assures I R G Q' (f a) t) :
    Assures I R G Q' (p >>= f) s := by
  change Assures I R G Q' (Prog.bind p f) s
  induction p generalizing s with
  | done r =>
    cases r with
    | ok a => exact rest a s first
    | error e => trivial
  | step update next ih =>
    intro t related inv
    obtain ⟨kept, moved, later⟩ := first t related inv
    exact ⟨kept, moved, ih t later⟩

theorem Assures.weaken {p : Prog σ ε α} (h : Assures I R G Q p s) (sub : ∀ a t, Q a t → Q' a t) :
    Assures I R G Q' p s := by
  induction p generalizing s with
  | done r =>
    cases r with
    | ok a => exact sub a s h
    | error e => trivial
  | step update next ih =>
    intro t related inv
    obtain ⟨kept, moved, later⟩ := h t related inv
    exact ⟨kept, moved, ih t later⟩

/-- Who promises more promises less. -/
theorem Assures.promising {G' : σ → σ → Prop} {p : Prog σ ε α} (h : Assures I R G Q p s)
    (sub : ∀ t t', G t t' → G' t t') : Assures I R G' Q p s := by
  induction p generalizing s with
  | done r =>
    cases r with
    | ok a => exact h
    | error e => trivial
  | step update next ih =>
    intro t related inv
    obtain ⟨kept, moved, later⟩ := h t related inv
    exact ⟨kept, sub _ _ moved, ih t later⟩

/-- A program whose every step is harmless wherever it is taken. -/
theorem assures_of_steps {S : σ → σ → Prop} {V : α → Prop} {p : Prog σ ε α} (hp : p.Steps S)
    (hv : p.Returns V) (harmless : ∀ t t', I t → S t t' → I t' ∧ G t t') :
    Assures I R G (fun a _ => V a) p s := by
  induction p generalizing s with
  | done r =>
    cases r with
    | ok a => exact hv
    | error e => trivial
  | step update next ih =>
    intro t _ inv
    obtain ⟨kept, moved⟩ := harmless t (update t) inv (hp t).1
    exact ⟨kept, moved, ih t (hp t).2 (hv t)⟩

theorem assures_forM {γ : Type*} {f : γ → Prog σ ε PUnit} {A : σ → Prop} {xs : List γ}
    (pass : ∀ x ∈ xs, ∀ t, A t → Assures I R G (fun _ t' => A t') (f x) t) (h : A s) :
    Assures I R G (fun _ t => A t) (xs.forM f) s := by
  induction xs generalizing s with
  | nil => exact h
  | cons x xs ih =>
    refine assures_bind (pass x List.mem_cons_self s h) (fun _ t ht => ?_)
    exact ih (fun y hy => pass y (List.mem_cons_of_mem x hy)) ht

theorem assures_foldlM {γ : Type*} {f : α → γ → Prog σ ε α}
    (pass : ∀ a x t, Q a t → Assures I R G Q (f a x) t) (xs : List γ) {a : α} (h : Q a s) :
    Assures I R G Q (xs.foldlM f a) s := by
  induction xs generalizing a s with
  | nil => exact h
  | cons x xs ih =>
    rw [List.foldlM_cons]
    exact assures_bind (pass a x s h) (fun a' t ht => ih ht)

section Fallbacks

variable (refl : ∀ s, R s s) (trans : ∀ s t r, R s t → R t r → R s r)
variable (fair : ∀ s t, G s t → R s t)

include refl trans fair

/-- Where the fallback may be returned at any later time, an exception does no harm. -/
theorem assures_orElse {p : Prog σ ε α} {fallback : α} (h : Assures I R G Q p s)
    (always : ∀ t, R s t → Q fallback t) : Assures I R G Q (Prog.orElse p fallback) s := by
  rw [Prog.orElse]
  induction p generalizing s with
  | done r =>
    cases r with
    | ok a => exact h
    | error e => exact always s (refl s)
  | step update next ih =>
    intro t related inv
    obtain ⟨kept, moved, later⟩ := h t related inv
    have reached := trans s t (update t) related (fair _ _ moved)
    exact ⟨kept, moved, ih t later (fun r after => always r (trans s (update t) r reached after))⟩

end Fallbacks

end Rules

/-! ## Promises that nothing seen matters to -/

/-- Whatever the others do within the invariant, the program keeps it, takes steps of `G` and
returns values in `V`. -/
abbrev Upholds (I : σ → Prop) (G : σ → σ → Prop) (V : α → Prop) (p : Prog σ ε α) : Prop :=
  ∀ s, Assures I (fun _ _ => True) G (fun a _ => V a) p s

section Upholding

variable {V V' : α → Prop} {W : β → Prop} {p : Prog σ ε α}

theorem upholds_pure {a : α} (h : V a) : Upholds I G V (pure a : Prog σ ε α) := fun _ => h

theorem upholds_throwing (e : ε) : Upholds I G V (Prog.throwing e : Prog σ ε α) := fun _ => trivial

theorem upholds_atom {f : σ → Except ε α × σ}
    (h : ∀ s, I s → I (f s).2 ∧ G s (f s).2 ∧ ∀ a, (f s).1 = .ok a → V a) :
    Upholds I G V (Prog.atom f) := fun _ => assures_atom (fun t _ inv => h t inv)

theorem upholds_bind {f : α → Prog σ ε β} (hp : Upholds I G V p)
    (hf : ∀ a, V a → Upholds I G W (f a)) : Upholds I G W (p >>= f) :=
  fun s => assures_bind (hp s) (fun a t ha => hf a ha t)

theorem Upholds.weaken (hp : Upholds I G V p) (sub : ∀ a, V a → V' a) : Upholds I G V' p :=
  fun s => (hp s).weaken (fun a _ ha => sub a ha)

theorem Upholds.promising {G' : σ → σ → Prop} (hp : Upholds I G V p)
    (sub : ∀ s t, G s t → G' s t) : Upholds I G' V p := fun s => (hp s).promising sub

theorem upholds_orElse {fallback : α} (hp : Upholds I G V p) (h : V fallback) :
    Upholds I G V (Prog.orElse p fallback) :=
  fun s => assures_orElse (fun _ => trivial) (fun _ _ _ _ _ => trivial) (fun _ _ _ => trivial) (hp s)
    (fun _ _ => h)

theorem upholds_attempt {V' : Option α → Prop} (hp : Upholds I G V p)
    (value : ∀ a, V a → V' (some a)) (raised : V' none) : Upholds I G V' (Prog.attempt p) :=
  upholds_orElse (upholds_bind hp (fun a ha => upholds_pure (value a ha))) raised

theorem upholds_forM {γ : Type*} {f : γ → Prog σ ε PUnit} {xs : List γ}
    (pass : ∀ x ∈ xs, Upholds I G (fun _ => True) (f x)) : Upholds I G (fun _ => True) (xs.forM f) :=
  fun _ => assures_forM (fun x hx t _ => pass x hx t) trivial

theorem upholds_foldlM {γ : Type*} {f : α → γ → Prog σ ε α}
    (pass : ∀ a x, V a → Upholds I G V (f a x)) (xs : List γ) {a : α} (h : V a) :
    Upholds I G V (xs.foldlM f a) :=
  fun _ => assures_foldlM (fun a x t ha => pass a x ha t) xs h

theorem upholds_of_steps {S : σ → σ → Prop} (hp : p.Steps S) (hv : p.Returns V)
    (harmless : ∀ s t, I s → S s t → I t ∧ G s t) : Upholds I G V p :=
  fun _ => assures_of_steps hp hv harmless

end Upholding

/-! ## Pools of such programs -/

section Pools

variable {Spawn : Prog σ ε α → Prop} {Env C : σ → σ → Prop}

/-- The program has seen a state from which the pool has moved within the relation, and will
take steps of `G`. -/
def Bound (I : σ → Prop) (R G : σ → σ → Prop) (now : σ) (p : Prog σ ε α) : Prop :=
  ∃ s, R s now ∧ Assures I R G (fun _ _ => True) p s

def Kept (I : σ → Prop) (R : σ → σ → Prop) (P : Pool σ ε α) : Prop :=
  I P.shared ∧ ∀ p ∈ P.threads, Bound I R R P.shared p

/-- Thread `i` in particular takes steps of `G`. -/
def Promised (I : σ → Prop) (R G : σ → σ → Prop) (i : Nat) (P : Pool σ ε α) : Prop :=
  Kept I R P ∧ ∃ p, P.threads[i]? = some p ∧ Bound I R G P.shared p

theorem bound_step {now : σ} {update : σ → σ} {next : σ → Prog σ ε α} (refl : ∀ s, R s s)
    (bound : Bound I R G now (.step update next)) (inv : I now) :
    I (update now) ∧ G now (update now) ∧ Bound I R G (update now) (next now) := by
  obtain ⟨s, related, promise⟩ := bound
  obtain ⟨kept, moved, rest⟩ := promise now related inv
  exact ⟨kept, moved, update now, refl _, rest⟩

variable (refl : ∀ s, R s s) (trans : ∀ s t r, R s t → R t r → R s r)

include refl in
/-- What thread `i` does next it has promised. -/
theorem turn_promised {i : Nat} {P : Pool σ ε α} (promised : Promised I R G i P) :
    (P.turn i).shared = P.shared ∨ G P.shared (P.turn i).shared := by
  obtain ⟨⟨inv, -⟩, p, here, bound⟩ := promised
  unfold Pool.turn
  rw [here]
  cases p with
  | done r => exact .inl rfl
  | step update next => exact .inr (bound_step refl bound inv).2.1

include trans in
theorem bound_later {now later : σ} {p : Prog σ ε α} (bound : Bound I R G now p)
    (moved : R now later) : Bound I R G later p := by
  obtain ⟨s, related, promise⟩ := bound
  exact ⟨s, trans _ _ _ related moved, promise⟩

variable (programs : ∀ p, Spawn p → ∀ s, Assures I R R (fun _ _ => True) p s)
variable (moves : ∀ s t, I s → Env s t → C s t → I t ∧ R s t)

include refl trans programs moves

theorem step_kept {P P' : Pool σ ε α} (kept : Kept I R P) (step : Pool.Step Spawn Env P P')
    (cond : C P.shared P'.shared) : Kept I R P' ∧ R P.shared P'.shared := by
  obtain ⟨inv, running⟩ := kept
  cases step with
  | @act s ts i update next turn =>
    obtain ⟨inv', moved, rest⟩ := bound_step refl (running _ (List.mem_of_getElem? turn)) inv
    refine ⟨⟨inv', fun p hp => ?_⟩, moved⟩
    rcases List.mem_or_eq_of_mem_set hp with old | rfl
    · exact bound_later trans (running p old) moved
    · exact rest
  | @spawn s ts p allowed =>
    refine ⟨⟨inv, fun q hq => ?_⟩, refl _⟩
    rcases List.mem_append.mp hq with old | new
    · exact running q old
    · obtain rfl := List.mem_singleton.mp new
      exact ⟨s, refl _, programs q allowed s⟩
  | @env s t ts moved =>
    obtain ⟨inv', related⟩ := moves s t inv moved cond
    exact ⟨⟨inv', fun p hp => bound_later trans (running p hp) related⟩, related⟩

theorem step_promised {i : Nat} {P P' : Pool σ ε α} (promised : Promised I R G i P)
    (step : Pool.Step Spawn Env P P') (cond : C P.shared P'.shared) : Promised I R G i P' := by
  obtain ⟨kept, p, here, bound⟩ := promised
  obtain ⟨kept', related⟩ := step_kept refl trans programs moves kept step cond
  refine ⟨kept', ?_⟩
  cases step with
  | @act s ts j update next turn =>
    by_cases same : j = i
    · subst same
      obtain rfl : p = .step update next := Option.some.inj (here.symm.trans turn)
      refine ⟨next s, ?_, (bound_step refl bound kept.1).2.2⟩
      exact List.getElem?_set_self (List.getElem?_eq_some_iff.mp turn).1
    · exact ⟨p, (List.getElem?_set_ne same).trans here, bound_later trans bound related⟩
  | @spawn s ts q allowed =>
    have inside : i < ts.length := (List.getElem?_eq_some_iff.mp here).1
    exact ⟨p, (List.getElem?_append_left inside).trans here, bound⟩
  | @env s t ts moved => exact ⟨p, here, bound_later trans bound related⟩

theorem continues_assured {P P' : Pool σ ε α} (kept : Kept I R P)
    (later : Continues Spawn Env C P P') : Kept I R P' ∧ R P.shared P'.shared := by
  induction later with
  | refl => exact ⟨kept, refl _⟩
  | tail _ last ih =>
    obtain ⟨kept', before⟩ := ih
    obtain ⟨kept'', now⟩ := step_kept refl trans programs moves kept' last.1 last.2
    exact ⟨kept'', trans _ _ _ before now⟩

theorem continues_promised {i : Nat} {P P' : Pool σ ε α} (promised : Promised I R G i P)
    (later : Continues Spawn Env C P P') : Promised I R G i P' := by
  induction later with
  | refl => exact promised
  | tail _ last ih => exact step_promised refl trans programs moves ih last.1 last.2

theorem reachable_kept {start : σ} {P : Pool σ ε α} (init : I start)
    (reach : Reachable Spawn Env C start P) : Kept I R P ∧ R start P.shared := by
  have nobody : Kept I R (⟨start, []⟩ : Pool σ ε α) := ⟨init, fun p hp => by cases hp⟩
  have later : Continues Spawn Env C ⟨start, []⟩ P := reach
  exact continues_assured refl trans programs moves nobody later

/-- A program that joins a pool of such programs, whatever happens afterwards. -/
theorem joined_promised {start : σ} {P P' : Pool σ ε α} {p : Prog σ ε α} (init : I start)
    (reach : Reachable Spawn Env C start P) (joins : Spawn p)
    (own : ∀ s, Assures I R G (fun _ _ => True) p s)
    (later : Continues Spawn Env C ⟨P.shared, P.threads ++ [p]⟩ P') :
    Promised I R G P.threads.length P' := by
  obtain ⟨⟨inv, running⟩, -⟩ := reachable_kept refl trans programs moves init reach
  have kept : Kept I R ⟨P.shared, P.threads ++ [p]⟩ := by
    refine ⟨inv, fun q hq => ?_⟩
    rcases List.mem_append.mp hq with old | new
    · exact running q old
    · obtain rfl := List.mem_singleton.mp new
      exact ⟨P.shared, refl _, programs q joins P.shared⟩
  have here : (P.threads ++ [p])[P.threads.length]? = some p := by
    rw [List.getElem?_append_right (Nat.le_refl _), Nat.sub_self]
    rfl
  refine continues_promised refl trans programs moves ⟨kept, p, here, ?_⟩ later
  exact ⟨P.shared, refl _, own P.shared⟩

end Pools

end RelyGuarantee
