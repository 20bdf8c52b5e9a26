import Mathlib.Logic.Relation
import Mathlib.Data.List.Basic
import Mathlib.Data.List.Induction

/-!
# Programs as trees of atomic steps

A program is a finite tree of atomic actions on a shared state. Each action
reads the state it finds, replaces it, and continues with a program that may
depend on what was read. A program ends with a value or with an exception.

The same tree has two readings: `run` executes it alone, from beginning to
end, and `Interleaving` lets several trees take turns on one state. No claim
about unbounded loops is made here: a tree is finite on every branch.
-/

namespace Program

universe u v w

inductive Prog (σ : Type u) (ε : Type v) (α : Type w) where
  | done (result : Except ε α)
  | step (update : σ → σ) (next : σ → Prog σ ε α)

namespace Prog

variable {σ : Type u} {ε : Type v} {α β : Type w}

theorem next_ne (update : σ → σ) (next : σ → Prog σ ε α) (s : σ) : next s ≠ .step update next := by
  have never : ∀ p : Prog σ ε α, ∀ update next, p = .step update next → ∀ s, next s ≠ p := by
    intro p
    induction p with
    | done r =>
      intro update next eq
      cases eq
    | step update next ih =>
      rintro _ _ ⟨⟩ s itself
      exact ih s update next itself s rfl
  exact never _ update next rfl s

/-- Undisturbed execution. The state survives an exception. -/
def run : Prog σ ε α → σ → Except ε α × σ
  | .done r, s => (r, s)
  | .step update next, s => run (next s) (update s)

def bind : Prog σ ε α → (α → Prog σ ε β) → Prog σ ε β
  | .done (.ok a), f => f a
  | .done (.error e), _ => .done (.error e)
  | .step update next, f => .step update (fun s => bind (next s) f)

instance : Monad (Prog σ ε) where
  pure a := .done (.ok a)
  bind := bind

def throwing (e : ε) : Prog σ ε α := .done (.error e)

/-- One indivisible action: compute an answer and a new state from the old one. -/
def atom (f : σ → Except ε α × σ) : Prog σ ε α :=
  .step (fun s => (f s).2) (fun s => .done (f s).1)

def tryCatch : Prog σ ε α → (ε → Prog σ ε α) → Prog σ ε α
  | .done (.ok a), _ => .done (.ok a)
  | .done (.error e), h => h e
  | .step update next, h => .step update (fun s => tryCatch (next s) h)

/-- `try p` whose `catch` clause only returns a fallback value. -/
def orElse (p : Prog σ ε α) (fallback : α) : Prog σ ε α :=
  tryCatch p (fun _ => .done (.ok fallback))

/-- The value of `p`, or nothing when it raises. -/
def attempt (p : Prog σ ε α) : Prog σ ε (Option α) :=
  orElse (p >>= fun a => pure (some a)) none

/-! ## Undisturbed execution, construct by construct -/

@[simp] theorem run_pure (a : α) (s : σ) : (pure a : Prog σ ε α).run s = (.ok a, s) := rfl

@[simp] theorem run_throwing (e : ε) (s : σ) :
    (throwing e : Prog σ ε α).run s = (.error e, s) := rfl

@[simp] theorem run_atom (f : σ → Except ε α × σ) (s : σ) : (atom f).run s = f s := rfl

theorem run_bind (p : Prog σ ε α) (f : α → Prog σ ε β) (s : σ) :
    (p >>= f).run s =
      match p.run s with
      | (.ok a, t) => (f a).run t
      | (.error e, t) => (.error e, t) := by
  change (bind p f).run s = _
  induction p generalizing s with
  | done r => cases r <;> rfl
  | step update next ih => exact ih s (update s)

theorem run_bind_ok {p : Prog σ ε α} {f : α → Prog σ ε β} {s t : σ} {a : α}
    (h : p.run s = (.ok a, t)) : (p >>= f).run s = (f a).run t := by
  rw [run_bind, h]

theorem run_bind_error {p : Prog σ ε α} {f : α → Prog σ ε β} {s t : σ} {e : ε}
    (h : p.run s = (.error e, t)) : (p >>= f).run s = (.error e, t) := by
  rw [run_bind, h]

theorem run_tryCatch (p : Prog σ ε α) (h : ε → Prog σ ε α) (s : σ) :
    (tryCatch p h).run s =
      match p.run s with
      | (.ok a, t) => (.ok a, t)
      | (.error e, t) => (h e).run t := by
  induction p generalizing s with
  | done r => cases r <;> rfl
  | step update next ih => exact ih s (update s)

theorem run_orElse (p : Prog σ ε α) (fallback : α) (s : σ) :
    (orElse p fallback).run s =
      match p.run s with
      | (.ok a, t) => (.ok a, t)
      | (.error _, t) => (.ok fallback, t) := by
  rw [orElse, run_tryCatch]
  rcases p.run s with ⟨r | r, t⟩ <;> rfl

/-- An `orElse` never raises, whatever its body does. -/
theorem run_orElse_ok (p : Prog σ ε α) (fallback : α) (s : σ) :
    ∃ a, (orElse p fallback).run s = (.ok a, (p.run s).2) := by
  rw [run_orElse]
  rcases p.run s with ⟨r | r, t⟩
  · exact ⟨fallback, rfl⟩
  · exact ⟨r, rfl⟩

theorem run_orElse_state (p : Prog σ ε α) (fallback : α) (s : σ) :
    ((orElse p fallback).run s).2 = (p.run s).2 := by
  obtain ⟨a, ha⟩ := run_orElse_ok p fallback s
  rw [ha]

theorem run_attempt (p : Prog σ ε α) (s : σ) :
    (attempt p).run s =
      match p.run s with
      | (.ok a, t) => (.ok (some a), t)
      | (.error _, t) => (.ok none, t) := by
  rw [attempt, run_orElse, run_bind]
  rcases p.run s with ⟨r | r, t⟩ <;> rfl

/-! ## Loops that only read -/

theorem run_anyM_eq {γ : Type*} {f : γ → Prog σ ε Bool} {g : γ → Bool} {s : σ}
    {l : List γ} (h : ∀ c ∈ l, (f c).run s = (.ok (g c), s)) :
    (l.anyM f).run s = (.ok (l.any g), s) := by
  induction l with
  | nil => rfl
  | cons x l ih =>
    rw [List.anyM, run_bind, h x List.mem_cons_self, List.any_cons]
    cases g x with
    | false => exact ih (fun c hc => h c (List.mem_cons_of_mem x hc))
    | true => rfl

/-- A loop that stops with `true` found something, even if later or earlier
passes could have raised. -/
theorem run_anyM_true {γ : Type*} {f : γ → Prog σ ε Bool} {s t : σ} {xs : List γ}
    (reads : ∀ c ∈ xs, ((f c).run s).2 = s) (h : (xs.anyM f).run s = (.ok true, t)) :
    ∃ c ∈ xs, (f c).run s = (.ok true, s) := by
  induction xs with
  | nil => cases h
  | cons x xs ih =>
    rw [List.anyM, run_bind] at h
    have hx := reads x List.mem_cons_self
    rcases hr : (f x).run s with ⟨r | found, s'⟩
    · rw [hr] at h; cases h
    · rw [hr] at hx h
      obtain rfl : s' = s := hx
      cases found with
      | true => exact ⟨x, List.mem_cons_self, hr⟩
      | false =>
        obtain ⟨c, hc, hf⟩ := ih (fun c hc => reads c (List.mem_cons_of_mem x hc)) h
        exact ⟨c, List.mem_cons_of_mem x hc, hf⟩

/-- A loop that collects what its passes deliver. -/
theorem run_foldlM_append {γ : Type*} {δ : Type w} {f : γ → Prog σ ε (List δ)} {g : γ → List δ}
    {s : σ} {l : List γ} (acc : List δ) (h : ∀ c ∈ l, (f c).run s = (.ok (g c), s)) :
    (l.foldlM (fun acc c => do return acc ++ (← f c)) acc).run s =
      (.ok (acc ++ l.flatMap g), s) := by
  induction l generalizing acc with
  | nil => simp
  | cons x l ih =>
    have pass : (do return acc ++ (← f x) : Prog σ ε (List δ)).run s = (.ok (acc ++ g x), s) := by
      rw [run_bind_ok (h x List.mem_cons_self)]
      rfl
    rw [List.foldlM_cons, run_bind_ok pass, ih _ (fun c hc => h c (List.mem_cons_of_mem x hc)),
      List.flatMap_cons, List.append_assoc]

/-- A loop whose passes never raise. -/
theorem run_forM_eq {γ : Type*} {f : γ → Prog σ ε PUnit} {g : σ → γ → σ}
    (h : ∀ c s, (f c).run s = (.ok ⟨⟩, g s c)) (xs : List γ) (s : σ) :
    (xs.forM f).run s = (.ok ⟨⟩, xs.foldl g s) := by
  induction xs generalizing s with
  | nil => rfl
  | cons x xs ih =>
    rw [List.foldl_cons, ← ih]
    exact run_bind_ok (h x s)

/-! ## What every single step of a program does -/

/-- Each atomic step, taken in any state whatever, is allowed by `R`. This is
stronger than a statement about `run`: it also holds under interference. -/
def Steps (R : σ → σ → Prop) : Prog σ ε α → Prop
  | .done _ => True
  | .step update next => ∀ s, R s (update s) ∧ Steps R (next s)

variable {R : σ → σ → Prop}

@[simp] theorem steps_pure (a : α) : Steps R (pure a : Prog σ ε α) := trivial

@[simp] theorem steps_throwing (e : ε) : Steps R (throwing e : Prog σ ε α) := trivial

theorem steps_atom {f : σ → Except ε α × σ} (h : ∀ s, R s (f s).2) :
    Steps R (atom f) :=
  fun s => ⟨h s, trivial⟩

theorem steps_bind {p : Prog σ ε α} {f : α → Prog σ ε β} (hp : Steps R p)
    (hf : ∀ a, Steps R (f a)) : Steps R (p >>= f) := by
  change Steps R (bind p f)
  induction p with
  | done r =>
    cases r with
    | ok a => exact hf a
    | error e => trivial
  | step update next ih => exact fun s => ⟨(hp s).1, ih s (hp s).2⟩

theorem steps_tryCatch {p : Prog σ ε α} {h : ε → Prog σ ε α} (hp : Steps R p)
    (hh : ∀ e, Steps R (h e)) : Steps R (tryCatch p h) := by
  induction p with
  | done r =>
    cases r with
    | ok a => trivial
    | error e => exact hh e
  | step update next ih => exact fun s => ⟨(hp s).1, ih s (hp s).2⟩

theorem steps_orElse {p : Prog σ ε α} (hp : Steps R p) (fallback : α) :
    Steps R (orElse p fallback) :=
  steps_tryCatch hp (fun _ => trivial)

theorem steps_attempt {p : Prog σ ε α} (hp : Steps R p) : Steps R (attempt p) :=
  steps_orElse (steps_bind hp (fun _ => steps_pure _)) none

theorem steps_mono {R' : σ → σ → Prop} (sub : ∀ s t, R s t → R' s t) {p : Prog σ ε α}
    (hp : Steps R p) : Steps R' p := by
  induction p with
  | done r => trivial
  | step update next ih => exact fun s => ⟨sub _ _ (hp s).1, ih s (hp s).2⟩

theorem steps_foldlM {γ : Type*} {f : α → γ → Prog σ ε α} (hf : ∀ a c, Steps R (f a c))
    (xs : List γ) (a : α) : Steps R (xs.foldlM f a) := by
  induction xs generalizing a with
  | nil => exact steps_pure a
  | cons x xs ih =>
    rw [List.foldlM_cons]
    exact steps_bind (hf a x) ih

theorem steps_forM {γ : Type*} {f : γ → Prog σ ε PUnit} (hf : ∀ c, Steps R (f c))
    (xs : List γ) : Steps R (xs.forM f) := by
  induction xs with
  | nil => exact steps_pure _
  | cons x xs ih => exact steps_bind (hf x) (fun _ => ih)

theorem steps_anyM {γ : Type*} {f : γ → Prog σ ε Bool} (hf : ∀ c, Steps R (f c))
    (xs : List γ) : Steps R (xs.anyM f) := by
  induction xs with
  | nil => exact steps_pure _
  | cons x xs ih =>
    refine steps_bind (hf x) ?_
    rintro (_ | _)
    · exact ih
    · exact steps_pure _

/-- The steps of an undisturbed execution compose into one step of a preorder. -/
theorem run_related (refl : ∀ s, R s s) (trans : ∀ s t r, R s t → R t r → R s r)
    {p : Prog σ ε α} (hp : Steps R p) (s : σ) : R s (p.run s).2 := by
  induction p generalizing s with
  | done r => exact refl s
  | step update next ih => exact trans _ _ _ (hp s).1 (ih s (hp s).2 (update s))

/-- No step changes the state. -/
abbrev Reads (p : Prog σ ε α) : Prop := Steps (fun s t => t = s) p

theorem Reads.steps {p : Prog σ ε α} (hp : Reads p) (refl : ∀ s, R s s) : Steps R p := by
  refine steps_mono ?_ hp
  rintro s t rfl
  exact refl _

theorem run_unchanged {p : Prog σ ε α} (hp : Reads p) (s : σ) : (p.run s).2 = s :=
  run_related (R := fun s t => t = s) (fun _ => rfl) (fun _ _ _ h h' => h'.trans h) hp s

/-- A guarded loop of reads always answers, and a yes has been found in some pass. -/
theorem run_orElse_anyM {γ : Type*} {f : γ → Prog σ ε Bool} (reads : ∀ c, Reads (f c)) (xs : List γ)
    (s : σ) : ∃ b, (orElse (xs.anyM f) false).run s = (.ok b, s) ∧
      (b = true → ∃ c ∈ xs, (f c).run s = (.ok true, s)) := by
  have same := run_unchanged (steps_anyM reads xs) s
  rw [run_orElse]
  rcases hr : (xs.anyM f).run s with ⟨e | b, t⟩
  · rw [hr] at same
    obtain rfl : t = s := same
    exact ⟨false, rfl, by simp⟩
  · rw [hr] at same
    obtain rfl : t = s := same
    refine ⟨b, rfl, ?_⟩
    rintro rfl
    exact run_anyM_true (fun c _ => run_unchanged (reads c) t) hr

/-- A completed execution that begins by reading. -/
theorem run_bind_reads {p : Prog σ ε α} {f : α → Prog σ ε β} (hp : Reads p) {s t : σ} {b : β}
    (h : (p >>= f).run s = (.ok b, t)) :
    ∃ a, p.run s = (.ok a, s) ∧ (f a).run s = (.ok b, t) := by
  have same := run_unchanged hp s
  rw [run_bind] at h
  rcases hr : p.run s with ⟨e | a, s'⟩
  · rw [hr] at h
    cases h
  · rw [hr] at h same
    obtain rfl : s' = s := same
    exact ⟨a, rfl, h⟩

/-! ## What a program delivers -/

/-- Whatever happens between its steps, if the program ends with a value then
the value satisfies `Q`. -/
def Returns (Q : α → Prop) : Prog σ ε α → Prop
  | .done (.ok a) => Q a
  | .done (.error _) => True
  | .step _ next => ∀ s, Returns Q (next s)

theorem returns_pure {Q : α → Prop} {a : α} (h : Q a) : Returns Q (pure a : Prog σ ε α) := h

theorem returns_bind {Q : α → Prop} {Q' : β → Prop} {p : Prog σ ε α} {f : α → Prog σ ε β}
    (hp : Returns Q p) (hf : ∀ a, Q a → Returns Q' (f a)) : Returns Q' (p >>= f) := by
  change Returns Q' (bind p f)
  induction p with
  | done r =>
    cases r with
    | ok a => exact hf a hp
    | error e => trivial
  | step update next ih => exact fun s => ih s (hp s)

theorem Returns.mono {Q Q' : α → Prop} {p : Prog σ ε α} (hp : Returns Q p)
    (sub : ∀ a, Q a → Q' a) : Returns Q' p := by
  induction p with
  | done r =>
    cases r with
    | ok a => exact sub a hp
    | error e => trivial
  | step update next ih => exact fun s => ih s (hp s)

theorem returns_any (p : Prog σ ε α) : Returns (fun _ => True) p := by
  induction p with
  | done r => cases r <;> trivial
  | step update next ih => exact ih

theorem returns_orElse {Q : α → Prop} {p : Prog σ ε α} {fallback : α} (hp : Returns Q p)
    (h : Q fallback) : Returns Q (orElse p fallback) := by
  rw [orElse]
  induction p with
  | done r =>
    cases r with
    | ok a => exact hp
    | error e => exact h
  | step update next ih => exact fun s => ih s (hp s)

theorem returns_foldlM {γ : Type*} {Q : α → Prop} {f : α → γ → Prog σ ε α}
    (pass : ∀ a c, Q a → Returns Q (f a c)) (xs : List γ) {a : α} (h : Q a) :
    Returns Q (xs.foldlM f a) := by
  induction xs generalizing a with
  | nil => exact returns_pure h
  | cons x xs ih =>
    rw [List.foldlM_cons]
    exact returns_bind (pass a x h) (fun _ next => ih next)

theorem Returns.run {Q : α → Prop} {p : Prog σ ε α} (hp : Returns Q p) {s : σ} {a : α}
    (h : (p.run s).1 = .ok a) : Q a := by
  induction p generalizing s with
  | done r =>
    cases h
    exact hp
  | step update next ih => exact ih s (hp s) h

/-- Undisturbed executions compose, even where single steps are outside `R`. -/
theorem related_bind (trans : ∀ s t r, R s t → R t r → R s r) {Q : α → Prop} {p : Prog σ ε α}
    {f : α → Prog σ ε β} (hp : ∀ s, R s (p.run s).2) (hq : Returns Q p)
    (hf : ∀ a, Q a → ∀ s, R s ((f a).run s).2) (s : σ) : R s ((p >>= f).run s).2 := by
  have first := hp s
  rw [run_bind]
  rcases hr : p.run s with ⟨e | a, t⟩
  · rwa [hr] at first
  · rw [hr] at first
    have value : Q a := hq.run (congrArg Prod.fst hr)
    exact trans _ _ _ first (hf a value t)

/-- Sequential composition where the second part depends on what the first delivers. -/
theorem steps_bind_returns {Q : α → Prop} {p : Prog σ ε α} {f : α → Prog σ ε β} (hp : Steps R p)
    (hq : Returns Q p) (hf : ∀ a, Q a → Steps R (f a)) : Steps R (p >>= f) := by
  change Steps R (bind p f)
  induction p with
  | done r =>
    cases r with
    | ok a => exact hf a hq
    | error e => trivial
  | step update next ih => exact fun s => ⟨(hp s).1, ih s (hp s).2 (hq s)⟩

/-- From every state the program ends within `R`. It ends with a value, which
satisfies `Q`, exactly under the condition `ok`. -/
def Delivers (R : σ → σ → Prop) (ok : Prop) (Q : α → Prop) (p : Prog σ ε α) : Prop :=
  ∀ s, R s (p.run s).2 ∧
    ((ok ∧ ∃ a, (p.run s).1 = .ok a ∧ Q a) ∨ (¬ ok ∧ ∃ e, (p.run s).1 = .error e))

section Delivering

variable {ok ok' : Prop} {Q : α → Prop} {Q' : β → Prop}

theorem delivers_pure (refl : ∀ s, R s s) {a : α} (h : Q a) :
    Delivers R True Q (pure a : Prog σ ε α) :=
  fun s => ⟨refl s, .inl ⟨trivial, a, rfl, h⟩⟩

theorem delivers_bind (trans : ∀ s t r, R s t → R t r → R s r) {p : Prog σ ε α}
    {f : α → Prog σ ε β} (hp : Delivers R ok Q p) (hf : ∀ a, Q a → Delivers R ok' Q' (f a)) :
    Delivers R (ok ∧ ok') Q' (p >>= f) := by
  intro s
  obtain ⟨hR, hout⟩ := hp s
  rw [run_bind]
  rcases hr : p.run s with ⟨r, t⟩
  rw [hr] at hR hout
  rcases hout with ⟨hok, a, rfl, ha⟩ | ⟨hfail, e, rfl⟩
  · obtain ⟨hR', hout'⟩ := hf a ha t
    refine ⟨trans _ _ _ hR hR', ?_⟩
    rcases hout' with ⟨hok', hb⟩ | ⟨hfail', hb⟩
    · exact .inl ⟨⟨hok, hok'⟩, hb⟩
    · exact .inr ⟨fun h => hfail' h.2, hb⟩
  · exact ⟨hR, .inr ⟨fun h => hfail h.1, e, rfl⟩⟩

theorem delivers_congr {p : Prog σ ε α} (h : ok ↔ ok') (hp : Delivers R ok Q p) :
    Delivers R ok' Q p := by
  intro s
  rw [← h]
  exact hp s

/-- The first part never raises. -/
theorem delivers_bind_total (trans : ∀ s t r, R s t → R t r → R s r) {p : Prog σ ε α}
    {f : α → Prog σ ε β} (hp : Delivers R True Q p) (hf : ∀ a, Q a → Delivers R ok' Q' (f a)) :
    Delivers R ok' Q' (p >>= f) :=
  delivers_congr (by simp) (delivers_bind trans hp hf)

/-- The second part never raises. -/
theorem delivers_bind_then (trans : ∀ s t r, R s t → R t r → R s r) {p : Prog σ ε α}
    {f : α → Prog σ ε β} (hp : Delivers R ok Q p) (hf : ∀ a, Q a → Delivers R True Q' (f a)) :
    Delivers R ok Q' (p >>= f) :=
  delivers_congr (by simp) (delivers_bind trans hp hf)

theorem delivers_orElse (refl : ∀ s, R s s) (trans : ∀ s t r, R s t → R t r → R s r)
    {p : Prog σ ε α} {fallback : α} (hs : Steps R (orElse p fallback))
    (hq : Returns Q (orElse p fallback)) : Delivers R True Q (orElse p fallback) := by
  intro s
  refine ⟨run_related refl trans hs s, .inl ⟨trivial, ?_⟩⟩
  obtain ⟨a, ha⟩ := run_orElse_ok p fallback s
  exact ⟨a, by rw [ha], hq.run (congrArg Prod.fst ha)⟩

theorem Delivers.mono {R' : σ → σ → Prop} {Q₂ : α → Prop} {p : Prog σ ε α}
    (hp : Delivers R ok Q p) (hR : ∀ s t, R s t → R' s t) (hQ : ∀ a, Q a → Q₂ a) :
    Delivers R' ok Q₂ p := by
  intro s
  obtain ⟨h, hout⟩ := hp s
  refine ⟨hR _ _ h, ?_⟩
  rcases hout with ⟨hok, a, ha, hq⟩ | hfail
  · exact .inl ⟨hok, a, ha, hQ a hq⟩
  · exact .inr hfail

theorem delivers_forM {γ : Type*} {f : γ → Prog σ ε PUnit} (refl : ∀ s, R s s)
    (trans : ∀ s t r, R s t → R t r → R s r) {Q : PUnit → Prop} (h : Q ⟨⟩)
    (hf : ∀ c, Delivers R True (fun _ => True) (f c)) (xs : List γ) :
    Delivers R True Q (xs.forM f) := by
  induction xs with
  | nil => exact delivers_pure refl h
  | cons x xs ih =>
    exact delivers_bind_total trans (hf x) (fun _ _ => ih)

theorem delivers_foldlM {γ : Type*} {f : α → γ → Prog σ ε α} (refl : ∀ s, R s s)
    (trans : ∀ s t r, R s t → R t r → R s r) (hf : ∀ a c, Q a → Delivers R True Q (f a c))
    (xs : List γ) {a : α} (h : Q a) : Delivers R True Q (xs.foldlM f a) := by
  induction xs generalizing a with
  | nil => exact delivers_pure refl h
  | cons x xs ih =>
    rw [List.foldlM_cons]
    exact delivers_bind_total trans (hf a x h) (fun b hb => ih hb)

/-- A program that always ends with a value. -/
theorem Delivers.run {p : Prog σ ε α} (hp : Delivers R True Q p) (s : σ) :
    ∃ a t, p.run s = (.ok a, t) ∧ R s t ∧ Q a := by
  obtain ⟨hR, hout⟩ := hp s
  rcases hr : p.run s with ⟨r, t⟩
  rw [hr] at hR hout
  rcases hout with ⟨-, a, rfl, ha⟩ | ⟨hfail, -⟩
  · exact ⟨a, t, rfl, hR, ha⟩
  · exact absurd trivial hfail

end Delivering

/-- The program changes nothing and always ends with a value. -/
def Answers (p : Prog σ ε α) : Prop := ∀ s, ∃ a, p.run s = (.ok a, s)

section Answering

theorem answers_pure (a : α) : Answers (pure a : Prog σ ε α) := fun _ => ⟨a, rfl⟩

theorem answers_bind {p : Prog σ ε α} {f : α → Prog σ ε β} (first : Answers p)
    (next : ∀ a, Answers (f a)) : Answers (p >>= f) := by
  intro s
  obtain ⟨a, hrun⟩ := first s
  obtain ⟨b, hrun'⟩ := next a s
  exact ⟨b, (run_bind_ok hrun).trans hrun'⟩

theorem answers_orElse {p : Prog σ ε α} {fallback : α} (reads : Reads (orElse p fallback)) :
    Answers (orElse p fallback) := by
  intro s
  have same := run_unchanged reads s
  obtain ⟨a, hrun⟩ := run_orElse_ok p fallback s
  rw [hrun] at same
  exact ⟨a, by rw [hrun, same]⟩

theorem answers_foldlM {γ : Type*} {f : α → γ → Prog σ ε α} (pass : ∀ a c, Answers (f a c))
    (xs : List γ) (a : α) : Answers (xs.foldlM f a) := by
  induction xs generalizing a with
  | nil => exact answers_pure a
  | cons x xs ih =>
    rw [List.foldlM_cons]
    exact answers_bind (pass a x) ih

/-- Behind a part that answers, whether there is a value depends on the rest. -/
theorem returned_bind {p : Prog σ ε α} {f : α → Prog σ ε β} {s : σ} {P : Prop} (first : Answers p)
    (next : ∀ a, (∃ b, ((f a).run s).1 = .ok b) ↔ P) :
    (∃ b, ((p >>= f).run s).1 = .ok b) ↔ P := by
  obtain ⟨a, hrun⟩ := first s
  rw [run_bind_ok hrun]
  exact next a

theorem returned_map {p : Prog σ ε α} {g : α → β} {s : σ} :
    (∃ b, ((p >>= fun a => pure (g a)).run s).1 = .ok b) ↔ ∃ a, (p.run s).1 = .ok a := by
  rw [run_bind]
  rcases p.run s with ⟨e | a, t⟩
  · simp
  · simp

end Answering

end Prog

/-! ## A view that follows an abstract state -/

/-- What is seen after every part of a run is what the abstract steps predict from the beginning,
if and only if no single step of the run departs from its abstract step. -/
theorem view_follows_iff {σ ι A : Type*} (next : σ → ι → σ) (apply : A → ι → A) (view : σ → A)
    (s : σ) (inputs : List ι) :
    (∀ earlier, earlier <+: inputs →
        view (earlier.foldl next s) = earlier.foldl apply (view s)) ↔
      ∀ earlier i, earlier ++ [i] <+: inputs →
        view (next (earlier.foldl next s) i) = apply (view (earlier.foldl next s)) i := by
  constructor
  · intro follows earlier i part
    have before := follows earlier ((List.prefix_append earlier [i]).trans part)
    have after := follows (earlier ++ [i]) part
    rw [List.foldl_concat, List.foldl_concat] at after
    rw [after, before]
  · intro steps earlier
    induction earlier using List.reverseRecOn with
    | nil => exact fun _ => rfl
    | append_singleton earlier i ih =>
      intro part
      have before := ih ((List.prefix_append earlier [i]).trans part)
      rw [List.foldl_concat, List.foldl_concat, steps earlier i part, before]

end Program
