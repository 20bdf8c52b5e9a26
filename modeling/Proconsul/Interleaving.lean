import Mathlib.Data.List.Forall2
import Proconsul.Program

/-!
# Interleaved programs that follow a protocol

Several programs take turns, one atomic step at a time, on a shared state,
while new programs start and the environment moves on its own. A protocol
assigns to each running program a phase and says which state changes a phase
permits. `Conforms` checks a program against a protocol once, in every state
it could find itself in; `reachable_invariant` then reduces a statement about
all interleavings to the protocol's single steps.
-/

namespace Interleaving

open Program

universe u v w x

variable {σ : Type u} {ε : Type v} {α β : Type w} {φ : Type x}

/-- From phase `ph`, every step of the program is one the protocol `T`
permits, and on termination the result and the last phase satisfy `Q`. -/
def Conforms (T : φ → σ → σ → φ → Prop) (Q : Except ε α → φ → Prop) :
    Prog σ ε α → φ → Prop
  | .done r, ph => Q r ph
  | .step update next, ph => ∀ s, ∃ ph', T ph s (update s) ph' ∧ Conforms T Q (next s) ph'

section Conformance

variable {T : φ → σ → σ → φ → Prop} {Q : Except ε α → φ → Prop} {Q' : Except ε β → φ → Prop}

theorem conforms_atom {f : σ → Except ε α × σ} {ph : φ}
    (h : ∀ s, ∃ ph', T ph s (f s).2 ph' ∧ Q (f s).1 ph') :
    Conforms T Q (Prog.atom f) ph := h

theorem conforms_bind {p : Prog σ ε α} {f : α → Prog σ ε β} {ph : φ}
    (hp : Conforms T Q p ph) (hok : ∀ a ph', Q (.ok a) ph' → Conforms T Q' (f a) ph')
    (herr : ∀ e ph', Q (.error e) ph' → Q' (.error e) ph') :
    Conforms T Q' (p >>= f) ph := by
  change Conforms T Q' (Prog.bind p f) ph
  induction p generalizing ph with
  | done r =>
    cases r with
    | ok a => exact hok a ph hp
    | error e => exact herr e ph hp
  | step update next ih =>
    intro s
    obtain ⟨ph', ht, hn⟩ := hp s
    exact ⟨ph', ht, ih s hn⟩

theorem conforms_weaken {Q₂ : Except ε α → φ → Prop} {p : Prog σ ε α} {ph : φ}
    (hp : Conforms T Q p ph) (sub : ∀ r ph', Q r ph' → Q₂ r ph') : Conforms T Q₂ p ph := by
  induction p generalizing ph with
  | done r => exact sub r ph hp
  | step update next ih =>
    intro s
    obtain ⟨ph', ht, hn⟩ := hp s
    exact ⟨ph', ht, ih s hn⟩

theorem conforms_orElse {Q₂ : Except ε α → φ → Prop} {p : Prog σ ε α} {fallback : α} {ph : φ}
    (hp : Conforms T Q p ph) (hok : ∀ a ph', Q (.ok a) ph' → Q₂ (.ok a) ph')
    (herr : ∀ e ph', Q (.error e) ph' → Q₂ (.ok fallback) ph') :
    Conforms T Q₂ (Prog.orElse p fallback) ph := by
  rw [Prog.orElse]
  induction p generalizing ph with
  | done r =>
    cases r with
    | ok a => exact hok a ph hp
    | error e => exact herr e ph hp
  | step update next ih =>
    intro s
    obtain ⟨ph', ht, hn⟩ := hp s
    exact ⟨ph', ht, ih s hn⟩

theorem conforms_attempt {Q₂ : Except ε (Option α) → φ → Prop} {p : Prog σ ε α} {ph : φ}
    (hp : Conforms T Q p ph) (hok : ∀ a ph', Q (.ok a) ph' → Q₂ (.ok (some a)) ph')
    (herr : ∀ e ph', Q (.error e) ph' → Q₂ (.ok none) ph') :
    Conforms T Q₂ (Prog.attempt p) ph := by
  let Q₁ : Except ε (Option α) → φ → Prop := fun r ph' => match r with
    | .ok o => Q₂ (.ok o) ph'
    | .error _ => Q₂ (.ok none) ph'
  have body : Conforms T Q₁ (p >>= fun a => pure (some a)) ph := conforms_bind hp hok herr
  exact conforms_orElse body (fun _ _ h => h) (fun _ _ h => h)

/-- What a program returns may be added to the way it ends. -/
theorem conforms_returning {V : α → Prop} {p : Prog σ ε α} {ph : φ} (hp : Conforms T Q p ph)
    (hv : p.Returns V) : Conforms T (fun r ph' => Q r ph' ∧ ∀ a, r = .ok a → V a) p ph := by
  induction p generalizing ph with
  | done r =>
    refine ⟨hp, ?_⟩
    rintro a rfl
    exact hv
  | step update next ih =>
    intro s
    obtain ⟨ph', ht, hn⟩ := hp s
    exact ⟨ph', ht, ih s hn (hv s)⟩

/-- The program raises nothing and ends in a phase of `I`. -/
def endsIn (I : φ → Prop) : Except ε α → φ → Prop
  | .ok _, ph => I ph
  | .error _, _ => False

/-- Behind a program that raises nothing. -/
theorem conforms_bind_endsIn {I : φ → Prop} {p : Prog σ ε α} {f : α → Prog σ ε β} {ph : φ}
    (hp : Conforms T (endsIn I) p ph) (hf : ∀ a ph', I ph' → Conforms T Q' (f a) ph') :
    Conforms T Q' (p >>= f) ph :=
  conforms_bind hp hf (fun _ _ raised => raised.elim)

/-- A loop each of whose passes ends as the loop may end. -/
theorem conforms_foldlM {γ : Type*} {f : α → γ → Prog σ ε α}
    (pass : ∀ a x ph, Q (.ok a) ph → Conforms T Q (f a x) ph) (xs : List γ) (a : α)
    {ph : φ} (h : Q (.ok a) ph) : Conforms T Q (xs.foldlM f a) ph := by
  induction xs generalizing a ph with
  | nil => exact h
  | cons x xs ih =>
    rw [List.foldlM_cons]
    exact conforms_bind (pass a x ph h) (fun a' ph' h' => ih a' h') (fun _ _ h' => h')

/-- One pass of a loop ends in phase `next`, or raises and ends as the loop may end. -/
def passes {γ : Type w} (next : φ) (Q : Except ε γ → φ → Prop) : Except ε γ → φ → Prop
  | .ok _, ph => ph = next
  | .error e, ph => Q (.error e) ph

/-- A loop, with a phase for what is left of it. -/
theorem conforms_forM {γ : Type*} {f : γ → Prog σ ε PUnit} {Q : Except ε PUnit → φ → Prop}
    (left : List γ → φ) {xs : List γ}
    (pass : ∀ x ∈ xs, ∀ rest, Conforms T (passes (left rest) Q) (f x) (left (x :: rest)))
    (finished : Q (.ok ⟨⟩) (left [])) : Conforms T Q (xs.forM f) (left xs) := by
  induction xs with
  | nil => exact finished
  | cons x xs ih =>
    refine conforms_bind (pass x List.mem_cons_self xs) ?_ ?_
    · rintro a ph rfl
      exact ih (fun y hy => pass y (List.mem_cons_of_mem x hy))
    · intro e ph raised
      exact raised

/-- A program whose steps the protocol never notices stays in its phase. -/
theorem conforms_of_steps {R : σ → σ → Prop} {V : α → Prop} {p : Prog σ ε α} {ph : φ}
    (neutral : ∀ s t, R s t → T ph s t ph) (hp : p.Steps R) (hv : p.Returns V) :
    Conforms T (fun r ph' => ph' = ph ∧ ∀ a, r = .ok a → V a) p ph := by
  induction p with
  | done r =>
    refine ⟨rfl, ?_⟩
    rintro a rfl
    exact hv
  | step update next ih => exact fun s => ⟨ph, neutral _ _ (hp s).1, ih s (hp s).2 (hv s)⟩

/-- Sequential composition behind such a program. -/
theorem conforms_bind_steps {R : σ → σ → Prop} {V : α → Prop} {p : Prog σ ε α}
    {f : α → Prog σ ε β} {ph : φ} (neutral : ∀ s t, R s t → T ph s t ph) (hp : p.Steps R)
    (hv : p.Returns V) (hf : ∀ a, V a → Conforms T Q' (f a) ph) (herr : ∀ e, Q' (.error e) ph) :
    Conforms T Q' (p >>= f) ph := by
  refine conforms_bind (conforms_of_steps neutral hp hv) ?_ ?_
  · rintro a ph' ⟨rfl, ha⟩
    exact hf a (ha a rfl)
  · rintro e ph' ⟨rfl, -⟩
    exact herr e

end Conformance

/-! ## Pools of running programs -/

structure Pool (σ : Type u) (ε : Type v) (α : Type w) where
  shared : σ
  threads : List (Prog σ ε α)

inductive Pool.Step (Spawn : Prog σ ε α → Prop) (Env : σ → σ → Prop) :
    Pool σ ε α → Pool σ ε α → Prop where
  | act {s : σ} {ts : List (Prog σ ε α)} {i : Nat} {update : σ → σ}
      {next : σ → Prog σ ε α} (turn : ts[i]? = some (.step update next)) :
      Pool.Step Spawn Env ⟨s, ts⟩ ⟨update s, ts.set i (next s)⟩
  | spawn {s : σ} {ts : List (Prog σ ε α)} {p : Prog σ ε α} (allowed : Spawn p) :
      Pool.Step Spawn Env ⟨s, ts⟩ ⟨s, ts ++ [p]⟩
  | env {s t : σ} {ts : List (Prog σ ε α)} (moved : Env s t) :
      Pool.Step Spawn Env ⟨s, ts⟩ ⟨t, ts⟩

/-- Thread `i` takes its next step, if it has one. -/
def Pool.turn (P : Pool σ ε α) (i : Nat) : Pool σ ε α :=
  match P.threads[i]? with
  | some (.step update next) => ⟨update P.shared, P.threads.set i (next P.shared)⟩
  | _ => P

theorem Pool.turn_step (Spawn : Prog σ ε α → Prop) (Env : σ → σ → Prop) (P : Pool σ ε α) (i : Nat) :
    Pool.Step Spawn Env P (P.turn i) ∨ P.turn i = P := by
  unfold Pool.turn
  split
  · rename_i turn
    exact .inl (.act turn)
  · exact .inr rfl

/-- Every turn of a schedule satisfies `C`. -/
def Pool.Along (C : σ → σ → Prop) : Pool σ ε α → List Nat → Prop
  | _, [] => True
  | P, i :: schedule => C P.shared (P.turn i).shared ∧ (P.turn i).Along C schedule

instance Pool.decidableAlong (C : σ → σ → Prop) [DecidableRel C] :
    (P : Pool σ ε α) → (schedule : List Nat) → Decidable (P.Along C schedule)
  | _, [] => instDecidableTrue
  | P, i :: schedule =>
    have := decidableAlong C (P.turn i) schedule
    inferInstanceAs (Decidable (C P.shared (P.turn i).shared ∧ (P.turn i).Along C schedule))

theorem Pool.along_true (P : Pool σ ε α) (schedule : List Nat) :
    P.Along (fun _ _ => True) schedule := by
  induction schedule generalizing P with
  | nil => trivial
  | cons i schedule ih => exact ⟨trivial, ih _⟩

def ended : Prog σ ε α → Bool
  | .done _ => true
  | .step _ _ => false

theorem ended_iff {p : Prog σ ε α} : ended p = true ↔ ∃ r, p = .done r := by
  cases p <;> simp [ended]

/-- Nothing is running any more. -/
def Pool.Finished (P : Pool σ ε α) : Prop := ∀ p ∈ P.threads, ∃ r, p = .done r

/-- Runs all of whose steps satisfy `C`, from a state with nothing running. -/
def Reachable (Spawn : Prog σ ε α → Prop) (Env : σ → σ → Prop) (C : σ → σ → Prop)
    (start : σ) (P : Pool σ ε α) : Prop :=
  Relation.ReflTransGen (fun P Q => Pool.Step Spawn Env P Q ∧ C P.shared Q.shared)
    ⟨start, []⟩ P

section Runs

variable {Spawn : Prog σ ε α → Prop} {Env C : σ → σ → Prop} {start : σ} {P : Pool σ ε α}

theorem reachable_spawn (h : Reachable Spawn Env C start P) {p : Prog σ ε α} (allowed : Spawn p)
    (cond : C P.shared P.shared) : Reachable Spawn Env C start ⟨P.shared, P.threads ++ [p]⟩ :=
  h.tail ⟨.spawn allowed, cond⟩

theorem reachable_env (h : Reachable Spawn Env C start P) {t : σ} (moved : Env P.shared t)
    (cond : C P.shared t) : Reachable Spawn Env C start ⟨t, P.threads⟩ :=
  h.tail ⟨.env moved, cond⟩

theorem Reachable.weaken {C' : σ → σ → Prop} (h : Reachable Spawn Env C start P)
    (sub : ∀ s t, C s t → C' s t) : Reachable Spawn Env C' start P := by
  induction h with
  | refl => exact .refl
  | tail _ last ih => exact ih.tail ⟨last.1, sub _ _ last.2⟩

/-- Such runs, from a pool on. -/
def Continues (Spawn : Prog σ ε α → Prop) (Env : σ → σ → Prop) (C : σ → σ → Prop)
    (P P' : Pool σ ε α) : Prop :=
  Relation.ReflTransGen (fun P Q => Pool.Step Spawn Env P Q ∧ C P.shared Q.shared) P P'

theorem Reachable.continues {P' : Pool σ ε α} (h : Reachable Spawn Env C start P)
    (later : Continues Spawn Env C P P') : Reachable Spawn Env C start P' :=
  Relation.ReflTransGen.trans h later

/-- A schedule all of whose turns meet the condition is a run. -/
theorem continues_turns {schedule : List Nat} (met : P.Along C schedule) :
    Continues Spawn Env C P (schedule.foldl Pool.turn P) := by
  induction schedule generalizing P with
  | nil => exact .refl
  | cons i schedule ih =>
    obtain ⟨cond, met⟩ := met
    rcases P.turn_step Spawn Env i with step | idle
    · exact (ih met).head ⟨step, cond⟩
    · have rest := ih met
      rw [idle] at rest
      rw [List.foldl_cons, idle]
      exact rest

theorem reachable_turns (h : Reachable Spawn Env C start P) {schedule : List Nat}
    (met : P.Along C schedule) : Reachable Spawn Env C start (schedule.foldl Pool.turn P) :=
  h.continues (continues_turns met)

/-- The last thread may run to its end before any other takes a step. -/
theorem continues_alone {s : σ} {ts : List (Prog σ ε α)} (p : Prog σ ε α) :
    Continues Spawn Env (fun _ _ => True) ⟨s, ts ++ [p]⟩ ⟨(p.run s).2, ts ++ [.done (p.run s).1]⟩ := by
  induction p generalizing s with
  | done r => exact .refl
  | step update next ih =>
    have turn : (ts ++ [Prog.step update next])[ts.length]? = some (.step update next) := by simp
    have moved : (ts ++ [Prog.step update next]).set ts.length (next s) = ts ++ [next s] := by simp
    have acted : Pool.Step Spawn Env ⟨s, ts ++ [.step update next]⟩ ⟨update s, ts ++ [next s]⟩ := by
      rw [← moved]
      exact .act turn
    exact (ih s (s := update s)).head ⟨acted, trivial⟩

/-- Whatever may start may run alone. -/
theorem reachable_alone (h : Reachable Spawn Env (fun _ _ => True) start P) {p : Prog σ ε α}
    (allowed : Spawn p) : Reachable Spawn Env (fun _ _ => True) start
      ⟨(p.run P.shared).2, P.threads ++ [.done (p.run P.shared).1]⟩ :=
  (reachable_spawn h allowed trivial).continues (continues_alone p)

end Runs

/-! ## Pools whose steps are all related -/

section Related

variable {Spawn : Prog σ ε α → Prop} {Env C R : σ → σ → Prop}

theorem step_related (programs : ∀ p, Spawn p → p.Steps R) (moves : ∀ s t, Env s t → R s t)
    (refl : ∀ s, R s s) {P P' : Pool σ ε α} (running : ∀ p ∈ P.threads, p.Steps R)
    (step : Pool.Step Spawn Env P P') : R P.shared P'.shared ∧ ∀ p ∈ P'.threads, p.Steps R := by
  cases step with
  | @act s ts i update next turn =>
    obtain ⟨here, rest⟩ := running _ (List.mem_of_getElem? turn) s
    refine ⟨here, fun p hp => ?_⟩
    rcases List.mem_or_eq_of_mem_set hp with old | rfl
    · exact running p old
    · exact rest
  | spawn allowed =>
    refine ⟨refl _, fun p hp => ?_⟩
    rcases List.mem_append.mp hp with old | new
    · exact running p old
    · obtain rfl := List.mem_singleton.mp new
      exact programs p allowed
  | env moved => exact ⟨moves _ _ moved, running⟩

/-- What single steps are allowed to do, runs do as well, from any point of theirs on. -/
theorem continues_steps (programs : ∀ p, Spawn p → p.Steps R) (moves : ∀ s t, Env s t → R s t)
    (refl : ∀ s, R s s) (trans : ∀ s t r, R s t → R t r → R s r) {P P' : Pool σ ε α}
    (running : ∀ p ∈ P.threads, p.Steps R) (later : Continues Spawn Env C P P') :
    R P.shared P'.shared ∧ ∀ p ∈ P'.threads, p.Steps R := by
  induction later with
  | refl => exact ⟨refl _, running⟩
  | tail _ last ih =>
    obtain ⟨before, running⟩ := ih
    obtain ⟨now, running⟩ := step_related programs moves refl running last.1
    exact ⟨trans _ _ _ before now, running⟩

end Related

/-- One phase for each running program, which the rest of it conforms to. -/
def Tracks (T : φ → σ → σ → φ → Prop) (Q : Except ε α → φ → Prop)
    (ts : List (Prog σ ε α)) (phs : List φ) : Prop :=
  List.Forall₂ (Conforms T Q) ts phs

section Tracking

variable {T : φ → σ → σ → φ → Prop} {Q : Except ε α → φ → Prop}
variable {ts : List (Prog σ ε α)} {phs : List φ}

/-- The phase of the thread whose turn it is, and the phases around it. -/
theorem tracks_turn (h : Tracks T Q ts phs) {i : Nat} {p : Prog σ ε α} (turn : ts[i]? = some p) :
    ∃ before ph after, phs = before ++ ph :: after ∧ Conforms T Q p ph ∧
      ∀ q ph', Conforms T Q q ph' → Tracks T Q (ts.set i q) (before ++ ph' :: after) := by
  unfold Tracks at h
  induction h generalizing i with
  | nil => cases turn
  | @cons t ph ts phs conf rest ih =>
    cases i with
    | zero =>
      cases turn
      exact ⟨[], ph, phs, rfl, conf, fun q ph' hq => .cons hq rest⟩
    | succ i =>
      obtain ⟨before, ph₁, after, rfl, hp, hset⟩ := ih turn
      exact ⟨ph :: before, ph₁, after, rfl, hp, fun q ph' hq => .cons conf (hset q ph' hq)⟩

theorem tracks_append (h : Tracks T Q ts phs) {p : Prog σ ε α} {ph : φ}
    (conforms : Conforms T Q p ph) : Tracks T Q (ts ++ [p]) (phs ++ [ph]) :=
  List.rel_append h (.cons conforms .nil)

/-- The phases that a pool has ended in. -/
theorem tracks_finished (h : Tracks T Q ts phs) (finished : ∀ p ∈ ts, ∃ r, p = .done r) {ph : φ}
    (hph : ph ∈ phs) : ∃ r, Q r ph := by
  unfold Tracks at h
  induction h with
  | nil => cases hph
  | @cons t ph₁ ts phs conf rest ih =>
    rcases List.mem_cons.mp hph with rfl | hph
    · obtain ⟨r, rfl⟩ := finished t List.mem_cons_self
      exact ⟨r, conf⟩
    · exact ih (fun p hp => finished p (List.mem_cons_of_mem t hp)) hph

end Tracking

/-! ## Invariants of all interleavings -/

section Invariant

variable {Spawn : Prog σ ε α → Prop} {Env C : σ → σ → Prop} {start : σ}
variable {T : φ → σ → σ → φ → Prop} {Q : Except ε α → φ → Prop} {ph₀ : φ}

/-- A step of the pool is a move of the protocol, a move of the environment,
or the arrival of a program that leaves the state alone. -/
theorem step_cases {P P' : Pool σ ε α} {phs : List φ} (tracks : Tracks T Q P.threads phs)
    (conforms : ∀ p, Spawn p → Conforms T Q p ph₀) (step : Pool.Step Spawn Env P P') :
    (∃ before ph after ph', phs = before ++ ph :: after ∧ T ph P.shared P'.shared ph' ∧
      Tracks T Q P'.threads (before ++ ph' :: after)) ∨
    (P'.shared = P.shared ∧ Tracks T Q P'.threads (phs ++ [ph₀])) ∨
    (Env P.shared P'.shared ∧ Tracks T Q P'.threads phs) := by
  cases step with
  | act turn =>
    obtain ⟨before, ph, after, rfl, conf, hset⟩ := tracks_turn tracks turn
    obtain ⟨ph', move, rest⟩ := conf _
    exact .inl ⟨before, ph, after, ph', rfl, move, hset _ _ rest⟩
  | spawn allowed => exact .inr (.inl ⟨rfl, tracks_append tracks (conforms _ allowed)⟩)
  | env moved => exact .inr (.inr ⟨moved, tracks⟩)

/-- If every program that may start conforms to the protocol from `ph₀`, an
invariant of shared state and phases need only be checked for the protocol's
own steps, for arrivals and for the environment. -/
theorem reachable_invariant (I : σ → List φ → Prop)
    (conforms : ∀ p, Spawn p → Conforms T Q p ph₀) (init : I start [])
    (act : ∀ s t before ph after ph', I s (before ++ ph :: after) → T ph s t ph' → C s t →
      I t (before ++ ph' :: after))
    (arrive : ∀ s phs, I s phs → I s (phs ++ [ph₀]))
    (env : ∀ s t phs, I s phs → Env s t → C s t → I t phs)
    {P : Pool σ ε α} (reach : Reachable Spawn Env C start P) :
    ∃ phs, Tracks T Q P.threads phs ∧ I P.shared phs := by
  induction reach with
  | refl => exact ⟨[], .nil, init⟩
  | tail _ last ih =>
    obtain ⟨phs, tracks, inv⟩ := ih
    obtain ⟨move, allowed⟩ := last
    rcases step_cases tracks conforms move with ⟨before, ph, after, ph', rfl, ht, tracks'⟩ |
      ⟨same, tracks'⟩ | ⟨moved, tracks'⟩
    · exact ⟨_, tracks', act _ _ _ _ _ _ inv ht allowed⟩
    · exact ⟨_, tracks', same ▸ arrive _ _ inv⟩
    · exact ⟨_, tracks', env _ _ _ inv moved allowed⟩

/-- What the steps of a run say about the states before and after them holds
of any two states of the run, if it is reflexive there and transitive. -/
theorem continues_related (I : σ → List φ → Prop) {R : σ → σ → Prop}
    (conforms : ∀ p, Spawn p → Conforms T Q p ph₀)
    (invariant : ∀ {P : Pool σ ε α}, Reachable Spawn Env C start P →
      ∃ phs, Tracks T Q P.threads phs ∧ I P.shared phs)
    (refl : ∀ s phs, I s phs → R s s) (trans : ∀ s t u, R s t → R t u → R s u)
    (act : ∀ s t before ph after ph', I s (before ++ ph :: after) → T ph s t ph' → C s t → R s t)
    (env : ∀ s t phs, I s phs → Env s t → C s t → R s t)
    {P P' : Pool σ ε α} (reach : Reachable Spawn Env C start P) (later : Continues Spawn Env C P P') :
    R P.shared P'.shared := by
  induction later with
  | refl =>
    obtain ⟨phs, -, inv⟩ := invariant reach
    exact refl _ phs inv
  | tail run last ih =>
    obtain ⟨phs, tracks, inv⟩ := invariant (reach.continues run)
    obtain ⟨move, allowed⟩ := last
    refine trans _ _ _ ih ?_
    rcases step_cases tracks conforms move with ⟨before, ph, after, ph', rfl, ht, -⟩ |
      ⟨same, -⟩ | ⟨moved, -⟩
    · exact act _ _ _ _ _ _ inv ht allowed
    · rw [same]
      exact refl _ phs inv
    · exact env _ _ _ inv moved allowed

end Invariant

/-! ## Conditions on the running programs -/

section Watching

variable {Spawn : Prog σ ε α → Prop} {Env : σ → σ → Prop} {start : σ}
variable {C : Pool σ ε α → Pool σ ε α → Prop}

/-- Runs all of whose steps satisfy a condition that sees the programs too. -/
def Watched (Spawn : Prog σ ε α → Prop) (Env : σ → σ → Prop)
    (C : Pool σ ε α → Pool σ ε α → Prop) (start : σ) (P : Pool σ ε α) : Prop :=
  Relation.ReflTransGen (fun P Q => Pool.Step Spawn Env P Q ∧ C P Q) ⟨start, []⟩ P

/-- What a phase asserts about the shared state is still true when the program
moves on, provided its own steps establish it and the steps of all others keep
it: because of what every step does, `R`, because the condition says so, or
because the rest of the program conforms to a phase that asserts less. -/
theorem watched_invariant {T : φ → σ → σ → φ → Prop} {Q : Except ε α → φ → Prop} {ph₀ : φ}
    (I : σ → Prop) (A : φ → σ → Prop) (R : σ → σ → Prop)
    (conforms : ∀ p, Spawn p → Conforms T Q p ph₀) (init : I start) (arrive : ∀ s, A ph₀ s)
    (act : ∀ P P' ph ph', I P.shared → A ph P.shared → T ph P.shared P'.shared ph' → C P P' →
      I P'.shared ∧ A ph' P'.shared ∧ R P.shared P'.shared)
    (env : ∀ s t, I s → Env s t → I t ∧ R s t)
    (free : ∀ (P P' : Pool σ ε α) (i : Nat) p ph, P.threads[i]? = some p → P'.threads[i]? = some p →
      Conforms T Q p ph → A ph P.shared → R P.shared P'.shared → C P P' →
      ∃ ph', Conforms T Q p ph' ∧ A ph' P'.shared)
    {P : Pool σ ε α} (reach : Watched Spawn Env C start P) :
    I P.shared ∧
      ∀ (i : Nat) p, P.threads[i]? = some p → ∃ ph, Conforms T Q p ph ∧ A ph P.shared := by
  induction reach with
  | refl => exact ⟨init, fun i p hp => by cases hp⟩
  | @tail P P' _ last ih =>
    obtain ⟨inv, asserted⟩ := ih
    obtain ⟨move, allowed⟩ := last
    -- A program that the step leaves where it is.
    have others : R P.shared P'.shared → ∀ (i : Nat) p, P.threads[i]? = some p →
        P'.threads[i]? = some p → ∃ ph, Conforms T Q p ph ∧ A ph P'.shared := by
      intro related i p before after
      obtain ⟨ph, conf, holds⟩ := asserted i p before
      exact free P P' i p ph before after conf holds related allowed
    cases move with
    | @act s ts i update next turn =>
      obtain ⟨ph, conf, holds⟩ := asserted i _ turn
      obtain ⟨ph', step, rest⟩ := conf s
      obtain ⟨inv', holds', related⟩ := act _ _ ph ph' inv holds step allowed
      refine ⟨inv', fun j p hp => ?_⟩
      by_cases same : i = j
      · subst same
        obtain rfl : next s = p := by
          have bound : i < ts.length := (List.getElem?_eq_some_iff.mp turn).1
          simpa [List.getElem?_set_self bound] using hp
        exact ⟨ph', rest, holds'⟩
      · have before : ts[j]? = some p := by
          rwa [List.getElem?_set_ne same] at hp
        exact others related j p before hp
    | @spawn s ts q starts =>
      refine ⟨inv, fun j p hp => ?_⟩
      by_cases old : j < ts.length
      · have before : ts[j]? = some p := by
          rwa [List.getElem?_append_left old] at hp
        exact asserted j p before
      · obtain ⟨rfl, -⟩ : q = p ∧ j = ts.length := by
          rw [List.getElem?_append_right (Nat.le_of_not_lt old)] at hp
          obtain ⟨bound, rfl⟩ := List.getElem?_eq_some_iff.mp hp
          simp only [List.length_singleton] at bound
          constructor
          · simp
          · omega
        exact ⟨ph₀, conforms _ starts, arrive s⟩
    | env moved =>
      obtain ⟨inv', related⟩ := env _ _ inv moved
      exact ⟨inv', fun j p hp => others related j p hp hp⟩

/-- The turns of one program, one after the other, while all others satisfy `K`. The condition may
ask something, `D`, of the states before and after a step, and something of the programs that the
step leaves in place. -/
theorem watched_turns {K : Prog σ ε α → Prop} {D : σ → σ → Prop}
    (calm : ∀ P P' : Pool σ ε α, (∀ (j : Nat) p, P.threads[j]? = some p →
      P'.threads[j]? = some p → K p) → D P.shared P'.shared → C P P')
    {P : Pool σ ε α} (i n : Nat) (others : ∀ (j : Nat) q, j ≠ i → P.threads[j]? = some q → K q)
    (run : Watched Spawn Env C start P) (along : P.Along D (List.replicate n i)) :
    Watched Spawn Env C start ((List.replicate n i).foldl Pool.turn P) := by
  induction n generalizing P with
  | zero => exact run
  | succ n ih =>
    rw [List.replicate_succ] at along ⊢
    obtain ⟨first, rest⟩ := along
    rw [List.foldl_cons]
    rcases turn : P.threads[i]? with _ | ⟨r | ⟨update, next⟩⟩
    · have idle : P.turn i = P := by rw [Pool.turn, turn]
      rw [idle] at rest ⊢
      exact ih others run rest
    · have idle : P.turn i = P := by rw [Pool.turn, turn]
      rw [idle] at rest ⊢
      exact ih others run rest
    · have moved : P.turn i = ⟨update P.shared, P.threads.set i (next P.shared)⟩ := by
        rw [Pool.turn, turn]
      rw [moved] at first rest ⊢
      have there : i < P.threads.length := (List.getElem?_eq_some_iff.mp turn).1
      have kept : ∀ (j : Nat) p, P.threads[j]? = some p →
          (P.threads.set i (next P.shared))[j]? = some p → K p := by
        intro j p before after
        by_cases own : j = i
        · subst own
          rw [turn, Option.some.injEq] at before
          subst before
          rw [List.getElem?_set_self there, Option.some.injEq] at after
          exact absurd after (Prog.next_ne update next P.shared)
        · exact others j p own before
      refine ih (fun j q other there => ?_) (run.tail ⟨.act turn, calm _ _ kept first⟩) rest
      rw [List.getElem?_set_ne (Ne.symm other)] at there
      exact others j q other there

end Watching

/-! ## Programs that leave a record of their steps -/

section History

variable {L : Type u} {T : L → φ → σ → σ → φ → Prop} {Q : Except ε α → φ → Prop}

/-- Who took a step, and the states before and after it. -/
abbrev History (L σ : Type u) : Type u := List (L × σ × σ)

/-- The same program, with every step recorded under a label. -/
def recorded (l : L) : Prog σ ε α → Prog (σ × History L σ) ε α
  | .done r => .done r
  | .step update next =>
    .step (fun s => (update s.1, s.2 ++ [(l, s.1, update s.1)])) (fun s => recorded l (next s.1))

/-- A recorded step of the protocol of its label. -/
def Recording (T : L → φ → σ → σ → φ → Prop) (ph : φ) (s t : σ × History L σ) (ph' : φ) : Prop :=
  ∃ l, t.2 = s.2 ++ [(l, s.1, t.1)] ∧ T l ph s.1 t.1 ph'

/-- A condition on every step that is recorded between two states. -/
def Each (C : L → σ → σ → Prop) (s t : σ × History L σ) : Prop :=
  ∀ e ∈ t.2.drop s.2.length, C e.1 e.2.1 e.2.2

theorem conforms_recorded {l : L} {p : Prog σ ε α} {ph : φ} (h : Conforms (T l) Q p ph) :
    Conforms (Recording T) Q (recorded l p) ph := by
  induction p generalizing ph with
  | done r => exact h
  | step update next ih =>
    intro s
    obtain ⟨ph', ht, hn⟩ := h s.1
    exact ⟨ph', ⟨l, rfl, ht⟩, ih s.1 hn⟩

theorem each_recorded {C : L → σ → σ → Prop} {s t : σ × History L σ} {l : L}
    (record : t.2 = s.2 ++ [(l, s.1, t.1)]) (each : Each C s t) : C l s.1 t.1 := by
  apply each (l, s.1, t.1)
  rw [record, List.drop_left]
  exact List.mem_singleton_self _

end History

end Interleaving
