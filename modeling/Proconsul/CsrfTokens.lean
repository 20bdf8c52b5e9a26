import Proconsul.Interleaving
import Proconsul.Handlers

/-!
# Tokens that work

`getSessionCSRFToken` both hands out a session's token and says what a submitted
token is compared with. It looks for a row and inserts one if there is none, in
two statements, and the table has no unique key: the first row of a session is
the one that counts. Calls take turns between the two statements, while the rest
of the application does as it likes with everything but this table.

Two sessions are told apart by the database's comparison of their ids. A failing
statement, which leaves a token without a row, is not considered.
-/

namespace CsrfTokens

open Program Schema Text Surroundings Handlers Interleaving

/-! ## The table -/

def ofSession (s : String) (r : CsrfRow) : Bool := sqlEq r.sessionId (some s)

/-- The token in the session's first row. -/
def first (s : String) (w : World) : Option (Option String) :=
  (w.db.csrfTokens.filter (ofSession s)).head?.map CsrfRow.csrfToken

def inserted (s u : String) (now : Int) (w : World) : World :=
  { w with db := { w.db with csrfTokens := w.db.csrfTokens ++ [⟨some s, some u, now⟩] } }

def used (s : String) (now : Int) (rows : List CsrfRow) : List CsrfRow :=
  updateWhere (ofSession s) (fun r => { r with lastused := now }) rows

def touched (s : String) (now : Int) (w : World) : World :=
  { w with db := { w.db with csrfTokens := used s now w.db.csrfTokens } }

theorem first_inserted {s s' u : String} {now : Int} {w : World} {v : Option String}
    (h : first s w = some v) : first s (inserted s' u now w) = some v := by
  obtain ⟨r, head, rfl⟩ := Option.map_eq_some_iff.mp h
  simp [first, inserted, List.filter_append, List.head?_append, head]

theorem first_inserted_self {s u : String} {now : Int} {w : World} (h : first s w = none) :
    first s (inserted s u now w) = some (some u) := by
  have empty : w.db.csrfTokens.filter (ofSession s) = [] := by
    rw [first, Option.map_eq_none_iff] at h
    exact List.head?_eq_none_iff.mp h
  have own : ofSession s ⟨some s, some u, now⟩ = true := sqlEq_refl s
  simp [first, inserted, List.filter_append, empty, own]

theorem first_touched (s s' : String) (now : Int) (w : World) :
    first s (touched s' now w) = first s w := by
  have rows : (used s' now w.db.csrfTokens).filter (ofSession s) =
      used s' now (w.db.csrfTokens.filter (ofSession s)) := by
    apply filter_updateWhere
    intro r
    rfl
  have tokens : ∀ rows, (used s' now rows).map CsrfRow.csrfToken = rows.map CsrfRow.csrfToken := by
    apply map_updateWhere
    intro r
    rfl
  rw [first, first, touched, rows, ← List.head?_map, tokens, List.head?_map]

theorem mem_of_first {s : String} {w : World} {v : Option String} (h : first s w = some v) :
    ∃ r ∈ w.db.csrfTokens, ofSession s r = true ∧ r.csrfToken = v := by
  obtain ⟨r, head, rfl⟩ := Option.map_eq_some_iff.mp h
  obtain ⟨mem, own⟩ := List.mem_filter.mp (List.mem_of_head? head)
  exact ⟨r, mem, own, rfl⟩

/-- Once a session has a token it keeps it. -/
def KeepsTokens (w w' : World) : Prop := ∀ s v, first s w = some v → first s w' = some v

/-! ## Calls -/

inductive Answer where
  | issued (session : String) (token : Option String)
  | compared (session token : String) (accepted : Bool)
  deriving DecidableEq, Repr

/-- A page that carries the session's token. -/
def issue (c : TokenCalls) (req : Request) : Run Answer := do
  return .issued req.sessionId (← getSessionCSRFToken c req)

/-- A form that was submitted with a token. -/
def compare (c : TokenCalls) (req : Request) (token : String) (m : CsrfMessages) : Run Answer := do
  return .compared req.sessionId token (← csrfGate c req (some token) m).isNone

def TokenCalls.answered (c : TokenCalls) : Prop := c.select = false ∧ c.write = false

/-- Calls by requests of the sessions `ids`, all of whose statements are answered. -/
inductive Spawned (ids : Set String) : Run Answer → Prop where
  | issue (c : TokenCalls) (req : Request) (answered : TokenCalls.answered c)
      (session : req.sessionId ∈ ids) : Spawned ids (issue c req)
  | compare (c : TokenCalls) (req : Request) (token : String) (m : CsrfMessages)
      (answered : TokenCalls.answered c) (session : req.sessionId ∈ ids)
      (origin : checkOrigin req = true) : Spawned ids (compare c req token m)

/-- Whatever happens outside the table. -/
def Elsewhere (w w' : World) : Prop := w'.db.csrfTokens = w.db.csrfTokens

inductive Phase where
  | start
  | inserting (s u : String) (now : Int)
  | found (s : String) (v : Option String)
  | finished (s : String) (v : Option String)

/-- A lookup and the statement it decides on. -/
inductive Move (ids : Set String) : Phase → World → World → Phase → Prop where
  | miss {s : String} (u : String) (now : Int) {w : World} (session : s ∈ ids)
      (none : first s w = none) : Move ids .start w w (.inserting s u now)
  | hit {s : String} {v : Option String} {w : World} (session : s ∈ ids)
      (row : first s w = some v) : Move ids .start w w (.found s v)
  | insert (s u : String) (now : Int) (w : World) :
      Move ids (.inserting s u now) w (inserted s u now w) (.finished s (some u))
  | touch (s : String) (v : Option String) (now : Int) (w : World) :
      Move ids (.found s v) w (touched s now w) (.finished s v)

/-- How a call of a session ends. -/
def Ends (s : String) : Except Exn (Option String) → Phase → Prop
  | .ok v, ph => ph = .finished s v
  | .error _, _ => False

def EndsAnswering : Except Exn Answer → Phase → Prop
  | .ok (.issued s v), ph => ph = .finished s v
  | .ok (.compared s token accepted), ph => ∃ v, ph = .finished s v ∧ (accepted = true ↔ v = some token)
  | .error _, _ => False

variable {ids : Set String}

/-- How the lookup ends: with the row that was found, or ready to insert one. -/
def Looked (c : TokenCalls) (s : String) : Except Exn (Option CsrfRow) → Phase → Prop
  | .ok (some row), ph => ph = .found s row.csrfToken
  | .ok none, ph => ph = .inserting s c.uuid c.now
  | .error _, _ => False

def LookedAgain (c : TokenCalls) (s : String) : Except Exn (Option (Option CsrfRow)) → Phase → Prop
  | .ok (some row), ph => Looked c s (.ok row) ph
  | .ok none, _ => False
  | .error _, _ => False

/-- A statement whose outcome is not looked at. -/
theorem conforms_ignored {s : String} {v : Option String} {p : Run Unit} {ph : Phase}
    (hp : Conforms (Move ids) (fun _ ph' => ph' = .finished s v) p ph) :
    Conforms (Move ids) (Ends s) (do let _ ← Prog.attempt p; return v) ph := by
  refine conforms_bind (Q := endsIn (fun ph' => ph' = .finished s v)) ?_ ?_ ?_
  · exact conforms_attempt hp (fun _ _ h => h) (fun _ _ h => h)
  · intro a ph' h
    exact h
  · intro e ph' raised
    exact raised.elim

theorem conforms_getSessionCSRFToken {c : TokenCalls} {req : Request}
    (answered : TokenCalls.answered c) (session : req.sessionId ∈ ids) :
    Conforms (Move ids) (Ends req.sessionId) (getSessionCSRFToken c req) .start := by
  obtain ⟨selects, writes⟩ := answered
  have lookup : Conforms (Move ids) (Looked c req.sessionId)
      (query c.select .csrfTokens ["sessionId"] (fun db =>
        (db.csrfTokens.filter (fun r => sqlEq r.sessionId (some req.sessionId))).head?)) .start := by
    refine conforms_atom (fun w => ?_)
    rw [selects]
    have answer : (if (false || !Table.csrfTokens.knows ["sessionId"]) = true then
        (.error .sqlException, w) else (.ok (w.db.csrfTokens.filter
          (fun r => sqlEq r.sessionId (some req.sessionId))).head?, w) :
            Except Exn (Option CsrfRow) × World) =
        (.ok (w.db.csrfTokens.filter (ofSession req.sessionId)).head?, w) := rfl
    rw [answer]
    cases head : (w.db.csrfTokens.filter (ofSession req.sessionId)).head? with
    | none =>
      have none : first req.sessionId w = none := by rw [first, head]; rfl
      exact ⟨_, .miss c.uuid c.now session none, rfl⟩
    | some row =>
      have found : first req.sessionId w = some row.csrfToken := by rw [first, head]; rfl
      exact ⟨_, .hit session found, rfl⟩
  have behind : Conforms (Move ids) (LookedAgain c req.sessionId)
      (Prog.attempt (query c.select .csrfTokens ["sessionId"] (fun db =>
        (db.csrfTokens.filter (fun r => sqlEq r.sessionId (some req.sessionId))).head?))) .start := by
    refine conforms_attempt lookup (fun _ _ h => h) (fun _ _ raised => raised.elim)
  refine conforms_bind behind ?_ (fun _ _ raised => raised.elim)
  intro answer ph h
  cases answer with
  | none => exact h.elim
  | some row =>
    cases row with
    | some row =>
      obtain rfl : ph = .found req.sessionId row.csrfToken := h
      refine conforms_ignored (conforms_atom (fun w => ?_))
      refine ⟨_, ?_, rfl⟩
      rw [writes]
      change Move ids _ w { w with
        db := { w.db with csrfTokens := used req.sessionId c.now w.db.csrfTokens }
        trace := w.trace ++ [] } _
      rw [List.append_nil]
      exact .touch _ _ _ _
    | none =>
      obtain rfl : ph = .inserting req.sessionId c.uuid c.now := h
      refine conforms_ignored (conforms_atom (fun w => ?_))
      refine ⟨_, ?_, rfl⟩
      rw [writes]
      change Move ids _ w { inserted req.sessionId c.uuid c.now w with trace := w.trace ++ [] } _
      rw [List.append_nil]
      exact .insert _ _ _ _

theorem conforms_spawned {p : Run Answer} (spawned : Spawned ids p) :
    Conforms (Move ids) EndsAnswering p .start := by
  cases spawned with
  | issue c req answered session =>
    refine conforms_bind (conforms_getSessionCSRFToken answered session) ?_ ?_
    · intro v ph h
      exact h
    · intro e ph raised
      exact raised.elim
  | compare c req token m answered session origin =>
    rw [compare, csrfGate, if_pos origin]
    refine conforms_bind (Q := fun r ph => ∃ v gate, r = .ok gate ∧
      ph = .finished req.sessionId v ∧ (gate.isNone = true ↔ v = some token)) ?_ ?_ ?_
    · refine conforms_bind (conforms_getSessionCSRFToken answered session) ?_ ?_
      · intro v ph h
        by_cases same : v = some token
        · rw [if_pos same]
          exact ⟨v, none, rfl, h, by simp [same]⟩
        · rw [if_neg same]
          exact ⟨v, _, rfl, h, by simp [same]⟩
      · intro e ph raised
        exact raised.elim
    · rintro gate ph ⟨v, gate', same, ended, passed⟩
      cases same
      exact ⟨v, ended, passed⟩
    · rintro e ph ⟨v, gate, same, -⟩
      cases same

/-! ## Runs -/

/-- The next step inserts a row for the session, whose lookup has found none. -/
def Inserts (s : String) (p : Run Answer) : Prop :=
  ∃ u now next, p = .step (inserted s u now) next

/-- A token that is inserted is in no row yet: generated tokens are distinct. -/
def NewTokens (w w' : World) : Prop :=
  ∀ row ∈ w'.db.csrfTokens.drop w.db.csrfTokens.length,
    row.csrfToken ∉ w.db.csrfTokens.map CsrfRow.csrfToken

instance : DecidableRel NewTokens := fun w w' =>
  inferInstanceAs (Decidable (∀ row ∈ w'.db.csrfTokens.drop w.db.csrfTokens.length, _))

/-- While a call stands between a lookup that found nothing and its insert, no other step gives
the session its first row. -/
structure Undisturbed (P P' : Pool World Exn Answer) : Prop where
  waiting : ∀ (i : Nat) p s, P.threads[i]? = some p → P'.threads[i]? = some p → Inserts s p →
    first s P.shared = none → first s P'.shared = none
  fresh : NewTokens P.shared P'.shared

/-- What a call relies on from one statement to the next. -/
def Relies (ids : Set String) : Phase → World → Prop
  | .start, _ => True
  | .inserting s _ _, w => s ∈ ids ∧ first s w = none
  | .found s v, w => s ∈ ids ∧ first s w = some v
  | .finished s v, w => s ∈ ids ∧ first s w = some v

/-- The tokens of the session are tokens, and no other session has them. -/
def Own (s : String) (w : World) : Prop :=
  ∀ r ∈ w.db.csrfTokens, ofSession s r = true → r.csrfToken ≠ none ∧
    ∀ r' ∈ w.db.csrfTokens, ofSession s r' = false → r'.csrfToken ≠ r.csrfToken

theorem own_inserted {s s' u : String} {now : Int} {w : World} (own : Own s w)
    (fresh : NewTokens w (inserted s' u now w)) : Own s (inserted s' u now w) := by
  have new : some u ∉ w.db.csrfTokens.map CsrfRow.csrfToken := by
    apply fresh ⟨some s', some u, now⟩
    rw [inserted, List.drop_left]
    exact List.mem_singleton_self _
  have other : ∀ r ∈ w.db.csrfTokens, r.csrfToken ≠ some u := by
    intro r hr same
    exact new (same ▸ List.mem_map_of_mem hr)
  intro r hr mine
  rcases List.mem_append.mp hr with hr | hr
  · obtain ⟨given, others⟩ := own r hr mine
    refine ⟨given, fun r' hr' theirs => ?_⟩
    rcases List.mem_append.mp hr' with hr' | hr'
    · exact others r' hr' theirs
    · obtain rfl := List.mem_singleton.mp hr'
      exact (other r hr).symm
  · obtain rfl := List.mem_singleton.mp hr
    refine ⟨by simp, fun r' hr' theirs => ?_⟩
    rcases List.mem_append.mp hr' with hr' | hr'
    · exact other r' hr'
    · obtain rfl := List.mem_singleton.mp hr'
      rw [mine] at theirs
      cases theirs

theorem own_touched {s s' : String} {now : Int} {w : World} (own : Own s w) :
    Own s (touched s' now w) := by
  have old : ∀ r ∈ used s' now w.db.csrfTokens, ∃ q ∈ w.db.csrfTokens,
      ofSession s q = ofSession s r ∧ q.csrfToken = r.csrfToken := by
    intro r hr
    obtain ⟨q, hq, rfl⟩ := List.mem_map.mp hr
    refine ⟨q, hq, ?_⟩
    split <;> exact ⟨rfl, rfl⟩
  intro r hr mine
  obtain ⟨q, hq, session, token⟩ := old r hr
  obtain ⟨given, others⟩ := own q hq (session ▸ mine)
  rw [← token]
  refine ⟨given, fun r' hr' theirs => ?_⟩
  obtain ⟨q', hq', session', token'⟩ := old r' hr'
  rw [← token']
  exact others q' hq' (session' ▸ theirs)

theorem relies_move {s : String} {w w' : World} {ph ph' : Phase} (own : Own s w)
    (relies : Relies ids ph w) (move : Move ids ph w w' ph') (fresh : NewTokens w w') :
    Own s w' ∧ Relies ids ph' w' ∧ KeepsTokens w w' := by
  cases move with
  | miss u now session none => exact ⟨own, ⟨session, none⟩, fun _ _ h => h⟩
  | hit session row => exact ⟨own, ⟨session, row⟩, fun _ _ h => h⟩
  | insert s' u now =>
    refine ⟨own_inserted own fresh, ⟨relies.1, first_inserted_self relies.2⟩, ?_⟩
    intro s v h
    exact first_inserted h
  | touch s' v now =>
    refine ⟨own_touched own, ⟨relies.1, ?_⟩, ?_⟩
    · rw [first_touched]
      exact relies.2
    · intro s v h
      rw [first_touched]
      exact h

/-- A call in phase `inserting` is about to insert. -/
theorem inserts_of_phase {p : Run Answer} {s u : String} {now : Int}
    (conf : Conforms (Move ids) EndsAnswering p (.inserting s u now)) : Inserts s p := by
  cases p with
  | done r =>
    cases r with
    | error e => exact conf.elim
    | ok answer =>
      cases answer with
      | issued s v => cases conf
      | compared s token accepted =>
        obtain ⟨v, ended, -⟩ := conf
        cases ended
  | step update next =>
    have same : update = inserted s u now := by
      funext w
      obtain ⟨ph', move, -⟩ := conf w
      generalize update w = w' at move
      cases move
      rfl
    exact ⟨u, now, next, by rw [same]⟩

theorem relies_of_run {s : String} {start : World} (own : Own s start) {P : Pool World Exn Answer}
    (run : Watched (Spawned ids) Elsewhere Undisturbed start P) :
    Own s P.shared ∧ ∀ (i : Nat) p, P.threads[i]? = some p →
      ∃ ph, Conforms (Move ids) EndsAnswering p ph ∧ Relies ids ph P.shared := by
  refine watched_invariant (Own s) (Relies ids) KeepsTokens (fun _ => conforms_spawned) own
    (fun _ => trivial) ?_ ?_ ?_ run
  · intro P P' ph ph' own relies move condition
    exact relies_move own relies move condition.fresh
  · intro w w' own moved
    rw [Own, moved]
    refine ⟨own, fun s v h => ?_⟩
    rw [first, moved]
    exact h
  · intro P P' i p ph before after conf relies keeps condition
    refine ⟨ph, conf, ?_⟩
    cases ph with
    | start => trivial
    | inserting s u now =>
      exact ⟨relies.1, condition.waiting i p s before after (inserts_of_phase conf) relies.2⟩
    | found s v => exact ⟨relies.1, keeps s v relies.2⟩
    | finished s v => exact ⟨relies.1, keeps s v relies.2⟩

/-- Where lookups that found nothing stay true, every call for a session hands out a token, and a
comparison accepts it in that session and in no other. -/
theorem issued_tokens_work (ids : Set String)
    (apart : ∀ a ∈ ids, ∀ b ∈ ids, sqlEq (some a) (some b) = true → a = b) (s : String)
    {start : World} (none : first s start = none) {P : Pool World Exn Answer}
    (run : Watched (Spawned ids) Elsewhere Undisturbed start P) {i : Nat} {v : Option String}
    (issued : P.threads[i]? = some (.done (.ok (.issued s v)))) :
    ∃ token, v = some token ∧ ∀ (j : Nat) s' accepted,
      P.threads[j]? = some (.done (.ok (.compared s' token accepted))) →
        (accepted = true ↔ s' = s) := by
  have empty : ∀ r ∈ start.db.csrfTokens, ofSession s r = false := by
    rw [first, Option.map_eq_none_iff, List.head?_eq_none_iff] at none
    intro r hr
    exact Bool.eq_false_iff.mpr (List.filter_eq_nil_iff.mp none r hr)
  have own : Own s start := by
    intro r hr mine
    rw [empty r hr] at mine
    cases mine
  obtain ⟨own, phases⟩ := relies_of_run own run
  obtain ⟨session, mine⟩ : s ∈ ids ∧ first s P.shared = some v := by
    obtain ⟨ph, ended, relies⟩ := phases i _ issued
    obtain rfl : ph = .finished s v := ended
    exact relies
  obtain ⟨r, hr, ofS, rfl⟩ := mem_of_first mine
  obtain ⟨given, others⟩ := own r hr ofS
  obtain ⟨token, htoken⟩ := Option.ne_none_iff_exists'.mp given
  refine ⟨token, htoken, fun j s' accepted compared => ?_⟩
  obtain ⟨ph', ⟨v', rfl, passed⟩, session', theirs⟩ : ∃ ph', EndsAnswering
      (.ok (.compared s' token accepted)) ph' ∧ Relies ids ph' P.shared := phases j _ compared
  rw [passed, ← htoken]
  constructor
  · rintro rfl
    obtain ⟨r', hr', ofS', token'⟩ := mem_of_first theirs
    cases elsewhere : ofSession s r' with
    | false => exact absurd token' (others r' hr' elsewhere)
    | true => exact apart s' session' s session (sqlEq_trans (sqlEq_symm ofS') elsewhere)
  · rintro rfl
    rw [mine] at theirs
    exact (Option.some.inj theirs).symm

/-! ## Two page loads -/

/-- The call has ended, or it is about to insert a row for the session. -/
def Waits (s : String) (p : Run Answer) : Prop := (∃ r, p = .done r) ∨ Inserts s p

/-- A step that leaves no first row for the session disturbs no call that waits for it. -/
theorem undisturbed_waiting {s : String} {P P' : Pool World Exn Answer}
    (waits : ∀ (i : Nat) p, P.threads[i]? = some p → P'.threads[i]? = some p → Waits s p)
    (kept : NewTokens P.shared P'.shared ∧ (first s P.shared = none → first s P'.shared = none)) :
    Undisturbed P P' := by
  refine ⟨?_, kept.1⟩
  rintro i p s' before after ⟨u, now, next, rfl⟩ none
  rcases waits i _ before after with ⟨r, ended⟩ | ⟨u', now', next', same⟩
  · cases ended
  · have update : inserted s' u now = inserted s u' now' := (Prog.step.inj same).1
    have rows := congrArg (fun f => (f World.empty).db.csrfTokens.map CsrfRow.sessionId) update
    obtain rfl : s' = s := by simpa [inserted, World.empty, Database.empty] using rows
    exact kept.2 none

theorem undisturbed_spawn (P : Pool World Exn Answer) (p : Run Answer) :
    Undisturbed P ⟨P.shared, P.threads ++ [p]⟩ := by
  refine ⟨fun _ _ _ _ _ _ none => none, ?_⟩
  intro row mem
  simp at mem

def tokenCalls (uuid : String) : TokenCalls := ⟨false, false, uuid, 0⟩

def inSession (s : String) : Request := { sampleRequest with sessionId := s }

def loads (s uuid : String) : Run Answer := issue (tokenCalls uuid) (inSession s)

def submits (s uuid token : String) : Run Answer :=
  compare (tokenCalls uuid) (inSession s) token userCsrf

theorem spawned_loads {s : String} (known : s ∈ ids) (uuid : String) : Spawned ids (loads s uuid) :=
  .issue _ _ ⟨rfl, rfl⟩ known

theorem spawned_submits {s : String} (known : s ∈ ids) (uuid token : String) :
    Spawned ids (submits s uuid token) :=
  .compare _ _ _ _ ⟨rfl, rfl⟩ known rfl

/-- A page of the session whose token was not found, and which will then be inserted. -/
def inserting (s u : String) : Run Answer :=
  .step (fun w => { inserted s u 0 w with trace := w.trace ++ [] })
    (fun _ => .done (.ok (.issued s (some u))))

def answer (s u : String) : Run Answer := .done (.ok (.issued s (some u)))

theorem inserts_inserting (s u : String) : Inserts s (inserting s u) := by
  have update : (fun w => { inserted s u 0 w with trace := w.trace ++ [] } : World → World) =
      inserted s u 0 := by
    funext w
    rw [List.append_nil]
    rfl
  rw [inserting, update]
  exact ⟨u, 0, _, rfl⟩

/-- Turns of one call while the others wait for the session, or have ended. -/
theorem watched_waiting {start : World} {P : Pool World Exn Answer} (s : String) (i n : Nat)
    (others : ∀ (j : Nat) q, j ≠ i → P.threads[j]? = some q → Waits s q)
    (run : Watched (Spawned ids) Elsewhere Undisturbed start P)
    (along : P.Along (fun w w' => NewTokens w w' ∧ (first s w = none → first s w' = none))
      (List.replicate n i)) :
    Watched (Spawned ids) Elsewhere Undisturbed start ((List.replicate n i).foldl Pool.turn P) :=
  watched_turns (fun _ _ => undisturbed_waiting) i n others run along

/-- Pages of two sessions are loaded at once: both look before either inserts. -/
theorem watched_loaded : Watched (Spawned {"S1", "S2"}) Elsewhere Undisturbed World.empty
    ⟨inserted "S2" "T2" 0 (inserted "S1" "T1" 0 World.empty),
      [answer "S1" "T1", answer "S2" "T2"]⟩ := by
  have one : "S1" ∈ ({"S1", "S2"} : Set String) := .inl rfl
  have two : "S2" ∈ ({"S1", "S2"} : Set String) := .inr rfl
  have looked : Watched (Spawned {"S1", "S2"}) Elsewhere Undisturbed World.empty
      ⟨World.empty, [inserting "S1" "T1"]⟩ := by
    have opened : Watched (Spawned {"S1", "S2"}) Elsewhere Undisturbed World.empty
        ⟨World.empty, [loads "S1" "T1"]⟩ :=
      Relation.ReflTransGen.single ⟨.spawn (spawned_loads one "T1"), undisturbed_spawn _ _⟩
    refine watched_waiting "S1" 0 1 ?_ opened (by decide +kernel)
    rintro (_ | j) q other there
    · exact absurd rfl other
    · cases there
  have both : Watched (Spawned {"S1", "S2"}) Elsewhere Undisturbed World.empty
      ⟨World.empty, [inserting "S1" "T1", inserting "S2" "T2"]⟩ := by
    refine watched_waiting "S1" 1 1 ?_
      (looked.tail ⟨.spawn (spawned_loads two "T2"), undisturbed_spawn _ _⟩) (by decide +kernel)
    rintro (_ | _ | j) q other ⟨⟩
    · exact .inr (inserts_inserting "S1" "T1")
    · exact absurd rfl other
  have first : Watched (Spawned {"S1", "S2"}) Elsewhere Undisturbed World.empty
      ⟨inserted "S1" "T1" 0 World.empty, [answer "S1" "T1", inserting "S2" "T2"]⟩ := by
    refine watched_waiting "S2" 0 1 ?_ both (by decide +kernel)
    rintro (_ | _ | j) q other ⟨⟩
    · exact absurd rfl other
    · exact .inr (inserts_inserting "S2" "T2")
  refine watched_waiting "S1" 1 1 ?_ first (by decide +kernel)
  rintro (_ | _ | j) q other ⟨⟩
  · exact .inl ⟨_, rfl⟩
  · exact absurd rfl other

/-- Then the form of the first page is submitted. -/
theorem submitted_token_accepted : ∃ P : Pool World Exn Answer,
    Watched (Spawned {"S1", "S2"}) Elsewhere Undisturbed World.empty P ∧
      P.threads[2]? = some (.done (.ok (.compared "S1" "T1" true))) ∧
      ∀ (j : Nat) s' accepted, P.threads[j]? = some (.done (.ok (.compared s' "T1" accepted))) →
        (accepted = true ↔ s' = "S1") := by
  have one : "S1" ∈ ({"S1", "S2"} : Set String) := .inl rfl
  have checked := watched_waiting "S1" 2 2 (by
    rintro (_ | _ | _ | j) q other ⟨⟩
    · exact .inl ⟨_, rfl⟩
    · exact .inl ⟨_, rfl⟩
    · exact absurd rfl other)
    (watched_loaded.tail ⟨.spawn (spawned_submits one "T3" "T1"), undisturbed_spawn _ _⟩)
    (by decide +kernel)
  have apart : ∀ a ∈ ({"S1", "S2"} : Set String), ∀ b ∈ ({"S1", "S2"} : Set String),
      sqlEq (some a) (some b) = true → a = b := by
    rintro a (rfl | rfl) b (rfl | rfl) same
    · rfl
    · revert same
      decide
    · revert same
      decide
    · rfl
  have unknown : CsrfTokens.first "S1" World.empty = none := rfl
  obtain ⟨token, same, works⟩ := issued_tokens_work {"S1", "S2"} apart "S1" unknown checked (i := 0)
    (v := some "T1") rfl
  cases same
  exact ⟨_, checked, rfl, works⟩

/-- Two pages are loaded at once and both lookups find nothing: the token of the second one is
refused when its form is submitted. -/
theorem second_page_refused : ∃ P P' : Pool World Exn Answer,
    Reachable (Spawned {"S1"}) Elsewhere NewTokens World.empty P ∧
      P.threads[1]? = some (.done (.ok (.issued "S1" (some "T2")))) ∧ P.threads.length = 2 ∧
      Continues (Spawned {"S1"}) Elsewhere NewTokens P P' ∧
      P'.threads[2]? = some (.done (.ok (.compared "S1" "T2" false))) := by
  have one : "S1" ∈ ({"S1"} : Set String) := rfl
  let both : Pool World Exn Answer := ⟨World.empty, [loads "S1" "T1", loads "S1" "T2"]⟩
  let loaded : Pool World Exn Answer :=
    ⟨inserted "S1" "T2" 0 (inserted "S1" "T1" 0 World.empty),
      [.done (.ok (.issued "S1" (some "T1"))), .done (.ok (.issued "S1" (some "T2")))]⟩
  let sent : Pool World Exn Answer := ⟨loaded.shared, loaded.threads ++ [submits "S1" "T3" "T2"]⟩
  have asked : Reachable (Spawned {"S1"}) Elsewhere NewTokens World.empty both :=
    reachable_spawn (reachable_spawn .refl (spawned_loads one "T1") (by decide))
      (spawned_loads one "T2") (by decide)
  have turns : both.Along NewTokens [0, 1, 0, 1] := by decide +kernel
  have reach : Reachable (Spawned {"S1"}) Elsewhere NewTokens World.empty loaded :=
    reachable_turns asked turns
  have later : Continues (Spawned {"S1"}) Elsewhere NewTokens loaded ([2, 2].foldl Pool.turn sent) :=
    Relation.ReflTransGen.head ⟨.spawn (spawned_submits one "T3" "T2"), by decide +kernel⟩
      (continues_turns (by decide +kernel))
  exact ⟨loaded, _, reach, rfl, rfl, later, rfl⟩

end CsrfTokens
