import Mathlib.Data.List.Basic

/-!
# The cache of administrative connections

`LDAPAdminConnection` keeps one static connection and a map from URLs to
connections. A call without a target asks for the configured `ldap.provider`, a
call with a target for that URL; both answer with the static field, which both
of them set. Here sequences of calls are followed from the empty cache.

A connection is an object with an identity and the URL it was made for. Calls
do not overlap, and nothing is said about the sockets behind the objects.
-/

namespace LdapConnections

structure LDAPAdminConnection where
  id : Nat
  providerUrl : String
  deriving DecidableEq, Repr

/-- The static fields, and how many objects were made so far. -/
structure Cache where
  conn : Option LDAPAdminConnection
  connMap : List (String × LDAPAdminConnection)
  made : Nat
  deriving DecidableEq, Repr

namespace Cache

def initial : Cache := ⟨none, [], 0⟩

/-- `conn = new LDAPAdminConnection(url)` and `conn.addMap(conn)`, which keeps an entry that is
already there. -/
def create (s : Cache) (url : String) : Cache where
  conn := some ⟨s.made, url⟩
  connMap :=
    if (s.connMap.lookup url).isSome then s.connMap else s.connMap ++ [(url, ⟨s.made, url⟩)]
  made := s.made + 1

end Cache

/-- `getInstance()`; `provider` is the property `ldap.provider`. -/
def getInstance (provider : String) (s : Cache) : LDAPAdminConnection × Cache :=
  match s.conn with
  | none => (⟨s.made, provider⟩, s.create provider)
  | some c => (c, s)

/-- `getInstance(target)`. -/
def getInstanceFor (target : String) (s : Cache) : LDAPAdminConnection × Cache :=
  match s.conn, s.connMap.lookup target with
  | some _, some c => (c, { s with conn := some c })
  | _, _ => (⟨s.made, target⟩, s.create target)

inductive Call where
  | default
  | targeted (target : String)
  deriving DecidableEq, Repr

/-- The URL a call asks for. -/
def Call.asked (provider : String) : Call → String
  | .default => provider
  | .targeted target => target

def answer (provider : String) (s : Cache) : Call → LDAPAdminConnection × Cache
  | .default => getInstance provider s
  | .targeted target => getInstanceFor target s

/-- The answers to a sequence of calls. -/
def answers (provider : String) : Cache → List Call → List LDAPAdminConnection
  | _, [] => []
  | s, call :: calls => (answer provider s call).1 :: answers provider (answer provider s call).2 calls

def after (provider : String) (s : Cache) (calls : List Call) : Cache :=
  calls.foldl (fun s call => (answer provider s call).2) s

/-! ## What every call keeps -/

/-- Entries stand under their own URL, and the static connection is one of them. -/
structure Sound (s : Cache) : Prop where
  held : ∀ c, s.conn = some c → s.connMap.lookup c.providerUrl = some c
  urls : ∀ url c, s.connMap.lookup url = some c → c.providerUrl = url
  empty : s.conn = none → s.connMap = []

theorem sound_initial : Sound .initial :=
  ⟨by simp [Cache.initial], by simp [Cache.initial], fun _ => rfl⟩

theorem lookup_create (s : Cache) (url key : String) :
    (s.create url).connMap.lookup key =
      (s.connMap.lookup key).or (if key = url then some ⟨s.made, url⟩ else none) := by
  rw [Cache.create]
  dsimp only
  by_cases known : (s.connMap.lookup url).isSome = true
  · rw [if_pos known]
    by_cases same : key = url
    · obtain ⟨c, there⟩ := Option.isSome_iff_exists.mp known
      rw [same, there, Option.some_or]
    · rw [if_neg same, Option.or_none]
  · rw [if_neg known, List.lookup_append]
    by_cases same : key = url
    · simp [same]
    · have other : (key == url) = false := by simpa using same
      simp [List.lookup_cons, same, other]

theorem sound_create {s : Cache} (sound : Sound s) {url : String} (new : s.connMap.lookup url = none) :
    Sound (s.create url) where
  held := by
    rintro c ⟨rfl⟩
    rw [lookup_create, new]
    simp
  urls := by
    intro key c found
    rw [lookup_create] at found
    cases old : s.connMap.lookup key with
    | some d =>
      rw [old, Option.some_or] at found
      rw [← Option.some.inj found]
      exact sound.urls key d old
    | none =>
      rw [old, Option.none_or] at found
      by_cases same : key = url
      · rw [if_pos same] at found
        rw [← Option.some.inj found, same]
      · rw [if_neg same] at found
        cases found
  empty := by
    intro missing
    cases missing

/-- What a call does: the answer stands in the map, no entry is lost, and the static connection is
the answer. -/
structure Answered (s : Cache) (c : LDAPAdminConnection) (s' : Cache) : Prop where
  sound : Sound s'
  held : s'.conn = some c
  kept : ∀ url d, s.connMap.lookup url = some d → s'.connMap.lookup url = some d

theorem answered_create {s : Cache} (sound : Sound s) {url : String}
    (new : s.connMap.lookup url = none) : Answered s ⟨s.made, url⟩ (s.create url) where
  sound := sound_create sound new
  held := rfl
  kept := by
    intro key d old
    rw [lookup_create, old, Option.some_or]

theorem answered_default (provider : String) {s : Cache} (sound : Sound s) :
    Answered s (getInstance provider s).1 (getInstance provider s).2 := by
  rw [getInstance]
  cases held : s.conn with
  | none =>
    have new : s.connMap.lookup provider = none := by
      rw [sound.empty held]
      rfl
    exact answered_create sound new
  | some c => exact ⟨sound, held, fun _ _ old => old⟩

/-- A targeted call is answered with its target, whatever came before. -/
theorem answered_targeted (target : String) {s : Cache} (sound : Sound s) :
    Answered s (getInstanceFor target s).1 (getInstanceFor target s).2 ∧
      (getInstanceFor target s).1.providerUrl = target := by
  rw [getInstanceFor]
  cases held : s.conn with
  | none =>
    have new : s.connMap.lookup target = none := by
      rw [sound.empty held]
      rfl
    exact ⟨answered_create sound new, rfl⟩
  | some c =>
    cases found : s.connMap.lookup target with
    | none => exact ⟨answered_create sound found, rfl⟩
    | some d =>
      have url := sound.urls target d found
      refine ⟨⟨⟨?_, sound.urls, fun missing => by cases missing⟩, rfl, fun _ _ old => old⟩, url⟩
      rintro _ ⟨rfl⟩
      rw [url]
      exact found

theorem answered (provider : String) {s : Cache} (sound : Sound s) (call : Call) :
    Answered s (answer provider s call).1 (answer provider s call).2 := by
  cases call with
  | default => exact answered_default provider sound
  | targeted target => exact (answered_targeted target sound).1

theorem sound_after (provider : String) {s : Cache} (sound : Sound s) (calls : List Call) :
    Sound (after provider s calls) := by
  induction calls generalizing s with
  | nil => exact sound
  | cons call calls ih => exact ih (answered provider sound call).sound

/-- Every answer ever given is the entry of its URL. -/
theorem answers_kept (provider : String) {s : Cache} (sound : Sound s) (calls : List Call) :
    (∀ url d, s.connMap.lookup url = some d →
      (after provider s calls).connMap.lookup url = some d) ∧
    ∀ c ∈ answers provider s calls,
      (after provider s calls).connMap.lookup c.providerUrl = some c := by
  induction calls generalizing s with
  | nil => exact ⟨fun _ _ old => old, by simp [answers]⟩
  | cons call calls ih =>
    have here := answered provider sound call
    obtain ⟨kept, given⟩ := ih here.sound
    constructor
    · intro url d old
      exact kept url d (here.kept url d old)
    · intro c hc
      rcases List.mem_cons.mp hc with rfl | later
      · exact kept _ _ (here.sound.held _ here.held)
      · exact given c later

/-! ## Whether the answers are those asked for -/

/-- Each call gets a connection to what it asks for, and one URL has one object. -/
def Served (provider : String) (calls : List Call) : Prop :=
  (answers provider .initial calls).map LDAPAdminConnection.providerUrl =
      calls.map (Call.asked provider) ∧
    ∀ c ∈ answers provider .initial calls, ∀ d ∈ answers provider .initial calls,
      c.providerUrl = d.providerUrl → c = d

/-- Whenever the default is asked for, the last target so far, if any, was the provider itself. -/
def Undiverted (provider : String) : Option String → List Call → Prop
  | _, [] => True
  | last, .default :: calls => (∀ target ∈ last, target = provider) ∧ Undiverted provider last calls
  | _, .targeted target :: calls => Undiverted provider (some target) calls

/-- The static connection belongs to the last target, or to the provider before there was one. -/
structure Follows (provider : String) (last : Option String) (s : Cache) : Prop where
  sound : Sound s
  url : ∀ c, s.conn = some c → c.providerUrl = last.getD provider
  fresh : s.conn = none → last = none

theorem follows_default {provider : String} {last : Option String} {s : Cache}
    (follows : Follows provider last s) :
    (getInstance provider s).1.providerUrl = last.getD provider ∧
      Follows provider last (getInstance provider s).2 := by
  have here := answered_default provider follows.sound
  have url : (getInstance provider s).1.providerUrl = last.getD provider := by
    rw [getInstance]
    cases held : s.conn with
    | none =>
      rw [follows.fresh held]
      rfl
    | some c => exact follows.url c held
  refine ⟨url, here.sound, ?_, ?_⟩
  · intro c held
    rw [here.held] at held
    rw [← Option.some.inj held]
    exact url
  · intro missing
    rw [here.held] at missing
    cases missing

theorem follows_targeted {provider : String} {last : Option String} {s : Cache} (target : String)
    (follows : Follows provider last s) :
    Follows provider (some target) (getInstanceFor target s).2 := by
  obtain ⟨here, url⟩ := answered_targeted target follows.sound
  refine ⟨here.sound, ?_, ?_⟩
  · intro c held
    rw [here.held] at held
    rw [← Option.some.inj held]
    exact url
  · intro missing
    rw [here.held] at missing
    cases missing

theorem answers_asked_iff {provider : String} (calls : List Call) {last : Option String} {s : Cache}
    (follows : Follows provider last s) :
    (answers provider s calls).map LDAPAdminConnection.providerUrl =
        calls.map (Call.asked provider) ↔ Undiverted provider last calls := by
  induction calls generalizing last s with
  | nil => simp [answers, Undiverted]
  | cons call calls ih =>
    rw [answers, List.map_cons, List.map_cons, List.cons.injEq]
    cases call with
    | default =>
      obtain ⟨url, next⟩ := follows_default follows
      have same : last.getD provider = provider ↔ ∀ target ∈ last, target = provider := by
        cases last with
        | none => simp
        | some target => simp
      change (getInstance provider s).1.providerUrl = provider ∧
        (answers provider (getInstance provider s).2 calls).map LDAPAdminConnection.providerUrl = _ ↔ _
      rw [url, same, ih next, Undiverted]
    | targeted target =>
      have url := (answered_targeted target follows.sound).2
      change (getInstanceFor target s).1.providerUrl = target ∧
        (answers provider (getInstanceFor target s).2 calls).map LDAPAdminConnection.providerUrl = _ ↔ _
      rw [ih (follows_targeted target follows), Undiverted]
      exact and_iff_right url

/-- From the empty cache every call is served what it asks for exactly if no default call follows a
call for another server. -/
theorem served_iff_undiverted (provider : String) (calls : List Call) :
    Served provider calls ↔ Undiverted provider none calls := by
  have start : Follows provider none .initial :=
    ⟨sound_initial, by simp [Cache.initial], fun _ => rfl⟩
  rw [Served, answers_asked_iff calls start, and_iff_left_iff_imp]
  intro _ c hc d hd same
  have kept := (answers_kept provider sound_initial calls).2
  have first := kept c hc
  rw [same, kept d hd] at first
  exact (Option.some.inj first).symm

/-- The provider, a controller, and the provider again: the last call gets the controller. -/
theorem default_diverted :
    (answers "ldaps://dom.ain:636" .initial
      [.default, .targeted "ldaps://dc1.dom.ain:636", .default]).map
        LDAPAdminConnection.providerUrl =
      ["ldaps://dom.ain:636", "ldaps://dc1.dom.ain:636", "ldaps://dc1.dom.ain:636"] ∧
    ¬ Served "ldaps://dom.ain:636" [.default, .targeted "ldaps://dc1.dom.ain:636", .default] := by
  refine ⟨by decide +kernel, ?_⟩
  rintro ⟨urls, -⟩
  exact absurd urls (by decide +kernel)

end LdapConnections
