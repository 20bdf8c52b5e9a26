import Proconsul.Lifecycle

/-!
# Displays and host ports of running containers

A display number belongs to the request that has reserved it, then to the
container created with it, until the script of that container deletes the row.
No number has two owners as long as docker-gen lists neither a container that
is still to be started nor one whose script is already running. Without this
condition a starting session can lose its port to a cleanup run.
-/

namespace PortSafety

open Program Schema Text Surroundings Hosts Accounts Sessions Handlers Cleanup Interleaving Lifecycle

/-! ## The property and its condition -/

structure PortsSound (w : World) : Prop where
  distinct : ((running w.engine).map Container.display).Nodup
  reserved : ∀ c ∈ running w.engine, c.display ∈ w.db.ports.map PortRow.portnum
  disjoint : ∀ c ∈ running w.engine, ∀ d ∈ running w.engine, c.id ≠ d.id →
    ∀ port ∈ [c.portnum, c.ext], port ∉ [d.portnum, d.ext]

/-- A container that a snapshot lists has been started, and no script for it is
under way. -/
def SnapshotClear (w w' : World) : Prop :=
  ∀ id ∈ newScripts w w', id ∉ w.scripts ∧
    ∀ c ∈ w.engine.containers, c.id = id → c.status ≠ .created

instance : DecidableRel SnapshotClear := fun w w' =>
  inferInstanceAs (Decidable (∀ id ∈ newScripts w w', id ∉ w.scripts ∧
    ∀ c ∈ w.engine.containers, c.id = id → c.status ≠ .created))

/-! ## Statuses -/

/-- The container that a program has created and not yet started. -/
def awaited : Phase → List Nat
  | .pending id => [id]
  | _ => []

structure Statuses (w : World) (phs : List Phase) : Prop where
  once : (phs.flatMap awaited).Nodup
  known : ∀ id ∈ phs.flatMap awaited, id < w.engine.nextId
  unstarted : ∀ c ∈ w.engine.containers, c.id ∈ phs.flatMap awaited → c.status = .created
  stopped : ∀ c ∈ w.engine.containers, c.id ∈ (phs.flatMap Phase.todo).map Container.id →
    c.status ≠ .created ∧ c.status ≠ .running

theorem Statuses.congr {w w' : World} {phs phs' : List Phase} (h : Statuses w phs)
    (engine : w'.engine = w.engine) (waiting : phs'.flatMap awaited = phs.flatMap awaited)
    (todo : phs'.flatMap Phase.todo = phs.flatMap Phase.todo) : Statuses w' phs' := by
  constructor
  · rw [waiting]
    exact h.once
  · rw [waiting, engine]
    exact h.known
  · rw [waiting, engine]
    exact h.unstarted
  · rw [todo, engine]
    exact h.stopped

/-- A change of status that spares listed containers and those waiting to be started. -/
theorem Statuses.change {w w' : World} {phs : List Phase} (h : Statuses w phs) {id : Nat}
    {f : Container → Container} (same : ∀ c, (f c).id = c.id)
    (engine : w'.engine = w.engine.change id f same)
    (spared : ∀ c ∈ w.engine.containers, c.id = id → (f c).status = c.status ∨
      (c.status ≠ .created ∧ c.status = .running)) : Statuses w' phs := by
  have changed : ∀ d ∈ w'.engine.containers, ∃ c ∈ w.engine.containers, d.id = c.id ∧
      (d.status = c.status ∨ (c.status ≠ .created ∧ c.status = .running)) := by
    intro d hd
    rw [engine] at hd
    obtain ⟨c, hc, hid, ⟨hsel, rfl⟩ | ⟨hsel, rfl⟩⟩ := Engine.mem_change same hd
    · exact ⟨c, hc, hid, spared c hc hsel⟩
    · exact ⟨d, hc, rfl, .inl rfl⟩
  refine ⟨h.once, by rw [engine]; exact h.known, ?_, ?_⟩
  · intro d hd waiting
    obtain ⟨c, hc, hid, kept | ⟨started, -⟩⟩ := changed d hd
    · rw [kept]
      exact h.unstarted c hc (hid ▸ waiting)
    · exact absurd (h.unstarted c hc (hid ▸ waiting)) started
  · intro d hd listed
    obtain ⟨c, hc, hid, kept | ⟨-, up⟩⟩ := changed d hd
    · rw [kept]
      exact h.stopped c hc (hid ▸ listed)
    · exact absurd up (h.stopped c hc (hid ▸ listed)).2

theorem statuses_docker {w w' : World} {phs : List Phase} (h : Statuses w phs)
    (moved : Docker w w') : Statuses w' phs := by
  cases moved with
  | launch up =>
    exact h.change (f := fun c => { c with launched := true }) (fun _ => rfl) rfl
      (fun _ _ _ => .inl rfl)
  | @exit c up retval =>
    obtain ⟨hc, hrunning⟩ := List.mem_filter.mp up
    refine h.change (f := fun c => { c with status := .exited retval }) (fun _ => rfl) rfl
      (fun d hd hid => .inr ?_)
    have up : d.status = .running := by
      rw [Engine.eq_of_id hd hc hid]
      simpa using hrunning
    exact ⟨by rw [up]; simp, up⟩

/-- Listed ids are ids of existing containers, hence not new. -/
theorem listed_known {w : World} {phs : List Phase} (listing : Listing w phs) {id : Nat}
    (hid : id ∈ (phs.flatMap Phase.todo).map Container.id) : id < w.engine.nextId := by
  obtain ⟨c, hc, rfl⟩ := List.mem_map.mp hid
  obtain ⟨d, hd, same⟩ := List.mem_map.mp (listing.present c hc)
  have equal : d.id = c.id := congrArg Identity.id same
  exact equal ▸ w.engine.fresh d hd

variable {adbase : String}

/-- A container that is created waits to be started, under an id that nobody knew. -/
theorem statuses_create {w : World} {before after : List Phase} {make : Nat → Container}
    {effects : List Effect}
    (h : Statuses w (before ++ .holding (make w.engine.nextId).display :: after))
    (listing : Listing w (before ++ .holding (make w.engine.nextId).display :: after))
    (new : (make w.engine.nextId).status = .created) :
    Statuses { w with engine := w.engine.create make, trace := w.trace ++ effects }
      (before ++ .pending w.engine.nextId :: after) := by
  have waiting : (before ++ Phase.pending w.engine.nextId :: after).flatMap awaited =
      before.flatMap awaited ++ w.engine.nextId :: after.flatMap awaited := by
    simp [awaited]
  have todo : (before ++ Phase.pending w.engine.nextId :: after).flatMap Phase.todo =
      (before ++ Phase.holding (make w.engine.nextId).display :: after).flatMap Phase.todo := by
    simp [Phase.todo]
  have once := h.once
  have known := h.known
  have unstarted := h.unstarted
  simp only [List.flatMap_append, List.flatMap_cons, awaited, List.nil_append] at once known unstarted
  have member : ∀ id, id ∈ before.flatMap awaited ++ w.engine.nextId :: after.flatMap awaited →
      id = w.engine.nextId ∨ id ∈ before.flatMap awaited ++ after.flatMap awaited := by
    intro id hid
    simp only [List.mem_append, List.mem_cons] at hid ⊢
    tauto
  have unused : w.engine.nextId ∉ before.flatMap awaited ++ after.flatMap awaited :=
    fun used => Nat.lt_irrefl _ (known _ used)
  constructor
  · rw [waiting, List.nodup_middle, List.nodup_cons]
    exact ⟨unused, once⟩
  · rw [waiting]
    intro id hid
    rcases member id hid with rfl | hid
    · exact Nat.lt_succ_self _
    · exact Nat.lt_succ_of_lt (known id hid)
  · rw [waiting]
    intro c hc hid
    rcases List.mem_append.mp hc with hc | hc
    · have old : c.id ≠ w.engine.nextId := Nat.ne_of_lt (w.engine.fresh c hc)
      exact unstarted c hc ((member c.id hid).resolve_left old)
    · cases List.mem_singleton.mp hc
      exact new
  · rw [todo]
    intro c hc hid
    rcases List.mem_append.mp hc with hc | hc
    · exact h.stopped c hc hid
    · cases List.mem_singleton.mp hc
      exact absurd (listed_known listing hid) (Nat.lt_irrefl _)

/-- Once started it waits no longer; no script is pending for it yet. -/
theorem statuses_start {w : World} {before after : List Phase} {id : Nat} {status : ContainerStatus}
    {effects : List Effect} (h : Statuses w (before ++ .pending id :: after)) :
    Statuses { w with engine := w.engine.setStatus id status, trace := w.trace ++ effects }
      (before ++ .idle :: after) := by
  have once := h.once
  have known := h.known
  have unstarted := h.unstarted
  have stopped := h.stopped
  simp only [List.flatMap_append, List.flatMap_cons, awaited, Phase.todo, List.nil_append,
    List.cons_append] at once known unstarted stopped
  rw [List.nodup_middle, List.nodup_cons] at once
  have member : ∀ i, i ∈ before.flatMap awaited ++ after.flatMap awaited →
      i ∈ before.flatMap awaited ++ id :: after.flatMap awaited := by
    intro i hi
    simp only [List.mem_append, List.mem_cons] at hi ⊢
    tauto
  have waiting : (before ++ Phase.idle :: after).flatMap awaited =
      before.flatMap awaited ++ after.flatMap awaited := by
    simp [awaited]
  have todo : (before ++ Phase.idle :: after).flatMap Phase.todo =
      before.flatMap Phase.todo ++ after.flatMap Phase.todo := by
    simp [Phase.todo]
  constructor
  · rw [waiting]
    exact once.2
  · rw [waiting]
    exact fun i hi => known i (member i hi)
  · rw [waiting]
    intro d hd hid
    obtain ⟨c, hc, same, ⟨hsel, rfl⟩ | ⟨hsel, rfl⟩⟩ := Engine.mem_setStatus hd
    · exact absurd (hsel ▸ same ▸ hid) once.1
    · exact unstarted d hc (member _ hid)
  · rw [todo]
    intro d hd hid
    obtain ⟨c, hc, same, ⟨hsel, rfl⟩ | ⟨hsel, rfl⟩⟩ := Engine.mem_setStatus hd
    · -- A listed container has been started before, so it is not the one waiting.
      have created := unstarted c hc (by simp [hsel])
      exact absurd created (stopped c hc (same ▸ hid)).1
    · exact stopped d hc hid

/-- A rendering lists containers that have been started and are not running. -/
theorem statuses_snapshot {w : World} {before after : List Phase} {stopped : List Container}
    (h : Statuses w (before ++ .idle :: after))
    (all : stopped.Perm (w.engine.containers.filter (fun c => c.status ≠ .running)))
    (clear : SnapshotClear w { w with scripts := w.scripts ++ stopped.map Container.id }) :
    Statuses { w with scripts := w.scripts ++ stopped.map Container.id }
      (before ++ .sweeping stopped false :: after) := by
  refine ⟨by simpa [awaited] using h.once, by simpa [awaited] using h.known,
    by simpa [awaited] using h.unstarted, ?_⟩
  intro c hc hid
  have old := h.stopped c hc
  simp only [List.flatMap_append, List.flatMap_cons, Phase.todo, List.map_append, List.mem_append,
    List.nil_append] at hid old
  rcases hid with hid | hid | hid
  · exact old (.inl hid)
  · obtain ⟨d, hd, same⟩ := List.mem_map.mp hid
    obtain ⟨hd, down⟩ := List.mem_filter.mp (all.subset hd)
    have equal : d = c := Engine.eq_of_id hd hc same
    have new : c.id ∈ newScripts w { w with scripts := w.scripts ++ stopped.map Container.id } := by
      simp only [newScripts, List.drop_left]
      exact hid
    refine ⟨(clear c.id new).2 c hc rfl, ?_⟩
    rw [← equal]
    simpa using down
  · exact old (.inr hid)

theorem statuses_remove {w : World} {before after : List Phase} {c : Container}
    {rest : List Container} (h : Statuses w (before ++ .sweeping (c :: rest) true :: after)) :
    Statuses (removeContainer c w) (before ++ .sweeping rest false :: after) := by
  have kept : ∀ d ∈ (removeContainer c w).engine.containers, d ∈ w.engine.containers := by
    intro d hd
    rw [removeContainer] at hd
    split at hd
    · exact hd
    · exact (mem_deleteWhere.mp hd).1
  have next : (removeContainer c w).engine.nextId = w.engine.nextId := by
    rw [removeContainer]
    split <;> rfl
  refine ⟨by simpa [awaited] using h.once, ?_, ?_, ?_⟩
  · rw [next]
    simpa [awaited] using h.known
  · intro d hd hid
    exact h.unstarted d (kept d hd) (by simpa [awaited] using hid)
  · intro d hd hid
    refine h.stopped d (kept d hd) ?_
    simp only [List.flatMap_append, List.flatMap_cons, Phase.todo, List.map_append,
      List.mem_append, List.map_cons, List.mem_cons] at hid ⊢
    tauto

theorem statuses_move {w w' : World} {before after : List Phase} {ph ph' : Phase}
    (h : Statuses w (before ++ ph :: after)) (listing : Listing w (before ++ ph :: after))
    (move : Move adbase ph w w' ph') (clear : SnapshotClear w w') :
    Statuses w' (before ++ ph' :: after) := by
  cases move with
  | apart same => exact h.congr same.engine rfl rfl
  | choose => exact h.congr rfl (by simp [awaited]) (by simp [Phase.todo])
  | probe => exact h.congr rfl (by simp [awaited]) (by simp [Phase.todo])
  | reserve => exact h.congr rfl (by simp [awaited]) (by simp [Phase.todo])
  | clean cleans =>
    rcases cleans with rfl | rfl | rfl <;> exact h.congr rfl rfl rfl
  | release => exact h.congr rfl (by simp [awaited]) (by simp [Phase.todo])
  | create new => exact statuses_create h listing new
  | start => exact statuses_start h
  | snapshot all => exact statuses_snapshot h all clear
  | remove => exact statuses_remove h

/-! ## Owners of display numbers -/

/-- The number a program has reserved and not yet handed to a container. -/
def held : Phase → List Nat
  | .holding p => [p]
  | _ => []

/-- The container whose number a script has just given back. -/
def freed : Phase → List Nat
  | .sweeping (c :: _) true => [c.id]
  | _ => []

/-- Containers that still own their number. -/
def holders (w : World) (phs : List Phase) : List Identity :=
  (identities w.engine).filter (fun x => x.id ∉ phs.flatMap freed)

def owned (w : World) (phs : List Phase) : List Nat :=
  phs.flatMap held ++ (holders w phs).map Identity.display

structure Ownership (w : World) (phs : List Phase) : Prop where
  once : (owned w phs).Nodup
  reserved : ∀ p ∈ owned w phs, p ∈ w.db.ports.map PortRow.portnum

theorem Ownership.congr {w w' : World} {phs phs' : List Phase} (h : Ownership w phs)
    (ports : w'.db.ports = w.db.ports) (engine : identities w'.engine = identities w.engine)
    (hold : phs'.flatMap held = phs.flatMap held) (free : phs'.flatMap freed = phs.flatMap freed) :
    Ownership w' phs' := by
  have same : owned w' phs' = owned w phs := by
    rw [owned, owned, holders, holders, engine, hold, free]
  constructor
  · rw [same]
    exact h.once
  · rw [same, ports]
    exact h.reserved

theorem freed_listed {phs : List Phase} {id : Nat} (h : id ∈ phs.flatMap freed) :
    id ∈ (phs.flatMap Phase.todo).map Container.id := by
  obtain ⟨ph, hph, hid⟩ := List.mem_flatMap.mp h
  unfold freed at hid
  split at hid
  · rename_i c rest
    cases List.mem_singleton.mp hid
    exact List.mem_map_of_mem (List.mem_flatMap.mpr ⟨_, hph, List.mem_cons_self⟩)
  · cases hid

theorem ownership_docker {w w' : World} {phs : List Phase} (h : Ownership w phs)
    (moved : Docker w w') : Ownership w' phs := by
  cases moved with
  | launch up => exact h.congr rfl (identities_launch _ _) rfl rfl
  | exit up retval => exact h.congr rfl (identities_setStatus _ _ _) rfl rfl

/-- A container about to be released is among the owners, and loses its number alone. -/
theorem ownership_release {w : World} {before after : List Phase} {c : Container}
    {rest : List Container} (h : Ownership w (before ++ .sweeping (c :: rest) false :: after))
    (listing : Listing w (before ++ .sweeping (c :: rest) false :: after)) :
    Ownership (deletePort c w) (before ++ .sweeping (c :: rest) true :: after) := by
  let phs := before ++ Phase.sweeping (c :: rest) false :: after
  let phs' := before ++ Phase.sweeping (c :: rest) true :: after
  have hold : phs'.flatMap held = phs.flatMap held := by simp [phs, phs', held]
  have fewer : (holders (deletePort c w) phs').Sublist (holders w phs) := by
    apply List.monotone_filter_right
    intro x
    simp only [phs, phs', freed, List.flatMap_append, List.flatMap_cons, List.mem_append,
      List.mem_cons, List.nil_append, decide_eq_true_eq]
    tauto
  have sub : (owned (deletePort c w) phs').Sublist (owned w phs) := by
    rw [owned, owned, hold]
    exact List.Sublist.append_left (fewer.map _) _
  have owner : identity c ∈ holders w phs := by
    refine List.mem_filter.mpr ⟨listing.present c (by simp [Phase.todo]), ?_⟩
    have once := listing.once
    simp only [List.flatMap_append, List.flatMap_cons, Phase.todo, List.map_append, List.map_cons,
      List.cons_append] at once
    rw [List.nodup_middle, List.nodup_cons] at once
    have elsewhere : c.id ∉ before.flatMap freed ++ after.flatMap freed := by
      intro hid
      apply once.1
      rcases List.mem_append.mp hid with hid | hid
      · exact List.mem_append_left _ (freed_listed hid)
      · exact List.mem_append_right _ (List.mem_append_right _ (freed_listed hid))
    simpa [phs, freed, identity] using elsewhere
  have once := h.once
  rw [owned, List.nodup_append] at once
  obtain ⟨-, displays, separate⟩ := once
  have given : c.display ∉ owned (deletePort c w) phs' := by
    intro hp
    rw [owned, hold] at hp
    rcases List.mem_append.mp hp with hp | hp
    · exact separate _ hp _ (List.mem_map_of_mem owner) rfl
    · obtain ⟨x, hx, same⟩ := List.mem_map.mp hp
      have equal : x = identity c :=
        List.inj_on_of_nodup_map displays (fewer.subset hx) owner same
      have gone := (List.mem_filter.mp hx).2
      simp [phs', freed, equal, identity] at gone
  constructor
  · exact h.once.sublist sub
  · intro p hp
    obtain ⟨r, hr, rfl⟩ := List.mem_map.mp (h.reserved p (sub.subset hp))
    refine List.mem_map_of_mem (mem_deleteWhere.mpr ⟨hr, ?_⟩)
    have other : r.portnum ≠ c.display := fun same => given (same ▸ hp)
    simpa using other

/-- A container that is removed was released before and does not own its number. -/
theorem ownership_remove {w : World} {before after : List Phase} {c : Container}
    {rest : List Container} (h : Ownership w (before ++ .sweeping (c :: rest) true :: after))
    (statuses : Statuses w (before ++ .sweeping (c :: rest) true :: after)) :
    Ownership (removeContainer c w) (before ++ .sweeping rest false :: after) := by
  have down : (w.engine.find c.id).any (fun d => d.status = .running) = false := by
    cases found : w.engine.find c.id with
    | none => rfl
    | some d =>
      have hd := List.mem_of_find?_eq_some found
      have hid : d.id = c.id := by simpa using List.find?_some found
      have listed : d.id ∈ ((before ++ Phase.sweeping (c :: rest) true :: after).flatMap
          Phase.todo).map Container.id := by
        simp [hid, Phase.todo]
      simpa using (statuses.stopped d hd listed).2
  have engine : (removeContainer c w).engine = w.engine.remove c.id := by
    simp [removeContainer, down]
  have sub : (owned (removeContainer c w) (before ++ .sweeping rest false :: after)).Sublist
      (owned w (before ++ .sweeping (c :: rest) true :: after)) := by
    rw [owned, owned, holders, holders, engine, identities_remove, deleteWhere, List.filter_filter]
    have fewer : ∀ x : Identity, (decide (x.id ∉ (before ++ Phase.sweeping rest false ::
        after).flatMap freed) && !(x.id == c.id)) = true →
        decide (x.id ∉ (before ++ Phase.sweeping (c :: rest) true :: after).flatMap freed) = true := by
      intro x
      simp only [freed, List.flatMap_append, List.flatMap_cons, List.mem_append, List.mem_cons,
        Bool.and_eq_true, decide_eq_true_eq, Bool.not_eq_true', beq_eq_false_iff_ne]
      tauto
    have hold : (before ++ Phase.sweeping rest false :: after).flatMap held =
        (before ++ Phase.sweeping (c :: rest) true :: after).flatMap held := by
      simp [held]
    rw [hold]
    exact List.Sublist.append_left ((List.monotone_filter_right _ fewer).map _) _
  exact ⟨h.once.sublist sub, fun p hp => h.reserved p (sub.subset hp)⟩

/-- Only numbers that are not in the table are reserved, so the new owner is the only one. -/
theorem ownership_reserve {w : World} {before after : List Phase} {row : PortRow}
    (h : Ownership w (before ++ .choosing row.portnum :: after))
    (free : w.db.ports.any (fun r => r.portnum == row.portnum) = false) :
    Ownership (reserve row w) (before ++ .holding row.portnum :: after) := by
  have new : owned (reserve row w) (before ++ .holding row.portnum :: after) =
      before.flatMap held ++ row.portnum :: (after.flatMap held ++
        (holders w (before ++ .choosing row.portnum :: after)).map Identity.display) := by
    simp [owned, holders, held, freed, reserve]
  have old : owned w (before ++ .choosing row.portnum :: after) =
      before.flatMap held ++ (after.flatMap held ++
        (holders w (before ++ .choosing row.portnum :: after)).map Identity.display) := by
    simp [owned, held]
  have once := h.once
  have reserved := h.reserved
  rw [old] at once reserved
  have unowned : row.portnum ∉ w.db.ports.map PortRow.portnum := by
    intro taken
    obtain ⟨r, hr, same⟩ := List.mem_map.mp taken
    rw [List.any_eq_false] at free
    exact free r hr (by simpa using same)
  constructor
  · rw [new, List.nodup_middle, List.nodup_cons]
    exact ⟨fun hp => unowned (reserved _ hp), once⟩
  · rw [new]
    intro p hp
    change p ∈ (w.db.ports ++ [row]).map PortRow.portnum
    rw [List.map_append, List.mem_append]
    rcases List.mem_cons.mp (List.perm_middle.mem_iff.mp hp) with rfl | hp
    · exact .inr (by simp)
    · exact .inl (reserved p hp)

/-- The number passes from the program to its container. -/
theorem ownership_create {w : World} {before after : List Phase} {make : Nat → Container}
    {effects : List Effect}
    (h : Ownership w (before ++ .holding (make w.engine.nextId).display :: after))
    (listing : Listing w (before ++ .holding (make w.engine.nextId).display :: after)) :
    Ownership { w with engine := w.engine.create make, trace := w.trace ++ effects }
      (before ++ .pending w.engine.nextId :: after) := by
  let phs := before ++ Phase.holding (make w.engine.nextId).display :: after
  have unfreed : w.engine.nextId ∉ phs.flatMap freed := fun hid =>
    Nat.lt_irrefl _ (listed_known listing (freed_listed hid))
  have free : (before ++ Phase.pending w.engine.nextId :: after).flatMap freed = phs.flatMap freed := by
    simp [phs, freed]
  have old : owned w phs = before.flatMap held ++ (make w.engine.nextId).display ::
      (after.flatMap held ++ (holders w phs).map Identity.display) := by
    simp [phs, owned, held]
  have new : owned { w with engine := w.engine.create make, trace := w.trace ++ effects }
      (before ++ .pending w.engine.nextId :: after) = before.flatMap held ++ (after.flatMap held ++
        (holders w phs).map Identity.display) ++ [(make w.engine.nextId).display] := by
    have kept : ∀ x : Identity, x.id = w.engine.nextId →
        [x].filter (fun x => x.id ∉ phs.flatMap freed) = [x] := by
      intro x hx
      rw [List.filter_eq_self]
      intro y hy
      rw [List.mem_singleton.mp hy, hx]
      exact decide_eq_true unfreed
    rw [owned, holders, identities_create, free, List.filter_append, kept _ rfl]
    simp [holders, held]
  have order : (owned { w with engine := w.engine.create make, trace := w.trace ++ effects }
      (before ++ .pending w.engine.nextId :: after)).Perm (owned w phs) := by
    rw [old, new]
    exact (List.perm_append_singleton _ _).trans List.perm_middle.symm
  exact ⟨order.nodup_iff.mpr h.once, fun p hp => h.reserved p (order.mem_iff.mp hp)⟩

theorem ownership_move {w w' : World} {before after : List Phase} {ph ph' : Phase}
    (h : Ownership w (before ++ ph :: after)) (listing : Listing w (before ++ ph :: after))
    (statuses : Statuses w (before ++ ph :: after)) (move : Move adbase ph w w' ph') :
    Ownership w' (before ++ ph' :: after) := by
  cases move with
  | apart same => exact h.congr same.ports (by rw [same.engine]) rfl rfl
  | choose => exact h.congr rfl rfl (by simp [held]) (by simp [freed])
  | probe => exact h.congr rfl rfl (by simp [held]) (by simp [freed])
  | reserve free => exact ownership_reserve h free
  | create => exact ownership_create h listing
  | start => exact h.congr rfl (identities_setStatus _ _ _) (by simp [held]) (by simp [freed])
  | snapshot => exact h.congr rfl rfl (by simp [held]) (by simp [freed])
  | clean cleans =>
    rcases cleans with rfl | rfl | rfl <;> exact h.congr rfl rfl rfl rfl
  | release => exact ownership_release h listing
  | remove => exact ownership_remove h statuses

/-! ## Even numbers -/

/-- The number a program is about to insert. -/
def tried : Phase → List Nat
  | .choosing p => [p]
  | _ => []

structure Evens (w : World) (phs : List Phase) : Prop where
  ports : ∀ r ∈ w.db.ports, r.portnum % 2 = 0
  tried : ∀ p ∈ phs.flatMap tried, p % 2 = 0

theorem Evens.congr {w w' : World} {phs phs' : List Phase} (h : Evens w phs)
    (ports : ∀ r ∈ w'.db.ports, r ∈ w.db.ports)
    (trying : ∀ p ∈ phs'.flatMap PortSafety.tried, p ∈ phs.flatMap PortSafety.tried) : Evens w' phs' :=
  ⟨fun r hr => h.ports r (ports r hr), fun p hp => h.tried p (trying p hp)⟩

theorem evens_move {w w' : World} {before after : List Phase} {ph ph' : Phase}
    (h : Evens w (before ++ ph :: after)) (move : Move adbase ph w w' ph') :
    Evens w' (before ++ ph' :: after) := by
  have chosen : ∀ {q ph₁}, (∀ r ∈ w.db.ports, r.portnum % 2 = 0) → q % 2 = 0 →
      Evens w (before ++ ph₁ :: after) → Evens w (before ++ .choosing q :: after) := by
    intro q ph₁ ports even old
    refine ⟨ports, fun p hp => ?_⟩
    have rest := old.tried p
    simp only [List.flatMap_append, List.flatMap_cons, tried, List.mem_append,
      List.mem_singleton] at hp rest
    rcases hp with hp | rfl | hp
    · exact rest (.inl hp)
    · exact even
    · exact rest (.inr (.inr hp))
  cases move with
  | apart same => exact h.congr (by rw [same.ports]; exact fun _ hr => hr) (fun _ hp => hp)
  | choose highest =>
    refine chosen h.ports ?_ h
    have even := maxPort_even h.ports
    omega
  | probe candidate => exact chosen h.ports (mem_candidates.mp candidate).1 h
  | @reserve _ row free =>
    refine ⟨fun r hr => ?_, fun p hp => h.tried p ?_⟩
    · rcases List.mem_append.mp hr with hr | hr
      · exact h.ports r hr
      · cases List.mem_singleton.mp hr
        exact h.tried _ (by simp [tried])
    · simp only [List.flatMap_append, List.flatMap_cons, tried, List.mem_append] at hp ⊢
      tauto
  | create => exact h.congr (fun _ hr => hr) (by simp [tried])
  | start => exact h.congr (fun _ hr => hr) (by simp [tried])
  | snapshot => exact h.congr (fun _ hr => hr) (by simp [tried])
  | clean cleans =>
    rcases cleans with rfl | rfl | rfl <;> exact h.congr (fun _ hr => hr) (fun _ hp => hp)
  | release => exact h.congr (fun _ hr => (mem_deleteWhere.mp hr).1) (by simp [tried])
  | remove => exact h.congr (fun _ hr => hr) (by simp [tried])

/-! ## Every run -/

structure Invariant (w : World) (phs : List Phase) : Prop where
  listing : Listing w phs
  statuses : Statuses w phs
  ownership : Ownership w phs
  evens : Evens w phs

theorem invariant_start {w : World} (vacant : w.engine.containers = [])
    (even : ∀ r ∈ w.db.ports, r.portnum % 2 = 0) : Invariant w [] where
  listing := listing_start
  statuses := ⟨by simp, by simp, by simp [vacant], by simp [vacant]⟩
  ownership := by
    have nobody : owned w [] = [] := by simp [owned, holders, identities, vacant]
    exact ⟨by simp [nobody], by simp [nobody]⟩
  evens := ⟨even, by simp⟩

theorem invariant_move {w w' : World} {before after : List Phase} {ph ph' : Phase}
    (inv : Invariant w (before ++ ph :: after)) (move : Move adbase ph w w' ph')
    (clear : SnapshotClear w w') : Invariant w' (before ++ ph' :: after) where
  listing := listing_move inv.listing move (fun id hid => (clear id hid).1)
  statuses := statuses_move inv.statuses inv.listing move clear
  ownership := ownership_move inv.ownership inv.listing inv.statuses move
  evens := evens_move inv.evens move

theorem invariant_arrive {w : World} {phs : List Phase} (inv : Invariant w phs) :
    Invariant w (phs ++ [.idle]) where
  listing := listing_arrive inv.listing
  statuses := inv.statuses.congr rfl (by simp [awaited]) (by simp [Phase.todo])
  ownership := inv.ownership.congr rfl rfl (by simp [held]) (by simp [freed])
  evens := inv.evens.congr (fun _ hr => hr) (by simp [tried])

theorem invariant_docker {w w' : World} {phs : List Phase} (inv : Invariant w phs)
    (moved : Docker w w') : Invariant w' phs where
  listing := listing_docker inv.listing moved
  statuses := statuses_docker inv.statuses moved
  ownership := ownership_docker inv.ownership moved
  evens := by cases moved <;> exact inv.evens.congr (fun _ hr => hr) (fun _ hp => hp)

theorem Invariant.sound {w : World} {phs : List Phase} (inv : Invariant w phs) : PortsSound w := by
  let owns (c : Container) : Bool := c.id ∉ phs.flatMap freed
  -- A running container is on no list, so its number has not been given back.
  have owner : ∀ c ∈ w.engine.containers, c.status = .running → owns c = true := by
    intro c hc up
    refine decide_eq_true (fun hid => ?_)
    exact (inv.statuses.stopped c hc (freed_listed hid)).2 up
  have owners : running w.engine = (w.engine.containers.filter owns).filter
      (fun c => c.status = .running) := by
    rw [running, List.filter_filter]
    refine List.filter_congr (fun c hc => ?_)
    by_cases up : c.status = .running
    · simp [up, owner c hc up]
    · simp [up]
  have displays : (holders w phs).map Identity.display =
      (w.engine.containers.filter owns).map Container.display := by
    rw [holders, identities, List.filter_map, List.map_map]
    rfl
  have sub : ((running w.engine).map Container.display).Sublist (owned w phs) := by
    rw [owners, owned, displays]
    exact (List.filter_sublist.map _).trans (List.sublist_append_right _ _)
  have distinct := inv.ownership.once.sublist sub
  have reserved : ∀ c ∈ running w.engine, c.display ∈ w.db.ports.map PortRow.portnum :=
    fun c hc => inv.ownership.reserved _ (sub.subset (List.mem_map_of_mem hc))
  have even : ∀ c ∈ running w.engine, c.display % 2 = 0 := by
    intro c hc
    obtain ⟨r, hr, same⟩ := List.mem_map.mp (reserved c hc)
    exact same ▸ inv.evens.ports r hr
  refine ⟨distinct, reserved, ?_⟩
  intro c hc d hd differ port hport hport'
  have apart : c.display ≠ d.display := by
    intro same
    exact differ (congrArg Container.id (List.inj_on_of_nodup_map distinct hc hd same))
  have hc := even c hc
  have hd := even d hd
  simp only [Container.portnum, Container.ext, List.mem_cons, List.not_mem_nil, or_false]
    at hport hport'
  omega

/-- In every run from a site without containers in which docker-gen keeps to
the condition, whatever requests, exits and cleanup runs overlap. -/
theorem live_ports_sound {cfg : Config} {start : World} (vacant : start.engine.containers = [])
    (even : ∀ r ∈ start.db.ports, r.portnum % 2 = 0) {P : Pool World Exn Unit}
    (reach : Reachable (Spawned cfg adbase) Docker SnapshotClear start P) : PortsSound P.shared := by
  obtain ⟨phs, -, inv⟩ := reachable_invariant Invariant (fun _ => conforms_spawned)
    (invariant_start vacant even) (fun _ _ _ _ _ _ inv move clear => invariant_move inv move clear)
    (fun _ _ inv => invariant_arrive inv) (fun _ _ _ inv moved _ => invariant_docker inv moved) reach
  exact inv.sound

/-- Pat asks for a session while docker-gen is at work. -/
def patAndCleanup : Pool World Exn Unit :=
  ⟨sampleSite, [patOpens "ab3de6fgh-eas", cleanup sampleConfig.targetbase (.first 0)]⟩

theorem reachable_patAndCleanup {C : World → World → Prop} (refl : ∀ w, C w w) :
    Reachable (Spawned sampleConfig sampleConfig.targetbase) Docker C sampleSite patAndCleanup :=
  reachable_spawn (reachable_spawn .refl (.user _ _ _) (refl _)) (.cleanup (.first 0)) (refl _)

def twoAsked : Pool World Exn Unit :=
  ⟨sampleSite, [patOpens "ab3de6fgh-eas", patOpens "zy2xw4vut-eas" plainName_second]⟩

/-- Two sessions of Pat, opened in turn with one step between them. -/
def twoOpened : Pool World Exn Unit :=
  (0 :: (List.replicate 27 [0, 1]).flatten).foldl Pool.turn twoAsked

/-- The first container has exited, docker-gen starts and Pat asks for one session more. -/
def lateSession (P : Pool World Exn Unit) : Pool World Exn Unit :=
  ⟨{ P.shared with engine := P.shared.engine.setStatus 0 (.exited (some 2)) },
    P.threads ++ [cleanup sampleConfig.targetbase (.first 0)] ++ [patOpens "cd5ef7ghj-eas" (by decide)]⟩

theorem snapshotClear_refl (w : World) : SnapshotClear w w := by simp [SnapshotClear, newScripts]

theorem reachable_lateSession {P : Pool World Exn Unit}
    (reach : Reachable (Spawned sampleConfig sampleConfig.targetbase) Docker SnapshotClear sampleSite P)
    (up : ∃ c ∈ running P.shared.engine, c.id = 0) :
    Reachable (Spawned sampleConfig sampleConfig.targetbase) Docker SnapshotClear sampleSite
      (lateSession P) := by
  obtain ⟨c, hc, hid⟩ := up
  have exits := Docker.exit hc (some 2)
  rw [hid] at exits
  have exited := reachable_env reach exits (by simp [SnapshotClear, newScripts])
  have swept := reachable_spawn exited (.cleanup (.first 0)) (snapshotClear_refl _)
  exact reachable_spawn swept (.user _ _ _) (snapshotClear_refl _)

/-- The script of the first session runs while the late one is opened. -/
theorem late_session_ports_sound :
    let P := (List.replicate 27 [2, 3]).flatten.foldl Pool.turn (lateSession twoOpened)
    (running P.shared.engine).length = 2 ∧ PortsSound P.shared := by
  have asked : Reachable (Spawned sampleConfig sampleConfig.targetbase) Docker SnapshotClear sampleSite
      twoAsked :=
    reachable_spawn (reachable_spawn .refl (.user _ _ _) (snapshotClear_refl _)) (.user _ _ _)
      (snapshotClear_refl _)
  have met : twoAsked.Along SnapshotClear (0 :: (List.replicate 27 [0, 1]).flatten) := by
    decide +kernel
  have late := reachable_lateSession (reachable_turns asked met) (by decide +kernel)
  have met' : (lateSession twoOpened).Along SnapshotClear (List.replicate 27 [2, 3]).flatten := by
    decide +kernel
  exact ⟨by decide +kernel, live_ports_sound rfl (by simp [sampleSite, Database.empty])
    (reachable_turns late met')⟩

/-- Between create and start of Pat's container comes the snapshot; the script
then deletes the port of the container that has meanwhile been started. -/
theorem listed_before_start_loses_port :
    ∃ P, Reachable (Spawned sampleConfig sampleConfig.targetbase) Docker (fun _ _ => True)
      sampleSite P ∧ ¬ PortsSound P.shared := by
  let schedule := List.replicate 26 0 ++ [1, 0] ++ List.replicate 7 1
  have reach := reachable_turns (reachable_patAndCleanup (fun _ => trivial))
    (patAndCleanup.along_true schedule)
  refine ⟨_, reach, fun sound => ?_⟩
  have lost : ∃ c ∈ running (schedule.foldl Pool.turn patAndCleanup).shared.engine,
      c.display ∉ (schedule.foldl Pool.turn patAndCleanup).shared.db.ports.map PortRow.portnum := by
    decide +kernel
  obtain ⟨c, hc, absent⟩ := lost
  exact absent (sound.reserved c hc)

end PortSafety
