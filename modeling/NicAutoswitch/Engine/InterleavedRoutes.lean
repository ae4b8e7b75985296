import NicAutoswitch.Engine.Interleavings

/-!
# What handlers record among reloads and stops

A handler works on the rules that it has read at its beginning, with the table that it was
given then. What it records later comes from these, whatever has been reloaded since.
-/

namespace NicAutoswitch.Engine.Interleavings
open HashMaps Schema Monitor Router StateProg Transition Tasks RouteLifetime TableIndices

variable {κ : Type} (rt : Rtnetlink κ)

/- The turns of the handler's loop that it has not finished. -/
def todo : Task → List Work
  | .spawned _ _ => []
  | .calling w _ rest => w :: rest
  | .finished => []

/- The call records the route if it goes well. -/
structure Tracks (w : Work) (n : String) (a : ActiveRoute) : Prop where
  applies : ∀ rule t, w ≠ .remove rule t
  name : w.rule.name = n
  entry : a = entryOf w.tableId w.rule

/- A call that applies a rule has found it valid. -/
def Ready (w : Work) (stage : Stage) : Prop :=
  (∀ rule t, w ≠ .remove rule t) → stage ≠ .ended false → RuleOperator.validateRule w.rule = .ok ()

theorem Ready.serve {w : Work} {stage : Stage} (h : Ready w stage) (hw : ∀ ok, stage ≠ .ended ok)
    (k : κ) : Ready w (serve rt w stage k).1 :=
  fun happ _ => h happ (hw false)

theorem ready_openApply {rm : RouteManager} {w : Work}
    (hw : w.opening rm = Work.openApply rm w.rule) : Ready w (w.opening rm) := by
  intro _ hs
  rw [hw] at hs
  have ho := applyOpens rm w.rule
  generalize Work.openApply rm w.rule = stage at ho hs
  cases ho with
  | invalid hv => exact absurd rfl hs
  | aimless hv hd => exact hv
  | dry hv hd hdry => exact hv
  | unconnected hv hd hdry hn => exact hv
  | request hv hd hdry hc => exact hv

theorem ready_opening (rm : RouteManager) (w : Work) : Ready w (w.opening rm) := by
  cases w with
  | applyDefault rule t => exact ready_openApply rfl
  | applyProfile rule t => exact ready_openApply rfl
  | remove rule t => exact fun happ => absurd rfl (happ rule t)

/- What is recorded after a call was recorded before, or by the call. -/
theorem entry_complete {d : EventDispatcher} {w : Work} {ok : Bool} {n : String} {a : ActiveRoute}
    (h : EventDispatcher.activeRoute { d with executor := w.complete d.executor ok } n = some a) :
    d.activeRoute n = some a ∨ ok = true ∧ Tracks w n a := by
  rw [activeRoute_complete] at h
  split_ifs at h with hn
  · obtain ⟨hok, hname⟩ := hn
    cases w with
    | applyDefault rule t =>
      exact .inr ⟨hok, fun _ _ he => (by cases he), hname.symm, (Option.some.inj h).symm⟩
    | applyProfile rule t =>
      exact .inr ⟨hok, fun _ _ he => (by cases he), hname.symm, (Option.some.inj h).symm⟩
    | remove rule t => cases h
  · exact .inl h

/- The dispatchers differ in what is recorded, and no more than that. -/
structure SameBut (d d' : EventDispatcher) : Prop where
  config : d'.config = d.config
  state : d'.state = d.state
  indices : d'.interfaceIndices = d.interfaceIndices
  manager : d'.executor.routeManager = d.executor.routeManager

theorem sameBut_complete (d : EventDispatcher) (w : Work) (ok : Bool) :
    SameBut d { d with executor := w.complete d.executor ok } :=
  ⟨rfl, rfl, rfl, complete_routeManager w d.executor ok⟩

theorem SameBut.trans {d d' d'' : EventDispatcher} (h : SameBut d d') (h' : SameBut d' d'') :
    SameBut d d'' :=
  ⟨h'.config.trans h.config, h'.state.trans h.state, h'.indices.trans h.indices,
    h'.manager.trans h.manager⟩

/- What a handler does that goes on with the turns. -/
structure Advanced (d : EventDispatcher) (work : List Work) (x : Task × EventDispatcher) : Prop where
  same : SameBut d x.2
  todo : todo x.1 <:+ work
  ready : ∀ w stage rest, x.1 = .calling w stage rest → Ready w stage
  entries : ∀ n a, x.2.activeRoute n = some a → d.activeRoute n = some a ∨
    ∃ w ∈ work, Tracks w n a ∧ RuleOperator.validateRule w.rule = .ok ()

theorem Advanced.cons {d d' : EventDispatcher} {w : Work} {rest : List Work}
    {x : Task × EventDispatcher} (h : Advanced d' rest x) (hs : SameBut d d')
    (he : ∀ n a, d'.activeRoute n = some a → d.activeRoute n = some a ∨
      Tracks w n a ∧ RuleOperator.validateRule w.rule = .ok ()) : Advanced d (w :: rest) x := by
  refine ⟨hs.trans h.same, h.todo.trans (List.suffix_cons w rest), h.ready, fun n a ha => ?_⟩
  rcases h.entries n a ha with hd | ⟨w', hw', htracks⟩
  · rcases he n a hd with hd | htracks
    · exact .inl hd
    · exact .inr ⟨w, List.mem_cons_self, htracks⟩
  · exact .inr ⟨w', List.mem_cons_of_mem w hw', htracks⟩

/- A handler stops at a call that waits for an answer. -/
theorem advance_calling {w : Work} {d : EventDispatcher} (rest : List Work)
    (hs : w.skipped d.executor = false)
    (hopen : ∀ ok, w.opening d.executor.routeManager ≠ .ended ok) :
    advance (w :: rest) d = (.calling w (w.opening d.executor.routeManager) rest, d) := by
  rw [advance, hs]
  cases ho : w.opening d.executor.routeManager with
  | ended ok => exact absurd ho (hopen ok)
  | addRule _ => rfl
  | getLink _ => rfl
  | addRoute _ _ => rfl
  | delRule _ _ => rfl
  | delRoute _ => rfl

theorem advanced (work : List Work) (d : EventDispatcher) : Advanced d work (advance work d) := by
  induction work generalizing d with
  | nil => exact ⟨⟨rfl, rfl, rfl, rfl⟩, List.suffix_rfl, fun _ _ _ h => (by cases h), fun _ _ => .inl⟩
  | cons w rest ih =>
    cases hs : w.skipped d.executor with
    | true =>
      rw [advance, if_pos hs]
      exact (ih d).cons ⟨rfl, rfl, rfl, rfl⟩ fun _ _ => .inl
    | false =>
      have hready := ready_opening d.executor.routeManager w
      by_cases hopen : ∃ ok, w.opening d.executor.routeManager = .ended ok
      · obtain ⟨ok, ho⟩ := hopen
        have hadvance : advance (w :: rest) d =
            advance rest { d with executor := w.complete d.executor ok } := by
          rw [advance, hs, ho]
          rfl
        rw [hadvance]
        refine (ih _).cons (sameBut_complete d w ok) fun n a ha => ?_
        refine (entry_complete ha).imp_right ?_
        rintro ⟨rfl, htracks⟩
        exact ⟨htracks, hready htracks.applies (by rw [ho]; simp)⟩
      · rw [advance_calling rest hs fun ok ho => hopen ⟨ok, ho⟩]
        refine ⟨⟨rfl, rfl, rfl, rfl⟩, List.suffix_rfl, ?_, fun _ _ => .inl⟩
        intro w' stage rest' he
        cases he
        exact hready

/-! ### Where the recorded routes come from -/

/- One of the managers hands the table out for some index. -/
def Handed (M : RouteManager → Prop) (t : ℕ) : Prop :=
  ∃ rm, M rm ∧ rm.baseTableId ≤ t ∧ t ≤ rm.baseTableId + u8Max

structure Backed (C : Config → Prop) (M : RouteManager → Prop) (w : Work) : Prop where
  configured : ∃ config, C config ∧ w.rule ∈ config.allRules
  handed : Handed M w.tableId

/- The route is what a valid rule of the name says, in a configuration that meets `C`. -/
structure Founded (C : Config → Prop) (M : RouteManager → Prop) (n : String)
    (a : ActiveRoute) : Prop where
  configured : ∃ config, C config ∧ RecordedBy config.allRules a.tableId n a
  handed : Handed M a.tableId

structure Grounded (C : Config → Prop) (M : RouteManager → Prop) (d : EventDispatcher) : Prop where
  config : C d.config
  manager : M d.executor.routeManager
  bounded : Bounded d.interfaceIndices
  entries : ∀ n a, d.activeRoute n = some a → Founded C M n a

structure Sound (C : Config → Prop) (M : RouteManager → Prop) (c : Concurrent κ) : Prop where
  dispatcher : Grounded C M c.dispatcher
  backed : ∀ task ∈ c.tasks, ∀ w ∈ todo task, Backed C M w
  ready : ∀ w stage rest, .calling w stage rest ∈ c.tasks → Ready w stage

section Sound

variable {C : Config → Prop} {M : RouteManager → Prop}

theorem founded_tracks {w : Work} (hw : Backed C M w) {n : String} {a : ActiveRoute}
    (h : Tracks w n a) (hv : RuleOperator.validateRule w.rule = .ok ()) : Founded C M n a := by
  obtain ⟨config, hc, hm⟩ := hw.configured
  have hentry := h.entry
  subst hentry
  exact ⟨⟨config, hc, w.rule, hm, h.name, hv, rfl⟩, hw.handed⟩

theorem Grounded.sameBut {d d' : EventDispatcher} (h : Grounded C M d) (hs : SameBut d d')
    (he : ∀ n a, d'.activeRoute n = some a → Founded C M n a) : Grounded C M d' :=
  ⟨hs.config ▸ h.config, hs.manager ▸ h.manager, hs.indices ▸ h.bounded, he⟩

theorem Advanced.grounded {d : EventDispatcher} {work : List Work} {x : Task × EventDispatcher}
    (h : Advanced d work x) (hd : Grounded C M d) (hw : ∀ w ∈ work, Backed C M w) :
    Grounded C M x.2 := by
  refine hd.sameBut h.same fun n a ha => ?_
  rcases h.entries n a ha with hold | ⟨w, hm, htracks, hv⟩
  · exact hd.entries n a hold
  · exact founded_tracks (hw w hm) htracks hv

/- What a handler has found out to do. -/
structure Prepared (C : Config → Prop) (M : RouteManager → Prop)
    (x : List Work × EventDispatcher) : Prop where
  backed : ∀ w ∈ x.1, Backed C M w
  grounded : Grounded C M x.2

theorem Prepared.nothing {d : EventDispatcher} (h : Grounded C M d) : Prepared C M ([], d) :=
  ⟨fun _ hw => absurd hw List.not_mem_nil, h⟩

/- The rules are applied in the table that the interface is given. -/
theorem prepared_applies {d : EventDispatcher} (h : Grounded C M d) (i : String)
    {rules : List RouteRule} (hrules : ∀ rule ∈ rules, rule ∈ d.config.allRules)
    {f : RouteRule → ℕ → Work} (hrule : ∀ rule t, (f rule t).rule = rule)
    (htable : ∀ rule t, (f rule t).tableId = t) :
    Prepared C M (rules.map (f · (d.getTableIdForInterface i).1),
      (d.getTableIdForInterface i).2) := by
  obtain ⟨hidx, hb⟩ := bounded_indexForInterface h.bounded i
  refine ⟨fun w hw => ?_, h.config, h.manager, hb, h.entries⟩
  obtain ⟨rule, hm, rfl⟩ := List.mem_map.mp hw
  refine ⟨⟨d.config, h.config, ?_⟩, d.executor.routeManager, h.manager, ?_⟩
  · rw [hrule]
    exact hrules rule hm
  · rw [htable]
    exact ⟨Nat.le_add_right _ _, Nat.add_le_add_left hidx _⟩

theorem defaults_prepared (i : String) {d : EventDispatcher} (h : Grounded C M d) :
    Prepared C M (defaultsWork i d) := by
  simp only [defaultsWork]
  split_ifs
  · exact .nothing h
  · exact prepared_applies h i (fun rule hr => (Config.mem_allRules _ _).mpr (.inl hr))
      (fun _ _ => rfl) fun _ _ => rfl

theorem rules_prepared (i : String) (ssid : Option String) {d : EventDispatcher}
    (h : Grounded C M d) : Prepared C M (rulesWork i ssid d) := by
  cases hp : ssid.bind d.config.wifiProfiles.lookup with
  | none =>
    simp only [rulesWork, hp]
    exact defaults_prepared i h
  | some profile =>
    obtain ⟨s, _, hs⟩ := Option.bind_eq_some_iff.mp hp
    simp only [rulesWork, hp]
    exact prepared_applies h i
      (fun rule hr => (Config.mem_allRules _ _).mpr (.inr ⟨s, profile, hs, hr⟩))
      (fun _ _ => rfl) fun _ _ => rfl

theorem down_prepared (order : RouteOrder) (i : String) {d : EventDispatcher}
    (h : Grounded C M d) : Prepared C M (downWork order i d) := by
  have hasked := asked_down order i d
  refine ⟨fun w hw => ⟨⟨d.config, h.config, hasked.configured w hw⟩, ?_⟩, h⟩
  obtain ⟨entry, _, hmap⟩ := List.mem_filterMap.mp hw
  obtain ⟨rule, _, hrule⟩ := Option.map_eq_some_iff.mp hmap
  obtain ⟨a, ha, ht⟩ := hasked.recorded rule entry.2 (hrule ▸ hw)
  have htable : w.tableId = a.tableId := by
    rw [← hrule, ht]
    rfl
  rw [htable]
  exact (h.entries rule.name a ha).handed

theorem Grounded.heard {d d' : EventDispatcher} (h : Grounded C M d) (hd : Heard d d') :
    Grounded C M d' := by
  refine ⟨hd.config ▸ h.config, ?_, ?_, ?_⟩
  · rw [hd.executor]
    exact h.manager
  · rw [hd.interfaceIndices]
    exact h.bounded
  · intro n a ha
    rw [EventDispatcher.activeRoute, hd.executor] at ha
    exact h.entries n a ha

theorem event_prepared (order : RouteOrder) (event : NetworkEvent) {d : EventDispatcher}
    (h : Grounded C M d) : Prepared C M (eventWork order event d) := by
  apply eventWork_rec order event d
  · intro d' hd
    exact .nothing (h.heard hd)
  · intro i d' _ hd
    exact defaults_prepared i (h.heard hd)
  · intro i ssid d' _ hd
    exact rules_prepared i ssid (h.heard hd)
  · intro i d' hd
    exact down_prepared order i (h.heard hd)

/- A handler that goes on leaves the dispatcher grounded, and what it has to do backed. -/
theorem resume_sound {d d' : EventDispatcher} {task task' : Task} (hd : Grounded C M d)
    (hw : ∀ w ∈ todo task, Backed C M w)
    (hready : ∀ w stage rest, task = .calling w stage rest → Ready w stage)
    (hr : resume d task = some (task', d')) :
    Grounded C M d' ∧ (∀ w ∈ todo task', Backed C M w) ∧
      ∀ w stage rest, task' = .calling w stage rest → Ready w stage := by
  have hgo : ∀ {d1 : EventDispatcher} {work : List Work}, Grounded C M d1 →
      (∀ w ∈ work, Backed C M w) → some (advance work d1) = some (task', d') →
      Grounded C M d' ∧ (∀ w ∈ todo task', Backed C M w) ∧
        ∀ w stage rest, task' = .calling w stage rest → Ready w stage := by
    intro d1 work hd1 hwork he
    have hadv := advanced work d1
    rw [Option.some.inj he] at hadv
    exact ⟨hadv.grounded hd1 hwork, fun w hm => hwork w (hadv.todo.subset hm), hadv.ready⟩
  cases task with
  | spawned order event =>
    have hprep := event_prepared order event hd
    exact hgo hprep.grounded hprep.backed hr
  | finished => cases hr
  | calling w stage rest =>
    cases stage with
    | ended ok =>
      refine hgo (hd.sameBut (sameBut_complete d w ok) fun n a ha => ?_)
        (fun w' hw' => hw w' (List.mem_cons_of_mem w hw')) hr
      rcases entry_complete ha with hold | ⟨rfl, htracks⟩
      · exact hd.entries n a hold
      · exact founded_tracks (hw w List.mem_cons_self) htracks
          (hready w _ rest rfl htracks.applies (by simp))
    | addRule _ => cases hr
    | getLink _ => cases hr
    | addRoute _ _ => cases hr
    | delRule _ _ => cases hr
    | delRoute _ => cases hr

theorem Sound.set {c : Concurrent κ} (h : Sound C M c) {d : EventDispatcher} {k : κ} {task : Task}
    (i : ℕ) (hd : Grounded C M d) (hw : ∀ w ∈ todo task, Backed C M w)
    (hready : ∀ w stage rest, task = .calling w stage rest → Ready w stage) :
    Sound C M { c with dispatcher := d, kernel := k, tasks := c.tasks.set i task } := by
  refine ⟨hd, fun task' hm => ?_, fun w stage rest hm => ?_⟩
  · rcases List.mem_or_eq_of_mem_set hm with hold | rfl
    · exact h.backed task' hold
    · exact hw
  · rcases List.mem_or_eq_of_mem_set hm with hold | he
    · exact h.ready w stage rest hold
    · exact hready w stage rest he.symm

theorem Sound.step {c : Concurrent κ} (h : Sound C M c) (i : ℕ) : Sound C M (step rt c i) := by
  have hstep := stepped rt c i
  generalize Tasks.step rt c i = c' at hstep ⊢
  cases hstep with
  | idle => exact h
  | resumed task task' d hi hr =>
    have hm := mem_tasks hi
    obtain ⟨hd, hw, hready⟩ := resume_sound h.dispatcher (h.backed task hm)
      (fun w stage rest he => h.ready w stage rest (he ▸ hm)) hr
    exact h.set i hd hw hready
  | served w stage rest hi hw =>
    have hm := mem_tasks hi
    refine h.set i h.dispatcher (fun w' hw' => h.backed _ hm w' hw') ?_
    intro w' stage' rest' he
    cases he
    exact (h.ready w stage rest hm).serve rt hw c.kernel

theorem Grounded.start {d : EventDispatcher} (h : Grounded C M d) : Grounded C M d.start := by
  unfold EventDispatcher.start
  split_ifs
  · exact h
  · exact ⟨h.config, h.manager, h.bounded, h.entries⟩

theorem Grounded.stop {d : EventDispatcher} (h : Grounded C M d) : Grounded C M d.stop := by
  refine ⟨h.config, h.manager, h.bounded, fun n a ha => ?_⟩
  have hnone : d.stop.activeRoute n = none := AList.lookup_empty n
  rw [hnone] at ha
  cases ha

theorem Grounded.updateConfig {d : EventDispatcher} (h : Grounded C M d) {config : Config}
    (hc : C config) : Grounded C M (d.updateConfig config) :=
  ⟨hc, h.manager, bounded_rebuildIndices h.bounded _ _ bounded_empty, h.entries⟩

/- The turn brings only what is allowed into force. -/
def Admits (C : Config → Prop) (M : RouteManager → Prop) : Turn → Prop
  | .updateConfig config => C config
  | .setRouteManager rm => M rm
  | .spawn _ _ | .task _ | .start | .stop => True

theorem Sound.told {c : Concurrent κ} (h : Sound C M c) {d : EventDispatcher}
    (hd : Grounded C M d) : Sound C M { c with dispatcher := d } :=
  ⟨hd, h.backed, h.ready⟩

theorem Sound.perform {c : Concurrent κ} (h : Sound C M c) {turn : Turn} (ht : Admits C M turn) :
    Sound C M (perform rt c turn) := by
  cases turn with
  | task i => exact h.step rt i
  | start => exact h.told h.dispatcher.start
  | stop => exact h.told h.dispatcher.stop
  | updateConfig config => exact h.told (h.dispatcher.updateConfig ht)
  | setRouteManager rm =>
    exact h.told ⟨h.dispatcher.config, ht, h.dispatcher.bounded, h.dispatcher.entries⟩
  | spawn order event =>
    refine ⟨h.dispatcher, fun task hm => ?_, fun w stage rest hm => ?_⟩
    · rcases List.mem_append.mp hm with hold | hnew
      · exact h.backed task hold
      · rw [List.mem_singleton.mp hnew]
        exact fun w hw => absurd hw List.not_mem_nil
    · rcases List.mem_append.mp hm with hold | hnew
      · exact h.ready w stage rest hold
      · cases List.mem_singleton.mp hnew

theorem sound_idle {config : Config} {rm : RouteManager} (hc : C config) (hm : M rm) (k : κ) :
    Sound C M (idle config rm k) := by
  refine ⟨⟨hc, hm, bounded_preassign _ 0 bounded_empty, fun n a ha => ?_⟩,
    fun _ h => absurd h List.not_mem_nil, fun _ _ _ h => absurd h List.not_mem_nil⟩
  have hnone : (idle config rm k).dispatcher.activeRoute n = none := AList.lookup_empty n
  rw [hnone] at ha
  cases ha

end Sound

/- What the turns put into force. -/
def reloads (turns : List Turn) : List Config :=
  turns.filterMap fun turn =>
    match turn with
    | .updateConfig config => some config
    | _ => none

def managers (turns : List Turn) : List RouteManager :=
  turns.filterMap fun turn =>
    match turn with
    | .setRouteManager rm => some rm
    | _ => none

/- However handlers, reloads, new managers, starts and stops come between each other and whatever
the kernel answers, each active route is what a valid rule of its name says in a configuration
that has been in force, in a table that a manager hands out; and so is each rule that a handler
has still to apply or to remove. -/
theorem interleaved_sound (config : Config) (rm : RouteManager) (k : κ) (turns : List Turn) :
    Throughout (perform rt) (Sound (· ∈ config :: reloads turns) (· ∈ rm :: managers turns))
      (idle config rm k) turns := by
  refine throughout_of_invariant (perform rt) _
    (Admits (· ∈ config :: reloads turns) (· ∈ rm :: managers turns))
    (fun _ _ ht h => h.perform rt ht) _ turns (fun turn hturn => ?_)
    (sound_idle List.mem_cons_self List.mem_cons_self k)
  cases turn with
  | updateConfig config' =>
    exact List.mem_cons_of_mem config (List.mem_filterMap.mpr ⟨_, hturn, rfl⟩)
  | setRouteManager rm' =>
    exact List.mem_cons_of_mem rm (List.mem_filterMap.mpr ⟨_, hturn, rfl⟩)
  | spawn order event => trivial
  | task i => trivial
  | start => trivial
  | stop => trivial

end NicAutoswitch.Engine.Interleavings
