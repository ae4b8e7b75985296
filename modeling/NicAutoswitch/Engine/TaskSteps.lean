import NicAutoswitch.Engine.ActiveRoutes
import NicAutoswitch.Engine.Tasks

/-!
# The steps of concurrent handlers

A step lets a task go on, or lets the kernel answer the request of a call. A task that
goes on leaves behind what the executor has recorded, and stops at the next request.
-/

namespace NicAutoswitch.Engine.Tasks
open HashMaps Schema Monitor Router StateProg Transition

variable {κ : Type} {rt : Rtnetlink κ}

/- The task that takes the place of the one that goes on. -/
def next (c : Concurrent κ) (i : ℕ) : Option Task :=
  (c.tasks[i]?.bind (resume c.dispatcher)).map Prod.fst

/- What a step does. -/
inductive Stepped (rt : Rtnetlink κ) (c : Concurrent κ) (i : ℕ) : Concurrent κ → Prop
  | idle : Stepped rt c i c
  | resumed (task task' : Task) (d : EventDispatcher) (hi : c.tasks[i]? = some task)
      (hr : resume c.dispatcher task = some (task', d)) :
      Stepped rt c i { c with dispatcher := d, tasks := c.tasks.set i task' }
  | served (w : Work) (stage : Stage) (rest : List Work)
      (hi : c.tasks[i]? = some (.calling w stage rest)) (hw : ∀ ok, stage ≠ .ended ok) :
      Stepped rt c i
        { c with
          kernel := (serve rt w stage c.kernel).2
          tasks := c.tasks.set i (.calling w (serve rt w stage c.kernel).1 rest) }

theorem stepped (rt : Rtnetlink κ) (c : Concurrent κ) (i : ℕ) :
    Stepped rt c i (step rt c i) := by
  cases hi : c.tasks[i]? with
  | none =>
    have hs : step rt c i = c := by simp only [step, hi]
    rw [hs]
    exact .idle
  | some task =>
    cases hr : resume c.dispatcher task with
    | some x =>
      have hs : step rt c i = { c with dispatcher := x.2, tasks := c.tasks.set i x.1 } := by
        simp only [step, hi, hr]
      rw [hs]
      exact .resumed task x.1 x.2 hi hr
    | none =>
      cases task with
      | spawned order event => cases hr
      | finished =>
        have hs : step rt c i = c := by simp only [step, hi, hr]
        rw [hs]
        exact .idle
      | calling w stage rest =>
        have hs : step rt c i =
            { c with
              kernel := (serve rt w stage c.kernel).2
              tasks := c.tasks.set i (.calling w (serve rt w stage c.kernel).1 rest) } := by
          simp only [step, hi, hr]
        rw [hs]
        refine .served w stage rest hi fun ok he => ?_
        subst he
        cases hr

/-! ### One task among the others -/

theorem mem_tasks {tasks : List Task} {i : ℕ} {task : Task} (h : tasks[i]? = some task) :
    task ∈ tasks := List.mem_of_getElem? h

/- The other tasks stay. -/
theorem mem_set_of_ne {tasks : List Task} {i : ℕ} {old new task : Task}
    (hi : tasks[i]? = some old) (hm : task ∈ tasks) (hne : task ≠ old) :
    task ∈ tasks.set i new := by
  obtain ⟨j, hj⟩ := List.mem_iff_getElem?.mp hm
  have hij : i ≠ j := by
    intro he
    subst he
    rw [hi] at hj
    exact hne (Option.some.inj hj).symm
  exact List.mem_iff_getElem?.mpr ⟨j, by rw [List.getElem?_set_ne hij, hj]⟩

theorem new_mem_set {tasks : List Task} {i : ℕ} {old new : Task} (hi : tasks[i]? = some old) :
    new ∈ tasks.set i new := List.mem_set (List.getElem?_eq_some_iff.mp hi).1 new

/-! ### A task that goes on -/

/- The task stops at the first request of one of the turns, or is over. -/
inductive Onward (d : EventDispatcher) (work : List Work) : Task → Prop
  | finished : Onward d work .finished
  | calling (w : Work) (rest : List Work) (hs : w :: rest <:+ work)
      (hskip : w.skipped d.executor = false)
      (hopen : ∀ ok, w.opening d.executor.routeManager ≠ .ended ok) :
      Onward d work (.calling w (w.opening d.executor.routeManager) rest)

theorem Onward.cons {d : EventDispatcher} {w : Work} {work : List Work} {task : Task}
    (h : Onward d work task) : Onward d (w :: work) task := by
  cases h with
  | finished => exact .finished
  | calling w' rest hs hskip hopen =>
    exact .calling w' rest (hs.trans (List.suffix_cons w work)) hskip hopen

/- Where no call goes well without a request, a handler changes nothing before its first
request. -/
theorem advance_onward {d : EventDispatcher}
    (hl : ∀ w : Work, w.opening d.executor.routeManager ≠ .ended true) (work : List Work) :
    Onward d work (advance work d).1 ∧ (advance work d).2 = d := by
  induction work with
  | nil => exact ⟨.finished, rfl⟩
  | cons w rest ih =>
    cases hs : w.skipped d.executor with
    | true =>
      rw [advance, if_pos hs]
      exact ⟨ih.1.cons, ih.2⟩
    | false =>
      by_cases hopen : ∃ ok, w.opening d.executor.routeManager = .ended ok
      · obtain ⟨ok, ho⟩ := hopen
        have hok : ok = false := by
          cases ok with
          | false => rfl
          | true => exact absurd ho (hl w)
        subst hok
        have hnothing : { d with executor := w.complete d.executor false } = d := by
          cases w <;> rfl
        have hadvance : advance (w :: rest) d = advance rest d := by
          rw [advance, hs, ho]
          simp only [Bool.false_eq_true, if_false, hnothing]
        rw [hadvance]
        exact ⟨ih.1.cons, ih.2⟩
      · have hadvance : advance (w :: rest) d =
            (.calling w (w.opening d.executor.routeManager) rest, d) := by
          rw [advance, hs]
          cases ho : w.opening d.executor.routeManager with
          | ended ok => exact absurd ⟨ok, ho⟩ hopen
          | addRule _ => rfl
          | getLink _ => rfl
          | addRoute _ _ => rfl
          | delRule _ _ => rfl
          | delRoute _ => rfl
        rw [hadvance]
        exact ⟨.calling w rest List.suffix_rfl hs fun ok ho => hopen ⟨ok, ho⟩, rfl⟩

/-! ### What an event asks for -/

/- A handler applies rules or removes them, and does not mix the two. -/
def OneKind (work : List Work) : Prop :=
  (∀ rule t, Work.remove rule t ∉ work) ∨ ∀ w ∈ work, ∃ rule t, w = .remove rule t

theorem OneKind.suffix {work work' : List Work} (h : OneKind work) (hs : work' <:+ work) :
    OneKind work' := by
  rcases h with h | h
  · exact Or.inl fun rule t hm => h rule t (hs.subset hm)
  · exact Or.inr fun w hm => h w (hs.subset hm)

/- The rules that a handler works on are configured, and a removal is one of a rule that
is recorded as active in the table. -/
structure Asked (d : EventDispatcher) (work : List Work) : Prop where
  configured : ∀ w ∈ work, w.rule ∈ d.config.allRules
  recorded : ∀ rule t, Work.remove rule t ∈ work →
    ∃ a, d.activeRoute rule.name = some a ∧ a.tableId = t
  oneKind : OneKind work

theorem Asked.nil (d : EventDispatcher) : Asked d [] :=
  ⟨fun _ h => absurd h List.not_mem_nil, fun _ _ h => absurd h List.not_mem_nil,
    Or.inl fun _ _ => List.not_mem_nil⟩

theorem asked_applies (d : EventDispatcher) {rules : List RouteRule} {f : RouteRule → Work}
    (hconf : ∀ rule ∈ rules, rule ∈ d.config.allRules) (hrule : ∀ rule, (f rule).rule = rule)
    (hf : ∀ rule rule' t, f rule ≠ .remove rule' t) : Asked d (rules.map f) := by
  have hnone : ∀ rule t, Work.remove rule t ∉ rules.map f := by
    intro rule t hw
    obtain ⟨rule', _, he⟩ := List.mem_map.mp hw
    exact hf rule' rule t he
  refine ⟨fun w hw => ?_, fun rule t hw => absurd hw (hnone rule t), Or.inl hnone⟩
  obtain ⟨rule, hr, he⟩ := List.mem_map.mp hw
  rw [← he, hrule]
  exact hconf rule hr

theorem asked_defaults (d : EventDispatcher) (t : ℕ) :
    Asked d (d.config.routing.defaultRules.map (Work.applyDefault · t)) := by
  refine asked_applies d (fun rule hr => ?_) (fun _ => rfl) fun _ _ _ he => by cases he
  exact (Config.mem_allRules _ _).mpr (Or.inl hr)

theorem asked_profile (d : EventDispatcher) {ssid : String} {profile : WifiProfile}
    (hp : d.config.wifiProfiles.lookup ssid = some profile) (t : ℕ) :
    Asked d (profile.rules.map (Work.applyProfile · t)) := by
  refine asked_applies d (fun rule hr => ?_) (fun _ => rfl) fun _ _ _ he => by cases he
  exact (Config.mem_allRules _ _).mpr (Or.inr ⟨ssid, profile, hp, hr⟩)

theorem asked_down (order : RouteOrder) (i : String) (d : EventDispatcher) :
    Asked d (downWork order i d).1 := by
  have hspec : ∀ w ∈ (downWork order i d).1, ∃ rule t, w = .remove rule t ∧
      rule ∈ d.config.allRules ∧ ∃ a, d.activeRoute rule.name = some a ∧ a.tableId = t := by
    intro w hw
    obtain ⟨entry, he, hmap⟩ := List.mem_filterMap.mp hw
    obtain ⟨rule, hr, hrule⟩ := Option.map_eq_some_iff.mp hmap
    obtain ⟨hconf, hname⟩ := EventDispatcher.rulesMap_spec hr
    obtain ⟨a, ha, _, ht⟩ := (EventDispatcher.mem_dependentRoutes order _ i _ _).mp he
    exact ⟨rule, entry.2, hrule.symm, hconf, a, by rw [hname]; exact ha, ht⟩
  constructor
  · intro w hw
    obtain ⟨rule, t, hrule, hconf, _⟩ := hspec w hw
    rw [hrule]
    exact hconf
  · intro rule t hw
    obtain ⟨rule', t', hrule, _, hactive⟩ := hspec _ hw
    cases hrule
    exact hactive
  · refine Or.inr fun w hw => ?_
    obtain ⟨rule, t, hrule, _⟩ := hspec w hw
    exact ⟨rule, t, hrule⟩

/- What is asked for, and the dispatcher whose executor and configuration are as before. -/
structure Readied (d : EventDispatcher) (x : List Work × EventDispatcher) : Prop where
  executor : x.2.executor = d.executor
  config : x.2.config = d.config
  asked : Asked d x.1

theorem defaults_readied (i : String) (d : EventDispatcher) : Readied d (defaultsWork i d) := by
  simp only [defaultsWork]
  split_ifs with he
  · exact ⟨rfl, rfl, .nil d⟩
  · exact ⟨rfl, rfl, asked_defaults d _⟩

theorem rules_readied (i : String) (ssid : Option String) (d : EventDispatcher) :
    Readied d (rulesWork i ssid d) := by
  cases hp : ssid.bind d.config.wifiProfiles.lookup with
  | none =>
    have he : rulesWork i ssid d = defaultsWork i d := by simp only [rulesWork, hp]
    rw [he]
    exact defaults_readied i d
  | some profile =>
    obtain ⟨s, _, hs⟩ := Option.bind_eq_some_iff.mp hp
    simp only [rulesWork, hp]
    exact ⟨rfl, rfl, asked_profile d hs _⟩

theorem Readied.heard {d d' : EventDispatcher} {x : List Work × EventDispatcher}
    (h : Readied d' x) (hd : Heard d d') : Readied d x := by
  refine ⟨h.executor.trans hd.executor, h.config.trans hd.config, ?_, ?_, h.asked.oneKind⟩
  · rw [← hd.config]
    exact h.asked.configured
  · intro rule t hw
    obtain ⟨a, ha, ht⟩ := h.asked.recorded rule t hw
    exact ⟨a, by rw [← ha, EventDispatcher.activeRoute, EventDispatcher.activeRoute, hd.executor], ht⟩

theorem event_readied (order : RouteOrder) (event : NetworkEvent) (d : EventDispatcher) :
    Readied d (eventWork order event d) := by
  apply eventWork_rec order event d
  · intro d' hd
    exact ⟨hd.executor, hd.config, .nil d⟩
  · intro i d' _ hd
    exact (defaults_readied i d').heard hd
  · intro i ssid d' _ hd
    exact (rules_readied i ssid d').heard hd
  · intro i d' hd
    have h : Readied d' (downWork order i d') := ⟨rfl, rfl, asked_down order i d'⟩
    exact h.heard hd

/-! ### Going on -/

/- A task that goes on begins its handler, or comes back from a call. -/
inductive WentOn (d : EventDispatcher) : Task → Task → EventDispatcher → Prop
  | began {order : RouteOrder} {event : NetworkEvent} {d' : EventDispatcher} {work : List Work}
      {task' : Task} (hw : Readied d (work, d')) (ho : Onward d' work task') :
      WentOn d (.spawned order event) task' d'
  | returned {w : Work} {ok : Bool} {rest : List Work} {task' : Task}
      (ho : Onward { d with executor := w.complete d.executor ok } rest task') :
      WentOn d (.calling w (.ended ok) rest) task'
        { d with executor := w.complete d.executor ok }

theorem complete_routeManager (w : Work) (e : RuleExecutor) (ok : Bool) :
    (w.complete e ok).routeManager = e.routeManager := by
  cases w <;> cases ok <;> rfl

theorem wentOn {d d' : EventDispatcher}
    (hl : ∀ w : Work, w.opening d.executor.routeManager ≠ .ended true) {task task' : Task}
    (hr : resume d task = some (task', d')) : WentOn d task task' d' := by
  cases task with
  | spawned order event =>
    have hready := event_readied order event d
    have hon := advance_onward (d := (eventWork order event d).2)
      (by rw [hready.executor]; exact hl) (eventWork order event d).1
    simp only [resume, Option.some.injEq] at hr
    rw [← Prod.eta (advance _ _), hon.2, Prod.mk.injEq] at hr
    obtain ⟨htask, hd⟩ := hr
    subst htask hd
    exact .began hready hon.1
  | finished => cases hr
  | calling w stage rest =>
    cases stage with
    | ended ok =>
      have hon := advance_onward (d := { d with executor := w.complete d.executor ok })
        (by simp only [complete_routeManager]; exact hl) rest
      simp only [resume, Option.some.injEq] at hr
      rw [← Prod.eta (advance _ _), hon.2, Prod.mk.injEq] at hr
      obtain ⟨htask, hd⟩ := hr
      subst htask hd
      exact .returned hon.1
    | addRule _ => cases hr
    | getLink _ => cases hr
    | addRoute _ _ => cases hr
    | delRule _ _ => cases hr
    | delRoute _ => cases hr

/- What is recorded under a name after a call. -/
theorem activeRoute_complete (d : EventDispatcher) (w : Work) (ok : Bool) (n : String) :
    EventDispatcher.activeRoute { d with executor := w.complete d.executor ok } n =
      if ok = true ∧ n = w.rule.name then
        match w with
        | .applyDefault rule t => some ⟨rule.name, rule.routeVia.interface, t⟩
        | .applyProfile rule t => some ⟨rule.name, rule.routeVia.interface, t⟩
        | .remove _ _ => none
      else d.activeRoute n := by
  cases ok with
  | false =>
    rw [if_neg fun h => Bool.false_ne_true h.1]
    cases w <;> rfl
  | true =>
    simp only [true_and]
    cases w with
    | applyDefault rule t => exact lookup_insert_eq_ite _ _ _ _
    | applyProfile rule t => exact lookup_insert_eq_ite _ _ _ _
    | remove rule t => exact lookup_erase_eq_ite _ _ _

end NicAutoswitch.Engine.Tasks
