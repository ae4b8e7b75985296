import NicAutoswitch.Engine.LinkState
import NicAutoswitch.Kernel.TaskRequests

/-!
# Default rules under concurrent handlers

`apply_default_rules` looks whether a rule is active, waits for the kernel, and records
the rule after that. Another handler may have looked in the meantime.
-/

namespace NicAutoswitch.Kernel.ConcurrentDefaults
open HashMaps Schema Monitor Router StateProg Transition Engine Engine.Tasks TaskRequests

variable {env : Env}

/- The kernel has the rule's policy rule or its route in the table. -/
def Has (env : Env) (k : KernelState) (rule : RouteRule) (t : ℕ) : Prop :=
  ∃ x, entries env rule t = some x ∧ (x.1 ∈ k.rules ∨ x.2 ∈ k.routes)

/- No default rule is in two tables. -/
def OneTable (env : Env) (c : Concurrent KernelState) : Prop :=
  ∀ rule ∈ c.dispatcher.config.routing.defaultRules, ∀ t t',
    Has env c.kernel rule t → Has env c.kernel rule t' → t = t'

/- The kernel cannot tell the entries of the two rules apart, their interfaces left aside. -/
structure SameContent (a b : RouteRule) : Prop where
  target : RuleOperator.target? a = RuleOperator.target? b
  priority : a.priority = b.priority

/- The task is in a call that applies such a rule in the table. -/
def Applies (r : RouteRule) (t : ℕ) : Task → Prop
  | .calling w _ _ => Applying w ∧ SameContent w.rule r ∧ w.tableId = t
  | _ => False

/- The task is in a call that removes the rule from the table, or has that before it. -/
def Removes (rule : RouteRule) (t : ℕ) : Task → Prop
  | .calling w _ rest => .remove rule t ∈ w :: rest
  | _ => False

def Applied (c : Concurrent KernelState) (r : RouteRule) (t : ℕ) : Prop :=
  ∃ task ∈ c.tasks, Applies r t task

def Recorded (c : Concurrent KernelState) (r : RouteRule) (t : ℕ) : Prop :=
  ∃ rule ∈ c.dispatcher.config.allRules, SameContent rule r ∧
    ∃ a, c.dispatcher.activeRoute rule.name = some a ∧ a.tableId = t

/- What the handlers must not do. A handler that sets out to apply a default rule finds it
neither applied nor recorded in another table, and not about to be removed; one that sets out
to remove it finds it not being applied; and the request that deletes its route deletes it. -/
structure Careful (env : Env) (c : Concurrent KernelState) (i : ℕ) : Prop where
  elsewhere : ∀ task, next c i = some task → ∀ r ∈ c.dispatcher.config.routing.defaultRules,
    ∀ t, Applies r t task → ∀ t', Applied c r t' ∨ Recorded c r t' → t' = t
  leaving : ∀ task, next c i = some task → ∀ r ∈ c.dispatcher.config.routing.defaultRules,
    ∀ t, Applies r t task → ∀ task' ∈ c.tasks, ∀ rule t', SameContent rule r →
      ¬ Removes rule t' task'
  coming : ∀ task, next c i = some task → ∀ r ∈ c.dispatcher.config.routing.defaultRules,
    ∀ rule t, SameContent rule r → Removes rule t task → ∀ t', ¬ Applied c r t'
  deletes : ∀ rule t m rest, c.tasks[i]? = some (.calling (.remove rule t) (.delRoute m) rest) →
    ∀ r ∈ c.dispatcher.config.routing.defaultRules, SameContent rule r →
      ∀ x, entries env r t = some x → x.2 ∈ c.kernel.routes →
        c.kernel.pick t x.2.destination none none = some x.2

/-! ### What is known of every state -/

/- A call of a task, and the turns that are before it. -/
structure CallSound (env : Env) (config : Config) (w : Work) (stage : Stage)
    (rest : List Work) : Prop where
  configured : ∀ w' ∈ w :: rest, w'.rule ∈ config.allRules
  oneKind : OneKind (w :: rest)
  fits : Fits env w stage

structure Sound (env : Env) (config : Config) (c : Concurrent KernelState) : Prop where
  config_eq : c.dispatcher.config = config
  live : Live c.dispatcher.executor.routeManager
  calls : ∀ w stage rest, .calling w stage rest ∈ c.tasks → CallSound env config w stage rest

/- How a default rule stands. What is in the kernel is recorded or being applied, all in one
table, and a rule that is to be removed is recorded in no other table. -/
structure Tidy (env : Env) (r : RouteRule) (c : Concurrent KernelState) : Prop where
  holder : ∀ t, Has env c.kernel r t → Recorded c r t ∨ Applied c r t
  one : ∀ t t', Has env c.kernel r t → Has env c.kernel r t' → t = t'
  clear : ∀ t t', Applied c r t → Has env c.kernel r t' → t' = t
  same : ∀ t t', Applied c r t → Applied c r t' → t' = t
  free : ∀ t, Applied c r t → ∀ task ∈ c.tasks, ∀ rule t', SameContent rule r →
    ¬ Removes rule t' task
  recorded : ∀ task ∈ c.tasks, ∀ rule t, SameContent rule r → Removes rule t task →
    ∀ a, c.dispatcher.activeRoute rule.name = some a → a.tableId = t
  ruleGone : ∀ rule t m rest, .calling (.remove rule t) (.delRoute m) rest ∈ c.tasks →
    SameContent rule r → ∀ x, entries env r t = some x → x.1 ∉ c.kernel.rules
  gone : ∀ rule t rest, .calling (.remove rule t) (.ended true) rest ∈ c.tasks →
    SameContent rule r → ¬ Has env c.kernel r t

/-! ### Every state is sound -/

section Sound

variable {config : Config} {c : Concurrent KernelState} {i : ℕ}

/- The call that a handler stops at, out of turns that are as they should be. -/
theorem onward_sound {d : EventDispatcher} (hl : Live d.executor.routeManager)
    {work : List Work} (hconf : ∀ w ∈ work, w.rule ∈ config.allRules) (hkind : OneKind work)
    {w : Work} {stage : Stage} {rest : List Work} (ho : Onward d work (.calling w stage rest)) :
    CallSound env config w stage rest := by
  cases ho with
  | calling _ _ hs _ hopen =>
    exact ⟨fun w' hw' => hconf w' (hs.subset hw'), hkind.suffix hs,
      .opened (opening_opened hl hopen)⟩

theorem Sound.resumed (h : Sound env config c) {task task' : Task} {d : EventDispatcher}
    (hi : c.tasks[i]? = some task) (hr : resume c.dispatcher task = some (task', d)) :
    Sound env config { c with dispatcher := d, tasks := c.tasks.set i task' } := by
  have hwent := wentOn (opening_not_done h.live) hr
  have hnew : d.config = config ∧ Live d.executor.routeManager ∧
      ∀ w stage rest, task' = .calling w stage rest → CallSound env config w stage rest := by
    cases hwent with
    | began hw ho =>
      have hl : Live d.executor.routeManager := by
        rw [hw.executor]
        exact h.live
      refine ⟨hw.config.trans h.config_eq, hl, fun w stage rest he => ?_⟩
      subst he
      exact onward_sound hl (h.config_eq ▸ hw.asked.configured) hw.asked.oneKind ho
    | @returned w0 ok rest0 _ ho =>
      have hold := h.calls _ _ _ (mem_tasks hi)
      have hl : Live (w0.complete c.dispatcher.executor ok).routeManager := by
        rw [complete_routeManager]
        exact h.live
      refine ⟨h.config_eq, hl, fun w stage rest he => ?_⟩
      subst he
      exact onward_sound hl (fun w' hw' => hold.configured w' (List.mem_cons_of_mem _ hw'))
        (hold.oneKind.suffix (List.suffix_cons _ _)) ho
  obtain ⟨hconfig, hlive, hcall⟩ := hnew
  refine ⟨hconfig, hlive, fun w stage rest hm => ?_⟩
  rcases List.mem_or_eq_of_mem_set hm with hm | he
  · exact h.calls w stage rest hm
  · exact hcall w stage rest he.symm

theorem Sound.served (hq : Quiet env)
    (hlinks : ∀ rule ∈ config.allRules, (env.ifindex rule.routeVia.interface).isSome)
    (h : Sound env config c) {w : Work} {stage : Stage} {rest : List Work}
    (hi : c.tasks[i]? = some (.calling w stage rest)) :
    Sound env config
      { c with
        kernel := (serve env.plain w stage c.kernel).2
        tasks := c.tasks.set i (.calling w (serve env.plain w stage c.kernel).1 rest) } := by
  have hold := h.calls _ _ _ (mem_tasks hi)
  refine ⟨h.config_eq, h.live, fun w' stage' rest' hm => ?_⟩
  rcases List.mem_or_eq_of_mem_set hm with hm | he
  · exact h.calls w' stage' rest' hm
  · cases he
    have hlink := hlinks w.rule (hold.configured w List.mem_cons_self)
    exact ⟨hold.configured, hold.oneKind, served_fits hq hlink hold.fits c.kernel⟩

end Sound

/-! ### The kernel answers -/

section Served

variable {config : Config} {c : Concurrent KernelState} {i : ℕ} {r : RouteRule}
  {w : Work} {stage : Stage} {rest : List Work}

/- The tasks while task `i` waits in the same call at another stage. -/
theorem applied_served (hi : c.tasks[i]? = some (.calling w stage rest)) (stage' : Stage)
    (k : KernelState) (t : ℕ) :
    Applied { c with kernel := k, tasks := c.tasks.set i (.calling w stage' rest) } r t ↔
      Applied c r t := by
  apply Iff.intro
  · intro h
    obtain ⟨task, hm, ha⟩ := h
    rcases List.mem_or_eq_of_mem_set hm with hm | he
    · exact ⟨task, hm, ha⟩
    · subst he
      exact ⟨_, mem_tasks hi, ha⟩
  · intro h
    obtain ⟨task, hm, ha⟩ := h
    by_cases he : task = .calling w stage rest
    · subst he
      exact ⟨_, new_mem_set hi, ha⟩
    · exact ⟨task, mem_set_of_ne hi hm he, ha⟩

theorem removes_served (hi : c.tasks[i]? = some (.calling w stage rest)) {stage' : Stage}
    {task : Task} (hm : task ∈ c.tasks.set i (.calling w stage' rest)) {rule : RouteRule} {t : ℕ}
    (hr : Removes rule t task) : ∃ task ∈ c.tasks, Removes rule t task := by
  rcases List.mem_or_eq_of_mem_set hm with hm | he
  · exact ⟨task, hm, hr⟩
  · subst he
    exact ⟨_, mem_tasks hi, hr⟩

theorem Installs.applies {d : IpNetwork} {t : ℕ} (h : Installs w d t r.priority)
    (hd : RuleOperator.target? r = some d) : Applies r t (.calling w stage rest) :=
  ⟨h.applying, ⟨h.target.trans hd.symm, h.priority⟩, h.tableId⟩

variable (hq : Quiet env) (hlink : (env.ifindex w.rule.routeVia.interface).isSome)
  (hf : Fits env w stage)
include hq hlink hf

/- The rule comes to a table only where it is being applied. -/
theorem served_rule (rest : List Work) {t : ℕ} {x : PolicyRule × Route} (hx : entries env r t = some x)
    (hp : x.1 ∈ (serve env.plain w stage c.kernel).2.rules) :
    x.1 ∈ c.kernel.rules ∨ Applies r t (.calling w stage rest) := by
  obtain ⟨d, l, hd, _, he⟩ := entries_spec hx
  subst he
  exact ((served_gained hq hlink hf c.kernel).rules _ hp).imp_right fun h => Installs.applies h hd

theorem served_has (rest : List Work) {t : ℕ} (h : Has env (serve env.plain w stage c.kernel).2 r t) :
    Has env c.kernel r t ∨ Applies r t (.calling w stage rest) := by
  obtain ⟨x, hx, hrule | hroute⟩ := h
  · exact (served_rule hq hlink hf rest hx hrule).imp_left fun hm => ⟨x, hx, Or.inl hm⟩
  · obtain ⟨d, l, hd, _, he⟩ := entries_spec hx
    subst he
    rcases (served_gained hq hlink hf c.kernel).routes _ hroute with hm | hm
    · exact Or.inl ⟨_, hx, Or.inr hm⟩
    · exact Or.inr (Installs.applies hm hd)

end Served

section ServedRemoval

variable {c : Concurrent KernelState} {r rule : RouteRule} {t : ℕ} {stage : Stage}

/- When the request for its route is sent, the policy rule has been deleted. -/
theorem served_ruleGone (hq : Quiet env) (hf : Fits env (.remove rule t) stage)
    (hw : ∀ ok, stage ≠ .ended ok) {m : RouteMessage} (hsame : SameContent rule r)
    (hs : (serve env.plain (.remove rule t) stage c.kernel).1 = .delRoute m)
    {x : PolicyRule × Route} (hx : entries env r t = some x) :
    x.1 ∉ (serve env.plain (.remove rule t) stage c.kernel).2.rules := by
  obtain ⟨d, l, hd, _, he⟩ := entries_spec hx
  subst he
  cases hf with
  | opened ho =>
    cases ho with
    | addRule ha _ => exact absurd ha id
    | delRule hd' ht =>
      have hdd := hd'.symm.trans (hsame.target.trans hd)
      cases hdd
      rw [serve_delRule hq _ _ _ ht, KernelState.tick_rules, KernelState.mem_dropRule,
        hsame.priority]
      exact fun h => h.1 rfl
  | getLink ha _ => exact absurd ha id
  | addRoute ha _ _ => exact absurd ha id
  | delRoute hd' =>
    rw [serve_delRoute hq] at hs
    split at hs <;> cases hs
  | ended _ => exact absurd rfl (hw _)

/- When the removal has come to its end, neither entry is left. -/
theorem served_gone (hq : Quiet env) (hf : Fits env (.remove rule t) stage)
    (hw : ∀ ok, stage ≠ .ended ok) (hsame : SameContent rule r)
    (hrule : ∀ m, stage = .delRoute m → ∀ x, entries env r t = some x → x.1 ∉ c.kernel.rules)
    (hroute : ∀ m, stage = .delRoute m → ∀ x, entries env r t = some x →
      x.2 ∈ c.kernel.routes → c.kernel.pick t x.2.destination none none = some x.2)
    (hs : (serve env.plain (.remove rule t) stage c.kernel).1 = .ended true) :
    ¬ Has env (serve env.plain (.remove rule t) stage c.kernel).2 r t := by
  cases hf with
  | opened ho =>
    cases ho with
    | addRule ha _ => exact absurd ha id
    | delRule hd' ht =>
      rw [serve_delRule hq _ _ _ ht] at hs
      cases hs
  | getLink ha _ => exact absurd ha id
  | addRoute ha _ _ => exact absurd ha id
  | @delRoute _ _ d hd' =>
    rintro ⟨x, hx, hm⟩
    obtain ⟨d', l, hd, _, he⟩ := entries_spec hx
    have hdd := hd'.symm.trans (hsame.target.trans hd)
    cases hdd
    have hpolicy := hrule _ rfl x hx
    have hpick := hroute _ rfl x hx
    subst he
    rw [serve_delRoute hq] at hs hm
    cases hp : c.kernel.pick t d none none with
    | none =>
      rw [hp] at hs
      cases hs
    | some q =>
      rw [hp] at hm hpick
      rcases hm with hm | hm
      · exact hpolicy hm
      · rw [KernelState.tick_routes, KernelState.mem_dropRoute] at hm
        exact hm.1 (Option.some.inj (hpick hm.2)).symm
  | ended _ => exact absurd rfl (hw _)

end ServedRemoval

/- A removal of such a rule excludes that one is being applied. -/
theorem Tidy.not_applied {c : Concurrent KernelState} {r rule : RouteRule} (h : Tidy env r c)
    (hsame : SameContent rule r) {task : Task} (hm : task ∈ c.tasks) {t : ℕ}
    (hr : Removes rule t task) (t' : ℕ) : ¬ Applied c r t' :=
  fun ha => h.free t' ha task hm rule t hsame hr

section TidyServed

variable {config : Config} {c : Concurrent KernelState} {i : ℕ} {r : RouteRule} {w : Work}
  {stage : Stage} {rest : List Work} (hq : Quiet env)
  (hlink : (env.ifindex w.rule.routeVia.interface).isSome) (hf : Fits env w stage)
  (hi : c.tasks[i]? = some (.calling w stage rest))
include hq hlink hf hi

theorem has_before {t : ℕ} (ht : Has env (serve env.plain w stage c.kernel).2 r t) :
    Has env c.kernel r t ∨ Applied c r t :=
  (served_has hq hlink hf rest ht).imp_right fun ha => ⟨_, mem_tasks hi, ha⟩

variable (h : Tidy env r c)
include h

theorem one_served {t t' : ℕ} (ht : Has env (serve env.plain w stage c.kernel).2 r t)
    (ht' : Has env (serve env.plain w stage c.kernel).2 r t') : t = t' := by
  rcases has_before hq hlink hf hi ht with hb | ha <;>
    rcases has_before hq hlink hf hi ht' with hb' | ha'
  · exact h.one t t' hb hb'
  · exact h.clear t' t ha' hb
  · exact (h.clear t t' ha hb').symm
  · exact h.same t' t ha' ha

variable (hw : ∀ ok, stage ≠ .ended ok)
include hw

/- A removal that waits for its second answer, after an answer to it or to another call. -/
theorem ruleGone_served {rule : RouteRule} {t : ℕ} {m : RouteMessage} {rest' : List Work}
    (hm : Task.calling (.remove rule t) (.delRoute m) rest' ∈
      c.tasks.set i (.calling w (serve env.plain w stage c.kernel).1 rest))
    (hsame : SameContent rule r) {x : PolicyRule × Route} (hx : entries env r t = some x) :
    x.1 ∉ (serve env.plain w stage c.kernel).2.rules := by
  rcases List.mem_or_eq_of_mem_set hm with hm | he
  · intro hp
    rcases served_rule hq hlink hf rest hx hp with hp | ha
    · exact h.ruleGone rule t m rest' hm hsame x hx hp
    · exact h.not_applied hsame hm List.mem_cons_self t ⟨_, mem_tasks hi, ha⟩
  · injection he with hwork hstage _
    subst hwork
    exact served_ruleGone hq hf hw hsame hstage.symm hx

theorem gone_served (hmem : r ∈ c.dispatcher.config.routing.defaultRules)
    (hc : Careful env c i) {rule : RouteRule} {t : ℕ} {rest' : List Work}
    (hm : Task.calling (.remove rule t) (.ended true) rest' ∈
      c.tasks.set i (.calling w (serve env.plain w stage c.kernel).1 rest))
    (hsame : SameContent rule r) : ¬ Has env (serve env.plain w stage c.kernel).2 r t := by
  rcases List.mem_or_eq_of_mem_set hm with hm | he
  · intro ht
    rcases has_before hq hlink hf hi ht with hb | ha
    · exact h.gone rule t rest' hm hsame hb
    · exact h.not_applied hsame hm List.mem_cons_self t ha
  · injection he with hwork hstage _
    subst hwork
    refine served_gone hq hf hw hsame (fun m hs x hx => ?_) (fun m hs x hx hroute => ?_)
      hstage.symm
    · subst hs
      exact h.ruleGone rule t m rest (mem_tasks hi) hsame x hx
    · subst hs
      exact hc.deletes rule t m rest hi r hmem hsame x hx hroute

end TidyServed

theorem Tidy.served {config : Config} {c : Concurrent KernelState} {i : ℕ} {r : RouteRule}
    (h : Tidy env r c) (hq : Quiet env)
    (hlinks : ∀ rule ∈ config.allRules, (env.ifindex rule.routeVia.interface).isSome)
    (hs : Sound env config c) (hmem : r ∈ c.dispatcher.config.routing.defaultRules)
    (hc : Careful env c i) {w : Work} {stage : Stage} {rest : List Work}
    (hi : c.tasks[i]? = some (.calling w stage rest)) (hw : ∀ ok, stage ≠ .ended ok) :
    Tidy env r
      { c with
        kernel := (serve env.plain w stage c.kernel).2
        tasks := c.tasks.set i (.calling w (serve env.plain w stage c.kernel).1 rest) } := by
  have hold := hs.calls _ _ _ (mem_tasks hi)
  have hf := hold.fits
  have hlink := hlinks w.rule (hold.configured w List.mem_cons_self)
  have happlied := fun t => applied_served (r := r) hi (serve env.plain w stage c.kernel).1
    (serve env.plain w stage c.kernel).2 t
  constructor
  case holder =>
    intro t ht
    rcases has_before hq hlink hf hi ht with hb | ha
    · exact (h.holder t hb).imp_right (happlied t).mpr
    · exact Or.inr ((happlied t).mpr ha)
  case one => exact fun t t' ht ht' => one_served hq hlink hf hi h ht ht'
  case clear =>
    intro t t' ha ht'
    rcases has_before hq hlink hf hi ht' with hb | ha'
    · exact h.clear t t' ((happlied t).mp ha) hb
    · exact h.same t t' ((happlied t).mp ha) ha'
  case same =>
    exact fun t t' ha ha' => h.same t t' ((happlied t).mp ha) ((happlied t').mp ha')
  case free =>
    intro t ha task hm rule t' hsame hr
    obtain ⟨task', hm', hr'⟩ := removes_served hi hm hr
    exact h.free t ((happlied t).mp ha) task' hm' rule t' hsame hr'
  case recorded =>
    intro task hm rule t hsame hr
    obtain ⟨task', hm', hr'⟩ := removes_served hi hm hr
    exact h.recorded task' hm' rule t hsame hr'
  case ruleGone =>
    exact fun rule t m rest' hm hsame x hx => ruleGone_served hq hlink hf hi h hw hm hsame hx
  case gone =>
    exact fun rule t rest' hm hsame => gone_served hq hlink hf hi h hw hmem hc hm hsame

/-! ### A task goes on -/

/- The tasks after task `i` has gone on, on the dispatcher that it leaves. -/
abbrev turned (c : Concurrent KernelState) (i : ℕ) (task : Task) (d : EventDispatcher) :
    Concurrent KernelState :=
  { c with dispatcher := d, tasks := c.tasks.set i task }

/- The dispatcher when a call has come back. -/
abbrev completed (d : EventDispatcher) (w : Work) (ok : Bool) : EventDispatcher :=
  { d with executor := w.complete d.executor ok }

section Resumed

variable {config : Config} {c : Concurrent KernelState} {i : ℕ} {r : RouteRule}
  {task task' : Task} {d : EventDispatcher}

/- What a task removes after it has gone on, it has been asked for just now, or it had that
before it. -/
theorem removes_onward {work : List Work} (ho : Onward d work task') {rule : RouteRule} {t : ℕ}
    (hr : Removes rule t task') : .remove rule t ∈ work := by
  cases ho with
  | finished => exact absurd hr id
  | calling w rest hs _ _ => exact hs.subset hr

/- A task that has gone on does not wait at a later stage of a removal. -/
theorem onward_opened {work : List Work} (hl : Live d.executor.routeManager)
    (ho : Onward d work task') {w : Work} {stage : Stage} {rest : List Work}
    (he : task' = .calling w stage rest) : Opened w stage := by
  subst he
  cases ho with
  | calling _ _ _ _ hopen => exact opening_opened hl hopen

/- A task that applies the rule does not remove such a rule later. -/
theorem onward_oneKind {work : List Work} (ho : Onward d work task') (hkind : OneKind work)
    {t : ℕ} (ha : Applies r t task') (rule : RouteRule) (t' : ℕ) : ¬ Removes rule t' task' := by
  cases ho with
  | finished => exact id
  | calling w rest hs _ _ =>
    rcases hkind.suffix hs with hk | hk
    · exact hk rule t'
    · obtain ⟨rule', t'', he⟩ := hk w List.mem_cons_self
      subst he
      exact absurd ha.1 id

theorem applied_turned {t : ℕ} (ha : Applied (turned c i task' d) r t) :
    Applied c r t ∨ Applies r t task' := by
  obtain ⟨task1, hm, ha⟩ := ha
  rcases List.mem_or_eq_of_mem_set hm with hm | he
  · exact Or.inl ⟨task1, hm, ha⟩
  · exact Or.inr (he ▸ ha)

/- What the handlers do to the record of a rule is one thing, and what they wait for is
another. -/
theorem Tidy.resumed (h : Tidy env r c) (hmem : r ∈ c.dispatcher.config.routing.defaultRules)
    (hc : Careful env c i) (hi : c.tasks[i]? = some task)
    (hr : resume c.dispatcher task = some (task', d)) (hl : Live d.executor.routeManager)
    {work : List Work} (ho : Onward d work task') (hkind : OneKind work)
    (hholder : ∀ t, Has env c.kernel r t →
      Recorded (turned c i task' d) r t ∨ Applied (turned c i task' d) r t)
    (hrecorded : ∀ task ∈ c.tasks.set i task', ∀ rule t, SameContent rule r →
      Removes rule t task → ∀ a, d.activeRoute rule.name = some a → a.tableId = t) :
    Tidy env r (turned c i task' d) := by
  have hnext : next c i = some task' := by
    simp only [next, hi, Option.bind_some, hr, Option.map_some]
  constructor
  case holder => exact hholder
  case one => exact h.one
  case clear =>
    intro t t' ha ht'
    rcases applied_turned ha with ha | ha
    · exact h.clear t t' ha ht'
    · exact hc.elsewhere task' hnext r hmem t ha t' (h.holder t' ht').symm
  case same =>
    intro t t' ha ha'
    rcases applied_turned ha with ha | ha <;> rcases applied_turned ha' with ha' | ha'
    · exact h.same t t' ha ha'
    · exact (hc.elsewhere task' hnext r hmem t' ha' t (Or.inl ha)).symm
    · exact hc.elsewhere task' hnext r hmem t ha t' (Or.inl ha')
    · cases ho with
      | finished => exact absurd ha id
      | calling w rest _ _ _ => exact ha'.2.2.symm.trans ha.2.2
  case free =>
    intro t ha task1 hm rule t' hsame hrem
    rcases List.mem_or_eq_of_mem_set hm with hm | he
    · rcases applied_turned ha with ha | ha
      · exact h.free t ha task1 hm rule t' hsame hrem
      · exact hc.leaving task' hnext r hmem t ha task1 hm rule t' hsame hrem
    · subst he
      rcases applied_turned ha with ha | ha
      · exact hc.coming _ hnext r hmem rule t' hsame hrem t ha
      · exact onward_oneKind ho hkind ha rule t' hrem
  case recorded => exact hrecorded
  case ruleGone =>
    intro rule t m rest hm hsame x hx
    rcases List.mem_or_eq_of_mem_set hm with hm | he
    · exact h.ruleGone rule t m rest hm hsame x hx
    · cases onward_opened hl ho he.symm
  case gone =>
    intro rule t rest hm hsame
    rcases List.mem_or_eq_of_mem_set hm with hm | he
    · exact h.gone rule t rest hm hsame
    · cases onward_opened hl ho he.symm

/- A task other than the one that goes on. -/
theorem applied_of_ne (hi : c.tasks[i]? = some task) {t : ℕ} (ha : Applied c r t)
    (hne : ¬ Applies r t task) (d : EventDispatcher) (task' : Task) :
    Applied (turned c i task' d) r t := by
  obtain ⟨task1, hm, ha⟩ := ha
  refine ⟨task1, mem_set_of_ne hi hm ?_, ha⟩
  intro he
  subst he
  exact hne ha

theorem Tidy.began (h : Tidy env r c) (hmem : r ∈ c.dispatcher.config.routing.defaultRules)
    (hs : Sound env config c) (hc : Careful env c i) {order : RouteOrder} {event : NetworkEvent}
    (hi : c.tasks[i]? = some (.spawned order event))
    (hr : resume c.dispatcher (.spawned order event) = some (task', d)) {work : List Work}
    (hready : Readied c.dispatcher (work, d)) (ho : Onward d work task') :
    Tidy env r (turned c i task' d) := by
  have hsame : ∀ n, d.activeRoute n = c.dispatcher.activeRoute n := by
    intro n
    rw [EventDispatcher.activeRoute, EventDispatcher.activeRoute, hready.executor]
  have hl : Live d.executor.routeManager := by
    rw [hready.executor]
    exact hs.live
  refine h.resumed hmem hc hi hr hl ho hready.asked.oneKind (fun t ht => ?_) ?_
  · rcases h.holder t ht with ⟨rule, hrule, hcontent, a, ha, hta⟩ | ha
    · have hrule' : rule ∈ d.config.allRules := hready.config.symm ▸ hrule
      exact Or.inl ⟨rule, hrule', hcontent, a, (hsame rule.name).trans ha, hta⟩
    · exact Or.inr (applied_of_ne hi ha id d task')
  · intro task1 hm rule t hcontent hrem a ha
    rw [hsame] at ha
    rcases List.mem_or_eq_of_mem_set hm with hm | he
    · exact h.recorded task1 hm rule t hcontent hrem a ha
    · subst he
      obtain ⟨a', ha', hta⟩ := hready.asked.recorded rule t (removes_onward ho hrem)
      rw [ha] at ha'
      exact Option.some.inj ha' ▸ hta

/- A rule that a call has recorded is recorded in the table that the call was for. -/
theorem activeRoute_applied (e : EventDispatcher) {w : Work} (hw : Applying w) :
    ∃ a, (completed e w true).activeRoute w.rule.name = some a ∧ a.tableId = w.tableId := by
  rw [activeRoute_complete, if_pos ⟨rfl, rfl⟩]
  cases w with
  | applyDefault rule t => exact ⟨_, rfl, rfl⟩
  | applyProfile rule t => exact ⟨_, rfl, rfl⟩
  | remove rule t => exact absurd hw id

theorem activeRoute_other (e : EventDispatcher) (w : Work) {ok : Bool} {n : String}
    (h : ok = true → n ≠ w.rule.name) : (completed e w ok).activeRoute n = e.activeRoute n := by
  rw [activeRoute_complete, if_neg fun hx => h hx.1 hx.2]

/- The record of a rule that the call does not touch. -/
theorem recorded_other {w : Work} {ok : Bool} {t : ℕ} {rule : RouteRule}
    (hrule : rule ∈ c.dispatcher.config.allRules) (hcontent : SameContent rule r)
    (hrec : ∃ a, c.dispatcher.activeRoute rule.name = some a ∧ a.tableId = t)
    (hne : ok = true → rule.name ≠ w.rule.name) (i : ℕ) (task' : Task) :
    Recorded (turned c i task' (completed c.dispatcher w ok)) r t := by
  obtain ⟨a, ha, hta⟩ := hrec
  exact ⟨rule, hrule, hcontent, a, (activeRoute_other _ w hne).trans ha, hta⟩

section Holder

variable {w : Work} {ok : Bool} {rest : List Work} (h : Tidy env r c)
  (hi : c.tasks[i]? = some (.calling w (.ended ok) rest)) (task' : Task)
  {t : ℕ} (ht : Has env c.kernel r t)
include h hi ht

/- A call that has applied such a rule has recorded it where the kernel has it. -/
theorem holder_applied (happ : Applying w) (hw : SameContent w.rule r) (hok : ok = true)
    (hconf : w.rule ∈ c.dispatcher.config.allRules) :
    Recorded (turned c i task' (completed c.dispatcher w ok)) r t := by
  subst hok
  have ha : Applied c r w.tableId := ⟨_, mem_tasks hi, happ, hw, rfl⟩
  have htable := h.clear _ t ha ht
  obtain ⟨a, hrec, hta⟩ := activeRoute_applied c.dispatcher happ
  exact ⟨w.rule, hconf, hw, a, hrec, hta.trans htable.symm⟩

/- A removal takes the record of a rule that is not in the kernel any more. -/
theorem holder_removed {rule : RouteRule} {t' : ℕ} (he : w = .remove rule t')
    (hw : SameContent rule r) : Recorded (turned c i task' (completed c.dispatcher w ok)) r t ∨
      Applied (turned c i task' (completed c.dispatcher w ok)) r t := by
  subst he
  rcases h.holder t ht with ⟨rule', hrule, hcontent, a, ha, hta⟩ | ha
  · refine Or.inl (recorded_other hrule hcontent ⟨a, ha, hta⟩ (fun hok hname => ?_) i task')
    subst hok
    have hthere : a.tableId = t' :=
      h.recorded _ (mem_tasks hi) rule t' hw List.mem_cons_self a (hname ▸ ha)
    rw [hta] at hthere
    subst hthere
    exact h.gone rule t rest (mem_tasks hi) hw ht
  · exact Or.inr (applied_of_ne hi ha (fun hx => hx.1) _ task')

/- A call for a rule of other content leaves the record as it is. -/
theorem holder_other (hn : c.dispatcher.config.DistinctNames) (hw : ¬ SameContent w.rule r)
    (hconf : w.rule ∈ c.dispatcher.config.allRules) :
    Recorded (turned c i task' (completed c.dispatcher w ok)) r t ∨
      Applied (turned c i task' (completed c.dispatcher w ok)) r t := by
  rcases h.holder t ht with ⟨rule, hrule, hcontent, hrec⟩ | ha
  · refine Or.inl (recorded_other hrule hcontent hrec (fun _ hname => ?_) i task')
    exact hw (Config.rule_eq_of_name _ hn hrule hconf hname ▸ hcontent)
  · exact Or.inr (applied_of_ne hi ha (fun hx => hw hx.2.1) _ task')

end Holder

/- What the kernel has is recorded still, when a call comes back. -/
theorem holder_returned (h : Tidy env r c) (hn : config.DistinctNames)
    (hs : Sound env config c) {w : Work} {ok : Bool} {rest : List Work}
    (hi : c.tasks[i]? = some (.calling w (.ended ok) rest)) (task' : Task) {t : ℕ}
    (ht : Has env c.kernel r t) :
    Recorded (turned c i task' (completed c.dispatcher w ok)) r t ∨
      Applied (turned c i task' (completed c.dispatcher w ok)) r t := by
  have hold := hs.calls _ _ _ (mem_tasks hi)
  have hconf : w.rule ∈ c.dispatcher.config.allRules :=
    hs.config_eq ▸ hold.configured w List.mem_cons_self
  have hok : Applying w → ok = true := by
    cases hold.fits with
    | opened ho => cases ho
    | ended hx => exact hx
  by_cases hw : SameContent w.rule r
  · cases w with
    | applyDefault rule t' =>
      exact Or.inl (holder_applied h hi task' ht trivial hw (hok trivial) hconf)
    | applyProfile rule t' =>
      exact Or.inl (holder_applied h hi task' ht trivial hw (hok trivial) hconf)
    | remove rule t' => exact holder_removed h hi task' ht rfl hw
  · exact holder_other h hi task' ht (hs.config_eq.symm ▸ hn) hw hconf

/- What a task removes after a call, it had before it in the call. -/
theorem removes_before {w : Work} {stage : Stage} {rest : List Work}
    (hi : c.tasks[i]? = some (.calling w stage rest)) (ho : Onward d rest task') {task1 : Task}
    (hm : task1 ∈ c.tasks.set i task') {rule : RouteRule} {t : ℕ} (hr : Removes rule t task1) :
    ∃ task ∈ c.tasks, Removes rule t task := by
  rcases List.mem_or_eq_of_mem_set hm with hm | he
  · exact ⟨task1, hm, hr⟩
  · subst he
    exact ⟨_, mem_tasks hi, List.mem_cons_of_mem _ (removes_onward ho hr)⟩

theorem Sound.removes_configured (hs : Sound env config c) (hm : task ∈ c.tasks)
    {rule : RouteRule} {t : ℕ} (hr : Removes rule t task) : rule ∈ config.allRules := by
  cases task with
  | spawned _ _ => exact absurd hr id
  | finished => exact absurd hr id
  | calling w stage rest => exact (hs.calls _ _ _ hm).configured _ hr

theorem Tidy.returned (h : Tidy env r c) (hn : config.DistinctNames)
    (hmem : r ∈ c.dispatcher.config.routing.defaultRules) (hs : Sound env config c)
    (hc : Careful env c i) {w : Work} {ok : Bool} {rest : List Work}
    (hi : c.tasks[i]? = some (.calling w (.ended ok) rest))
    (hr : resume c.dispatcher (.calling w (.ended ok) rest) =
      some (task', completed c.dispatcher w ok))
    (ho : Onward (completed c.dispatcher w ok) rest task') :
    Tidy env r (turned c i task' (completed c.dispatcher w ok)) := by
  have hold := hs.calls _ _ _ (mem_tasks hi)
  have hl : Live (w.complete c.dispatcher.executor ok).routeManager := by
    rw [complete_routeManager]
    exact hs.live
  refine h.resumed hmem hc hi hr hl ho (hold.oneKind.suffix (List.suffix_cons _ _))
    (fun t ht => holder_returned h hn hs hi task' ht) ?_
  intro task1 hm rule t hcontent hrem a ha
  obtain ⟨task0, hm0, hrem0⟩ := removes_before hi ho hm hrem
  refine h.recorded task0 hm0 rule t hcontent hrem0 a ?_
  rw [← ha]
  refine (activeRoute_other _ w fun hok hname => ?_).symm
  subst hok
  by_cases happ : Applying w
  · have he := Config.rule_eq_of_name config hn (hs.removes_configured hm0 hrem0)
      (hold.configured w List.mem_cons_self) hname
    subst he
    exact h.free _ ⟨_, mem_tasks hi, happ, hcontent, rfl⟩ task0 hm0 _ t hcontent hrem0
  · rw [activeRoute_complete, if_pos ⟨rfl, hname⟩] at ha
    cases w with
    | applyDefault _ _ => exact happ trivial
    | applyProfile _ _ => exact happ trivial
    | remove _ _ => cases ha

end Resumed

/-! ### Every interleaving -/

/- The handlers of the events are spawned together. -/
def spawnedAll (d : EventDispatcher) (k : KernelState)
    (events : List (RouteOrder × NetworkEvent)) : Concurrent KernelState :=
  ⟨d, k, events.map fun x => .spawned x.1 x.2⟩

theorem not_calling_spawned {events : List (RouteOrder × NetworkEvent)} {task : Task}
    (h : task ∈ events.map fun x => Task.spawned x.1 x.2) :
    ∃ order event, task = .spawned order event := by
  obtain ⟨x, _, he⟩ := List.mem_map.mp h
  exact ⟨x.1, x.2, he.symm⟩

structure AllTidy (env : Env) (config : Config) (c : Concurrent KernelState) : Prop where
  sound : Sound env config c
  tidy : ∀ r ∈ config.routing.defaultRules, Tidy env r c

theorem AllTidy.oneTable {config : Config} {c : Concurrent KernelState}
    (h : AllTidy env config c) : OneTable env c := by
  intro rule hrule t t' ht ht'
  rw [h.sound.config_eq] at hrule
  exact (h.tidy rule hrule).one t t' ht ht'

theorem AllTidy.step {config : Config} {c : Concurrent KernelState} {i : ℕ} (hq : Quiet env)
    (hn : config.DistinctNames)
    (hlinks : ∀ rule ∈ config.allRules, (env.ifindex rule.routeVia.interface).isSome)
    (h : AllTidy env config c) (hc : Careful env c i) :
    AllTidy env config (step env.plain c i) := by
  have hs := h.sound
  have hstep := stepped env.plain c i
  generalize Tasks.step env.plain c i = c' at hstep ⊢
  cases hstep with
  | idle => exact h
  | served w stage rest hi hw =>
    exact ⟨hs.served hq hlinks hi, fun r hr =>
      (h.tidy r hr).served hq hlinks hs (hs.config_eq.symm ▸ hr) hc hi hw⟩
  | resumed task task' d hi hr =>
    refine ⟨hs.resumed hi hr, fun r hmem => ?_⟩
    have hmem' : r ∈ c.dispatcher.config.routing.defaultRules := hs.config_eq.symm ▸ hmem
    cases wentOn (opening_not_done hs.live) hr with
    | began hw ho => exact (h.tidy r hmem).began hmem' hs hc hi hr hw ho
    | returned ho => exact (h.tidy r hmem).returned hn hmem' hs hc hi hr ho

theorem allTidy_spawned {d : EventDispatcher} {k : KernelState}
    (hl : Live d.executor.routeManager)
    (hclean : ∀ rule ∈ d.config.routing.defaultRules, ∀ t, ¬ Has env k rule t)
    (events : List (RouteOrder × NetworkEvent)) :
    AllTidy env d.config (spawnedAll d k events) := by
  have happlied : ∀ r t, ¬ Applied (spawnedAll d k events) r t := by
    intro r t ⟨task, hm, ha⟩
    obtain ⟨order, event, he⟩ := not_calling_spawned hm
    subst he
    exact ha
  have hremoves : ∀ task ∈ (spawnedAll d k events).tasks, ∀ rule t, ¬ Removes rule t task := by
    intro task hm rule t hr
    obtain ⟨order, event, he⟩ := not_calling_spawned hm
    subst he
    exact hr
  have hcalling : ∀ w stage rest, .calling w stage rest ∉ (spawnedAll d k events).tasks := by
    intro w stage rest hm
    obtain ⟨order, event, he⟩ := not_calling_spawned hm
    cases he
  refine ⟨⟨rfl, hl, fun w stage rest hm => absurd hm (hcalling w stage rest)⟩, fun r hr => ?_⟩
  have hnone := hclean r hr
  exact {
    holder := fun t ht => absurd ht (hnone t)
    one := fun t _ ht _ => absurd ht (hnone t)
    clear := fun t _ ha _ => absurd ha (happlied r t)
    same := fun t _ ha _ => absurd ha (happlied r t)
    free := fun t ha => absurd ha (happlied r t)
    recorded := fun task hm rule t _ hrem => absurd hrem (hremoves task hm rule t)
    ruleGone := fun _ _ _ _ hm => absurd hm (hcalling _ _ _)
    gone := fun _ _ _ hm => absurd hm (hcalling _ _ _) }

/-! ### A manager that sends nothing -/

/- No handler has come to a request, and the kernel is as it was. -/
structure Unsent (config : Config) (k : KernelState) (c : Concurrent KernelState) : Prop where
  config_eq : c.dispatcher.config = config
  silent : ¬ Live c.dispatcher.executor.routeManager
  kernel_eq : c.kernel = k
  calls : ∀ w stage rest, .calling w stage rest ∉ c.tasks

theorem advance_unsent (work : List Work) {d : EventDispatcher}
    (hl : ¬ Live d.executor.routeManager) : (advance work d).1 = .finished ∧
      (advance work d).2.config = d.config ∧
      (advance work d).2.executor.routeManager = d.executor.routeManager := by
  induction work generalizing d with
  | nil => exact ⟨rfl, rfl, rfl⟩
  | cons w rest ih =>
    cases hs : w.skipped d.executor with
    | true =>
      rw [advance, if_pos hs]
      exact ih hl
    | false =>
      obtain ⟨ok, ho⟩ := opening_ended hl w
      have hadvance : advance (w :: rest) d =
          advance rest { d with executor := w.complete d.executor ok } := by
        rw [advance, hs, ho]
        rfl
      have hrm := complete_routeManager w d.executor ok
      have hnext := @ih { d with executor := w.complete d.executor ok } (by rw [hrm]; exact hl)
      rw [hadvance]
      exact ⟨hnext.1, hnext.2.1, hnext.2.2.trans hrm⟩

theorem Unsent.step {config : Config} {k : KernelState} {c : Concurrent KernelState}
    (h : Unsent config k c) (i : ℕ) : Unsent config k (step env.plain c i) := by
  have hstep := stepped env.plain c i
  generalize Tasks.step env.plain c i = c' at hstep ⊢
  cases hstep with
  | idle => exact h
  | served w stage rest hi hw => exact absurd (mem_tasks hi) (h.calls _ _ _)
  | resumed task task' d hi hr =>
    cases task with
    | calling w stage rest => exact absurd (mem_tasks hi) (h.calls _ _ _)
    | finished => cases hr
    | spawned order event =>
      have hready := event_readied order event c.dispatcher
      obtain ⟨htask, hconfig, hrm⟩ := advance_unsent (eventWork order event c.dispatcher).1
        (d := (eventWork order event c.dispatcher).2) (by rw [hready.executor]; exact h.silent)
      simp only [resume, Option.some.injEq] at hr
      rw [← Prod.eta (advance _ _), htask, Prod.mk.injEq] at hr
      obtain ⟨he, hd⟩ := hr
      subst he hd
      refine ⟨hconfig.trans (hready.config.trans h.config_eq), ?_, h.kernel_eq, ?_⟩
      · rw [hrm, hready.executor]
        exact h.silent
      · intro w stage rest hm
        rcases List.mem_or_eq_of_mem_set hm with hm | he
        · exact h.calls w stage rest hm
        · cases he

/-! ### Default rules -/

/- Where no handler sets out to apply a default rule that another one is applying elsewhere,
each default rule is in one table at most, whatever the order in which the handlers go on. -/
theorem one_table_throughout (hq : Quiet env) (d : EventDispatcher) (hn : d.config.DistinctNames)
    (hlinks : ∀ rule ∈ d.config.allRules, (env.ifindex rule.routeVia.interface).isSome)
    (k : KernelState)
    (hclean : ∀ rule ∈ d.config.routing.defaultRules, ∀ t, ¬ Has env k rule t)
    (events : List (RouteOrder × NetworkEvent)) (schedule : List ℕ)
    (hc : Along (step env.plain) (Careful env) (spawnedAll d k events) schedule) :
    Throughout (step env.plain) (OneTable env) (spawnedAll d k events) schedule := by
  by_cases hl : Live d.executor.routeManager
  · have htidy := throughout_of_along (step env.plain) (AllTidy env d.config) (Careful env)
      (fun c i h hc => h.step hq hn hlinks hc) (spawnedAll d k events) schedule
      (allTidy_spawned hl hclean events) hc
    exact fun pre hpre => (htidy pre hpre).oneTable
  · have hstart : Unsent d.config k (spawnedAll d k events) := by
      refine ⟨rfl, hl, rfl, fun w stage rest hm => ?_⟩
      obtain ⟨order, event, he⟩ := not_calling_spawned hm
      cases he
    intro pre _
    have hpre := run_preserves (step env.plain) (Unsent d.config k) (fun c i h => h.step i)
      (spawnedAll d k events) pre hstart
    intro rule hrule t t' ht _
    rw [hpre.config_eq] at hrule
    rw [hpre.kernel_eq] at ht
    exact absurd ht (hclean rule hrule t)

/- A step that begins no call, and sends no request for the removal of a route. -/
theorem careful_idle {c : Concurrent KernelState} {i : ℕ}
    (hn : ∀ w stage rest, next c i ≠ some (.calling w stage rest))
    (hd : ∀ w m rest, c.tasks[i]? ≠ some (.calling w (.delRoute m) rest)) : Careful env c i := by
  have hcall : ∀ task, next c i = some task →
      (∀ r t, ¬ Applies r t task) ∧ ∀ rule t, ¬ Removes rule t task := by
    intro task ht
    cases task with
    | spawned _ _ => exact ⟨fun _ _ => id, fun _ _ => id⟩
    | finished => exact ⟨fun _ _ => id, fun _ _ => id⟩
    | calling w stage rest => exact absurd ht (hn w stage rest)
  exact {
    elsewhere := fun task ht r _ t ha => absurd ha ((hcall task ht).1 r t)
    leaving := fun task ht r _ t ha => absurd ha ((hcall task ht).1 r t)
    coming := fun task ht _ _ rule t _ hr => absurd hr ((hcall task ht).2 rule t)
    deletes := fun rule t m rest hi => absurd hi (hd _ m rest) }

/- Two links that are about to come up, on a host with one default rule. -/
def waiting : EventDispatcher :=
  (EventDispatcher.new LinkState.twoLinks connected).start.withInterfaces
    [{ name := "eth0", interfaceType := .lan }, { name := "wlan0", interfaceType := .wlan }]

def bothUp : List (RouteOrder × NetworkEvent) :=
  [⟨.asListed, .interfaceChanged "eth0" .up⟩, ⟨.asListed, .interfaceChanged "wlan0" .up⟩]

theorem waiting_distinct : waiting.config.DistinctNames := by
  show (waiting.config.allRules.map RouteRule.name).Nodup
  decide

theorem waiting_links : ∀ rule ∈ waiting.config.allRules,
    (noFault.ifindex rule.routeVia.interface).isSome := by decide

theorem not_has_empty (env : Env) (rule : RouteRule) (t : ℕ) : ¬ Has env .empty rule t := by
  rintro ⟨x, _, hm | hm⟩ <;> cases hm

/- With no other handler in a call, and no rule recorded, a handler may begin. -/
theorem first_careful : Careful noFault (spawnedAll waiting .empty bothUp) 0 := by
  have happlied : ∀ r t, ¬ Applied (spawnedAll waiting .empty bothUp) r t := by
    intro r t ⟨task, hm, ha⟩
    obtain ⟨order, event, he⟩ := not_calling_spawned hm
    subst he
    exact ha
  constructor
  case elsewhere =>
    intro _ _ r _ _ _ t' h
    rcases h with ha | ⟨_, _, _, _, hrec, _⟩
    · exact absurd ha (happlied r t')
    · cases hrec
  case leaving =>
    intro _ _ _ _ _ _ task hm _ _ _ hr
    obtain ⟨order, event, he⟩ := not_calling_spawned hm
    subst he
    exact hr
  case coming => exact fun _ _ r _ _ _ _ _ t' => happlied r t'
  case deletes => exact fun _ _ _ _ hi => by cases hi

/- The second handler goes on when the first one is over. -/
theorem one_table_throughout_in_turn :
    Throughout (step noFault.plain) (OneTable noFault) (spawnedAll waiting .empty bothUp)
      [0, 0, 0, 0, 0, 1] := by
  refine one_table_throughout noFault_quiet waiting waiting_distinct waiting_links .empty
    (fun rule _ t => not_has_empty noFault rule t) bothUp [0, 0, 0, 0, 0, 1]
    ⟨first_careful, careful_idle ?_ ?_, careful_idle ?_ ?_, careful_idle ?_ ?_,
      careful_idle ?_ ?_, careful_idle ?_ ?_, trivial⟩ <;>
    exact fun _ _ _ h => by cases h

/- Both handlers pass the check before either has recorded the rule. -/
def together : List ℕ := [0, 1, 0, 0, 0, 1, 1, 1, 0, 1]

/- At the end the policy rule and the route are in the tables of both interfaces. -/
theorem two_handlers_two_tables :
    waiting.state = .running ∧ Quiet noFault ∧ waiting.config.DistinctNames ∧
      (run (step noFault.plain) (spawnedAll waiting .empty bothUp) together).tasks =
        [.finished, .finished] ∧
      (∀ t ∈ [100, 101],
        ⟨lan, t, 100⟩ ∈
            (run (step noFault.plain) (spawnedAll waiting .empty bothUp) together).kernel.rules ∧
          ⟨t, lan, 100, 2⟩ ∈
            (run (step noFault.plain) (spawnedAll waiting .empty bothUp) together).kernel.routes) ∧
      ¬ OneTable noFault
        (run (step noFault.plain) (spawnedAll waiting .empty bothUp) together) := by
  have hboth : ∀ t ∈ [100, 101],
      ⟨lan, t, 100⟩ ∈
          (run (step noFault.plain) (spawnedAll waiting .empty bothUp) together).kernel.rules ∧
        ⟨t, lan, 100, 2⟩ ∈
          (run (step noFault.plain) (spawnedAll waiting .empty bothUp) together).kernel.routes := by
    decide +kernel
  refine ⟨rfl, noFault_quiet, waiting_distinct, rfl, hboth, fun h => ?_⟩
  have hhas : ∀ t ∈ [100, 101], Has noFault
      (run (step noFault.plain) (spawnedAll waiting .empty bothUp) together).kernel
      LinkState.toEth0 t := fun t ht => ⟨(⟨lan, t, 100⟩, ⟨t, lan, 100, 2⟩), rfl, Or.inl (hboth t ht).1⟩
  have he := h LinkState.toEth0 (List.mem_singleton.mpr rfl) 100 101 (hhas 100 (by decide))
    (hhas 101 (by decide))
  exact absurd he (by decide)

end NicAutoswitch.Kernel.ConcurrentDefaults
