import NicAutoswitch.Engine.LinkFlap
import NicAutoswitch.Kernel.Tracking

/-!
# Entries of the kernel that nothing tracks

An entry of the kernel belongs to an active route that it was installed for. The
active routes are keyed by the rule's name alone, so that a rule applied again for
another interface leaves behind what it was installed as before.
-/

namespace NicAutoswitch.Kernel.Orphans
open HashMaps Schema Monitor Router StateProg Engine Transition Tracking

variable {env : Env} {β : Type}

/- The entry is of the table and the rule of some active route, as the call that
recorded it installs them. -/
def Belongs (env : Env) (s : KernelExec) (part : PolicyRule × Route → β) (y : β) : Prop :=
  ∃ n a rule x, s.executor.activeRoutes.lookup n = some a ∧
    recordedBy s.history n = some (rule, a.tableId) ∧ entries env rule a.tableId = some x ∧
      part x = y

def Tracked (env : Env) (s : KernelExec) : Prop :=
  (∀ p ∈ s.kernel.rules, Belongs env s Prod.fst p) ∧
    ∀ q ∈ s.kernel.routes, Belongs env s Prod.snd q

/-! ### Owners -/

def OwnedBy (env : Env) (s : KernelExec) (part : PolicyRule × Route → β) (y : β) (n : String) :
    Prop :=
  n ∈ s.executor.activeRoutes ∧ ∃ x, owned env s.history n = some x ∧ part x = y

theorem belongs_iff {s : KernelExec} (h : Recorded env s) (part : PolicyRule × Route → β) (y : β) :
    Belongs env s part y ↔ ∃ n, OwnedBy env s part y n := by
  apply Iff.intro
  · intro hb
    obtain ⟨n, a, rule, x, ha, hr, he, hy⟩ := hb
    refine ⟨n, (mem_iff_lookup _ n).mpr ⟨a, ha⟩, x, ?_, hy⟩
    unfold owned
    rw [hr]
    exact he
  · intro ho
    obtain ⟨n, hn, x, hx, hy⟩ := ho
    obtain ⟨a, ha⟩ := (mem_iff_lookup _ n).mp hn
    obtain ⟨rule, t, x', hr, rfl, he⟩ := h n a ha
    have hxx : x' = x := by
      unfold owned at hx
      rw [hr] at hx
      exact Option.some_inj.mp (he.symm.trans hx)
    exact ⟨n, entryOf t rule, rule, x, ha, hr, hxx ▸ he, hy⟩

def Held (env : Env) (part : PolicyRule × Route → β) (content : KernelState → List β)
    (s : KernelExec) : Prop :=
  ∀ y ∈ content s.kernel, ∃ n, OwnedBy env s part y n

theorem tracked_iff {s : KernelExec} (h : Recorded env s) : Tracked env s ↔
    Held env Prod.fst KernelState.rules s ∧ Held env Prod.snd KernelState.routes s := by
  unfold Tracked Held
  simp only [belongs_iff h]

/- What the name's entry has in the kernel is `y`, or belongs to another entry too. -/
def Spared (env : Env) (s : KernelExec) (part : PolicyRule × Route → β)
    (content : KernelState → List β) (n : String) (y : β) : Prop :=
  ∀ z ∈ content s.kernel, OwnedBy env s part z n → z = y ∨ ∃ m, m ≠ n ∧ OwnedBy env s part z m

section Change

variable {part : PolicyRule × Route → β} {content : KernelState → List β} {s s' : KernelExec}

/- A change that concerns the entry of one name and one entry of the kernel. -/
structure Changes (env : Env) (part : PolicyRule × Route → β) (content : KernelState → List β)
    (s s' : KernelExec) (n : String) (y : β) : Prop where
  others : ∀ m z, m ≠ n → (OwnedBy env s' part z m ↔ OwnedBy env s part z m)
  content_ne : ∀ z, z ≠ y → (z ∈ content s'.kernel ↔ z ∈ content s.kernel)
  content_self : y ∈ content s'.kernel → OwnedBy env s' part y n
  own : ∀ z, OwnedBy env s' part z n → z = y

theorem held_iff {n : String} {y : β} (hc : Changes env part content s s' n y)
    (h : Held env part content s) :
    Held env part content s' ↔ Spared env s part content n y := by
  refine ⟨?_, ?_⟩
  · intro h' z hz _
    by_cases hzy : z = y
    · exact Or.inl hzy
    · obtain ⟨m, hm⟩ := h' z ((hc.content_ne z hzy).mpr hz)
      by_cases hmn : m = n
      · exact absurd (hc.own z (hmn ▸ hm)) hzy
      · exact Or.inr ⟨m, hmn, (hc.others m z hmn).mp hm⟩
  · intro hs z hz
    by_cases hzy : z = y
    · exact ⟨n, hzy ▸ hc.content_self (hzy ▸ hz)⟩
    · have hold := (hc.content_ne z hzy).mp hz
      obtain ⟨m, hm⟩ := h z hold
      by_cases hmn : m = n
      · -- the entry of the name has been replaced or is gone
        obtain ⟨m', hne, hm'⟩ := (hs z hold (hmn ▸ hm)).resolve_left hzy
        exact ⟨m', (hc.others m' z hne).mpr hm'⟩
      · exact ⟨m, (hc.others m z hmn).mpr hm⟩

/- A call that records nothing keeps the owners. -/
theorem ownedBy_skip {c : CallRecord KernelState} (hc : recording c = none) (k' : KernelState)
    (part : PolicyRule × Route → β) (z : β) (m : String) :
    OwnedBy env ⟨s.executor, k', c :: s.history⟩ part z m ↔ OwnedBy env s part z m := by
  unfold OwnedBy
  rw [owned_skip env hc]

/- Where the owners stay, the kernel may lose entries. -/
theorem held_skip {c : CallRecord KernelState} (hc : recording c = none) {k' : KernelState}
    (hk : ∀ z ∈ content k', z ∈ content s.kernel) (h : Held env part content s) :
    Held env part content ⟨s.executor, k', c :: s.history⟩ := by
  intro z hz
  obtain ⟨m, hm⟩ := h z (hk z hz)
  exact ⟨m, (ownedBy_skip hc k' part z m).mpr hm⟩

end Change

/-! ### Safe calls -/

/- A rule whose link is missing leaves its policy rule alone in the kernel. A rule that is
installed replaces what the entry of its name has stood for. -/
def SafeApply (env : Env) (s : KernelExec) (rule : RouteRule) (t : ℕ) : Prop :=
  RuleOperator.validateRule rule = .ok () → ∀ d, RuleOperator.target? rule = some d →
    (env.ifindex rule.routeVia.interface = none →
      ∃ n, OwnedBy env s Prod.fst ⟨d, t, rule.priority⟩ n) ∧
    ∀ l, env.ifindex rule.routeVia.interface = some l →
      Spared env s Prod.fst KernelState.rules rule.name ⟨d, t, rule.priority⟩ ∧
        Spared env s Prod.snd KernelState.routes rule.name ⟨t, d, rule.priority, l⟩

/- A removal that returns drops the entry of the name, with whatever it has stood for. -/
def SafeRemove (env : Env) (s : KernelExec) (rule : RouteRule) (t : ℕ) : Prop :=
  t ≤ 255 → ∀ d q, RuleOperator.target? rule = some d → s.kernel.pick t d none none = some q →
    Spared env s Prod.fst KernelState.rules rule.name ⟨d, t, rule.priority⟩ ∧
      Spared env s Prod.snd KernelState.routes rule.name q

def SafeCall (env : Env) (s : KernelExec) : ExecutorCall → Prop
  | .applyRule rule t => SafeApply env s rule t
  | .removeRule rule t => SafeRemove env s rule t
  | .cleanup => True

/-! ### One call -/

section Calls

variable {s : KernelExec}

theorem apply_rejected (rule : RouteRule) (t : ℕ) (h : ¬ RuleOperator.Installable rule) :
    after (RuleExecutor.applyRule env.plain rule 0 t) s =
      { s with history := ⟨.applyRule rule t, s.executor, s.kernel, false⟩ :: s.history } := by
  cases hv : RuleOperator.validateRule rule with
  | error e => exact after_error (RuleExecutor.applyRule_invalid env.plain 0 t s hv)
  | ok u =>
    have hd : RuleOperator.target? rule = none := by
      rw [← Option.not_isSome_iff_eq_none]
      exact fun hs => h ⟨hv, hs⟩
    obtain ⟨e, he⟩ := RuleOperator.applyRule_rejected env.plain s.executor.routeManager rule 0 t
      s.kernel hd
    exact after_error (RuleExecutor.applyRule_error hv he)

/- The link of the rule is missing. -/
theorem apply_unlinked (hq : Quiet env) (hl : Live s.executor.routeManager) {rule : RouteRule}
    {d : IpNetwork} (t : ℕ) (hv : RuleOperator.validateRule rule = .ok ())
    (hd : RuleOperator.target? rule = some d) (hi : env.ifindex rule.routeVia.interface = none) :
    ∃ k', after (RuleExecutor.applyRule env.plain rule 0 t) s =
        { s with
          kernel := k'
          history := ⟨.applyRule rule t, s.executor, s.kernel, false⟩ :: s.history } ∧
      (∀ p, p ∈ k'.rules ↔ p = ⟨d, t, rule.priority⟩ ∨ p ∈ s.kernel.rules) ∧
      k'.routes = s.kernel.routes := by
  obtain ⟨k1, h1, _, hroutes1, hrules1⟩ := addPolicyRule_done hl d t rule.priority
    (k := s.kernel) (Or.inl (hq _))
  have hr : ¬ RouteAdded env rule.routeVia.interface k1.clock := by
    intro hr
    have hlink := hr.2.1
    rw [hi] at hlink
    cases hlink
  obtain ⟨e, k2, h2, hrules2, hroutes2⟩ := addRoute_stopped hl d t rule.priority hr
  have hk : RuleOperator.applyRule env.plain s.executor.routeManager rule 0 t s.kernel =
      .error e k2 := by
    rw [RuleOperator.applyRule, RuleOperator.getDestination_ok.mpr hd]
    exact (bind_ok h1).trans h2
  refine ⟨k2, after_error (RuleExecutor.applyRule_error hv hk), fun p => ?_,
    hroutes2.trans hroutes1⟩
  rw [hrules2, hrules1, and_iff_right (hq _)]

theorem safeApply_none {rule : RouteRule} {d : IpNetwork} (t : ℕ)
    (hv : RuleOperator.validateRule rule = .ok ()) (hd : RuleOperator.target? rule = some d)
    (hi : env.ifindex rule.routeVia.interface = none) :
    SafeApply env s rule t ↔ ∃ n, OwnedBy env s Prod.fst ⟨d, t, rule.priority⟩ n := by
  refine ⟨fun h => (h hv d hd).1 hi, fun h _ d' hd' => ⟨fun _ => ?_, fun l hl => ?_⟩⟩
  · rw [hd] at hd'
    cases hd'
    exact h
  · rw [hi] at hl
    cases hl

theorem safeApply_some {rule : RouteRule} {d : IpNetwork} {l : ℕ} (t : ℕ)
    (hv : RuleOperator.validateRule rule = .ok ()) (hd : RuleOperator.target? rule = some d)
    (hi : env.ifindex rule.routeVia.interface = some l) :
    SafeApply env s rule t ↔
      Spared env s Prod.fst KernelState.rules rule.name ⟨d, t, rule.priority⟩ ∧
        Spared env s Prod.snd KernelState.routes rule.name ⟨t, d, rule.priority, l⟩ := by
  refine ⟨fun h => (h hv d hd).2 l hi, fun h _ d' hd' => ⟨fun hn => ?_, fun l' hl => ?_⟩⟩
  · rw [hi] at hn
    cases hn
  · rw [hd] at hd'
    rw [hi] at hl
    cases hd'
    cases hl
    exact h

/- The entry of the rule's name is the rule's own from now on. -/
theorem changes_applied {content : KernelState → List β} {part : PolicyRule × Route → β}
    {rule : RouteRule} {t : ℕ} {x : PolicyRule × Route} {k' : KernelState}
    (hx : entries env rule t = some x)
    (hk : ∀ z, z ≠ part x → (z ∈ content k' ↔ z ∈ content s.kernel)) :
    Changes env part content s
      { executor := s.executor.trackActiveRoute rule.name rule.routeVia.interface t
        kernel := k'
        history := ⟨.applyRule rule t, s.executor, s.kernel, true⟩ :: s.history }
      rule.name (part x) := by
  have hmem : ∀ n, n ∈ (s.executor.trackActiveRoute rule.name rule.routeVia.interface
      t).activeRoutes ↔ n = rule.name ∨ n ∈ s.executor.activeRoutes := fun _ => AList.mem_insert _
  refine ⟨fun m z hm => ?_, hk, fun _ => ⟨(hmem _).mpr (Or.inl rfl), x, ?_, rfl⟩, fun z hz => ?_⟩
  · unfold OwnedBy
    rw [hmem, owned_apply, if_neg (Ne.symm hm), or_iff_right hm]
  · rw [owned_apply, if_pos rfl, hx]
  · obtain ⟨_, x', hx', rfl⟩ := hz
    rw [owned_apply, if_pos rfl, hx] at hx'
    rw [Option.some_inj.mp hx']

theorem held_apply (hq : Quiet env) (hl : Live s.executor.routeManager) (rule : RouteRule) (t : ℕ)
    (hp : Held env Prod.fst KernelState.rules s) (hr : Held env Prod.snd KernelState.routes s) :
    Held env Prod.fst KernelState.rules (after (RuleExecutor.applyRule env.plain rule 0 t) s) ∧
        Held env Prod.snd KernelState.routes
          (after (RuleExecutor.applyRule env.plain rule 0 t) s) ↔
      SafeApply env s rule t := by
  have hskip : recording ⟨.applyRule rule t, s.executor, s.kernel, false⟩ = none := rfl
  by_cases hinst : RuleOperator.Installable rule
  · obtain ⟨d, hd⟩ := Option.isSome_iff_exists.mp hinst.2
    cases hi : env.ifindex rule.routeVia.interface with
    | none =>
      obtain ⟨k', he, hrules, hroutes⟩ := apply_unlinked hq hl t hinst.1 hd hi
      rw [he, safeApply_none t hinst.1 hd hi]
      have hkeep : Held env Prod.snd KernelState.routes ⟨s.executor, k',
          ⟨.applyRule rule t, s.executor, s.kernel, false⟩ :: s.history⟩ :=
        held_skip hskip (fun z hz => hroutes ▸ hz) hr
      rw [and_iff_left hkeep]
      refine ⟨fun h => ?_, fun h z hz => ?_⟩
      · obtain ⟨n, hn⟩ := h _ ((hrules _).mpr (Or.inl rfl))
        exact ⟨n, (ownedBy_skip hskip k' _ _ n).mp hn⟩
      · rcases (hrules z).mp hz with rfl | hold
        · obtain ⟨n, hn⟩ := h
          exact ⟨n, (ownedBy_skip hskip k' _ _ n).mpr hn⟩
        · obtain ⟨n, hn⟩ := hp z hold
          exact ⟨n, (ownedBy_skip hskip k' _ z n).mpr hn⟩
    | some l =>
      obtain ⟨k', he, hrules, hroutes⟩ := apply_done hl t hd hi
        ((applyCompletes_iff hq fun _ => by rw [hi]; rfl).mpr hinst)
      have hx := entries_own t hd hi
      rw [he, safeApply_some t hinst.1 hd hi]
      refine and_congr (held_iff (changes_applied hx fun z hz => ?_) hp)
        (held_iff (changes_applied hx fun z hz => ?_) hr)
      · rw [hrules]
        exact or_iff_right fun hy => hz hy.2
      · rw [hroutes]
        exact or_iff_right fun hy => hz hy.2
  · rw [apply_rejected rule t hinst]
    refine iff_of_true ⟨?_, ?_⟩ (fun hv d hd => absurd ⟨hv, by rw [hd]; rfl⟩ hinst)
    · exact held_skip hskip (fun _ hz => hz) hp
    · exact held_skip hskip (fun _ hz => hz) hr

/- The entry of the rule's name is gone. -/
theorem changes_removed {content : KernelState → List β} (part : PolicyRule × Route → β)
    (rule : RouteRule) (t : ℕ) {k' : KernelState} {y : β}
    (hk : ∀ z, z ∈ content k' ↔ z ∈ content s.kernel ∧ z ≠ y) :
    Changes env part content s
      { executor := s.executor.untrackActiveRoute rule.name
        kernel := k'
        history := ⟨.removeRule rule t, s.executor, s.kernel, true⟩ :: s.history }
      rule.name y := by
  have hskip := recording_remove rule t s true
  have hmem : ∀ n, n ∈ (s.executor.untrackActiveRoute rule.name).activeRoutes ↔
      n ≠ rule.name ∧ n ∈ s.executor.activeRoutes := fun _ => AList.mem_erase
  refine ⟨fun m z hm => ?_, fun z hz => ?_, fun hy => ?_, fun z hz => ?_⟩
  · unfold OwnedBy
    rw [hmem, owned_skip env hskip, and_iff_right hm]
  · rw [hk, and_iff_left hz]
  · exact absurd rfl ((hk y).mp hy).2
  · exact absurd rfl ((hmem _).mp hz.1).1

theorem held_remove (hq : Quiet env) (hl : Live s.executor.routeManager) (rule : RouteRule)
    (t : ℕ) (hp : Held env Prod.fst KernelState.rules s)
    (hr : Held env Prod.snd KernelState.routes s) :
    Held env Prod.fst KernelState.rules (after (RuleExecutor.removeRule env.plain rule t) s) ∧
        Held env Prod.snd KernelState.routes
          (after (RuleExecutor.removeRule env.plain rule t) s) ↔
      SafeRemove env s rule t := by
  have hskip := recording_remove rule t s false
  by_cases hw : (RuleOperator.target? rule).isSome ∧ t ≤ 255
  · obtain ⟨d, hd⟩ := Option.isSome_iff_exists.mp hw.1
    cases hx : s.kernel.pick t d none none with
    | none =>
      have hc : ¬ RemoveAnswered env s.kernel d t := by
        rw [removeAnswered_iff hq, hx]
        exact Bool.false_ne_true
      obtain ⟨k', he, hrules, hroutes⟩ := remove_stopped hl hd hw.2 hc
      rw [he]
      refine iff_of_true ⟨?_, ?_⟩ (fun _ d' q hd' hq' => ?_)
      · exact held_skip hskip (fun z hz => ((hrules z).mp hz).1) hp
      · exact held_skip hskip (fun z hz => hroutes ▸ hz) hr
      · rw [hd] at hd'
        cases hd'
        rw [hx] at hq'
        cases hq'
    | some q =>
      obtain ⟨k', he, hrules, hroutes⟩ := remove_done hl hd hw.2
        ((removeAnswered_iff hq).mpr (by rw [hx]; rfl))
      have hsafe : SafeRemove env s rule t ↔
          Spared env s Prod.fst KernelState.rules rule.name ⟨d, t, rule.priority⟩ ∧
            Spared env s Prod.snd KernelState.routes rule.name q := by
        refine ⟨fun h => h hw.2 d q hd hx, fun h _ d' q' hd' hq' => ?_⟩
        rw [hd] at hd'
        cases hd'
        rw [hx] at hq'
        cases hq'
        exact h
      rw [he, hsafe]
      refine and_congr (held_iff (changes_removed _ rule t fun z => ?_) hp)
        (held_iff (changes_removed _ rule t fun z => ?_) hr)
      · rw [hrules, and_iff_right (hq _)]
      · rw [hroutes, and_iff_right (hq _), hx, Option.some_inj, eq_comm]
  · rw [remove_rejected hl hw]
    refine iff_of_true ⟨?_, ?_⟩ (fun ht d q hd _ => absurd ⟨by rw [hd]; rfl, ht⟩ hw)
    · exact held_skip hskip (fun _ hz => hz) hp
    · exact held_skip hskip (fun _ hz => hz) hr

end Calls

/-! ### Whole runs -/

theorem tracked_calls (hq : Quiet env) {rm : RouteManager} (hl : Live rm) :
    CallsDecide env.plain (Known env rm) (Tracked env) (SafeCall env) where
  apply rule t s h := by
    have hd := (installed_calls env hl).apply rule t s h
    refine ⟨hd.history, hd.keeps, fun ht => ?_⟩
    obtain ⟨hp, hr⟩ := (tracked_iff h.2).mp ht
    rw [tracked_iff hd.keeps.2]
    exact held_apply hq (h.1 ▸ hl) rule t hp hr
  remove rule t s h := by
    have hd := (installed_calls env hl).remove rule t s h
    refine ⟨hd.history, hd.keeps, fun ht => ?_⟩
    obtain ⟨hp, hr⟩ := (tracked_iff h.2).mp ht
    rw [tracked_iff hd.keeps.2]
    exact held_remove hq (h.1 ▸ hl) rule t hp hr
  cleanup s h := by
    have hd := (installed_calls env hl).cleanup s h
    refine ⟨hd.history, hd.keeps, fun ht => iff_of_true ?_ trivial⟩
    obtain ⟨hp, hr⟩ := (tracked_iff h.2).mp ht
    have hshrink := swept_shrinks env (h.1 ▸ hl : Live s.executor.routeManager)
      (Dispatch.staleTables (s.executor.routeManager.tableIdV4 0)) s.kernel
    rw [tracked_iff hd.keeps.2, sweep_after]
    exact ⟨held_skip rfl hshrink.1 hp, held_skip rfl hshrink.2 hr⟩

/- Nothing in the kernel is left without an active route at any call of a run, and at
its end, exactly where every call is safe in the state that it meets; then nothing is
after any operation. -/
theorem tracked_iff_calls_safe (env : Env) (hq : Quiet env) {rm : RouteManager} (hl : Live rm)
    (config : Config) (ops : List Dispatch.Op) (hops : ∀ op ∈ ops, op.Continues) :
    (Tracked env
          (run (Dispatch.perform env.plain) (Dispatch.launch config rm .empty) ops).execState ∧
          AtCalls (Tracked env)
            (run (Dispatch.perform env.plain) (Dispatch.launch config rm .empty) ops).history ↔
        CallsMeet (SafeCall env)
          (run (Dispatch.perform env.plain) (Dispatch.launch config rm .empty) ops).history) ∧
      (CallsMeet (SafeCall env)
          (run (Dispatch.perform env.plain) (Dispatch.launch config rm .empty) ops).history →
        Throughout (Dispatch.perform env.plain) (fun s => Tracked env s.execState)
          (Dispatch.launch config rm .empty) ops) := by
  have htracked : Tracked env (Dispatch.launch config rm .empty).execState := by
    refine ⟨fun p hp => ?_, fun q hq => ?_⟩
    · cases hp
    · cases hq
  exact holds_iff_callsMeet (tracked_calls hq hl)
    ⟨known_launch env config rm .empty, iff_of_true ⟨htracked, trivial⟩ trivial⟩ hops

/- The one rule is applied to an empty kernel. -/
theorem start_safe : CallsMeet (SafeCall noFault) lanStarted.history := by
  obtain ⟨⟨_, executor, kernel, _⟩, ⟨_, executor', kernel', _⟩, hh, rfl, hrules, hroutes, rfl, _⟩ :=
    start_history
  rw [hh]
  refine ⟨fun _ d hd => ⟨fun hi => ?_, fun l hi => ⟨fun z hz _ => ?_, fun z hz _ => ?_⟩⟩,
    trivial, trivial⟩
  · cases hi
  · rw [hrules] at hz
    cases hz
  · rw [hroutes] at hz
    cases hz

theorem tracked_iff_calls_safe_start :
    Throughout (Dispatch.perform noFault.plain) (fun s => Tracked noFault s.execState)
      (Dispatch.launch lanOnly connected .empty) [.applyInitialState eth0Up] :=
  (tracked_iff_calls_safe noFault noFault_quiet connected_live lanOnly
    [.applyInitialState eth0Up] start_continues).2 start_safe

/- Two wireless interfaces join the same network, one after the other. -/
def joinedTwice : List Dispatch.Op :=
  [.handleEvent .asListed (.wifiConnected "wlan0" "corp"),
    .handleEvent .asListed (.wifiConnected "wlan1" "corp")]

/- The profile's rule is tracked for the second interface only, and its policy rule for
the first one stays in the kernel. -/
theorem first_join_orphaned :
    LinkFlap.corpWifi.validate = .ok () ∧
      ¬ Throughout (Dispatch.perform noFault.plain) (fun s => Tracked noFault s.execState)
        (Dispatch.launch LinkFlap.corpWifi connected .empty) joinedTwice := by
  refine ⟨by decide +kernel, fun h => ?_⟩
  have hrule : ⟨.v4 ⟨0x0a010000, 16, len16_v4⟩, 100, 50⟩ ∈ (run (Dispatch.perform noFault.plain)
    (Dispatch.launch LinkFlap.corpWifi connected .empty) joinedTwice).execState.kernel.rules := by
    decide
  obtain ⟨n, a, rule, x, ha, _, he, hx⟩ := (h joinedTwice List.prefix_rfl).1 _ hrule
  have hentries : (run (Dispatch.perform noFault.plain)
      (Dispatch.launch LinkFlap.corpWifi connected .empty) joinedTwice
      ).execState.executor.activeRoutes.entries = [⟨"corp", ⟨"corp", "wlan0", 102⟩⟩] := by decide
  have hm := (mem_entries_iff _ n a).mpr ha
  rw [hentries, List.mem_singleton] at hm
  cases hm
  -- the only entry is for table 102
  obtain ⟨d, l, _, _, rfl⟩ := entries_spec he
  cases hx

end NicAutoswitch.Kernel.Orphans
