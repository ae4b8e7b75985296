import NicAutoswitch.Kernel.LiveRemoval
import NicAutoswitch.Kernel.Repeated
import NicAutoswitch.Monitor.Addresses

/-!
# Handling an event twice

A reaction is over once making it again would change nothing: each of its applies has been
absorbed or is of an active rule, and each of its removals is stuck. A reaction brings this
about, and the network state takes an event in only once. The exception is the loss of an
interface: its removals fail each time, and each time delete a policy rule as long as they
name one, whosever it is.
-/

namespace NicAutoswitch.Kernel.EventTwice
open HashMaps Schema Monitor Router StateProg Engine Transition Linux Repeated

variable {env : Env} {t : ℕ} {s s' : System KernelState} {rule : RouteRule} {i : String}

/- The second system differs in its history and in the order of its entries at most. -/
structure Still (s s' : System KernelState) : Prop where
  view : EventDispatcher.SameView s.dispatcher s'.dispatcher
  interfaceIndices : s'.dispatcher.interfaceIndices = s.dispatcher.interfaceIndices
  activeRoutes : ∀ n, s'.dispatcher.activeRoute n = s.dispatcher.activeRoute n
  kernel : SameEntries s.kernel s'.kernel

theorem Still.refl (s : System KernelState) : Still s s :=
  ⟨.refl _, rfl, fun _ => rfl, .refl _⟩

theorem Still.trans {s'' : System KernelState} (h : Still s s') (h' : Still s' s'') :
    Still s s'' where
  view := h.view.trans h'.view
  interfaceIndices := h'.interfaceIndices.trans h.interfaceIndices
  activeRoutes n := (h'.activeRoutes n).trans (h.activeRoutes n)
  kernel := h.kernel.trans h'.kernel

/- The second system differs in its active routes, its kernel and its history at most. -/
structure Fixed (s s' : System KernelState) : Prop where
  view : EventDispatcher.SameView s.dispatcher s'.dispatcher
  interfaceIndices : s'.dispatcher.interfaceIndices = s.dispatcher.interfaceIndices
  routeManager : s'.dispatcher.executor.routeManager = s.dispatcher.executor.routeManager

theorem Fixed.refl (s : System KernelState) : Fixed s s := ⟨.refl _, rfl, rfl⟩

theorem Fixed.trans {s'' : System KernelState} (h : Fixed s s') (h' : Fixed s' s'') :
    Fixed s s'' where
  view := h.view.trans h'.view
  interfaceIndices := h'.interfaceIndices.trans h.interfaceIndices
  routeManager := h'.routeManager.trans h.routeManager

theorem fixed_run {ι : Type} {step : System KernelState → ι → System KernelState}
    (hstep : ∀ s x, Fixed s (step s x)) (s : System KernelState) (xs : List ι) :
    Fixed s (run step s xs) :=
  run_preserves step (Fixed s) (fun s' x h => h.trans (hstep s' x)) s xs (.refl s)

/-! ### One rule of a loop that applies rules -/

theorem applied_adds (hq : Quiet env) (t : ℕ) (s : System KernelState) (rule : RouteRule) :
    Adds env s.dispatcher.executor.routeManager rule t s.kernel
      (applied env.linux t s rule).kernel := by
  obtain ⟨k', ok, he, hadds⟩ := apply_outcome hq rule t s.execState
  unfold applied
  rw [he]
  exact hadds

theorem applied_fixed (env : Env) (t : ℕ) (s : System KernelState) (rule : RouteRule) :
    Fixed s (applied env.linux t s rule) :=
  ⟨⟨rfl, rfl, rfl, rfl⟩, rfl, applied_manager env.linux t s rule⟩

theorem unlessActive_fixed (env : Env) (t : ℕ) (s : System KernelState) (rule : RouteRule) :
    Fixed s (appliedUnlessActive env.linux t s rule) := by
  unfold appliedUnlessActive
  split_ifs
  · exact .refl s
  · exact applied_fixed env t s rule

theorem applied_activeRoute (hq : Quiet env) (t : ℕ) (s : System KernelState) (rule : RouteRule)
    (n : String) : (applied env.linux t s rule).dispatcher.activeRoute n =
      if rule.name = n ∧ Succeeds env s.dispatcher.executor.routeManager rule then
        some (entryOf t rule)
      else s.dispatcher.activeRoute n := by
  obtain ⟨k', ok, he, _⟩ := apply_outcome hq rule t s.execState
  unfold applied
  rw [he]
  by_cases hs : Succeeds env s.execState.executor.routeManager rule
  · have hs' : Succeeds env s.dispatcher.executor.routeManager rule := hs
    have hins := lookup_insert_eq_ite s.dispatcher.executor.activeRoutes rule.name n
      (entryOf t rule)
    simp only [if_pos hs, hs', and_true, eq_comm (a := rule.name)]
    exact hins
  · have hs' : ¬ Succeeds env s.dispatcher.executor.routeManager rule := hs
    simp only [if_neg hs, hs', and_false, if_false]
    rfl

/- An active rule is passed over; the apply of the others fails, and has been absorbed. -/
def Passed (env : Env) (t : ℕ) (s : System KernelState) (rule : RouteRule) : Prop :=
  s.dispatcher.executor.isRouteActive rule.name = true ∨
    ¬ Succeeds env s.dispatcher.executor.routeManager rule ∧
      Absorbed env s.dispatcher.executor.routeManager rule t s.kernel

theorem unlessActive_settles (hq : Quiet env) (t : ℕ) (s : System KernelState)
    (rule : RouteRule) : Passed env t (appliedUnlessActive env.linux t s rule) rule := by
  unfold Passed
  rw [(unlessActive_fixed env t _ _).routeManager]
  unfold appliedUnlessActive
  split_ifs with ha
  · exact Or.inl ha
  · by_cases hs : Succeeds env s.dispatcher.executor.routeManager rule
    · refine Or.inl ((RuleExecutor.isRouteActive_iff _ _).mpr ⟨entryOf t rule, ?_⟩)
      have hlookup := applied_activeRoute hq t s rule rule.name
      rw [if_pos ⟨rfl, hs⟩] at hlookup
      exact hlookup
    · exact Or.inr ⟨hs, (applied_adds hq t s rule).absorbed⟩

theorem unlessActive_keeps (hq : Quiet env) (t : ℕ) (s : System KernelState)
    (rule other : RouteRule) (h : Passed env t s rule) :
    Passed env t (appliedUnlessActive env.linux t s other) rule := by
  unfold Passed
  rw [(unlessActive_fixed env t _ _).routeManager]
  unfold appliedUnlessActive
  split_ifs
  · exact h
  · rcases h with ha | ⟨hs, hk⟩
    · obtain ⟨a, hl⟩ := (RuleExecutor.isRouteActive_iff _ _).mp ha
      have hlookup := applied_activeRoute hq t s other rule.name
      refine Or.inl ((RuleExecutor.isRouteActive_iff _ _).mpr ?_)
      split_ifs at hlookup
      · exact ⟨_, hlookup⟩
      · exact ⟨a, hlookup.trans hl⟩
    · exact Or.inr ⟨hs, absorbed_mono (applied_adds hq t s other).within hk⟩

theorem unlessActive_still (hq : Quiet env) (t : ℕ) (s : System KernelState) (rule : RouteRule)
    (h : Passed env t s rule) : Still s (appliedUnlessActive env.linux t s rule) := by
  unfold appliedUnlessActive
  split_ifs with ha
  · exact .refl s
  · obtain ⟨hs, hk⟩ := h.resolve_left ha
    refine ⟨⟨rfl, rfl, rfl, rfl⟩, rfl, fun n => ?_, (applied_adds hq t s rule).same hk⟩
    rw [applied_activeRoute hq, if_neg fun hx => hs hx.2]

/-! ### The tables -/

def HasIndex (s : System KernelState) (i : String) : Prop :=
  ∃ index, s.dispatcher.interfaceIndices.lookup i = some index

theorem hasIndex_indexed (s : System KernelState) (i : String) : HasIndex (indexed i s) i := by
  unfold HasIndex indexed EventDispatcher.getTableIdForInterface EventDispatcher.indexForInterface
  cases h : s.dispatcher.interfaceIndices.lookup i with
  | none => exact ⟨_, AList.lookup_insert _⟩
  | some index => exact ⟨index, h⟩

theorem indexed_self (h : HasIndex s i) : indexed i s = s := by
  obtain ⟨index, hi⟩ := h
  unfold indexed EventDispatcher.getTableIdForInterface EventDispatcher.indexForInterface
  rw [hi]

theorem tableOf_indexed (s : System KernelState) (i : String) :
    tableOf (indexed i s) i = tableOf s i := by
  unfold tableOf indexed EventDispatcher.getTableIdForInterface EventDispatcher.indexForInterface
  cases h : s.dispatcher.interfaceIndices.lookup i with
  | none => simp only [AList.lookup_insert]
  | some index => simp only [h]

/- The interface keeps the index, and so the table, that it was given. -/
theorem Fixed.tableOf (h : Fixed (indexed i s) s') :
    Engine.tableOf s' i = Engine.tableOf s i := by
  rw [← tableOf_indexed s i]
  unfold Engine.tableOf EventDispatcher.getTableIdForInterface
  rw [h.interfaceIndices, h.routeManager]

theorem Fixed.hasIndex (h : Fixed (indexed i s) s') : HasIndex s' i := by
  unfold HasIndex
  rw [h.interfaceIndices]
  exact hasIndex_indexed s i

/-! ### The default rules -/

/- Applying the default rules for the interface would change nothing. -/
def DefaultsPassed (env : Env) (s : System KernelState) (i : String) : Prop :=
  ∀ rule ∈ s.dispatcher.config.routing.defaultRules,
    HasIndex s i ∧ Passed env (tableOf s i) s rule

theorem appliedDefaults_eq (env : Env) (s : System KernelState) (i : String) :
    appliedDefaults env.linux s i = s ∧ s.dispatcher.config.routing.defaultRules = [] ∨
      appliedDefaults env.linux s i = run (appliedUnlessActive env.linux (tableOf s i))
        (indexed i s) s.dispatcher.config.routing.defaultRules := by
  unfold appliedDefaults
  split_ifs with he
  · exact Or.inl ⟨rfl, List.isEmpty_iff.mp he⟩
  · exact Or.inr rfl

theorem appliedDefaults_settles (hq : Quiet env) (s : System KernelState) (i : String) :
    DefaultsPassed env (appliedDefaults env.linux s i) i := by
  rcases appliedDefaults_eq env s i with ⟨he, hnil⟩ | he
  · intro rule hm
    rw [he, hnil] at hm
    cases hm
  · have hfixed := fixed_run (unlessActive_fixed env (tableOf s i)) (indexed i s)
      s.dispatcher.config.routing.defaultRules
    have hpassed := run_settles (appliedUnlessActive env.linux (tableOf s i))
      (Passed env (tableOf s i)) (unlessActive_settles hq _) (unlessActive_keeps hq _)
      (indexed i s) s.dispatcher.config.routing.defaultRules
    intro rule hm
    rw [(appliedDefaults_view env.linux s i).config] at hm
    rw [he, hfixed.tableOf]
    exact ⟨hfixed.hasIndex, hpassed rule hm⟩

theorem appliedDefaults_still (hq : Quiet env) (h : DefaultsPassed env s i) :
    Still s (appliedDefaults env.linux s i) := by
  rcases appliedDefaults_eq env s i with ⟨he, _⟩ | he
  · rw [he]
    exact .refl s
  · cases hrules : s.dispatcher.config.routing.defaultRules with
    | nil =>
      have hempty : s.dispatcher.config.routing.defaultRules.isEmpty = true := by rw [hrules]; rfl
      rw [appliedDefaults, if_pos hempty]
      exact .refl s
    | cons rule rest =>
      have hindex := (h rule (by rw [hrules]; exact List.mem_cons_self)).1
      rw [he, indexed_self hindex]
      exact run_still (appliedUnlessActive env.linux (tableOf s i)) Still .refl
        (fun _ _ _ => .trans) (Passed env (tableOf s i)) (unlessActive_keeps hq _)
        (unlessActive_still hq _) s _ fun r hr => (h r hr).2

/-! ### The rules of a profile -/

/- The last rule of the name whose apply succeeds. -/
def lastSucceeding (env : Env) (rm : RouteManager) (rules : List RouteRule) (n : String) :
    Option RouteRule :=
  rules.reverse.find? fun rule => rule.name = n ∧ Succeeds env rm rule

theorem appliedRun_activeRoute (hq : Quiet env) (t : ℕ) (rules : List RouteRule)
    (s : System KernelState) (n : String) :
    (run (applied env.linux t) s rules).dispatcher.activeRoute n =
      ((lastSucceeding env s.dispatcher.executor.routeManager rules n).map (entryOf t)).or
        (s.dispatcher.activeRoute n) := by
  refine run_last (applied env.linux t) (fun s' => s'.dispatcher.activeRoute n)
    (fun rule => decide (rule.name = n ∧ Succeeds env s.dispatcher.executor.routeManager rule))
    (entryOf t) (Fixed s) (fun s' rule h => h.trans (applied_fixed env t s' rule))
    (fun s' rule h => ?_) s rules (.refl s)
  simp only [decide_eq_true_eq]
  rw [applied_activeRoute hq, h.routeManager]

/- Applying the rules for the interface would change nothing: neither the indices, nor the
kernel, nor the active routes. -/
def RulesAbsorbed (env : Env) (s : System KernelState) (i : String) (rules : List RouteRule) :
    Prop :=
  HasIndex s i ∧
    (∀ rule ∈ rules,
      Absorbed env s.dispatcher.executor.routeManager rule (tableOf s i) s.kernel) ∧
    ∀ n, ((lastSucceeding env s.dispatcher.executor.routeManager rules n).map
      (entryOf (tableOf s i))).or (s.dispatcher.activeRoute n) = s.dispatcher.activeRoute n

theorem rules_settle (hq : Quiet env) (s : System KernelState) (i : String)
    (rules : List RouteRule) :
    RulesAbsorbed env (run (applied env.linux (tableOf s i)) (indexed i s) rules) i rules := by
  have hfixed := fixed_run (applied_fixed env (tableOf s i)) (indexed i s) rules
  have habsorbed := run_settles (applied env.linux (tableOf s i))
    (fun s' rule => Absorbed env s'.dispatcher.executor.routeManager rule (tableOf s i) s'.kernel)
    (fun s' rule => by
      rw [applied_manager]
      exact (applied_adds hq _ s' rule).absorbed)
    (fun s' rule other h => by
      rw [applied_manager]
      exact absorbed_mono (applied_adds hq _ s' other).within h) (indexed i s) rules
  refine ⟨hfixed.hasIndex, ?_, fun n => ?_⟩
  · rw [hfixed.tableOf]
    exact habsorbed
  · rw [hfixed.tableOf, hfixed.routeManager, appliedRun_activeRoute hq]
    cases lastSucceeding env (indexed i s).dispatcher.executor.routeManager rules n <;> rfl

theorem rules_still (hq : Quiet env) {rules : List RouteRule} (h : RulesAbsorbed env s i rules) :
    Still s (run (applied env.linux (tableOf s i)) (indexed i s) rules) := by
  obtain ⟨hindex, habsorbed, hrecorded⟩ := h
  have hfixed := fixed_run (applied_fixed env (tableOf s i)) s rules
  rw [indexed_self hindex]
  have hkernel := run_still (applied env.linux (tableOf s i))
    (fun s s' => SameEntries s.kernel s'.kernel) (fun s => .refl s.kernel)
    (fun _ _ _ => .trans)
    (fun s' rule => Absorbed env s'.dispatcher.executor.routeManager rule (tableOf s i) s'.kernel)
    (fun s' rule other h => by
      rw [applied_manager]
      exact absorbed_mono (applied_adds hq _ s' other).within h)
    (fun s' rule h => (applied_adds hq _ s' rule).same h) s rules habsorbed
  refine ⟨hfixed.view, hfixed.interfaceIndices, fun n => ?_, hkernel⟩
  rw [appliedRun_activeRoute hq]
  exact hrecorded n

/- Applying the rules of the network, or the default rules, would change nothing. -/
def RulesPassed (env : Env) (s : System KernelState) (i : String) (ssid : Option String) : Prop :=
  match ssid.bind s.dispatcher.config.wifiProfiles.lookup with
  | some profile => RulesAbsorbed env s i profile.rules
  | none => DefaultsPassed env s i

theorem appliedRules_settles (hq : Quiet env) (s : System KernelState) (i : String)
    (ssid : Option String) : RulesPassed env (appliedRules env.linux s i ssid) i ssid := by
  unfold RulesPassed
  rw [(appliedRules_view env.linux s i ssid).config]
  unfold appliedRules
  cases ssid.bind s.dispatcher.config.wifiProfiles.lookup with
  | some profile => exact rules_settle hq s i profile.rules
  | none => exact appliedDefaults_settles hq s i

theorem appliedRules_still (hq : Quiet env) {ssid : Option String} (h : RulesPassed env s i ssid) :
    Still s (appliedRules env.linux s i ssid) := by
  unfold RulesPassed at h
  unfold appliedRules
  cases hp : ssid.bind s.dispatcher.config.wifiProfiles.lookup with
  | some profile =>
    rw [hp] at h
    exact rules_still hq h
  | none =>
    rw [hp] at h
    exact appliedDefaults_still hq h

/-! ### The loop over the routes of a link -/

open Removal (destination?)

variable {rules : HashMap String RouteRule}

/- The policy rule that is deleted for an entry, and what is left of the policy rules. -/
def pickForEntry (rules : HashMap String RouteRule) (l : List PolicyRule) (e : String × ℕ) :
    Option PolicyRule :=
  (rules.lookup e.1).bind fun rule => pickFor rule e.2 l

def leftByEntry (rules : HashMap String RouteRule) (l : List PolicyRule) (e : String × ℕ) :
    List PolicyRule :=
  (pickForEntry rules l e).elim l l.erase

theorem pickFor_none_mono {l l' : List PolicyRule} (h : l' ⊆ l) (hp : pickFor rule t l = none) :
    pickFor rule t l' = none := by
  unfold pickFor at hp ⊢
  split_ifs at hp ⊢
  · cases hd : RuleOperator.target? rule with
    | none => rfl
    | some d =>
      rw [hd, Option.bind_some, pickOwn, pickRule_none] at hp
      rw [Option.bind_some, pickOwn, pickRule_none]
      exact fun p hm => hp p (h hm)
  · rfl

theorem pickForEntry_none_mono {l l' : List PolicyRule} (h : l' ⊆ l) {e : String × ℕ}
    (hp : pickForEntry rules l e = none) : pickForEntry rules l' e = none := by
  unfold pickForEntry at hp ⊢
  cases hr : rules.lookup e.1 with
  | none => rfl
  | some rule =>
    rw [hr] at hp
    exact pickFor_none_mono h hp

theorem pickForEntry_mem {l : List PolicyRule} {e : String × ℕ} {p : PolicyRule}
    (h : pickForEntry rules l e = some p) : p ∈ l := by
  obtain ⟨rule, _, h⟩ := Option.bind_eq_some_iff.mp h
  unfold pickFor at h
  split_ifs at h
  obtain ⟨d, _, h⟩ := Option.bind_eq_some_iff.mp h
  exact (pickRule_some h).1

theorem leftByEntry_subset (l : List PolicyRule) (e : String × ℕ) : leftByEntry rules l e ⊆ l := by
  unfold leftByEntry
  cases pickForEntry rules l e with
  | none => exact List.Subset.refl l
  | some p => exact List.erase_subset

theorem leftByRun_subset (l : List PolicyRule) (todo : List (String × ℕ)) :
    run (leftByEntry rules) l todo ⊆ l :=
  run_preserves (leftByEntry rules) (· ⊆ l) (fun l' e h _ hp => h (leftByEntry_subset l' e hp)) l
    todo (List.Subset.refl l)

theorem leftByEntry_unpicked {l : List PolicyRule} {e : String × ℕ}
    (h : pickForEntry rules l e = none) : leftByEntry rules l e = l := by
  unfold leftByEntry
  rw [h]
  rfl

theorem leftByEntry_picked {l : List PolicyRule} {e : String × ℕ} {p : PolicyRule}
    (h : pickForEntry rules l e = some p) : leftByEntry rules l e = l.erase p := by
  unfold leftByEntry
  rw [h]
  rfl

theorem leftByEntry_nodup {l : List PolicyRule} (hn : l.Nodup) (e : String × ℕ) :
    (leftByEntry rules l e).Nodup := by
  cases hp : pickForEntry rules l e with
  | none =>
    rw [leftByEntry_unpicked hp]
    exact hn
  | some p =>
    rw [leftByEntry_picked hp]
    exact hn.erase p

theorem unpicked_run {todo : List (String × ℕ)} {l : List PolicyRule}
    (h : ∀ e ∈ todo, pickForEntry rules l e = none) : run (leftByEntry rules) l todo = l := by
  refine run_invariant (leftByEntry rules) (· = l) (fun e => pickForEntry rules l e = none)
    (fun l' e he hl => ?_) l todo h rfl
  subst hl
  exact leftByEntry_unpicked he

/- A run that leaves the policy rules as they are has deleted none. -/
theorem none_picked {todo : List (String × ℕ)} {l : List PolicyRule} (hn : l.Nodup)
    (h : ∀ p, p ∈ run (leftByEntry rules) l todo ↔ p ∈ l) :
    ∀ e ∈ todo, pickForEntry rules l e = none := by
  induction todo with
  | nil => exact fun e he => absurd he List.not_mem_nil
  | cons e rest ih =>
    rw [run_cons] at h
    cases hp : pickForEntry rules l e with
    | none =>
      rw [leftByEntry_unpicked hp] at h
      exact List.forall_mem_cons.mpr ⟨hp, ih h⟩
    | some p =>
      -- the policy rule that is deleted first does not come back
      have hmem := leftByRun_subset _ rest ((h p).mpr (pickForEntry_mem hp))
      rw [leftByEntry_picked hp, hn.mem_erase_iff] at hmem
      exact absurd rfl hmem.1

/- A request whose prefix has bits names one policy rule at most. -/
theorem pickFor_exact {l : List PolicyRule} {p : PolicyRule} (ht : t ≠ 0)
    (hd : ∀ d, RuleOperator.target? rule = some d → d.prefixLen ≠ 0)
    (h : pickFor rule t l = some p) :
    ∃ d, RuleOperator.target? rule = some d ∧ p = ⟨d, t, rule.priority⟩ := by
  unfold pickFor at h
  split_ifs at h
  obtain ⟨d, hd', h⟩ := Option.bind_eq_some_iff.mp h
  obtain ⟨_, htable, hpriority, hnet⟩ := (namesRule_own d t rule.priority p).mp (pickRule_some h).2
  obtain ⟨destination, table, priority⟩ := p
  cases htable.resolve_left ht
  cases hpriority
  cases hnet.resolve_left (hd d hd')
  exact ⟨_, hd', rfl⟩

theorem exact_run {todo : List (String × ℕ)} {l : List PolicyRule} (hn : l.Nodup)
    (h : ∀ e ∈ todo, e.2 ≠ 0 ∧ ∀ d, destination? rules e.1 = some d → d.prefixLen ≠ 0) :
    ∀ e ∈ todo, pickForEntry rules (run (leftByEntry rules) l todo) e = none := by
  induction todo generalizing l with
  | nil => exact fun e he => absurd he List.not_mem_nil
  | cons x rest ih =>
    obtain ⟨⟨htable, hlen⟩, hrest⟩ := List.forall_mem_cons.mp h
    rw [run_cons]
    refine List.forall_mem_cons.mpr ⟨?_, ih (leftByEntry_nodup hn x) hrest⟩
    refine pickForEntry_none_mono (leftByRun_subset _ rest) ?_
    -- the one rule that the request names has just been taken
    cases hp : pickForEntry rules l x with
    | none =>
      rw [leftByEntry_unpicked hp]
      exact hp
    | some p =>
      rw [leftByEntry_picked hp]
      cases hq : pickForEntry rules (l.erase p) x with
      | none => rfl
      | some q =>
        obtain ⟨rule, hr, hp'⟩ := Option.bind_eq_some_iff.mp hp
        have hq' := hq
        unfold pickForEntry at hq'
        rw [hr, Option.bind_some] at hq'
        have hdest : ∀ d, RuleOperator.target? rule = some d → d.prefixLen ≠ 0 := fun d hd =>
          hlen d (by rw [destination?, hr, Option.bind_some, hd])
        obtain ⟨d, hd, rfl⟩ := pickFor_exact htable hdest hp'
        obtain ⟨d', hd', rfl⟩ := pickFor_exact htable hdest hq'
        cases hd.symm.trans hd'
        exact absurd rfl (hn.mem_erase_iff.mp (pickForEntry_mem hq)).1

/- Removing the entry would change nothing. -/
structure StuckEntry (rules : HashMap String RouteRule) (s : System KernelState)
    (e : String × ℕ) : Prop where
  tracked : ¬ (s.dispatcher.executor.routeManager.dryRun = true ∧
    (destination? rules e.1).isSome)
  unpicked : Live s.dispatcher.executor.routeManager →
    pickForEntry rules s.kernel.rules e = none

/- One round: a dry run untracks the entry, a connection deletes a policy rule. -/
theorem removeOne_outcome (hq : Quiet env) (hrules : ∀ n r, rules.lookup n = some r → r.name = n)
    (s : System KernelState) (e : String × ℕ) :
    Fixed s (removeOne env.linux rules s e) ∧
      (∀ n, (removeOne env.linux rules s e).dispatcher.activeRoute n =
        if n = e.1 ∧ s.dispatcher.executor.routeManager.dryRun = true ∧
            (destination? rules e.1).isSome then none
        else s.dispatcher.activeRoute n) ∧
      (removeOne env.linux rules s e).kernel.rules =
        (if Live s.dispatcher.executor.routeManager then leftByEntry rules s.kernel.rules e
          else s.kernel.rules) ∧
      (removeOne env.linux rules s e).kernel.routes = s.kernel.routes := by
  unfold removeOne destination? leftByEntry pickForEntry
  cases hr : rules.lookup e.1 with
  | none =>
    refine ⟨.refl s, fun n => ?_, ?_, rfl⟩
    · simp
    · simp
  | some rule =>
    have hname := hrules e.1 rule hr
    obtain ⟨k', ok, he, hleft, hroutes⟩ := remove_outcome hq rule e.2 s.execState
    dsimp only
    rw [he]
    refine ⟨⟨⟨rfl, rfl, rfl, rfl⟩, rfl, ?_⟩, fun n => ?_, hleft, hroutes⟩
    · show (if _ then _ else s.dispatcher.executor).routeManager = _
      split_ifs <;> rfl
    · show (if s.dispatcher.executor.routeManager.dryRun = true ∧
        (RuleOperator.target? rule).isSome then
          s.dispatcher.executor.untrackActiveRoute rule.name
        else s.dispatcher.executor).activeRoutes.lookup n = _
      rw [Option.bind_some]
      by_cases hu : s.dispatcher.executor.routeManager.dryRun = true ∧
          (RuleOperator.target? rule).isSome
      · have hera := lookup_erase_eq_ite s.dispatcher.executor.activeRoutes rule.name n
        rw [if_pos hu, hname] at *
        simp only [hu, and_self, and_true]
        exact hera
      · rw [if_neg hu, if_neg fun h => hu h.2]

section Round

variable (hq : Quiet env) (hrules : ∀ n r, rules.lookup n = some r → r.name = n)
include hq hrules

theorem removeRun_fixed (s : System KernelState) (todo : List (String × ℕ)) :
    Fixed s (run (removeOne env.linux rules) s todo) :=
  fixed_run (fun s e => (removeOne_outcome hq hrules s e).1) s todo

/- A dry run untracks the entries whose rule can be installed. -/
theorem removeRun_activeRoute (s : System KernelState) (todo : List (String × ℕ)) (n : String) :
    (run (removeOne env.linux rules) s todo).dispatcher.activeRoute n =
      if n ∈ todo.map Prod.fst ∧ s.dispatcher.executor.routeManager.dryRun = true ∧
          (destination? rules n).isSome then none
      else s.dispatcher.activeRoute n := by
  induction todo generalizing s with
  | nil => exact (if_neg fun hx => List.not_mem_nil hx.1).symm
  | cons e rest ih =>
    obtain ⟨hfixed, hactive, _⟩ := removeOne_outcome hq hrules s e
    rw [run_cons, ih, hactive n, hfixed.routeManager]
    by_cases hn : n = e.1
    · subst hn
      by_cases hu : s.dispatcher.executor.routeManager.dryRun = true ∧
          (destination? rules e.1).isSome
      · simp [hu]
      · simp only [hu, and_false, if_false]
    · simp only [hn, false_and, if_false, List.map_cons, List.mem_cons, false_or]

/- A connected manager deletes policy rules, and no route. -/
theorem removeRun_kernel (s : System KernelState) (todo : List (String × ℕ)) :
    (run (removeOne env.linux rules) s todo).kernel.rules =
        (if Live s.dispatcher.executor.routeManager then
          run (leftByEntry rules) s.kernel.rules todo else s.kernel.rules) ∧
      (run (removeOne env.linux rules) s todo).kernel.routes = s.kernel.routes := by
  induction todo generalizing s with
  | nil =>
    refine ⟨?_, rfl⟩
    split_ifs <;> rfl
  | cons e rest ih =>
    obtain ⟨hfixed, _, hleft, hroutes⟩ := removeOne_outcome hq hrules s e
    obtain ⟨ih_rules, ih_routes⟩ := ih (removeOne env.linux rules s e)
    rw [run_cons, run_cons]
    refine ⟨?_, ih_routes.trans hroutes⟩
    rw [ih_rules, hleft, hfixed.routeManager]
    split_ifs <;> rfl

/- The round leaves the entries stuck that have no policy rule left to take. -/
theorem removeRun_stuck {s : System KernelState} {todo : List (String × ℕ)} {e : String × ℕ}
    (he : e ∈ todo)
    (ha : ((run (removeOne env.linux rules) s todo).dispatcher.activeRoute e.1).isSome)
    (hp : Live s.dispatcher.executor.routeManager →
      pickForEntry rules (run (leftByEntry rules) s.kernel.rules todo) e = none) :
    StuckEntry rules (run (removeOne env.linux rules) s todo) e := by
  have hfixed := removeRun_fixed hq hrules s todo
  refine ⟨fun hx => ?_, fun hl => ?_⟩
  · rw [hfixed.routeManager] at hx
    rw [removeRun_activeRoute hq hrules, if_pos ⟨List.mem_map_of_mem he, hx⟩] at ha
    cases ha
  · rw [hfixed.routeManager] at hl
    rw [(removeRun_kernel hq hrules s todo).1, if_pos hl]
    exact hp hl

/- Entries that are stuck remain so, and removing them changes nothing. -/
theorem removeRun_still {s : System KernelState} {todo : List (String × ℕ)}
    (h : ∀ e ∈ todo, StuckEntry rules s e) : Still s (run (removeOne env.linux rules) s todo) := by
  have hfixed := removeRun_fixed hq hrules s todo
  obtain ⟨hkernel, hroutes⟩ := removeRun_kernel hq hrules s todo
  refine ⟨hfixed.view, hfixed.interfaceIndices, fun n => ?_, fun p => ?_, fun r => by rw [hroutes]⟩
  · rw [removeRun_activeRoute hq hrules]
    refine if_neg fun hx => ?_
    obtain ⟨e, he, rfl⟩ := List.mem_map.mp hx.1
    exact (h e he).tracked hx.2
  · rw [hkernel]
    split_ifs with hl
    · have hsame : run (leftByEntry rules) s.kernel.rules todo = s.kernel.rules :=
        unpicked_run fun e he => (h e he).unpicked hl
      rw [hsame]
    · rfl

end Round

/-! ### The network state -/

/- The same interface, its addresses taken as a set. -/
structure SameInfo (info info' : InterfaceInfo) : Prop where
  name : info'.name = info.name
  interfaceType : info'.interfaceType = info.interfaceType
  isUp : info'.isUp = info.isUp
  ssid : info'.ssid = info.ssid
  addresses : ∀ a, a ∈ info'.addresses ↔ a ∈ info.addresses

theorem SameInfo.refl (info : InterfaceInfo) : SameInfo info info :=
  ⟨rfl, rfl, rfl, rfl, fun _ => Iff.rfl⟩

def SameNetwork (ns ns' : NetworkState) : Prop :=
  ∀ i, Option.Rel SameInfo (ns.getInterface i) (ns'.getInterface i)

theorem relInfo_refl (x : Option InterfaceInfo) : Option.Rel SameInfo x x := by
  cases x with
  | none => exact .none
  | some info => exact .some (.refl info)

theorem withInterface_twice (ns : NetworkState) (i : String) {f : InterfaceInfo → InterfaceInfo}
    (hf : ∀ info, SameInfo (f info) (f (f info))) :
    SameNetwork (ns.withInterface i f) ((ns.withInterface i f).withInterface i f) := by
  intro x
  rw [NetworkState.getInterface_withInterface (ns.withInterface i f)]
  split_ifs with hx
  · subst hx
    rw [NetworkState.getInterface_withInterface, if_pos rfl]
    cases ns.getInterface x with
    | none => exact .none
    | some info => exact .some (hf info)
  · exact relInfo_refl _

theorem observe_twice (ns : NetworkState) (e : NetworkEvent) :
    SameNetwork (ns.observe e) ((ns.observe e).observe e) := by
  cases e with
  | interfaceChanged i change =>
    cases change with
    | up => exact withInterface_twice ns i fun info => .refl _
    | down => exact withInterface_twice ns i fun info => .refl _
    | added => exact fun x => relInfo_refl _
    | removed =>
      intro x
      show Option.Rel SameInfo ((ns.removeInterface i).getInterface x)
        (((ns.removeInterface i).removeInterface i).getInterface x)
      rw [NetworkState.getInterface_removeInterface (ns.removeInterface i)]
      split_ifs with hx
      · rw [NetworkState.getInterface_removeInterface, if_pos hx]
        exact .none
      · exact relInfo_refl _
  | wifiConnected i ssid => exact withInterface_twice ns i fun info => .refl _
  | wifiDisconnected i last => exact withInterface_twice ns i fun info => .refl _
  | addressChanged i added removed =>
    refine withInterface_twice ns i fun info => ⟨rfl, rfl, rfl, rfl, fun a => ?_⟩
    simp only [Addresses.mem_pushNew, List.mem_filter, decide_eq_true_eq]
    by_cases hm : a ∈ added
    · simp only [hm, or_true]
    · simp only [hm, or_false, and_assoc, and_self]
  | routeChanged i destination gateway added => exact fun x => relInfo_refl _

theorem shouldApply_congr {d : EventDispatcher} {ns : NetworkState}
    (h : SameNetwork d.networkState ns) (i : String) :
    { d with networkState := ns }.shouldApply i = d.shouldApply i := by
  have hi := h i
  unfold EventDispatcher.shouldApply
  revert hi
  cases d.networkState.getInterface i <;> cases ns.getInterface i <;> intro hi <;> cases hi
  · rfl
  · next info info' hinfo => simp only [hinfo.isUp]

/-! ### The reactions -/

/- The reaction to the event is over. -/
def Over (env : Env) (s : System KernelState) : NetworkEvent → Prop
  | .interfaceChanged i .down | .interfaceChanged i .removed =>
    ∀ n a, s.dispatcher.activeRoute n = some a → a.interface = i →
      StuckEntry (EventDispatcher.rulesMap s.dispatcher.config) s (n, a.tableId)
  | .interfaceChanged i .up => s.dispatcher.shouldApply i = true → DefaultsPassed env s i
  | .interfaceChanged _ .added => True
  | .wifiConnected i ssid =>
    s.dispatcher.currentSsids.lookup i = some ssid ∧ RulesPassed env s i (some ssid)
  | .wifiDisconnected i _ =>
    s.dispatcher.currentSsids.lookup i = none ∧ DefaultsPassed env s i
  | .addressChanged i _ _ => RulesPassed env s i (s.dispatcher.currentSsid i)
  | .routeChanged _ _ _ _ => True

theorem over_observed {e : NetworkEvent} (h : Over env s e)
    (hns : SameNetwork s.dispatcher.networkState (s.dispatcher.networkState.observe e)) :
    Over env (observed e s) e := by
  cases e with
  | interfaceChanged i change =>
    cases change with
    | up =>
      intro happly
      exact h ((shouldApply_congr hns i).symm.trans happly)
    | down => exact fun n a ha hi => ⟨(h n a ha hi).tracked, (h n a ha hi).unpicked⟩
    | added => trivial
    | removed => exact fun n a ha hi => ⟨(h n a ha hi).tracked, (h n a ha hi).unpicked⟩
  | wifiConnected i ssid => exact h
  | wifiDisconnected i last => exact h
  | addressChanged i added removed => exact h
  | routeChanged i destination gateway added => trivial

/- The interface that the event is the loss of. -/
def lost? : NetworkEvent → Option String
  | .interfaceChanged i .down | .interfaceChanged i .removed => some i
  | _ => none

/- Once each route via the interface has taken the policy rule that its delete request names, as
long as there is one, no request names one that is left. -/
def TakenAtOnce (order : RouteOrder) (s : System KernelState) (i : String) : Prop :=
  let routes := EventDispatcher.dependentRoutes order s.dispatcher.executor.activeRoutes i
  let rules := EventDispatcher.rulesMap s.dispatcher.config
  ∀ e ∈ routes, pickForEntry rules (run (leftByEntry rules) s.kernel.rules routes) e = none

instance (order : RouteOrder) (s : System KernelState) (i : String) :
    Decidable (TakenAtOnce order s i) := List.decidableBAll _ _

/- Each request names one policy rule, unless its prefix has no bits. -/
theorem takenAtOnce_of_exact {order : RouteOrder} (h : ∀ e ∈
      EventDispatcher.dependentRoutes order s.dispatcher.executor.activeRoutes i,
    e.2 ≠ 0 ∧ ∀ d, destination? (EventDispatcher.rulesMap s.dispatcher.config) e.1 = some d →
      d.prefixLen ≠ 0) : TakenAtOnce order s i :=
  exact_run s.kernel.rules_nodup h

/- The reaction to the event leaves no policy rule for a second one to take. -/
def Exhausting (order : RouteOrder) (s : System KernelState) (e : NetworkEvent) : Prop :=
  Live s.dispatcher.executor.routeManager → ∀ i ∈ lost? e, TakenAtOnce order s i

theorem down_over (hq : Quiet env) (order : RouteOrder) (s : System KernelState) (i : String)
    (h : Live s.dispatcher.executor.routeManager → TakenAtOnce order s i) :
    Over env (reacted env.linux order s (.interfaceChanged i .down))
      (.interfaceChanged i .down) := by
  have hrules := EventDispatcher.rulesMap_name s.dispatcher.config
  have hfixed := removeRun_fixed hq hrules s
    (EventDispatcher.dependentRoutes order s.dispatcher.executor.activeRoutes i)
  intro n a ha hi
  have hconfig : (reacted env.linux order s (.interfaceChanged i .down)).dispatcher.config =
      s.dispatcher.config := hfixed.view.config
  have hactive := removeRun_activeRoute hq hrules s
    (EventDispatcher.dependentRoutes order s.dispatcher.executor.activeRoutes i) n
  rw [hconfig]
  have hold : s.dispatcher.activeRoute n = some a := by
    have ha' := hactive.symm.trans ha
    split_ifs at ha'
    exact ha'
  have hm := (EventDispatcher.mem_dependentRoutes order _ i n a.tableId).mpr ⟨a, hold, hi, rfl⟩
  refine removeRun_stuck hq hrules hm ?_ fun hl => h hl _ hm
  exact Option.isSome_iff_exists.mpr ⟨a, ha⟩

/- A reaction leaves itself nothing to do, unless it is to the loss of an interface. -/
theorem reacted_over (hq : Quiet env) (order : RouteOrder) (s : System KernelState)
    (e : NetworkEvent) (h : Exhausting order s e) : Over env (reacted env.linux order s e) e := by
  cases e with
  | interfaceChanged i change =>
    cases change with
    | up =>
      simp only [reacted, Over]
      split_ifs with happly
      · exact fun _ => appliedDefaults_settles hq s i
      · exact fun h => absurd h happly
    | down => exact down_over hq order s i fun hl => h hl i rfl
    | added => trivial
    | removed => exact down_over hq order s i fun hl => h hl i rfl
  | wifiConnected i ssid =>
    have hssids := (reacted_view env.linux order s (.wifiConnected i ssid)).currentSsids
    refine ⟨?_, appliedRules_settles hq _ i (some ssid)⟩
    rw [hssids]
    exact AList.lookup_insert _
  | wifiDisconnected i last =>
    have hssids := (reacted_view env.linux order s (.wifiDisconnected i last)).currentSsids
    refine ⟨?_, appliedDefaults_settles hq _ i⟩
    rw [hssids]
    exact AList.lookup_erase _ _
  | addressChanged i added removed =>
    have hview := reacted_view env.linux order s (.addressChanged i added removed)
    have hssid :
        (reacted env.linux order s (.addressChanged i added removed)).dispatcher.currentSsid i =
          s.dispatcher.currentSsid i := congrArg (AList.lookup i) hview.currentSsids
    show RulesPassed env _ i _
    rw [hssid]
    exact appliedRules_settles hq s i _
  | routeChanged i destination gateway added => trivial

/-! ### Twice -/

/- What is compared: the maps key by key, the network state with the addresses of an
interface as a set, the policy rules and the routes as sets. -/
structure SameOutcome (s s' : System KernelState) : Prop where
  activeRoutes : ∀ n, s'.dispatcher.activeRoute n = s.dispatcher.activeRoute n
  currentSsids : ∀ i, s'.dispatcher.currentSsids.lookup i = s.dispatcher.currentSsids.lookup i
  interfaceIndices : ∀ i,
    s'.dispatcher.interfaceIndices.lookup i = s.dispatcher.interfaceIndices.lookup i
  networkState : SameNetwork s.dispatcher.networkState s'.dispatcher.networkState
  kernel : SameEntries s.kernel s'.kernel

theorem SameOutcome.refl (s : System KernelState) : SameOutcome s s :=
  ⟨fun _ => rfl, fun _ => rfl, fun _ => rfl, fun _ => relInfo_refl _, .refl _⟩

theorem SameOutcome.still {s'' : System KernelState} (h : SameOutcome s s') (h' : Still s' s'') :
    SameOutcome s s'' where
  activeRoutes n := (h'.activeRoutes n).trans (h.activeRoutes n)
  currentSsids i := by
    rw [h'.view.currentSsids]
    exact h.currentSsids i
  interfaceIndices i := by
    rw [h'.interfaceIndices]
    exact h.interfaceIndices i
  networkState := by
    rw [h'.view.networkState]
    exact h.networkState
  kernel := h.kernel.trans h'.kernel

theorem SameOutcome.observed {e : NetworkEvent}
    (hns : SameNetwork s.dispatcher.networkState (s.dispatcher.networkState.observe e)) :
    SameOutcome s (observed e s) :=
  ⟨fun _ => rfl, fun _ => rfl, fun _ => rfl, hns, .refl _⟩

theorem SameOutcome.recordSsid {ssid : String} (h : SameOutcome s s')
    (hi : s'.dispatcher.currentSsids.lookup i = some ssid) :
    SameOutcome s { s' with dispatcher := s'.dispatcher.recordSsid i ssid } := by
  refine ⟨h.activeRoutes, fun j => ?_, h.interfaceIndices, h.networkState, h.kernel⟩
  rw [← h.currentSsids j]
  refine (lookup_insert_eq_ite s'.dispatcher.currentSsids i j ssid).trans ?_
  split_ifs with hj
  · rw [hj, hi]
  · rfl

theorem SameOutcome.forgetSsid (h : SameOutcome s s')
    (hi : s'.dispatcher.currentSsids.lookup i = none) :
    SameOutcome s { s' with dispatcher := s'.dispatcher.forgetSsid i } := by
  refine ⟨h.activeRoutes, fun j => ?_, h.interfaceIndices, h.networkState, h.kernel⟩
  rw [← h.currentSsids j]
  refine (lookup_erase_eq_ite s'.dispatcher.currentSsids i j).trans ?_
  split_ifs with hj
  · rw [hj, hi]
  · rfl

/- A reaction that is over, made again, changes nothing. -/
theorem reacted_same (hq : Quiet env) (order : RouteOrder) {e : NetworkEvent}
    (h : SameOutcome s s') (ho : Over env s' e) : SameOutcome s (reacted env.linux order s' e) := by
  have hrules := EventDispatcher.rulesMap_name s'.dispatcher.config
  have hdown : ∀ i, Over env s' (.interfaceChanged i .down) → SameOutcome s
      (reacted env.linux order s' (.interfaceChanged i .down)) := by
    intro i hstuck
    exact h.still (removeRun_still hq hrules
      ((EventDispatcher.forall_dependentRoutes order s'.dispatcher i _).mpr hstuck))
  cases e with
  | interfaceChanged i change =>
    cases change with
    | up =>
      simp only [reacted]
      split_ifs with happly
      · exact h.still (appliedDefaults_still hq (ho happly))
      · exact h
    | down => exact hdown i ho
    | added => exact h
    | removed => exact hdown i ho
  | wifiConnected i ssid => exact (h.recordSsid ho.1).still (appliedRules_still hq ho.2)
  | wifiDisconnected i last => exact (h.forgetSsid ho.1).still (appliedDefaults_still hq ho.2)
  | addressChanged i added removed => exact h.still (appliedRules_still hq ho)
  | routeChanged i destination gateway added => exact h

theorem reacted_lost (env : Env) (order : RouteOrder) (s : System KernelState) {e : NetworkEvent}
    (h : i ∈ lost? e) : reacted env.linux order s e =
      run (removeOne env.linux (EventDispatcher.rulesMap s.dispatcher.config)) s
        (EventDispatcher.dependentRoutes order s.dispatcher.executor.activeRoutes i) := by
  cases e with
  | interfaceChanged j change => cases change <;> cases h <;> rfl
  | _ => cases h

/- A second round that deletes no policy rule has found none to take. -/
theorem taken_of_same (hq : Quiet env) {order order' : RouteOrder} {s : System KernelState}
    {e : NetworkEvent} (hl : Live s.dispatcher.executor.routeManager) (hi : i ∈ lost? e)
    (h : SameOutcome (reacted env.linux order s e)
      (reacted env.linux order' (observed e (reacted env.linux order s e)) e)) :
    TakenAtOnce order s i := by
  have hrules := EventDispatcher.rulesMap_name s.dispatcher.config
  rw [reacted_lost env order s hi] at h
  have hfixed := removeRun_fixed hq hrules s
    (EventDispatcher.dependentRoutes order s.dispatcher.executor.activeRoutes i)
  have hactive := removeRun_activeRoute hq hrules s
    (EventDispatcher.dependentRoutes order s.dispatcher.executor.activeRoutes i)
  have honce := (removeRun_kernel hq hrules s
    (EventDispatcher.dependentRoutes order s.dispatcher.executor.activeRoutes i)).1
  rw [if_pos hl] at honce
  generalize hs' : run (removeOne env.linux (EventDispatcher.rulesMap s.dispatcher.config)) s
    (EventDispatcher.dependentRoutes order s.dispatcher.executor.activeRoutes i) = s' at *
  have hl' : Live (observed e s').dispatcher.executor.routeManager := by
    show Live s'.dispatcher.executor.routeManager
    rw [hfixed.routeManager]
    exact hl
  have htwice := (removeRun_kernel hq hrules (observed e s')
    (EventDispatcher.dependentRoutes order' s'.dispatcher.executor.activeRoutes i)).1
  rw [if_pos hl'] at htwice
  have hconfig : (observed e s').dispatcher.config = s.dispatcher.config := hfixed.view.config
  rw [reacted_lost env order' (observed e s') hi, hconfig] at h
  have hnone := none_picked s'.kernel.rules_nodup fun p =>
    (iff_of_eq (congrArg (p ∈ ·) htwice)).symm.trans (h.kernel.rules p)
  rw [honce] at hnone
  -- the second round meets the entries that the first one met
  intro e he
  obtain ⟨a, ha, hvia, ht⟩ := (EventDispatcher.mem_dependentRoutes order _ i e.1 e.2).mp he
  have ha' : s'.dispatcher.activeRoute e.1 = some a := by
    rw [hactive, if_neg fun hx => hl.not_dry hx.2.1]
    exact ha
  exact hnone e ((EventDispatcher.mem_dependentRoutes order' _ i e.1 e.2).mpr ⟨a, ha', hvia, ht⟩)

/- Handling an event a second time changes nothing, in whatever orders the active routes are
met, exactly if no policy rule is left for the second time. -/
theorem handled_twice_iff (env : Env) (hq : Quiet env) (order order' : RouteOrder)
    (s : System KernelState) (e : NetworkEvent) :
    SameOutcome (Dispatch.perform env.linux s (.handleEvent order e))
        (Dispatch.perform env.linux (Dispatch.perform env.linux s (.handleEvent order e))
          (.handleEvent order' e)) ↔
      (s.dispatcher.state = .running → Exhausting order s e) := by
  show SameOutcome (after _ s) (after _ (after _ s)) ↔ _
  by_cases hr : s.dispatcher.state = .running
  · have hview := reacted_view env.linux order (observed e s) e
    have hns : (reacted env.linux order (observed e s) e).dispatcher.networkState =
        (observed e s).dispatcher.networkState := hview.networkState.trans (noting_fixed _ e).1
    have hstate : (reacted env.linux order (observed e s) e).dispatcher.state =
        (observed e s).dispatcher.state := hview.state.trans (noting_fixed _ e).2
    have honce : after (Dispatch.handleEvent env.linux order e) s =
        reacted env.linux order (observed e s) e := by
      exact handleEvent_after env.linux order e hr
    have hrunning : (reacted env.linux order (observed e s) e).dispatcher.state = .running :=
      hstate.trans hr
    have hsame : SameNetwork (reacted env.linux order (observed e s) e).dispatcher.networkState
        ((reacted env.linux order (observed e s) e).dispatcher.networkState.observe e) := by
      rw [hns]
      exact observe_twice s.dispatcher.networkState e
    rw [honce, handleEvent_after env.linux order' e hrunning]
    refine ⟨fun h _ hl i hi => ?_, fun h => ?_⟩
    · exact taken_of_same hq (s := observed e s) hl hi h
    · exact reacted_same hq order' (.observed hsame)
        (over_observed (reacted_over hq order (observed e s) e (h hr)) hsame)
  · rw [handleEvent_idle env.linux order e hr, handleEvent_idle env.linux order' e hr]
    exact iff_of_true (.refl s) fun h => absurd h hr

/- The link of the only rule goes down twice: the first time takes its policy rule. -/
theorem handled_twice_lan :
    SameOutcome
      (Dispatch.perform noFault.linux LiveRemoval.lanUp
        (.handleEvent .asListed (.interfaceChanged "eth0" .down)))
      (Dispatch.perform noFault.linux
        (Dispatch.perform noFault.linux LiveRemoval.lanUp
          (.handleEvent .asListed (.interfaceChanged "eth0" .down)))
        (.handleEvent .asListed (.interfaceChanged "eth0" .down))) := by
  refine (handled_twice_iff noFault noFault_quiet .asListed .asListed LiveRemoval.lanUp
    (.interfaceChanged "eth0" .down)).mpr fun _ _ i hi => takenAtOnce_of_exact fun e he => ?_
  obtain ⟨a, ha, _, ht⟩ := (EventDispatcher.mem_dependentRoutes .asListed _ i e.1 e.2).mp he
  obtain ⟨hn, rfl⟩ := LiveRemoval.lanUp_active ha
  rw [← ht, hn]
  refine ⟨by decide, fun d hd => ?_⟩
  have htarget : destination? (EventDispatcher.rulesMap LiveRemoval.lanUp.dispatcher.config) "lan" =
    some lan := by decide
  cases htarget.symm.trans hd
  decide

/-! ### A default route beside another rule -/

def everythingRule : RouteRule := ⟨"everything", .cidr (everywhere .v4), ⟨"eth0"⟩, 100⟩
def viaWlan0 : RouteRule := ⟨"lan", .cidr lan, ⟨"wlan0"⟩, 100⟩

/- A default route out of eth0, and a network out of wlan0, of one priority. -/
def everythingAndLan : Config where
  interfaces := lanOnly.interfaces.insert "wlan0" ⟨.wlan, .name "wlan0", 100⟩
  routing := ⟨[everythingRule, viaWlan0]⟩

/- The rules of both are installed, and the kernel has flushed the routes of eth0. -/
def eth0Flushed : System KernelState :=
  let s := Dispatch.perform noFault.linux (Dispatch.launch everythingAndLan connected .empty)
    (.applyInitialState eth0Up)
  { s with kernel := LiveRemoval.linkDown s.kernel 2 }

/- A request for a prefix of no bits names the policy rule of either. The second Down event of
eth0 deletes that of the rule via wlan0. -/
theorem lan_deleted_second_time :
    everythingAndLan.validate = .ok () ∧ eth0Flushed.dispatcher.state = .running ∧
      ¬ SameOutcome
        (Dispatch.perform noFault.linux eth0Flushed
          (.handleEvent .asListed (.interfaceChanged "eth0" .down)))
        (Dispatch.perform noFault.linux
          (Dispatch.perform noFault.linux eth0Flushed
            (.handleEvent .asListed (.interfaceChanged "eth0" .down)))
          (.handleEvent .asListed (.interfaceChanged "eth0" .down))) := by
  refine ⟨by decide +kernel, by decide +kernel, fun h => ?_⟩
  have hrule := (h.kernel.rules ⟨lan, 101, 100⟩).mpr (by decide +kernel)
  exact absurd hrule (by decide +kernel)

end NicAutoswitch.Kernel.EventTwice
