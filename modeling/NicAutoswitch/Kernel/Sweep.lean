import NicAutoswitch.Engine.Granted
import NicAutoswitch.Kernel.Requests

/-!
# Flushing the tables of the kernel

A flush deletes the items of a dump one by one. What it deletes is written down here
as a list, of routes or of policy rules, and the kernel afterwards is the kernel
before without them.
-/

namespace NicAutoswitch.Kernel
open Router StateProg Engine Transition

variable {env : Env}

/-! ### Sweeping a dump -/

section Sweep

variable {ι : Type}

/- The items whose delete requests the kernel grants: of the listed items, up to an
error in the dump, those that `sel` selects. The clock starts at `c`. -/
def granted (env : Env) (sel : ι → Bool) : ℕ → List (Except RtError ι) → List ι
  | _, [] => []
  | _, .error _ :: _ => []
  | c, .ok x :: rest =>
    if sel x = true then
      if env.fault c = none then x :: granted env sel (c + 1) rest
      else granted env sel (c + 1) rest
    else granted env sel c rest

theorem granted_listed {sel : ι → Bool} {items : List (Except RtError ι)} {c : ℕ} {x : ι}
    (h : x ∈ granted env sel c items) : .ok x ∈ items ∧ sel x = true := by
  induction items generalizing c with
  | nil => cases h
  | cons item rest ih =>
    cases item with
    | error e => cases h
    | ok y =>
      unfold granted at h
      split_ifs at h with hs hf
      · rcases List.mem_cons.mp h with rfl | hrest
        · exact ⟨List.mem_cons_self, hs⟩
        · exact ⟨List.mem_cons_of_mem _ (ih hrest).1, (ih hrest).2⟩
      · exact ⟨List.mem_cons_of_mem _ (ih h).1, (ih h).2⟩
      · exact ⟨List.mem_cons_of_mem _ (ih h).1, (ih h).2⟩

/- No item of the dump is an error. -/
def Clean (items : List (Except RtError ι)) : Prop := ∀ item ∈ items, item.isOk = true

instance (items : List (Except RtError ι)) : Decidable (Clean items) :=
  inferInstanceAs (Decidable (∀ item ∈ items, item.isOk = true))

theorem clean_cons_ok (x : ι) (rest : List (Except RtError ι)) :
    Clean (.ok x :: rest) ↔ Clean rest := by
  unfold Clean
  rw [List.forall_mem_cons]
  exact and_iff_right rfl

theorem not_clean_cons_error (e : RtError) (rest : List (Except RtError ι)) :
    ¬ Clean (.error e :: rest) := by
  intro h
  have he := h (.error e) List.mem_cons_self
  cases he

variable (drop : KernelState → ι → KernelState)

/- The state after the delete request for one listed item. -/
def deleted (env : Env) (k : KernelState) (x : ι) : KernelState :=
  (if env.fault k.clock = none then drop k x else k).tick

/- What a loop leaves behind, as far as the kernel is concerned. -/
def swept (env : Env) (sel : ι → Bool) : KernelState → List (Except RtError ι) → KernelState
  | k, [] => k
  | k, .error _ :: _ => k
  | k, .ok x :: rest => swept env sel (if sel x = true then deleted drop env k x else k) rest

/- `drop` takes an item out of the part of the kernel that `content` shows. -/
structure Drops (content : KernelState → List ι) : Prop where
  mem : ∀ k x y, y ∈ content (drop k x) ↔ y ≠ x ∧ y ∈ content k
  clock : ∀ k x, (drop k x).clock = k.clock
  tick : ∀ k, content k.tick = content k

variable {drop} {content : KernelState → List ι}

theorem mem_deleted (hd : Drops drop content) (k : KernelState) (x y : ι) :
    y ∈ content (deleted drop env k x) ↔
      y ∈ content k ∧ ¬ (env.fault k.clock = none ∧ y = x) := by
  unfold deleted
  rw [hd.tick]
  split_ifs with hf
  · rw [hd.mem]
    simp only [hf, true_and]
    exact and_comm
  · simp only [hf, false_and, not_false_iff, and_true]

theorem mem_swept (hd : Drops drop content) (sel : ι → Bool) (items : List (Except RtError ι))
    (k : KernelState) (y : ι) :
    y ∈ content (swept drop env sel k items) ↔
      y ∈ content k ∧ y ∉ granted env sel k.clock items := by
  induction items generalizing k with
  | nil => simp [swept, granted]
  | cons item rest ih =>
    cases item with
    | error e => simp [swept, granted]
    | ok x =>
      unfold swept granted
      by_cases hs : sel x = true
      · have hc : (deleted drop env k x).clock = k.clock + 1 := by
          unfold deleted
          split
          · rw [KernelState.tick_clock, hd.clock]
          · rfl
        simp only [if_pos hs]
        rw [ih, mem_deleted hd, hc]
        by_cases hf : env.fault k.clock = none
        · simp only [if_pos hf, List.mem_cons, not_or]
          tauto
        · rw [if_neg hf]
          simp only [hf, false_and, not_false_iff, and_true]
      · simp only [if_neg hs]
        exact ih k

/- The loop of a flush on the messages of a dump: it fails where the dump has an error. -/
theorem flushLoop_swept {μ : Type} {message : ι → μ} {sel : ι → Bool} {selMessage : μ → Bool}
    {del : μ → KernelState → Except RtError Unit × KernelState}
    (hsel : ∀ x, selMessage (message x) = sel x)
    (hdel : ∀ x k, (del (message x) k).2 = deleted drop env k x) (text : RtError → String)
    (items : List (Except RtError ι)) (n : ℕ) (k : KernelState) :
    (Clean items → ∃ m, flushLoop selMessage text del (items.map (Except.map message)) n k =
        .ok m (swept drop env sel k items)) ∧
      (¬ Clean items → ∃ e, flushLoop selMessage text del (items.map (Except.map message)) n k =
        .error e (swept drop env sel k items)) := by
  induction items generalizing k n with
  | nil => exact ⟨fun _ => ⟨n, rfl⟩, fun h => absurd (fun _ hx => by cases hx) h⟩
  | cons item rest ih =>
    cases item with
    | error e =>
      exact ⟨fun h => absurd h (not_clean_cons_error e _), fun _ => ⟨.route (text e), rfl⟩⟩
    | ok x =>
      rw [clean_cons_ok]
      show (_ → ∃ m, flushLoop selMessage text del (.ok (message x) :: _) n k = _) ∧
        (_ → ∃ e, flushLoop selMessage text del (.ok (message x) :: _) n k = _)
      rw [flushLoop, swept, hsel]
      by_cases hs : sel x = true
      · have hsend : send (del (message x)) k =
            .ok (del (message x) k).1 (deleted drop env k x) := by
          rw [← hdel]
          rfl
        simp only [if_pos hs, bind_ok hsend]
        cases (del (message x) k).1 with
        | ok u => exact ih (n + 1) (deleted drop env k x)
        | error e => exact ih n (deleted drop env k x)
      · simp only [if_neg hs]
        exact ih n k

/- A dump that fails deletes nothing. -/
def sweepDeletes (env : Env) (sel : ι → Bool) (list : KernelState → List (Except RtError ι))
    (k : KernelState) : List ι :=
  if env.fault k.clock = none then granted env sel (k.clock + 1) (list k) else []

def sweep (drop : KernelState → ι → KernelState) (env : Env) (sel : ι → Bool)
    (list : KernelState → List (Except RtError ι)) (k : KernelState) : KernelState :=
  if env.fault k.clock = none then swept drop env sel k.tick (list k) else k.tick

/- The dump is answered, and without an error among its items. -/
def Listed (env : Env) (list : KernelState → List (Except RtError ι)) (k : KernelState) : Prop :=
  env.fault k.clock = none ∧ Clean (list k)

instance (env : Env) (list : KernelState → List (Except RtError ι)) (k : KernelState) :
    Decidable (Listed env list k) := inferInstanceAs (Decidable (_ ∧ _))

theorem mem_sweep (hd : Drops drop content) (env : Env) (sel : ι → Bool)
    (list : KernelState → List (Except RtError ι)) (k : KernelState) (y : ι) :
    y ∈ content (sweep drop env sel list k) ↔ y ∈ content k ∧ y ∉ sweepDeletes env sel list k := by
  unfold sweep sweepDeletes
  split_ifs with hf
  · rw [mem_swept hd, hd.tick, KernelState.tick_clock]
  · rw [hd.tick]
    exact (and_iff_left List.not_mem_nil).symm

/- A dump and the loop over it: the kernel is swept, and the loop returns where the dump
is listed in full. -/
theorem dump_loop (env : Env) {μ : Type} (message : ι → μ) (sel : ι → Bool) (selMessage : μ → Bool)
    {del : μ → KernelState → Except RtError Unit × KernelState}
    (hsel : ∀ x, selMessage (message x) = sel x)
    (hdel : ∀ x k, (del (message x) k).2 = deleted drop env k x) (text : RtError → String)
    (list : KernelState → List (Except RtError ι)) (n : ℕ) (k : KernelState) :
    (Listed env list k → ∃ m, (send (env.dump list message) >>= fun items =>
        flushLoop selMessage text del items n) k = .ok m (sweep drop env sel list k)) ∧
      (¬ Listed env list k → ∃ e, (send (env.dump list message) >>= fun items =>
        flushLoop selMessage text del items n) k = .error e (sweep drop env sel list k)) := by
  have hloop := flushLoop_swept hsel hdel text (list k) n k.tick
  unfold Listed sweep
  cases hf : env.fault k.clock with
  | none =>
    have hs : send (env.dump list message) k = .ok ((list k).map (Except.map message)) k.tick := by
      simp only [send, Env.dump, hf]
    rw [bind_ok hs, if_pos rfl]
    exact ⟨fun h => hloop.1 h.2, fun h => hloop.2 fun hc => h ⟨rfl, hc⟩⟩
  | some e =>
    have hs : send (env.dump list message) k = .ok [.error e] k.tick := by
      simp only [send, Env.dump, hf]
    rw [bind_ok hs, if_neg (by simp)]
    exact ⟨fun h => (by cases h.1), fun _ => ⟨.route (text e), rfl⟩⟩

end Sweep

/-! ### Routes and policy rules -/

theorem dropRoute_drops : Drops KernelState.dropRoute KernelState.routes :=
  ⟨KernelState.mem_dropRoute, KernelState.dropRoute_clock, KernelState.tick_routes⟩

theorem dropRule_drops : Drops KernelState.dropRule KernelState.rules :=
  ⟨KernelState.mem_dropRule, KernelState.dropRule_clock, KernelState.tick_rules⟩

/- Sweeping the one leaves the other. -/
theorem swept_other {ι γ : Type} {drop : KernelState → ι → KernelState} {other : KernelState → γ}
    (hdrop : ∀ k x, other (drop k x) = other k) (htick : ∀ k, other k.tick = other k)
    (sel : ι → Bool) (items : List (Except RtError ι)) (k : KernelState) :
    other (swept drop env sel k items) = other k := by
  induction items generalizing k with
  | nil => rfl
  | cons item rest ih =>
    cases item with
    | error e => rfl
    | ok x =>
      have hdel : other (deleted drop env k x) = other k := by
        unfold deleted
        rw [htick]
        split_ifs
        · exact hdrop k x
        · rfl
      rw [swept, ih]
      split_ifs
      · exact hdel
      · rfl

theorem sweep_other {ι γ : Type} {drop : KernelState → ι → KernelState} {other : KernelState → γ}
    (hdrop : ∀ k x, other (drop k x) = other k) (htick : ∀ k, other k.tick = other k)
    (sel : ι → Bool) (list : KernelState → List (Except RtError ι)) (k : KernelState) :
    other (sweep drop env sel list k) = other k := by
  unfold sweep
  split_ifs
  · rw [swept_other hdrop htick, htick]
  · exact htick k

theorem dropRoute_absent {k : KernelState} {r : Route} (h : r ∉ k.routes) : k.dropRoute r = k := by
  obtain ⟨rules, routes, clock, h1, h2⟩ := k
  simp only [KernelState.dropRoute, List.erase_of_not_mem h]

/- A request that names a route in full deletes that route or none. -/
theorem pick_absent {k : KernelState} {r : Route} (h : r ∉ k.routes) :
    k.pick r.table r.destination (some r.metric) (some r.oif) = none := by
  rw [KernelState.pick_none]
  intro q hq hn
  obtain ⟨ht, hd, hm, ho⟩ := hn
  have hqr : q = r := by
    obtain ⟨qt, qd, qm, qo⟩ := q
    simp only [Option.getD_some] at ht hd hm ho
    subst ht hd hm ho
    rfl
  exact h (hqr ▸ hq)

theorem routeDel_listed (k : KernelState) (r : Route) :
    (Env.routeDel r.message k).2 = k.dropRoute r := by
  unfold Env.routeDel
  rw [namedDestination_message]
  dsimp only
  by_cases hr : r ∈ k.routes
  · have hpick : k.pick r.message.tableId r.destination r.message.metric? r.message.oif? = some r :=
      KernelState.pick_exact hr
    rw [hpick]
  · have hpick : k.pick r.message.tableId r.destination r.message.metric? r.message.oif? = none :=
      pick_absent hr
    rw [hpick, dropRoute_absent hr]

theorem ruleDel_listed (k : KernelState) (p : PolicyRule) :
    (Env.ruleDel p.message k).2 = k.dropRule p := by
  unfold Env.ruleDel
  rw [namedRule_message]
  by_cases hp : p ∈ k.rules
  · simp only [if_pos hp]
  · simp only [if_neg hp, dropRule_absent hp]

theorem routeDel_after (r : Route) (k : KernelState) :
    (env.plain.routeDel r.message k).2 = deleted KernelState.dropRoute env k r := by
  show (env.request (Env.routeDel r.message) k).2 = _
  unfold deleted
  cases hf : env.fault k.clock with
  | none => rw [request_passes hf, routeDel_listed, if_pos rfl]
  | some e => rw [request_fails hf, if_neg (by simp)]

theorem ruleDel_after (p : PolicyRule) (k : KernelState) :
    (env.plain.ruleDel p.message k).2 = deleted KernelState.dropRule env k p := by
  show (env.request (Env.ruleDel p.message) k).2 = _
  unfold deleted
  cases hf : env.fault k.clock with
  | none => rw [request_passes hf, ruleDel_listed, if_pos rfl]
  | some e => rw [request_fails hf, if_neg (by simp)]

/-! ### Flushing the routes of a table -/

abbrev routeList (env : Env) (t : ℕ) (k : KernelState) : List (Except RtError Route) :=
  env.routeDump k .v4 t

/- The routes that `flush_table` deletes. -/
def flushDeletes (env : Env) (t : ℕ) (k : KernelState) : List Route :=
  if t ≤ 255 then sweepDeletes env (fun _ => true) (routeList env t) k else []

def flushed (env : Env) (t : ℕ) (k : KernelState) : KernelState :=
  if t ≤ 255 then sweep KernelState.dropRoute env (fun _ => true) (routeList env t) k else k

theorem sweepDeletes_listed {ι : Type} {sel : ι → Bool}
    {list : KernelState → List (Except RtError ι)} {k : KernelState} {x : ι}
    (h : x ∈ sweepDeletes env sel list k) : .ok x ∈ list k ∧ sel x = true := by
  unfold sweepDeletes at h
  split_ifs at h
  · exact granted_listed h
  · cases h

theorem flushDeletes_mem {t : ℕ} {k : KernelState} {r : Route} (h : r ∈ flushDeletes env t k) :
    r ∈ k.routes := by
  unfold flushDeletes at h
  split_ifs at h with hc
  · exact (env.routeDump_mem k .v4 t r (sweepDeletes_listed h).1).1
  · cases h

theorem mem_flushed (env : Env) (t : ℕ) (k : KernelState) (q : Route) :
    q ∈ (flushed env t k).routes ↔ q ∈ k.routes ∧ q ∉ flushDeletes env t k := by
  unfold flushed flushDeletes
  split_ifs
  · exact mem_sweep dropRoute_drops env _ _ k q
  · exact (and_iff_left List.not_mem_nil).symm

theorem flushed_rules (env : Env) (t : ℕ) (k : KernelState) :
    (flushed env t k).rules = k.rules := by
  unfold flushed
  split_ifs
  · exact sweep_other KernelState.dropRoute_rules KernelState.tick_rules _ _ k
  · rfl

/- The flush leaves `flushed`; it returns where the dump is listed in full. -/
theorem flushTable_spec (env : Env) {rm : RouteManager} (hl : Live rm) (t : ℕ)
    (k : KernelState) :
    (t ≤ 255 ∧ Listed env (routeList env t) k →
        ∃ n, rm.flushTable env.plain t k = .ok n (flushed env t k)) ∧
      (¬ (t ≤ 255 ∧ Listed env (routeList env t) k) →
        ∃ e, rm.flushTable env.plain t k = .error e (flushed env t k)) := by
  unfold RouteManager.flushTable flushed
  rw [if_neg hl.not_dry, withHandle_some hl.connected]
  by_cases ht : t ≤ 255
  · have hloop := dump_loop env Route.message (fun _ => true) (fun _ => true) (fun _ => rfl)
      routeDel_after (fun e => s!"Failed to list routes in table {t}: {e}") (routeList env t) 0 k
    simp only [tableIdToU8_ok ht, ht, true_and, if_true]
    exact hloop
  · obtain ⟨e, he⟩ := tableIdToU8_error ht
    simp only [he, ht, false_and, if_false]
    exact ⟨fun h => h.elim, fun _ => ⟨e, rfl⟩⟩

/-! ### Flushing the policy rules of a table -/

/- The loop compares the table of the header. -/
def inTable (t : ℕ) (p : PolicyRule) : Bool := decide (headerTable p.table = t)

abbrev ruleList (env : Env) (v : IpVersion) (k : KernelState) :
    List (Except RtError PolicyRule) := env.ruleDump k v

/- The kernel after the pass over the rules of one IP version. -/
def rulePass (env : Env) (t : ℕ) (v : IpVersion) (k : KernelState) : KernelState :=
  sweep KernelState.dropRule env (inTable t) (ruleList env v) k

/- The policy rules that `flush_table_policy_rules` deletes: the second pass is made only
where the first one returns. -/
def ruleDeletes (env : Env) (t : ℕ) (k : KernelState) : List PolicyRule :=
  if t ≤ 255 then
    sweepDeletes env (inTable t) (ruleList env .v4) k ++
      if Listed env (ruleList env .v4) k then
        sweepDeletes env (inTable t) (ruleList env .v6) (rulePass env t .v4 k)
      else []
  else []

/- The kernel after both passes. -/
def rulesFlushed (env : Env) (t : ℕ) (k : KernelState) : KernelState :=
  if t ≤ 255 then
    if Listed env (ruleList env .v4) k then rulePass env t .v6 (rulePass env t .v4 k)
    else rulePass env t .v4 k
  else k

theorem mem_rulePass (env : Env) (t : ℕ) (v : IpVersion) (k : KernelState) (p : PolicyRule) :
    p ∈ (rulePass env t v k).rules ↔
      p ∈ k.rules ∧ p ∉ sweepDeletes env (inTable t) (ruleList env v) k :=
  mem_sweep dropRule_drops env _ _ k p

theorem rulePass_routes (env : Env) (t : ℕ) (v : IpVersion) (k : KernelState) :
    (rulePass env t v k).routes = k.routes :=
  sweep_other KernelState.dropRule_routes KernelState.tick_routes _ _ k

theorem mem_rulesFlushed (env : Env) (t : ℕ) (k : KernelState) (p : PolicyRule) :
    p ∈ (rulesFlushed env t k).rules ↔ p ∈ k.rules ∧ p ∉ ruleDeletes env t k := by
  unfold rulesFlushed ruleDeletes
  split_ifs with ht hc
  · rw [mem_rulePass, mem_rulePass, List.mem_append, not_or]
    exact and_assoc
  · rw [mem_rulePass, List.append_nil]
  · exact (and_iff_left List.not_mem_nil).symm

theorem rulesFlushed_routes (env : Env) (t : ℕ) (k : KernelState) :
    (rulesFlushed env t k).routes = k.routes := by
  unfold rulesFlushed
  split_ifs with ht hc
  · rw [rulePass_routes, rulePass_routes]
  · exact rulePass_routes env t .v4 k
  · rfl

theorem flushTablePolicyRules_after (env : Env) {rm : RouteManager} (hl : Live rm) (t : ℕ)
    (k : KernelState) :
    after (rm.flushTablePolicyRules env.plain t) k = rulesFlushed env t k := by
  unfold RouteManager.flushTablePolicyRules rulesFlushed
  rw [if_neg hl.not_dry, withHandle_some hl.connected]
  by_cases ht : t ≤ 255
  · have hloop := fun v (kind : String) => dump_loop env PolicyRule.message (inTable t)
      (fun rule => decide (rule.table = t)) (fun _ => rfl) ruleDel_after
      (fun e => s!"Failed to list {kind} for table {t}: {e}") (ruleList env v)
    simp only [tableIdToU8_ok ht, ht, if_true]
    rw [← bind_assoc]
    by_cases hc : Listed env (ruleList env .v4) k
    · obtain ⟨m, hm⟩ := (hloop .v4 "policy rules" 0 k).1 hc
      rw [if_pos hc]
      have h6 := hloop .v6 "IPv6 policy rules" m (rulePass env t .v4 k)
      by_cases hc6 : Listed env (ruleList env .v6) (rulePass env t .v4 k)
      · obtain ⟨m6, hm6⟩ := h6.1 hc6
        exact after_ok ((bind_ok hm).trans hm6)
      · obtain ⟨e, he⟩ := h6.2 hc6
        exact after_error ((bind_ok hm).trans he)
    · obtain ⟨e, he⟩ := (hloop .v4 "policy rules" 0 k).2 hc
      rw [if_neg hc]
      exact after_error (bind_error he)
  · obtain ⟨e, he⟩ := tableIdToU8_error ht
    simp only [he, ht, if_false]
    rfl

/-! ### Flushing a table completely -/

def flushComplete (env : Env) (rm : RouteManager) (k : KernelState) (t : ℕ) : KernelState :=
  after (rm.flushTableComplete env.plain t) k

/- The policy rules that `flush_table_complete` deletes: none where the flush of the
routes fails. -/
def completeRules (env : Env) (t : ℕ) (k : KernelState) : List PolicyRule :=
  if t ≤ 255 ∧ Listed env (routeList env t) k then ruleDeletes env t (flushed env t k) else []

theorem flushComplete_eq (env : Env) {rm : RouteManager} (hl : Live rm) (t : ℕ)
    (k : KernelState) : flushComplete env rm k t =
      if t ≤ 255 ∧ Listed env (routeList env t) k then rulesFlushed env t (flushed env t k)
      else flushed env t k := by
  have hspec := flushTable_spec env hl t k
  have hrules := flushTablePolicyRules_after env hl t (flushed env t k)
  unfold flushComplete RouteManager.flushTableComplete
  split_ifs with hc
  · obtain ⟨n, hn⟩ := hspec.1 hc
    cases hy : rm.flushTablePolicyRules env.plain t (flushed env t k) with
    | error e k2 =>
      rw [after_error hy] at hrules
      rw [after_error ((bind_ok hn).trans (bind_error hy)), hrules]
    | ok m k2 =>
      rw [after_ok hy] at hrules
      rw [after, bind_ok hn, bind_ok hy]
      exact hrules
  · obtain ⟨e, he⟩ := hspec.2 hc
    exact after_error (bind_error he)

theorem mem_flushComplete {rm : RouteManager} (hl : Live rm) (t : ℕ) (k : KernelState)
    (q : Route) :
    q ∈ (flushComplete env rm k t).routes ↔ q ∈ k.routes ∧ q ∉ flushDeletes env t k := by
  rw [flushComplete_eq env hl, ← mem_flushed]
  split_ifs
  · rw [rulesFlushed_routes]
  · rfl

theorem mem_flushComplete_rules {rm : RouteManager} (hl : Live rm) (t : ℕ) (k : KernelState)
    (p : PolicyRule) :
    p ∈ (flushComplete env rm k t).rules ↔ p ∈ k.rules ∧ p ∉ completeRules env t k := by
  rw [flushComplete_eq env hl]
  unfold completeRules
  split_ifs
  · rw [mem_rulesFlushed, flushed_rules]
  · rw [flushed_rules]
    exact (and_iff_left List.not_mem_nil).symm

/-! ### The startup cleanup -/

theorem flushTables_after (env : Env) (rm : RouteManager) (tables : List ℕ) (k : KernelState) :
    after (Dispatch.flushTables env.plain rm tables) k =
      run (flushComplete env rm) k tables := by
  induction tables generalizing k with
  | nil => rfl
  | cons t rest ih =>
    rw [Dispatch.flushTables, run_cons, ← ih]
    exact after_attempt_bind _ _ k

/- Only the kernel changes. -/
theorem sweep_after (env : Env) (s : ExecutorState KernelState) :
    after (Dispatch.sweepStaleTables env.plain) s =
      { s with
        kernel := run (flushComplete env s.executor.routeManager) s.kernel
          (Dispatch.staleTables (s.executor.routeManager.tableIdV4 0))
        history := ⟨.cleanup, s.executor, s.kernel, true⟩ :: s.history } := by
  obtain ⟨k, hk⟩ := flushTables_returns env.plain s.executor.routeManager
    (Dispatch.staleTables (s.executor.routeManager.tableIdV4 0)) s.kernel
  rw [← flushTables_after, after_ok hk]
  unfold Dispatch.sweepStaleTables
  rw [after, recorded_ok ((bind_ok (RuleExecutor.readExecutor_ok s)).trans (onKernel_ok hk))]

/- A sweep adds nothing. -/
theorem swept_shrinks (env : Env) {rm : RouteManager} (hl : Live rm) (tables : List ℕ)
    (k : KernelState) :
    (∀ p ∈ (run (flushComplete env rm) k tables).rules, p ∈ k.rules) ∧
      ∀ q ∈ (run (flushComplete env rm) k tables).routes, q ∈ k.routes := by
  induction tables generalizing k with
  | nil => exact ⟨fun _ hp => hp, fun _ hq => hq⟩
  | cons t rest ih =>
    obtain ⟨hrules, hroutes⟩ := ih (flushComplete env rm k t)
    refine ⟨fun p hp => ?_, fun q hq => ?_⟩
    · exact ((mem_flushComplete_rules hl t k p).mp (hrules p hp)).1
    · exact ((mem_flushComplete hl t k q).mp (hroutes q hq)).1

end NicAutoswitch.Kernel
