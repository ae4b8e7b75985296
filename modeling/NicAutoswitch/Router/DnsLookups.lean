import Mathlib.Data.List.Count
import NicAutoswitch.Router.Dns

/-!
# How often a domain is looked up

The cache is checked before the permit is acquired and not again: every call that checks
before the first answer is inserted makes a lookup of its own.
-/

namespace NicAutoswitch.Router.Dns
open HashMaps Transition DnsResolver

def Stage.unchecked : Stage → Bool
  | .checking => true
  | .waiting | .querying | .answered _ | .done _ => false

/- A call that did not find its domain in the cache and has not returned. -/
def Stage.pending : Stage → Bool
  | .waiting | .querying | .answered _ => true
  | .checking | .done _ => false

/- A call whose lookup has been sent and whose answer is not in the cache yet. -/
def Stage.asking : Stage → Bool
  | .querying | .answered _ => true
  | .checking | .waiting | .done _ => false

def Task.isCall (domain : String) (p : Stage → Bool) (t : Task) : Bool :=
  decide (t.domain = domain) && p t.stage

namespace DnsResolver

/- The calls for `domain` that are in a stage. -/
def calls (r : DnsResolver) (domain : String) (p : Stage → Bool) : ℕ :=
  r.tasks.countP (Task.isCall domain p)

def inserted (r : DnsResolver) (domain : String) : ℕ :=
  r.insertions.countP fun ins => decide (ins.domain = domain)

/- The calls for `domain` that did not find it in the cache and made, or will make, a lookup. -/
def misses (r : DnsResolver) (domain : String) : ℕ :=
  r.calls domain Stage.pending + r.inserted domain

/- Nothing is known of `domain`. -/
structure Unasked (r : DnsResolver) (domain : String) : Prop where
  cache : r.cache.lookup domain = none
  tasks : ∀ t ∈ r.tasks, t.domain ≠ domain
  insertions : ∀ ins ∈ r.insertions, ins.domain ≠ domain
  lookups : domain ∉ r.lookups

def AllReturned (r : DnsResolver) (domain : String) : Prop :=
  ∀ t ∈ r.tasks, t.domain = domain → t.Returned

end DnsResolver

/- The step is made before the deadline, its lookup succeeds and it does not clear the cache. -/
def Succeeding (deadline : ℕ) (r : DnsResolver) (act : Act) : Prop :=
  r.now < deadline ∧
    match act with
    | .resume _ (.ok (_ :: _)) => True
    | .resume _ _ | .clearCache => False
    | .call _ | .pruneCache | .tick _ => True

instance (deadline : ℕ) (r : DnsResolver) (act : Act) : Decidable (Succeeding deadline r act) :=
  match act with
  | .resume _ (.ok (_ :: _)) | .call _ | .pruneCache | .tick _ =>
    inferInstanceAs (Decidable (_ ∧ True))
  | .resume _ (.ok []) | .resume _ (.error _) | .clearCache => inferInstanceAs (Decidable (_ ∧ False))

/- The step is the check of the cache by a call for `domain`. -/
def checks (domain : String) (r : DnsResolver) : Act → Bool
  | .resume i _ => r.tasks[i]?.any (Task.isCall domain Stage.unchecked)
  | _ => false

/- No call for `domain` checks the cache while another one is between its own check and the
insertion of its answer. -/
def ChecksAlone (domain : String) (r : DnsResolver) (act : Act) : Prop :=
  checks domain r act = true → r.calls domain Stage.pending = 0

/-- `cached` holds until the deadline of the entry. -/
structure Tally (domain : String) (deadline : ℕ) (r : DnsResolver) : Prop where
  lasting : deadline ≤ r.now + r.defaultTtl * nanosPerSec
  cached : (r.cache.lookup domain).isSome ↔ 0 < r.inserted domain
  fresh : ∀ e, r.cache.lookup domain = some e → deadline ≤ e.createdAt + e.ttl * nanosPerSec
  sent : r.lookups.count domain = r.calls domain Stage.asking + r.inserted domain

instance (domain : String) (r : DnsResolver) (act : Act) : Decidable (ChecksAlone domain r act) :=
  inferInstanceAs (Decidable (_ → _))

variable {r : DnsResolver} {domain : String} {deadline : ℕ}

theorem countP_set_add {α : Type} (p : α → Bool) {l : List α} {i : ℕ} {a b : α}
    (ha : l[i]? = some a) :
    (l.set i b).countP p + (p a).toNat = l.countP p + (p b).toNat := by
  obtain ⟨hi, rfl⟩ := List.getElem?_eq_some_iff.mp ha
  have hle := List.boole_getElem_le_countP (p := p) hi
  rw [List.countP_set hi]
  cases hpi : p l[i] <;> rw [hpi] at hle <;> cases p b <;>
    simp only [Bool.toNat_true, Bool.toNat_false, if_true, Bool.false_eq_true, if_false] at hle ⊢ <;>
    omega

theorem calls_call (r : DnsResolver) (d : String) (domain : String) (p : Stage → Bool)
    (hp : p .checking = false) : (step r (.call d)).calls domain p = r.calls domain p := by
  have hc : Task.isCall domain p { domain := d } = false := by
    unfold Task.isCall
    rw [hp, Bool.and_false]
  unfold calls step
  rw [List.countP_append, List.countP_singleton, hc]
  rfl

theorem check_domain (r : DnsResolver) (t : Task) : (r.check t).domain = t.domain := by
  unfold check
  split <;> rfl

theorem check_pending (r : DnsResolver) (t : Task) :
    (r.check t).stage.pending = (r.cached t.domain).isNone := by
  unfold check
  cases r.cached t.domain <;> rfl

theorem check_asking (r : DnsResolver) (t : Task) : (r.check t).stage.asking = false := by
  unfold check
  cases r.cached t.domain <;> rfl

/- A check that finds nothing is a miss, and there is no other. -/
theorem misses_proceed {i : ℕ} {t : Task} (ht : r.tasks[i]? = some t) (a : IpAddr)
    (rest : List IpAddr) :
    (r.proceed i t (.ok (a :: rest))).misses domain = r.misses domain +
      (t.isCall domain Stage.unchecked && (r.cached domain).isNone).toNat := by
  unfold misses calls inserted
  have hset := fun t' => countP_set_add (Task.isCall domain Stage.pending) (b := t') ht
  cases hs : t.stage with
  | checking =>
    have hc := hset (r.check t)
    rw [proceed_checking hs]
    simp only [Task.isCall, hs, check_domain, check_pending] at hc ⊢
    by_cases hd : t.domain = domain <;> simp [hd, Stage.pending, Stage.unchecked] at hc ⊢ <;> omega
  | waiting =>
    have hc := hset { t with stage := .querying }
    rw [proceed_waiting hs]
    split
    · simp [Task.isCall, hs, Stage.unchecked]
    · simp [Task.isCall, hs, Stage.pending, Stage.unchecked] at hc ⊢
      omega
  | querying =>
    have hc := hset { t with stage := .answered (a :: rest), answer := some (a :: rest) }
    rw [proceed_querying hs]
    simp [Task.isCall, hs, Stage.pending, Stage.unchecked] at hc ⊢
    omega
  | answered addresses =>
    have hc := hset { t with stage := .done (.ok addresses) }
    rw [proceed_answered hs]
    simp [Task.isCall, hs, Stage.pending, Stage.unchecked] at hc ⊢
    rw [List.countP_cons]
    by_cases hd : t.domain = domain <;> simp [hd] at hc ⊢ <;> omega
  | done result =>
    rw [proceed_done hs]
    simp [Task.isCall, hs, Stage.unchecked]

/- A lookup that is sent is counted as long as its answer is on the way, and then as an insertion. -/
theorem sent_proceed {i : ℕ} {t : Task} (ht : r.tasks[i]? = some t) (a : IpAddr)
    (rest : List IpAddr)
    (h : r.lookups.count domain = r.calls domain Stage.asking + r.inserted domain) :
    (r.proceed i t (.ok (a :: rest))).lookups.count domain =
      (r.proceed i t (.ok (a :: rest))).calls domain Stage.asking +
        (r.proceed i t (.ok (a :: rest))).inserted domain := by
  unfold calls inserted at h ⊢
  have hset := fun t' => countP_set_add (Task.isCall domain Stage.asking) (b := t') ht
  cases hs : t.stage with
  | checking =>
    have hc := hset (r.check t)
    rw [proceed_checking hs]
    simp only [Task.isCall, hs, check_asking] at hc ⊢
    simp [Stage.asking] at hc ⊢
    omega
  | waiting =>
    have hc := hset { t with stage := .querying }
    rw [proceed_waiting hs]
    split
    · exact h
    · simp [Task.isCall, hs, Stage.asking] at hc ⊢
      rw [List.count_cons]
      by_cases hd : t.domain = domain <;> simp [hd] at hc ⊢ <;> omega
  | querying =>
    have hc := hset { t with stage := .answered (a :: rest), answer := some (a :: rest) }
    rw [proceed_querying hs]
    simp [Task.isCall, hs, Stage.asking] at hc ⊢
    omega
  | answered addresses =>
    have hc := hset { t with stage := .done (.ok addresses) }
    rw [proceed_answered hs]
    simp [Task.isCall, hs, Stage.asking] at hc ⊢
    rw [List.countP_cons]
    by_cases hd : t.domain = domain <;> simp [hd] at hc ⊢ <;> omega
  | done result =>
    rw [proceed_done hs]
    exact h

theorem Tally.proceed (h : Tally domain deadline r) {i : ℕ} {t : Task}
    (ht : r.tasks[i]? = some t) (a : IpAddr) (rest : List IpAddr) :
    Tally domain deadline (r.proceed i t (.ok (a :: rest))) := by
  have hsent := sent_proceed ht a rest h.sent
  cases hs : t.stage with
  | checking =>
    rw [proceed_checking hs] at hsent ⊢
    exact ⟨h.lasting, h.cached, h.fresh, hsent⟩
  | waiting =>
    rw [proceed_waiting hs] at hsent ⊢
    split
    · exact h
    · next hp =>
      rw [if_neg hp] at hsent
      exact ⟨h.lasting, h.cached, h.fresh, hsent⟩
  | querying =>
    rw [proceed_querying hs] at hsent ⊢
    exact ⟨h.lasting, h.cached, h.fresh, hsent⟩
  | answered addresses =>
    rw [proceed_answered hs] at hsent ⊢
    refine ⟨h.lasting, ?_, ?_, hsent⟩
    · unfold inserted
      rw [lookup_insert_eq_ite, List.countP_cons]
      by_cases hd : t.domain = domain
      · simp [hd]
      · simp only [Ne.symm hd, if_false, hd, decide_false, Bool.false_eq_true, Nat.add_zero]
        exact h.cached
    · intro e he
      rw [lookup_insert_eq_ite] at he
      split at he
      · obtain rfl := Option.some.inj he
        exact h.lasting
      · exact h.fresh e he
  | done result =>
    rw [proceed_done hs]
    exact h

/- Before the deadline the entry has not expired. -/
theorem Tally.lookup_pruneCache (h : Tally domain deadline r) (hnow : r.now < deadline) :
    r.pruneCache.cache.lookup domain = r.cache.lookup domain := by
  refine Option.ext fun e => (Dns.lookup_pruneCache r domain e).trans ?_
  apply Iff.intro
  · exact And.left
  · intro he
    exact ⟨he, hnow.le.trans (h.fresh e he)⟩

theorem Tally.cached_isNone (h : Tally domain deadline r) (hnow : r.now < deadline) :
    (r.cached domain).isNone = decide (r.inserted domain = 0) := by
  have hc := h.cached
  unfold DnsResolver.cached
  cases hl : r.cache.lookup domain with
  | none =>
    rw [hl] at hc
    simp at hc ⊢
    omega
  | some e =>
    have he := (not_expired_iff e r.now).mpr (hnow.le.trans (h.fresh e hl))
    rw [hl] at hc
    simp at hc he ⊢
    rw [he]
    simp
    omega

theorem Tally.step (h : Tally domain deadline r) {act : Act} (ha : Succeeding deadline r act) :
    Tally domain deadline (step r act) := by
  obtain ⟨hnow, hact⟩ := ha
  match act, hact with
  | .call d, _ =>
    refine ⟨h.lasting, h.cached, h.fresh, ?_⟩
    rw [calls_call r d domain Stage.asking rfl]
    exact h.sent
  | .resume i (.ok (a :: rest)), _ =>
    exact resume_rec (P := Tally domain deadline) h fun t ht => h.proceed ht a rest
  | .pruneCache, _ =>
    have hl : (Dns.step r .pruneCache).cache.lookup domain = r.cache.lookup domain :=
      h.lookup_pruneCache hnow
    exact ⟨h.lasting, by rw [hl]; exact h.cached, by rw [hl]; exact h.fresh, h.sent⟩
  | .tick nanos, _ =>
    exact ⟨h.lasting.trans (Nat.add_le_add_right (Nat.le_add_right r.now nanos) _), h.cached,
      h.fresh, h.sent⟩

theorem misses_step {act : Act} (ha : Succeeding deadline r act) :
    (step r act).misses domain =
      r.misses domain + (checks domain r act && (r.cached domain).isNone).toNat := by
  obtain ⟨_, hact⟩ := ha
  match act, hact with
  | .call d, _ => exact congrArg (· + r.inserted domain) (calls_call r d domain Stage.pending rfl)
  | .resume i (.ok (a :: rest)), _ =>
    cases ht : r.tasks[i]? with
    | none =>
      rw [step_resume_none ht]
      simp [checks, ht]
    | some t =>
      rw [step_resume ht, misses_proceed ht a rest]
      simp only [checks, ht, Option.any_some]
  | .pruneCache, _ => rfl
  | .tick _, _ => rfl

/- One step leaves at most one miss exactly if a check is not made beside another call. -/
theorem misses_step_iff (h : Tally domain deadline r) {act : Act}
    (ha : Succeeding deadline r act) (hm : r.misses domain ≤ 1) :
    (step r act).misses domain ≤ 1 ↔ ChecksAlone domain r act := by
  rw [misses_step ha, h.cached_isNone ha.1]
  unfold ChecksAlone
  unfold misses at hm ⊢
  cases checks domain r act with
  | false => simp [hm]
  | true =>
    by_cases hi : r.inserted domain = 0
    · simp [hi]
    · simp [hi]
      omega

theorem DnsResolver.Unasked.tally (h : r.Unasked domain) :
    Tally domain (r.now + r.defaultTtl * nanosPerSec) r ∧ r.misses domain = 0 := by
  have hcalls : ∀ p, r.calls domain p = 0 := by
    intro p
    refine List.countP_eq_zero.mpr fun t ht => ?_
    simp [Task.isCall, h.tasks t ht]
  have hins : r.inserted domain = 0 :=
    List.countP_eq_zero.mpr fun ins hi => by simp [h.insertions ins hi]
  refine ⟨⟨le_rfl, ?_, ?_, ?_⟩, ?_⟩
  · rw [h.cache, hins]
    exact ⟨nofun, nofun⟩
  · rw [h.cache]
    exact nofun
  · rw [List.count_eq_zero.mpr h.lookups, hcalls, hins]
  · unfold misses
    rw [hcalls, hins]

theorem calls_asking_le (r : DnsResolver) (domain : String) :
    r.calls domain Stage.asking ≤ r.calls domain Stage.pending := by
  refine List.countP_mono_left fun t _ h => ?_
  unfold Task.isCall at h ⊢
  cases hs : t.stage <;> simp [hs, Stage.asking, Stage.pending] at h ⊢ <;> exact h

theorem DnsResolver.AllReturned.calls_eq_zero (h : r.AllReturned domain) (p : Stage → Bool)
    (hp : ∀ result, p (.done result) = false) : r.calls domain p = 0 := by
  refine List.countP_eq_zero.mpr fun t ht => ?_
  unfold Task.isCall
  by_cases hd : t.domain = domain
  · obtain ⟨result, hr⟩ := h t ht hd
    simp [hr, hp]
  · simp [hd]

/- A domain is looked up once where its calls check the cache one after another; when all of
them have returned, only there. -/
theorem looked_up_once_iff (domain : String) (r : DnsResolver) (acts : List Act)
    (h : r.Unasked domain)
    (ha : Along step (Succeeding (r.now + r.defaultTtl * nanosPerSec)) r acts) :
    (Along step (ChecksAlone domain) r acts →
      Throughout step (fun r => r.lookups.count domain ≤ 1) r acts) ∧
    ((run step r acts).AllReturned domain →
      ((run step r acts).lookups.count domain ≤ 1 ↔ Along step (ChecksAlone domain) r acts)) := by
  obtain ⟨htally, hzero⟩ := h.tally
  have hinv : Throughout step (Tally domain (r.now + r.defaultTtl * nanosPerSec)) r acts :=
    throughout_of_along step _ _ (fun _ _ hi hc => hi.step hc) r acts htally ha
  have hiff : Throughout step (fun r => r.misses domain ≤ 1) r acts ↔
      Along step (ChecksAlone domain) r acts :=
    throughout_iff_along_of_along step (Tally domain (r.now + r.defaultTtl * nanosPerSec)) _ _ _
      (fun _ _ hc hi => hi.step hc)
      (fun _ _ hc hi hm => misses_step_iff hi hc hm) r acts ha htally
      (by rw [hzero]; exact Nat.zero_le 1)
  constructor
  · intro hc pre hpre
    have hsent := (hinv pre hpre).sent
    have hm := hiff.mpr hc pre hpre
    have hle := calls_asking_le (run step r pre) domain
    unfold misses at hm
    omega
  · intro hret
    have hsent := (hinv acts (List.prefix_refl acts)).sent
    have hmisses : (run step r acts).misses domain = (run step r acts).lookups.count domain := by
      unfold misses
      rw [hsent, hret.calls_eq_zero Stage.pending fun _ => rfl,
        hret.calls_eq_zero Stage.asking fun _ => rfl]
    rw [← hmisses, ← hiff]
    apply Iff.intro
    · refine throughout_of_run step (fun r => r.misses domain ≤ 1) _ (fun s act hc hm => ?_) r
        acts ha
      rw [misses_step hc] at hm
      exact (Nat.le_add_right _ _).trans hm
    · intro ht
      exact ht acts (List.prefix_refl acts)

/-! ### Two calls -/

def localhost : IpAddr := .v4 0x7f000001#32

/- Two calls check the cache before either of them has its answer. -/
def together : List Act :=
  [.call "example.com", .call "example.com",
    .resume 0 (.ok [localhost]), .resume 1 (.ok [localhost]),
    .resume 0 (.ok [localhost]), .resume 1 (.ok [localhost]),
    .resume 0 (.ok [localhost]), .resume 1 (.ok [localhost]),
    .resume 0 (.ok [localhost]), .resume 1 (.ok [localhost])]

/- The second call begins when the first has returned. -/
def inTurn : List Act :=
  .call "example.com" :: List.replicate 4 (.resume 0 (.ok [localhost])) ++
    [.call "example.com", .resume 1 (.ok [localhost])]

theorem withConfig_unasked (ttl : ℕ) (domain : String) : (withConfig ttl).Unasked domain :=
  ⟨rfl, nofun, nofun, nofun⟩

theorem together_looks_up_twice :
    (withConfig 60).Unasked "example.com" ∧
    Along step (Succeeding (60 * nanosPerSec)) (withConfig 60) together ∧
    (run step (withConfig 60) together).AllReturned "example.com" ∧
    (run step (withConfig 60) together).lookups.count "example.com" = 2 := by
  refine ⟨withConfig_unasked 60 "example.com", by decide +kernel, ?_, by decide +kernel⟩
  have htasks : (run step (withConfig 60) together).tasks = List.replicate 2
      ⟨"example.com", .done (.ok [localhost]), some 0, some [localhost]⟩ := rfl
  unfold AllReturned
  rw [htasks]
  intro t ht _
  exact ⟨_, congrArg Task.stage (List.eq_of_mem_replicate ht)⟩

theorem looked_up_once_inTurn :
    Throughout step (fun r => r.lookups.count "example.com" ≤ 1) (withConfig 60) inTurn :=
  (looked_up_once_iff "example.com" (withConfig 60) inTurn (withConfig_unasked 60 "example.com")
    (by decide +kernel)).1 (by decide +kernel)

end NicAutoswitch.Router.Dns
