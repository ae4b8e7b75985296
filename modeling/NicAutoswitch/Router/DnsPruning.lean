import NicAutoswitch.Router.DnsLookups

/-!
# Pruning the DNS cache

An entry that has expired is not served, and it never becomes fresh again. Of two resolvers
that differ in such entries alone, the calls make the same steps.
-/

namespace NicAutoswitch.Router.Dns
open HashMaps Transition DnsResolver

namespace DnsResolver

/- The entry that a check of the cache would serve. -/
def fresh (r : DnsResolver) (domain : String) : Option CacheEntry :=
  (r.cache.lookup domain).filter fun entry => !entry.isExpired r.now

/- The number of entries, and how many of them have expired. -/
end DnsResolver

/-- The resolvers differ in their expired entries alone. -/
def Alike (r r' : DnsResolver) : Prop :=
  ∃ cache, r' = { r with cache := cache } ∧ ∀ domain, r'.fresh domain = r.fresh domain

/- The steps other than pruning. -/
def Act.kept : Act → Bool
  | .pruneCache => false
  | .call _ | .resume _ _ | .clearCache | .tick _ => true

variable {r r' : DnsResolver}

/-! ### What a check finds -/

theorem cached_eq (r : DnsResolver) (domain : String) :
    r.cached domain = (r.fresh domain).map CacheEntry.addresses := by
  unfold cached fresh
  cases r.cache.lookup domain with
  | none => rfl
  | some e =>
    rw [Option.filter_some]
    cases he : e.isExpired r.now with
    | true => simp only [he, if_true, Bool.not_true, Bool.false_eq_true, if_false, Option.map_none]
    | false => simp only [he, Bool.false_eq_true, if_false, Bool.not_false, if_true, Option.map_some]

theorem fresh_iff (r : DnsResolver) (domain : String) (e : CacheEntry) :
    r.fresh domain = some e ↔
      r.cache.lookup domain = some e ∧ r.now ≤ e.createdAt + e.ttl * nanosPerSec := by
  unfold fresh
  rw [Option.filter_eq_some_iff, not_expired_iff]

/- What is fresh later is fresh now. -/
theorem fresh_later (r : DnsResolver) (nanos : ℕ) (domain : String) :
    { r with now := r.now + nanos }.fresh domain =
      (r.fresh domain).filter fun entry => !entry.isExpired (r.now + nanos) := by
  unfold fresh
  dsimp only
  rw [Option.filter_filter]
  refine congrArg (Option.filter · (r.cache.lookup domain)) (funext fun e => ?_)
  rw [Bool.eq_iff_iff, Bool.and_eq_true, not_expired_iff, not_expired_iff]
  omega

theorem fresh_pruneCache (r : DnsResolver) (domain : String) :
    r.pruneCache.fresh domain = r.fresh domain := by
  refine Option.ext fun e => ?_
  rw [fresh_iff, fresh_iff, lookup_pruneCache]
  exact ⟨fun h => h.1, fun h => ⟨h, h.2⟩⟩

/-! ### Steps -/

theorem Alike.refl (r : DnsResolver) : Alike r r := ⟨r.cache, rfl, fun _ => rfl⟩

theorem Alike.check (h : Alike r r') (t : Task) : r'.check t = r.check t := by
  obtain ⟨cache, rfl, hfresh⟩ := h
  unfold DnsResolver.check
  rw [cached_eq, cached_eq, hfresh]

/- The answer of a call is inserted into both caches. -/
theorem Alike.insert (h : Alike r r') (domain : String) (e : CacheEntry) (permits : ℕ)
    (tasks : List Task) (insertions : List Insertion) :
    Alike
      { r with
        cache := r.cache.insert domain e
        permits := permits
        tasks := tasks
        insertions := insertions }
      { r' with
        cache := r'.cache.insert domain e
        permits := permits
        tasks := tasks
        insertions := insertions } := by
  obtain ⟨cache, rfl, hfresh⟩ := h
  refine ⟨cache.insert domain e, rfl, fun domain' => ?_⟩
  have hold := hfresh domain'
  unfold fresh at hold ⊢
  dsimp only at hold ⊢
  rw [lookup_insert_eq_ite, lookup_insert_eq_ite]
  split_ifs
  · rfl
  · exact hold

theorem Alike.proceed (h : Alike r r') (i : ℕ) (t : Task)
    (answer : Except String (List IpAddr)) :
    Alike (r.proceed i t answer) (r'.proceed i t answer) := by
  obtain ⟨cache, rfl, hfresh⟩ := id h
  cases hs : t.stage with
  | checking =>
    rw [proceed_checking hs, proceed_checking hs, h.check t]
    exact ⟨cache, rfl, hfresh⟩
  | waiting =>
    rw [proceed_waiting hs, proceed_waiting hs]
    split_ifs
    · exact h
    · exact ⟨cache, rfl, hfresh⟩
  | querying =>
    unfold DnsResolver.proceed
    rw [hs]
    rcases answer with e | (_ | ⟨a, rest⟩)
    · exact ⟨cache, rfl, hfresh⟩
    · exact ⟨cache, rfl, hfresh⟩
    · exact ⟨cache, rfl, hfresh⟩
  | answered addresses =>
    rw [proceed_answered hs, proceed_answered hs]
    exact h.insert t.domain ⟨addresses, r.now, r.defaultTtl⟩ _ _ _
  | done result =>
    rw [proceed_done hs, proceed_done hs]
    exact h

theorem Alike.prune (h : Alike r r') : Alike r.pruneCache r' := by
  obtain ⟨cache, rfl, hfresh⟩ := h
  exact ⟨cache, rfl, fun domain => (hfresh domain).trans (fresh_pruneCache r domain).symm⟩

theorem Alike.step (h : Alike r r') (act : Act) : Alike (step r act) (step r' act) := by
  obtain ⟨cache, rfl, hfresh⟩ := id h
  cases act with
  | call domain => exact ⟨cache, rfl, hfresh⟩
  | resume i answer =>
    simp only [Dns.step]
    split
    · exact h.proceed i _ answer
    · exact h
  | clearCache => exact ⟨∅, rfl, fun _ => rfl⟩
  | pruneCache =>
    refine ⟨_, rfl, fun domain => ?_⟩
    exact (fresh_pruneCache _ domain).trans ((hfresh domain).trans (fresh_pruneCache r domain).symm)
  | tick nanos =>
    refine ⟨cache, rfl, fun domain => ?_⟩
    have hlater := fresh_later r nanos domain
    have hlater' := fresh_later { r with cache := cache } nanos domain
    rw [hfresh] at hlater'
    exact hlater'.trans hlater.symm

/-! ### Runs -/

/- Whenever and however often the cache is pruned, the calls make the steps, send the lookups and
return the results that they would without it, and each domain is served from the cache as it
would be. -/
theorem prune_transparent (r : DnsResolver) (acts : List Act) :
    (run step r acts).tasks = (run step r (acts.filter Act.kept)).tasks ∧
      (run step r acts).lookups = (run step r (acts.filter Act.kept)).lookups ∧
      ∀ domain, (run step r acts).cached domain =
        (run step r (acts.filter Act.kept)).cached domain := by
  have halike : Alike (run step r acts) (run step r (acts.filter Act.kept)) := by
    refine run_purge step Alike Act.kept (fun _ _ act _ h => h.step act) (fun s t act hp h => ?_)
      r r acts (.refl r)
    cases act with
    | pruneCache => exact h.prune
    | call _ | resume _ _ | clearCache | tick _ => cases hp
  generalize run step r (acts.filter Act.kept) = bare at halike ⊢
  obtain ⟨cache, rfl, hfresh⟩ := halike
  refine ⟨rfl, rfl, fun domain => ?_⟩
  rw [cached_eq, cached_eq, hfresh]

/-! ### Permits -/

/- The calls whose lookup has been sent and whose permit has not been given back. -/
def DnsResolver.inFlight (r : DnsResolver) : ℕ := r.tasks.countP fun t => t.stage.asking

theorem inFlight_proceed {i : ℕ} {t : Task} (ht : r.tasks[i]? = some t)
    (answer : Except String (List IpAddr)) :
    (r.proceed i t answer).inFlight + (r.proceed i t answer).permits = r.inFlight + r.permits := by
  have hset : ∀ (t' : Task) (a b : ℕ), t.stage.asking.toNat = a → t'.stage.asking.toNat = b →
      { r with tasks := r.tasks.set i t' }.inFlight + a = r.inFlight + b := by
    rintro t' a b rfl rfl
    exact countP_set_add (fun t => t.stage.asking) ht
  unfold inFlight at hset ⊢
  dsimp only at hset
  cases hs : t.stage with
  | checking =>
    have hc := hset (r.check t) 0 0 (by rw [hs]; rfl) (by rw [check_asking]; rfl)
    rw [proceed_checking hs]
    dsimp only
    omega
  | waiting =>
    have hc := hset { t with stage := .querying } 0 1 (by rw [hs]; rfl) rfl
    rw [proceed_waiting hs]
    split_ifs with hp
    · rfl
    · dsimp only
      omega
  | querying =>
    have ha : t.stage.asking.toNat = 1 := by rw [hs]; rfl
    unfold DnsResolver.proceed
    rw [hs]
    rcases answer with e | (_ | ⟨a, rest⟩)
    · have hc := hset { t with stage := .done (.error (failedToResolve t.domain e)) } 1 0 ha rfl
      dsimp only
      omega
    · have hc := hset { t with stage := .done (.error (noAddressesFound t.domain)) } 1 0 ha rfl
      dsimp only
      omega
    · have hc := hset { t with stage := .answered (a :: rest), answer := some (a :: rest) } 1 1 ha rfl
      dsimp only
      omega
  | answered addresses =>
    have hc := hset { t with stage := .done (.ok addresses) } 1 0 (by rw [hs]; rfl) rfl
    rw [proceed_answered hs]
    dsimp only
    omega
  | done result => rw [proceed_done hs]

/- In every run each permit is free or held by a call whose lookup is in flight: no more than ten
lookups are ever in flight, and no permit is lost. -/
theorem permits_conserved (ttl : ℕ) (acts : List Act) :
    Throughout step (fun r => r.inFlight + r.permits = maxConcurrentDnsQueries) (.withConfig ttl)
      acts := by
  intro pre _
  refine run_preserves step (fun r => r.inFlight + r.permits = maxConcurrentDnsQueries)
    (fun r act h => ?_) (.withConfig ttl) pre rfl
  cases act with
  | call domain =>
    unfold inFlight at h ⊢
    simp only [step, List.countP_append, List.countP_singleton, Stage.asking, Bool.false_eq_true,
      if_false, Nat.add_zero]
    exact h
  | resume i answer =>
    refine resume_rec (P := fun r => r.inFlight + r.permits = maxConcurrentDnsQueries) h
      fun t ht => ?_
    rw [inFlight_proceed ht]
    exact h
  | clearCache => exact h
  | pruneCache => exact h
  | tick nanos => exact h

end NicAutoswitch.Router.Dns
