import NicAutoswitch.Error
import NicAutoswitch.Ip
import NicAutoswitch.Lib.HashMaps
import NicAutoswitch.Lib.Run

/-!
# DNS resolution with caching (router/dns.rs)

Each call of `resolve` is a task. The cache is locked for its check and again for the
insertion of the answer, and between the two the task waits for a permit and for its
lookup; other tasks make their steps meanwhile. The answer of a lookup is an argument of
the step that receives it.
-/

namespace NicAutoswitch.Router.Dns
open HashMaps Transition

def maxConcurrentDnsQueries : ℕ := 10

/- The clock counts nanoseconds. -/
def nanosPerSec : ℕ := 1000000000

structure CacheEntry where
  addresses : List IpAddr
  createdAt : ℕ
  ttl : ℕ
  deriving Repr, DecidableEq

def CacheEntry.isExpired (e : CacheEntry) (now : ℕ) : Bool :=
  decide (e.ttl * nanosPerSec < now - e.createdAt)

/- What a call of `resolve` does next: it checks the cache, takes a permit and sends its lookup,
receives the answer, inserts the answer into the cache; or it has returned. -/
inductive Stage where
  | checking
  | waiting
  | querying
  | answered (addresses : List IpAddr)
  | done (result : Except NicAutoSwitchError (List IpAddr))

/-- `checkedAt` and `answer` are auxiliary variables: when the call has checked the cache, and
the addresses that its own lookup has given. -/
structure Task where
  domain : String
  stage : Stage := .checking
  checkedAt : Option ℕ := none
  answer : Option (List IpAddr) := none

def Task.Returned (t : Task) : Prop := ∃ result, t.stage = .done result

/- An insertion into the cache, by the task at a position. -/
structure Insertion where
  caller : ℕ
  domain : String
  addresses : List IpAddr
  time : ℕ

/-- `insertions` and `lookups` are auxiliary variables: the insertions into the cache, and the
domains looked up, newest first. -/
structure DnsResolver where
  cache : HashMap String CacheEntry := ∅
  permits : ℕ := maxConcurrentDnsQueries
  defaultTtl : ℕ
  now : ℕ := 0
  tasks : List Task := []
  insertions : List Insertion := []
  lookups : List String := []

namespace DnsResolver

/- `DnsResolver::with_config` -/
def withConfig (defaultTtl : ℕ) : DnsResolver := { defaultTtl }

/- What the check of the cache finds. -/
def cached (r : DnsResolver) (domain : String) : Option (List IpAddr) :=
  match r.cache.lookup domain with
  | some entry => if entry.isExpired r.now then none else some entry.addresses
  | none => none

def check (r : DnsResolver) (t : Task) : Task :=
  match r.cached t.domain with
  | some addresses => { t with stage := .done (.ok addresses), checkedAt := some r.now }
  | none => { t with stage := .waiting, checkedAt := some r.now }

def failedToResolve (domain e : String) : NicAutoSwitchError :=
  .dns s!"Failed to resolve {domain}: {e}"

def noAddressesFound (domain : String) : NicAutoSwitchError :=
  .dns s!"No addresses found for {domain}"

/- The task at position `i` makes its next step. The semaphore is never closed; the permit is
given back when the call returns. -/
def proceed (r : DnsResolver) (i : ℕ) (t : Task) (answer : Except String (List IpAddr)) :
    DnsResolver :=
  match t.stage with
  | .checking => { r with tasks := r.tasks.set i (r.check t) }
  | .waiting =>
    if r.permits = 0 then r
    else
      { r with
        permits := r.permits - 1
        tasks := r.tasks.set i { t with stage := .querying }
        lookups := t.domain :: r.lookups }
  | .querying =>
    match answer with
    | .error e =>
      { r with
        permits := r.permits + 1
        tasks := r.tasks.set i { t with stage := .done (.error (failedToResolve t.domain e)) } }
    | .ok [] =>
      { r with
        permits := r.permits + 1
        tasks := r.tasks.set i { t with stage := .done (.error (noAddressesFound t.domain)) } }
    | .ok (a :: rest) =>
      { r with
        tasks := r.tasks.set i { t with stage := .answered (a :: rest), answer := some (a :: rest) } }
  | .answered addresses =>
    { r with
      cache := r.cache.insert t.domain ⟨addresses, r.now, r.defaultTtl⟩
      permits := r.permits + 1
      tasks := r.tasks.set i { t with stage := .done (.ok addresses) }
      insertions := ⟨i, t.domain, addresses, r.now⟩ :: r.insertions }
  | .done _ => r

def clearCache (r : DnsResolver) : DnsResolver := { r with cache := ∅ }

def pruneCache (r : DnsResolver) : DnsResolver :=
  { r with cache := retain (fun _ entry => !entry.isExpired r.now) r.cache }

end DnsResolver

/- `resolve` is called, a task makes a step, the cache is cleared or pruned, time passes. -/
inductive Act where
  | call (domain : String)
  | resume (i : ℕ) (answer : Except String (List IpAddr))
  | clearCache
  | pruneCache
  | tick (nanos : ℕ)

def step (r : DnsResolver) : Act → DnsResolver
  | .call domain => { r with tasks := r.tasks ++ [{ domain }] }
  | .resume i answer =>
    match r.tasks[i]? with
    | some t => r.proceed i t answer
    | none => r
  | .clearCache => r.clearCache
  | .pruneCache => r.pruneCache
  | .tick nanos => { r with now := r.now + nanos }

variable {r : DnsResolver}

theorem not_returned {t : Task} {stage : Stage} (hs : t.stage = stage)
    (hd : ∀ result, stage ≠ .done result) : ¬ t.Returned := by
  rintro ⟨result, hr⟩
  exact hd result (hs.symm.trans hr)

/-! ### The steps of a call -/

theorem proceed_checking {t : Task} (hs : t.stage = .checking) (i : ℕ)
    (answer : Except String (List IpAddr)) :
    r.proceed i t answer = { r with tasks := r.tasks.set i (r.check t) } := by
  unfold DnsResolver.proceed
  rw [hs]

theorem proceed_waiting {t : Task} (hs : t.stage = .waiting) (i : ℕ)
    (answer : Except String (List IpAddr)) :
    r.proceed i t answer =
      if r.permits = 0 then r
      else
        { r with
          permits := r.permits - 1
          tasks := r.tasks.set i { t with stage := .querying }
          lookups := t.domain :: r.lookups } := by
  unfold DnsResolver.proceed
  rw [hs]

theorem proceed_querying {t : Task} (hs : t.stage = .querying) (i : ℕ) (a : IpAddr)
    (rest : List IpAddr) :
    r.proceed i t (.ok (a :: rest)) =
      { r with
        tasks := r.tasks.set i
          { t with stage := .answered (a :: rest), answer := some (a :: rest) } } := by
  unfold DnsResolver.proceed
  rw [hs]

theorem proceed_answered {t : Task} {addresses : List IpAddr} (hs : t.stage = .answered addresses)
    (i : ℕ) (answer : Except String (List IpAddr)) :
    r.proceed i t answer =
      { r with
        cache := r.cache.insert t.domain ⟨addresses, r.now, r.defaultTtl⟩
        permits := r.permits + 1
        tasks := r.tasks.set i { t with stage := .done (.ok addresses) }
        insertions := ⟨i, t.domain, addresses, r.now⟩ :: r.insertions } := by
  unfold DnsResolver.proceed
  rw [hs]

theorem proceed_done {t : Task} {result : Except NicAutoSwitchError (List IpAddr)}
    (hs : t.stage = .done result) (i : ℕ) (answer : Except String (List IpAddr)) :
    r.proceed i t answer = r := by
  unfold DnsResolver.proceed
  rw [hs]

theorem step_resume {i : ℕ} {t : Task} (ht : r.tasks[i]? = some t)
    (answer : Except String (List IpAddr)) : step r (.resume i answer) = r.proceed i t answer := by
  simp only [step, ht]

theorem step_resume_none {i : ℕ} (ht : r.tasks[i]? = none)
    (answer : Except String (List IpAddr)) : step r (.resume i answer) = r := by
  simp only [step, ht]

/- What holds of the resolver and of it after a step of any call holds after `resume`. -/
theorem resume_rec {P : DnsResolver → Prop} {i : ℕ} {answer : Except String (List IpAddr)}
    (h : P r) (hp : ∀ t, r.tasks[i]? = some t → P (r.proceed i t answer)) :
    P (step r (.resume i answer)) := by
  cases ht : r.tasks[i]? with
  | none =>
    rw [step_resume_none ht]
    exact h
  | some t =>
    rw [step_resume ht]
    exact hp t ht

/-! ### The cache -/

theorem isExpired_iff (e : CacheEntry) (now : ℕ) :
    e.isExpired now = true ↔ e.createdAt + e.ttl * nanosPerSec < now := by
  unfold CacheEntry.isExpired
  rw [decide_eq_true_iff]
  omega

theorem not_expired_iff (e : CacheEntry) (now : ℕ) :
    (!e.isExpired now) = true ↔ now ≤ e.createdAt + e.ttl * nanosPerSec := by
  rw [Bool.not_eq_true', ← Bool.not_eq_true, isExpired_iff, not_lt]

theorem cached_iff (r : DnsResolver) (domain : String) (addresses : List IpAddr) :
    r.cached domain = some addresses ↔ ∃ e, r.cache.lookup domain = some e ∧
      r.now ≤ e.createdAt + e.ttl * nanosPerSec ∧ e.addresses = addresses := by
  unfold DnsResolver.cached
  cases h : r.cache.lookup domain with
  | none => exact iff_of_false nofun fun ⟨_, h, _⟩ => by cases h
  | some e =>
    simp only [Option.some_inj, exists_eq_left', ← not_expired_iff]
    cases e.isExpired r.now <;> simp

theorem lookup_pruneCache (r : DnsResolver) (domain : String) (e : CacheEntry) :
    r.pruneCache.cache.lookup domain = some e ↔ r.cache.lookup domain = some e ∧
      r.now ≤ e.createdAt + e.ttl * nanosPerSec := by
  rw [← not_expired_iff]
  exact lookup_retain _ r.cache domain e

end NicAutoswitch.Router.Dns
