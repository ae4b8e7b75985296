import NicAutoswitch.Router.Dns

/-!
# What the DNS cache serves

Every address list that `resolve` returns was looked up for the same domain, by the same
call or by one that inserted it into the cache no longer than the TTL before the check.
-/

namespace NicAutoswitch.Router.Dns
open HashMaps Transition DnsResolver

/- The check of the cache by `t` was within the TTL of the insertion, of the same domain. -/
def Task.Served (t : Task) (ttl : ℕ) (ins : Insertion) : Prop :=
  ins.domain = t.domain ∧
    ∃ checked, t.checkedAt = some checked ∧ ins.time ≤ checked ∧
      checked ≤ ins.time + ttl * nanosPerSec

/- The addresses with which a task goes on are its own answer or those of an insertion. -/
def Task.Justified (t : Task) (ttl : ℕ) (insertions : List Insertion) : Prop :=
  match t.stage with
  | .answered addresses => addresses ≠ [] ∧ t.answer = some addresses
  | .done (.ok addresses) =>
    addresses ≠ [] ∧
      (t.answer = some addresses ∨ ∃ ins ∈ insertions, ins.addresses = addresses ∧ t.Served ttl ins)
  | _ => True

structure Inv (ttl : ℕ) (r : DnsResolver) : Prop where
  configured : r.defaultTtl = ttl
  cached : ∀ domain e, r.cache.lookup domain = some e → e.ttl = ttl ∧ e.addresses ≠ [] ∧
    ∃ ins ∈ r.insertions, ins.domain = domain ∧ ins.addresses = e.addresses ∧
      ins.time = e.createdAt
  inserted : ∀ ins ∈ r.insertions, ins.time ≤ r.now ∧
    ∃ t, r.tasks[ins.caller]? = some t ∧ t.domain = ins.domain ∧
      t.answer = some ins.addresses ∧ t.Returned
  justified : ∀ t ∈ r.tasks, t.Justified ttl r.insertions

variable {r : DnsResolver} {ttl : ℕ}

theorem Task.Justified.mono {t : Task} {l l' : List Insertion} (h : t.Justified ttl l)
    (hl : l ⊆ l') : t.Justified ttl l' := by
  unfold Task.Justified at h ⊢
  split
  · next hs =>
    rw [hs] at h
    exact h
  · next hs =>
    rw [hs] at h
    exact ⟨h.1, h.2.imp_right fun ⟨ins, hm, hi⟩ => ⟨ins, hl hm, hi⟩⟩
  · trivial

theorem Inv.initial (ttl : ℕ) : Inv ttl (.withConfig ttl) where
  configured := rfl
  cached := nofun
  inserted := nofun
  justified := nofun

/- A task that has not returned made no insertion. -/
theorem Inv.set_inserted (h : Inv ttl r) {i : ℕ} {t : Task} (ht : r.tasks[i]? = some t)
    (hr : ¬ t.Returned) (t' : Task) {ins : Insertion} (hins : ins ∈ r.insertions) :
    ∃ t₀, (r.tasks.set i t')[ins.caller]? = some t₀ ∧ t₀.domain = ins.domain ∧
      t₀.answer = some ins.addresses ∧ t₀.Returned := by
  obtain ⟨_, t₀, ht₀, hd, ha, hret⟩ := h.inserted ins hins
  have hne : i ≠ ins.caller := by
    rintro rfl
    exact hr (Option.some.inj (ht.symm.trans ht₀) ▸ hret)
  exact ⟨t₀, by rw [List.getElem?_set_ne hne]; exact ht₀, hd, ha, hret⟩

/- A task makes a step that leaves the cache as it is. -/
theorem Inv.set (h : Inv ttl r) {i : ℕ} {t : Task} (ht : r.tasks[i]? = some t)
    (hr : ¬ t.Returned) (t' : Task) (ht' : t'.Justified ttl r.insertions) (permits : ℕ)
    (lookups : List String) :
    Inv ttl { r with permits := permits, tasks := r.tasks.set i t', lookups := lookups } where
  configured := h.configured
  cached := h.cached
  inserted ins hins := ⟨(h.inserted ins hins).1, h.set_inserted ht hr t' hins⟩
  justified u hu := by
    rcases List.mem_or_eq_of_mem_set hu with hm | rfl
    · exact h.justified u hm
    · exact ht'

/- A cached entry that has not expired was inserted within the TTL. -/
theorem Inv.check (h : Inv ttl r) (t : Task) : (r.check t).Justified ttl r.insertions := by
  unfold DnsResolver.check
  cases hc : r.cached t.domain with
  | none => trivial
  | some addresses =>
    obtain ⟨e, he, hnow, rfl⟩ := (cached_iff r t.domain addresses).mp hc
    obtain ⟨hettl, hne, ins, hins, hd, ha, htime⟩ := h.cached t.domain e he
    refine ⟨hne, .inr ⟨ins, hins, ha, hd, r.now, rfl, (h.inserted ins hins).1, ?_⟩⟩
    rw [htime, ← hettl]
    exact hnow

theorem Inv.insert (h : Inv ttl r) {i : ℕ} {t : Task} {addresses : List IpAddr}
    (ht : r.tasks[i]? = some t) (hs : t.stage = .answered addresses)
    (answer : Except String (List IpAddr)) : Inv ttl (r.proceed i t answer) := by
  have hj := h.justified t (List.mem_of_getElem? ht)
  unfold Task.Justified at hj
  rw [hs] at hj
  have hr : ¬ t.Returned := not_returned hs nofun
  rw [proceed_answered hs]
  constructor
  case configured => exact h.configured
  case cached =>
    intro domain e he
    rw [lookup_insert_eq_ite] at he
    split at he
    · next hd =>
      obtain rfl := Option.some.inj he
      exact ⟨h.configured, hj.1, _, List.mem_cons_self, hd.symm, rfl, rfl⟩
    · obtain ⟨hettl, hne, ins, hins, hi⟩ := h.cached domain e he
      exact ⟨hettl, hne, ins, List.mem_cons_of_mem _ hins, hi⟩
  case inserted =>
    intro ins hins
    rcases List.mem_cons.mp hins with rfl | hold
    · refine ⟨le_rfl, _, List.getElem?_set_self (List.getElem?_eq_some_iff.mp ht).1, rfl, hj.2,
        _, rfl⟩
    · exact ⟨(h.inserted ins hold).1, h.set_inserted ht hr _ hold⟩
  case justified =>
    intro u hu
    rcases List.mem_or_eq_of_mem_set hu with hm | rfl
    · exact (h.justified u hm).mono (List.subset_cons_self _ _)
    · exact ⟨hj.1, .inl hj.2⟩

theorem Inv.proceed (h : Inv ttl r) {i : ℕ} {t : Task} (ht : r.tasks[i]? = some t)
    (answer : Except String (List IpAddr)) : Inv ttl (r.proceed i t answer) := by
  cases hs : t.stage with
  | checking =>
    rw [proceed_checking hs]
    exact h.set ht (not_returned hs nofun) (r.check t) (h.check t) r.permits r.lookups
  | waiting =>
    rw [proceed_waiting hs]
    split
    · exact h
    · exact h.set ht (not_returned hs nofun) { t with stage := .querying } trivial _ _
  | querying =>
    have hr := not_returned hs nofun
    unfold DnsResolver.proceed
    rw [hs]
    match answer with
    | .error e =>
      exact h.set ht hr { t with stage := .done (.error (failedToResolve t.domain e)) } trivial _
        r.lookups
    | .ok [] =>
      exact h.set ht hr { t with stage := .done (.error (noAddressesFound t.domain)) } trivial _
        r.lookups
    | .ok (a :: rest) =>
      exact h.set ht hr { t with stage := .answered (a :: rest), answer := some (a :: rest) }
        ⟨List.cons_ne_nil a rest, rfl⟩ r.permits r.lookups
  | answered addresses => exact h.insert ht hs answer
  | done result =>
    rw [proceed_done hs]
    exact h

theorem Inv.step (h : Inv ttl r) (act : Act) : Inv ttl (step r act) := by
  cases act with
  | call domain =>
    refine ⟨h.configured, h.cached, ?_, ?_⟩
    · intro ins hins
      obtain ⟨hnow, t, ht, hi⟩ := h.inserted ins hins
      refine ⟨hnow, t, ?_, hi⟩
      exact (List.getElem?_append_left (List.getElem?_eq_some_iff.mp ht).1).trans ht
    · intro t ht
      rcases List.mem_append.mp ht with hold | hnew
      · exact h.justified t hold
      · rw [List.mem_singleton.mp hnew]
        trivial
  | resume i answer => exact resume_rec (P := Inv ttl) h fun t ht => h.proceed ht answer
  | clearCache => exact ⟨h.configured, nofun, h.inserted, h.justified⟩
  | pruneCache =>
    refine ⟨h.configured, ?_, h.inserted, h.justified⟩
    intro domain e he
    exact h.cached domain e ((lookup_pruneCache r domain e).mp he).1
  | tick nanos =>
    refine ⟨h.configured, h.cached, ?_, h.justified⟩
    intro ins hins
    obtain ⟨hnow, hi⟩ := h.inserted ins hins
    exact ⟨hnow.trans (Nat.le_add_right r.now nanos), hi⟩

/- What a call returned, and what a pruning would leave of the cache. -/
structure Sound (ttl : ℕ) (r : DnsResolver) : Prop where
  served : ∀ t ∈ r.tasks, ∀ addresses, t.stage = .done (.ok addresses) →
    addresses ≠ [] ∧
      (t.answer = some addresses ∨
        ∃ ins ∈ r.insertions, ins.addresses = addresses ∧ t.Served ttl ins ∧
          ∃ t', r.tasks[ins.caller]? = some t' ∧ t'.domain = t.domain ∧
            t'.answer = some addresses)
  pruned : ∀ domain e, r.pruneCache.cache.lookup domain = some e ↔
    r.cache.lookup domain = some e ∧ r.now ≤ e.createdAt + e.ttl * nanosPerSec

theorem Inv.sound (h : Inv ttl r) : Sound ttl r where
  served t ht addresses hs := by
    have hj := h.justified t ht
    unfold Task.Justified at hj
    rw [hs] at hj
    refine ⟨hj.1, hj.2.imp_right ?_⟩
    rintro ⟨ins, hins, ha, hserved⟩
    obtain ⟨_, t', ht', hd, hans, _⟩ := h.inserted ins hins
    exact ⟨ins, hins, ha, hserved, t', ht', hd.trans hserved.1, ha ▸ hans⟩
  pruned := lookup_pruneCache r

theorem resolve_sound (ttl : ℕ) (acts : List Act) :
    Throughout step (Sound ttl) (.withConfig ttl) acts := by
  intro pre _
  exact (run_preserves step (Inv ttl) (fun _ act h => h.step act) (.withConfig ttl) pre
    (.initial ttl)).sound

end NicAutoswitch.Router.Dns
