import NicAutoswitch.Lib.Edits
import NicAutoswitch.Monitor.Netlink

/-!
# Replaying the events of a poll

The events of a poll speak of names, the comparison behind them of link indices.
-/

namespace NicAutoswitch.Monitor.PollReplay
open HashMaps Router

abbrev Snapshot := HashMap ℕ LinkSnapshot

/- No two links of a snapshot have one name. -/
def DistinctNames (m : Snapshot) : Prop :=
  ∀ i j s t, m.lookup i = some s → m.lookup j = some t → s.name = t.name → i = j

def upNames (m : Snapshot) : Set String :=
  {x | ∃ i s, m.lookup i = some s ∧ s.name = x ∧ s.isUp = true}

/- Up adds the name; Down and Removed delete it. -/
def editOf : NetworkEvent → Option (String × Bool)
  | .interfaceChanged interface .up => some (interface, true)
  | .interfaceChanged interface .down => some (interface, false)
  | .interfaceChanged interface .removed => some (interface, false)
  | _ => none

def replayEvents (events : List NetworkEvent) (s : Set String) : Set String :=
  Edits.replay (events.filterMap editOf) s

/- Whether the link was there and up. -/
def wasUp (previous : Snapshot) (i : ℕ) : Bool :=
  match previous.lookup i with
  | some s => s.isUp
  | none => false

/- A link that had the name is gone. -/
def Vanished (previous current : Snapshot) (x : String) : Prop :=
  ∃ i s, previous.lookup i = some s ∧ s.name = x ∧ i ∉ current

/- The link that has the name now has changed between up and down, or is new and up. -/
def Changed (previous current : Snapshot) (x : String) : Prop :=
  ∃ i s, current.lookup i = some s ∧ s.name = x ∧ wasUp previous i ≠ s.isUp

/- A link that was up under the name is there under another one. -/
def LeftName (previous current : Snapshot) (x : String) : Prop :=
  ∃ i s s', previous.lookup i = some s ∧ s.name = x ∧ s.isUp = true ∧
    current.lookup i = some s' ∧ s'.name ≠ x

/- A link that is up under the name was up under another one. -/
def TookName (previous current : Snapshot) (x : String) : Prop :=
  ∃ i s s', previous.lookup i = some s ∧ s.name ≠ x ∧ s.isUp = true ∧
    current.lookup i = some s' ∧ s'.name = x ∧ s'.isUp = true

/- The condition on a name: it is not up where a link that had it is gone; elsewhere,
without a transition of its link, a rename takes it from one link that is up exactly
where another one gives it to a link that is up. -/
def Follows (previous current : Snapshot) (x : String) : Prop :=
  (Vanished previous current x → x ∉ upNames current) ∧
    (¬ Vanished previous current x → ¬ Changed previous current x →
      (LeftName previous current x ↔ TookName previous current x))

/-! ### The edits of the two loops -/

theorem mem_detectChanges (previous : Snapshot) (links : List (Σ _ : ℕ, LinkSnapshot))
    (events : List NetworkEvent) (x : String) (b : Bool) :
    (x, b) ∈ (NetlinkMonitor.detectChanges previous links events).filterMap editOf ↔
      (x, b) ∈ events.filterMap editOf ∨
        ∃ l ∈ links, l.2.name = x ∧ l.2.isUp = b ∧ wasUp previous l.1 ≠ l.2.isUp := by
  induction links generalizing events with
  | nil => simp [NetlinkMonitor.detectChanges]
  | cons l rest ih =>
    obtain ⟨i, snap⟩ := l
    rw [NetlinkMonitor.detectChanges, ih, List.exists_mem_cons_iff, ← or_assoc]
    refine or_congr ?_ Iff.rfl
    unfold wasUp
    obtain ⟨name, isUp⟩ := snap
    cases previous.lookup i with
    | none => cases isUp <;> simp [editOf, eq_comm]
    | some p =>
      cases hp : p.isUp <;> cases isUp <;> simp [editOf, hp, eq_comm]

theorem edits_detectRemoved (current : Snapshot) (links : List (Σ _ : ℕ, LinkSnapshot))
    (events : List NetworkEvent) :
    (NetlinkMonitor.detectRemoved current links events).filterMap editOf =
      events.filterMap editOf ++
        (links.filter fun l => decide (l.1 ∉ current)).map fun l => (l.2.name, false) := by
  induction links generalizing events with
  | nil => simp [NetlinkMonitor.detectRemoved]
  | cons l rest ih =>
    obtain ⟨i, snap⟩ := l
    rw [NetlinkMonitor.detectRemoved, ih]
    by_cases h : i ∈ current
    · simp [h]
    · simp [h, editOf]

/-! ### One name -/

variable {previous current : Snapshot} {x : String}

/- The two lists of edits that a poll makes, in the order of the poll. -/
def changeEdits (previous : Snapshot) (links : List (Σ _ : ℕ, LinkSnapshot)) :
    List (String × Bool) :=
  (NetlinkMonitor.detectChanges previous links []).filterMap editOf

def removeEdits (current : Snapshot) (links : List (Σ _ : ℕ, LinkSnapshot)) :
    List (String × Bool) :=
  (links.filter fun l => decide (l.1 ∉ current)).map fun l => (l.2.name, false)

theorem mem_changeEdits (order : LinkOrder) (b : Bool) :
    (x, b) ∈ changeEdits previous (order.arrange current.entries) ↔
      ∃ i s, current.lookup i = some s ∧ s.name = x ∧ s.isUp = b ∧ wasUp previous i ≠ s.isUp := by
  unfold changeEdits
  rw [mem_detectChanges]
  simp only [List.filterMap_nil, List.not_mem_nil, false_or, IterOrder.mem_arrange, Sigma.exists,
    mem_entries_iff]

theorem mem_removeEdits (order : LinkOrder) (b : Bool) :
    (x, b) ∈ removeEdits current (order.arrange previous.entries) ↔
      b = false ∧ Vanished previous current x := by
  unfold removeEdits Vanished
  simp only [List.mem_map, List.mem_filter, IterOrder.mem_arrange, decide_eq_true_eq,
    Sigma.exists, mem_entries_iff, Prod.mk.injEq]
  apply Iff.intro
  · intro h
    obtain ⟨i, s, ⟨hl, hgone⟩, hn, hb⟩ := h
    exact ⟨hb.symm, i, s, hl, hn, hgone⟩
  · intro h
    obtain ⟨hb, i, s, hl, hn, hgone⟩ := h
    exact ⟨i, s, ⟨hl, hgone⟩, hn, hb.symm⟩

/- The link of a name decides whether the name is up. -/
theorem mem_upNames_iff (hd : DistinctNames current) {i : ℕ} {s : LinkSnapshot}
    (hl : current.lookup i = some s) (hn : s.name = x) : x ∈ upNames current ↔ s.isUp = true := by
  apply Iff.intro
  · intro h
    obtain ⟨j, t, hj, ht, hu⟩ := h
    have hij : i = j := hd i j s t hl hj (hn.trans ht.symm)
    subst hij
    rw [hl] at hj
    cases hj
    exact hu
  · intro hu
    exact ⟨i, s, hl, hn, hu⟩

/- A link has had the name all along. -/
def Kept (previous current : Snapshot) (x : String) : Prop :=
  ∃ i s s', previous.lookup i = some s ∧ s.name = x ∧ current.lookup i = some s' ∧ s'.name = x

theorem leftName_iff (hd : DistinctNames previous) (hv : ¬ Vanished previous current x) :
    LeftName previous current x ↔ x ∈ upNames previous ∧ ¬ Kept previous current x := by
  apply Iff.intro
  · intro h
    obtain ⟨i, s, s', hl, hn, hu, hl', hn'⟩ := h
    refine ⟨⟨i, s, hl, hn, hu⟩, fun hk => ?_⟩
    obtain ⟨j, r, r', hj, hnr, hj', hnr'⟩ := hk
    have hij : i = j := hd i j s r hl hj (hn.trans hnr.symm)
    subst hij
    rw [hl'] at hj'
    cases hj'
    exact hn' hnr'
  · intro h
    obtain ⟨⟨i, s, hl, hn, hu⟩, hk⟩ := h
    have hthere : i ∈ current := by
      by_contra hgone
      exact hv ⟨i, s, hl, hn, hgone⟩
    obtain ⟨s', hl'⟩ := (mem_iff_lookup current i).mp hthere
    exact ⟨i, s, s', hl, hn, hu, hl', fun hn' => hk ⟨i, s, s', hl, hn, hl', hn'⟩⟩

/- A link whose state has not changed was up exactly where it is up. -/
theorem wasUp_of_unchanged (hc : ¬ Changed previous current x) {i : ℕ} {s' : LinkSnapshot}
    (hl : current.lookup i = some s') (hn : s'.name = x) : wasUp previous i = s'.isUp := by
  by_contra hne
  exact hc ⟨i, s', hl, hn, hne⟩

theorem tookName_iff (hd : DistinctNames current) (hc : ¬ Changed previous current x) :
    TookName previous current x ↔ x ∈ upNames current ∧ ¬ Kept previous current x := by
  apply Iff.intro
  · intro h
    obtain ⟨i, s, s', hl, hn, hu, hl', hn', hu'⟩ := h
    refine ⟨⟨i, s', hl', hn', hu'⟩, fun hk => ?_⟩
    obtain ⟨j, r, r', hj, hnr, hj', hnr'⟩ := hk
    have hij : i = j := hd i j s' r' hl' hj' (hn'.trans hnr'.symm)
    subst hij
    rw [hl] at hj
    cases hj
    exact hn hnr
  · intro h
    obtain ⟨⟨i, s', hl', hn', hu'⟩, hk⟩ := h
    have hwas := wasUp_of_unchanged hc hl' hn'
    unfold wasUp at hwas
    rw [hu'] at hwas
    cases hl : previous.lookup i with
    | none =>
      rw [hl] at hwas
      cases hwas
    | some s =>
      rw [hl] at hwas
      exact ⟨i, s, s', hl, fun hn => hk ⟨i, s, s', hl, hn, hl', hn'⟩, hwas, hl', hn', hu'⟩

theorem mem_upNames_of_kept (hdp : DistinctNames previous) (hd : DistinctNames current)
    (hc : ¬ Changed previous current x) (h : Kept previous current x) :
    x ∈ upNames previous ↔ x ∈ upNames current := by
  obtain ⟨i, s, s', hl, hn, hl', hn'⟩ := h
  have hwas : s.isUp = s'.isUp := by
    have h := wasUp_of_unchanged hc hl' hn'
    unfold wasUp at h
    rw [hl] at h
    exact h
  rw [mem_upNames_iff hdp hl hn, mem_upNames_iff hd hl' hn', hwas]

/- Without a transition, a name that was up and is not has been left by a link, and one
that is up and was not has been taken by one. -/
theorem renames_iff (hdp : DistinctNames previous) (hd : DistinctNames current)
    (hv : ¬ Vanished previous current x) (hc : ¬ Changed previous current x) :
    (x ∈ upNames previous ↔ x ∈ upNames current) ↔
      (LeftName previous current x ↔ TookName previous current x) := by
  have hkept := mem_upNames_of_kept hdp hd hc
  rw [leftName_iff hdp hv, tookName_iff hd hc]
  tauto

/- The edits of a link that has changed agree with the link's state now. -/
theorem changeEdits_agree (hd : DistinctNames current) (order : LinkOrder) {i : ℕ}
    {t : LinkSnapshot} (hl : current.lookup i = some t) (hn : t.name = x) :
    ∀ e ∈ changeEdits previous (order.arrange current.entries), e.1 = x → e.2 = t.isUp := by
  intro e he hx
  obtain ⟨y, b⟩ := e
  subst hx
  obtain ⟨j, t', hj, hn', hb, _⟩ := (mem_changeEdits order b).mp he
  have hij : i = j := hd i j t t' hl hj (hn.trans hn'.symm)
  subst hij
  rw [hl] at hj
  cases hj
  exact hb.symm

theorem changeEdits_untouched (order : LinkOrder) (h : ¬ Changed previous current x) :
    ∀ e ∈ changeEdits previous (order.arrange current.entries), e.1 ≠ x := by
  intro e he hx
  obtain ⟨y, b⟩ := e
  subst hx
  obtain ⟨j, t, hj, hn, _, hu⟩ := (mem_changeEdits order b).mp he
  exact h ⟨j, t, hj, hn, hu⟩

theorem removeEdits_untouched (order : LinkOrder) (h : ¬ Vanished previous current x) :
    ∀ e ∈ removeEdits current (order.arrange previous.entries), e.1 ≠ x := by
  intro e he hx
  obtain ⟨y, b⟩ := e
  subst hx
  exact h ((mem_removeEdits order b).mp he).2

theorem mem_replay_iff (previous : Snapshot) (hd : DistinctNames current) (oc op : LinkOrder)
    (s : Set String) (x : String) :
    x ∈ Edits.replay (changeEdits previous (oc.arrange current.entries) ++
        removeEdits current (op.arrange previous.entries)) s ↔
      ¬ Vanished previous current x ∧
        (Changed previous current x ∧ x ∈ upNames current ∨
          ¬ Changed previous current x ∧ x ∈ s) := by
  rw [Edits.replay_append]
  by_cases hv : Vanished previous current x
  · -- the removal comes last
    have hout : ∀ e ∈ removeEdits current (op.arrange previous.entries), e.1 = x →
        e.2 = false := by
      intro e he hx
      obtain ⟨y, b⟩ := e
      exact ((mem_removeEdits op b).mp he).1
    have hex : ∃ e ∈ removeEdits current (op.arrange previous.entries), e.1 = x :=
      ⟨(x, false), (mem_removeEdits op false).mpr ⟨rfl, hv⟩, rfl⟩
    rw [Edits.mem_replay_agreed hout hex]
    simp [hv]
  · rw [Edits.mem_replay_untouched (removeEdits_untouched op hv)]
    by_cases hc : Changed previous current x
    · have hc' := hc
      obtain ⟨i, t, hl, hn, hu⟩ := hc
      have hex : ∃ e ∈ changeEdits previous (oc.arrange current.entries), e.1 = x :=
        ⟨(x, t.isUp), (mem_changeEdits oc t.isUp).mpr ⟨i, t, hl, hn, rfl, hu⟩, rfl⟩
      rw [Edits.mem_replay_agreed (changeEdits_agree hd oc hl hn) hex, ← mem_upNames_iff hd hl hn]
      simp [hv, hc']
    · rw [Edits.mem_replay_untouched (changeEdits_untouched oc hc)]
      simp [hv, hc]

/-! ### A poll -/

/- The events of a poll, replayed on the names that were up, give the names that are up
exactly when every name follows its links. -/
theorem poll_replays_iff (m : NetlinkMonitor) (links : List (Except RtError LinkMessage))
    (hc : m.snapshotInterfaces links = .ok current) (hdp : DistinctNames m.prevState)
    (hd : DistinctNames current) (oc op : LinkOrder) :
    ∃ events m', m.pollChanges oc op links = .ok (events, m') ∧ m'.prevState = current ∧
      (replayEvents events (upNames m.prevState) = upNames current ↔
        ∀ x, Follows m.prevState current x) := by
  refine ⟨_, _, by rw [NetlinkMonitor.pollChanges, hc]; rfl, rfl, ?_⟩
  unfold replayEvents
  rw [edits_detectRemoved, Set.ext_iff]
  refine forall_congr' fun x => ?_
  have hmem := mem_replay_iff m.prevState hd oc op (upNames m.prevState) x
  unfold changeEdits removeEdits at hmem
  rw [hmem]
  unfold Follows
  by_cases hv : Vanished m.prevState current x
  · simp [hv]
  · by_cases hx : Changed m.prevState current x
    · simp [hv, hx]
    · rw [← renames_iff hdp hd hv hx]
      simp [hv, hx]

/- The interface eth0 was up as link 2 and is up as link 3. -/
def sawLink2 : NetlinkMonitor :=
  { handle := some {}, prevState := AList.insert 2 ⟨"eth0", true⟩ ∅ }

def link3 : List (Except RtError LinkMessage) :=
  [.ok { index := 3, flags := [.up, .running], attributes := [.ifName "eth0"] }]

def snapshot3 : Snapshot := AList.insert 3 ⟨"eth0", true⟩ ∅

theorem singleton_distinct (i : ℕ) (s : LinkSnapshot) :
    DistinctNames (AList.insert i s ∅) := by
  intro j k r t hj hk _
  have hkey : ∀ n u, (AList.insert i s ∅ : Snapshot).lookup n = some u → n = i := by
    intro n u hn
    by_contra hne
    rw [AList.lookup_insert_ne hne, AList.lookup_empty] at hn
    cases hn
  rw [hkey j r hj, hkey k t hk]

theorem poll_replays_iff_link3 :
    ∃ events m', sawLink2.pollChanges .asListed .asListed link3 = .ok (events, m') ∧
      m'.prevState = snapshot3 ∧
      (replayEvents events (upNames sawLink2.prevState) = upNames snapshot3 ↔
        ∀ x, Follows sawLink2.prevState snapshot3 x) :=
  poll_replays_iff sawLink2 link3 rfl (singleton_distinct 2 _) (singleton_distinct 3 _) .asListed
    .asListed

/- The Up event of the new link comes before the Removed event of the old one. -/
theorem recreated_link_lost :
    ∃ events m', sawLink2.pollChanges .asListed .asListed link3 = .ok (events, m') ∧
      replayEvents events (upNames sawLink2.prevState) ≠ upNames m'.prevState := by
  refine ⟨[.interfaceChanged "eth0" .up, .interfaceChanged "eth0" .removed], _, rfl, ?_⟩
  intro h
  have hup : "eth0" ∈ upNames snapshot3 := ⟨3, ⟨"eth0", true⟩, by decide, rfl, rfl⟩
  have hout : "eth0" ∈ replayEvents [.interfaceChanged "eth0" .up,
      .interfaceChanged "eth0" .removed] (upNames sawLink2.prevState) := h ▸ hup
  rcases hout with hin | hout
  · cases hin.2
  · exact hout.1 rfl

end NicAutoswitch.Monitor.PollReplay
