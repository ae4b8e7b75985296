import NicAutoswitch.Engine.ExecutorInvariant
import NicAutoswitch.Engine.Handlers
import NicAutoswitch.Engine.LinkState
import NicAutoswitch.Monitor.PollReplay

/-!
# The monitor and the dispatcher on which links are up

The dispatcher starts from `get_interfaces`, the monitor from a snapshot of the same
links; from then on the dispatcher learns the differences between snapshots.
-/

namespace NicAutoswitch.Engine.LinkAgreement
open HashMaps Schema Monitor Router StateProg Transition
open PollReplay (Snapshot DistinctNames editOf replayEvents Vanished Changed wasUp)

variable {κ : Type} (rt : Rtnetlink κ)

/- The monitor and the system that handles its events. -/
structure Watched (κ : Type) where
  monitor : NetlinkMonitor
  system : System κ

/- One tick of `poll_network_changes`: the dump of the links, and the orders in which the
loops meet their maps. -/
structure Poll where
  links : List (Except RtError LinkMessage)
  currentOrder : LinkOrder
  previousOrder : LinkOrder
  routeOrder : NetworkEvent → RouteOrder

/- A dump that fails is only logged. -/
def poll (w : Watched κ) (p : Poll) : Watched κ :=
  match w.monitor.pollChanges p.currentOrder p.previousOrder p.links with
  | .error _ => w
  | .ok (events, m) =>
    ⟨m, run (LinkState.handle rt) w.system (events.map fun e => (p.routeOrder e, e))⟩

/- The monitor takes its first snapshot, and the dispatcher its initial state, from the
same links. -/
def started (config : Config) (rm : RouteManager) (k : κ) (handle : Handle)
    (links : List LinkMessage) : Watched κ :=
  let monitor := NetlinkMonitor.new (.ok handle) (links.map .ok)
  let interfaces := match monitor.getInterfaces (links.map .ok) with
    | .ok interfaces => interfaces
    | .error _ => []
  ⟨monitor, LinkState.started rt config rm k interfaces⟩

/- What the dispatcher knows of an interface is what the monitor last saw of the link. -/
def Agrees (w : Watched κ) : Prop :=
  ∀ x info, w.system.dispatcher.networkState.getInterface x = some info →
    ∃ i snap, w.monitor.prevState.lookup i = some snap ∧ snap.name = x ∧ snap.isUp = info.isUp

/- The links of the dump have distinct names, and a link that was there before has the
name that it had. -/
def KeepsNames (w : Watched κ) (p : Poll) : Prop :=
  ∀ current, w.monitor.snapshotInterfaces p.links = .ok current → DistinctNames current ∧
    ∀ i s t, w.monitor.prevState.lookup i = some s → current.lookup i = some t → t.name = s.name

/-! ### The events of a poll -/

/- What the loops of a poll report are Up, Down and Removed events. -/
theorem mem_detectChanges {previous : Snapshot} {links : List (Σ _ : ℕ, LinkSnapshot)}
    {events : List NetworkEvent} {e : NetworkEvent}
    (h : e ∈ NetlinkMonitor.detectChanges previous links events) :
    e ∈ events ∨ ∃ x, e = .interfaceChanged x .up ∨ e = .interfaceChanged x .down := by
  induction links generalizing events with
  | nil => exact Or.inl h
  | cons l rest ih =>
    obtain ⟨i, snap⟩ := l
    rw [NetlinkMonitor.detectChanges] at h
    rcases ih h with hin | hex
    · revert hin
      cases previous.lookup i with
      | none =>
        dsimp only
        split_ifs <;> intro hin
        · rcases List.mem_append.mp hin with hold | hnew
          · exact Or.inl hold
          · exact Or.inr ⟨snap.name, Or.inl (List.mem_singleton.mp hnew)⟩
        · exact Or.inl hin
      | some prev =>
        dsimp only
        split_ifs with hne hup <;> intro hin
        · rcases List.mem_append.mp hin with hold | hnew
          · exact Or.inl hold
          · exact Or.inr ⟨snap.name, Or.inl (List.mem_singleton.mp hnew)⟩
        · rcases List.mem_append.mp hin with hold | hnew
          · exact Or.inl hold
          · exact Or.inr ⟨snap.name, Or.inr (List.mem_singleton.mp hnew)⟩
        · exact Or.inl hin
    · exact Or.inr hex

theorem mem_detectRemoved {current : Snapshot} {links : List (Σ _ : ℕ, LinkSnapshot)}
    {events : List NetworkEvent} {e : NetworkEvent} :
    e ∈ NetlinkMonitor.detectRemoved current links events ↔
      e ∈ events ∨ ∃ l ∈ links, l.1 ∉ current ∧ e = .interfaceChanged l.2.name .removed := by
  induction links generalizing events with
  | nil => simp [NetlinkMonitor.detectRemoved]
  | cons l rest ih =>
    obtain ⟨i, snap⟩ := l
    rw [NetlinkMonitor.detectRemoved, ih, List.exists_mem_cons_iff]
    by_cases hi : i ∈ current
    · simp [hi]
    · simp [hi, or_assoc]

/-! ### What one event does to the network state -/

def upNames (ns : NetworkState) : Set String :=
  {x | ∃ info, ns.getInterface x = some info ∧ info.isUp = true}

theorem mem_upNames {ns : NetworkState} {x : String} {info : InterfaceInfo}
    (h : ns.getInterface x = some info) : x ∈ upNames ns ↔ info.isUp = true := by
  apply Iff.intro
  · rintro ⟨info', hl, hu⟩
    rw [h] at hl
    cases hl
    exact hu
  · intro hu
    exact ⟨info, h, hu⟩

/- An interface that is known after an Up, Down or Removed event was known before, was not
removed, and is up as the event says if the event is about it. -/
theorem known_after {ns : NetworkState} {e : NetworkEvent} {edit : String × Bool}
    (he : editOf e = some edit) {x : String} {info : InterfaceInfo}
    (h : (ns.observe e).getInterface x = some info) :
    e ≠ .interfaceChanged x .removed ∧ ∃ old, ns.getInterface x = some old ∧
      info.isUp = if x = edit.1 then edit.2 else old.isUp := by
  have hset : ∀ i b, (ns.withInterface i fun old => { old with isUp := b }).getInterface x =
      some info → ∃ old, ns.getInterface x = some old ∧
        info.isUp = if x = i then b else old.isUp := by
    intro i b hw
    obtain ⟨old, ho, hi⟩ := NetworkState.known_withInterface hw
    refine ⟨old, ho, ?_⟩
    rw [hi]
    split_ifs <;> rfl
  cases e with
  | interfaceChanged i change =>
    cases change with
    | up =>
      cases he
      exact ⟨(fun hc => by cases hc), hset i true h⟩
    | down =>
      cases he
      exact ⟨(fun hc => by cases hc), hset i false h⟩
    | added => cases he
    | removed =>
      cases he
      have hr := NetworkState.getInterface_removeInterface ns i x
      rw [show (ns.removeInterface i).getInterface x = some info from h] at hr
      split_ifs at hr with hx
      refine ⟨fun hc => ?_, info, hr.symm, by rw [if_neg hx]⟩
      cases hc
      exact hx rfl
  | wifiConnected i ssid => cases he
  | wifiDisconnected i last => cases he
  | addressChanged i added removed => cases he
  | routeChanged i destination gateway added => cases he

/- After a list of such events a known interface is up exactly if replaying the events on
the names that were up says so. -/
theorem known_after_all (events : List NetworkEvent) (he : ∀ e ∈ events, (editOf e).isSome)
    {ns : NetworkState} {x : String} {info : InterfaceInfo}
    (h : (events.foldl NetworkState.observe ns).getInterface x = some info) (s : Set String)
    (hs : x ∈ upNames ns ↔ x ∈ s) :
    .interfaceChanged x .removed ∉ events ∧ (∃ old, ns.getInterface x = some old) ∧
      (info.isUp = true ↔ x ∈ replayEvents events s) := by
  induction events generalizing ns s with
  | nil =>
    exact ⟨List.not_mem_nil, ⟨info, h⟩, (mem_upNames h).symm.trans hs⟩
  | cons e rest ih =>
    obtain ⟨edit, hedit⟩ := Option.isSome_iff_exists.mp (he e List.mem_cons_self)
    have hrest : ∀ e' ∈ rest, (editOf e').isSome := fun e' h' => he e' (List.mem_cons_of_mem e h')
    have hstep : x ∈ upNames (ns.observe e) ↔ x ∈ Edits.edit s edit := by
      obtain ⟨_, ⟨mid, hmid⟩, _⟩ := ih hrest h (upNames (ns.observe e)) Iff.rfl
      obtain ⟨_, old, hold, hu⟩ := known_after hedit hmid
      rw [mem_upNames hmid, hu]
      by_cases hx : x = edit.1
      · rw [if_pos hx, Edits.mem_edit_self hx]
      · rw [if_neg hx, Edits.mem_edit_ne hx, ← hs, mem_upNames hold]
    obtain ⟨hnot, ⟨mid, hmid⟩, hup⟩ := ih hrest h (Edits.edit s edit) hstep
    obtain ⟨hne, old, hold, _⟩ := known_after hedit hmid
    refine ⟨fun hm => ?_, ⟨old, hold⟩, ?_⟩
    · rcases List.mem_cons.mp hm with hm | hm
      · exact hne hm.symm
      · exact hnot hm
    · rw [hup]
      unfold replayEvents
      rw [List.filterMap_cons_some hedit]
      rfl

/-! ### Handling the events -/

/- Whatever the kernel answers, the network state takes in the event, and the dispatcher
goes on running. -/
theorem handle_link {s : System κ} (hr : s.dispatcher.state = .running) (order : RouteOrder)
    (e : NetworkEvent) :
    (LinkState.handle rt s (order, e)).dispatcher.networkState =
        s.dispatcher.networkState.observe e ∧
      (LinkState.handle rt s (order, e)).dispatcher.state = .running := by
  have hview := handleEvent_view rt order e hr
  obtain ⟨hns, hstate⟩ := noting_fixed (s.dispatcher.observing e) e
  exact ⟨hview.networkState.trans hns, (hview.state.trans hstate).trans hr⟩

theorem handle_links (order : NetworkEvent → RouteOrder) (events : List NetworkEvent)
    {s : System κ} (hr : s.dispatcher.state = .running) :
    (run (LinkState.handle rt) s (events.map fun e => (order e, e))).dispatcher.networkState =
        events.foldl NetworkState.observe s.dispatcher.networkState ∧
      (run (LinkState.handle rt) s (events.map fun e => (order e, e))).dispatcher.state =
        .running := by
  induction events generalizing s with
  | nil => exact ⟨rfl, hr⟩
  | cons e rest ih =>
    obtain ⟨hns, hrun⟩ := handle_link rt hr (order e) e
    rw [List.map_cons, run_cons, List.foldl_cons, ← hns]
    exact ih hrun

/-! ### One poll -/

/- The events of a poll whose dump succeeds. -/
def pollEvents (w : Watched κ) (p : Poll) (current : Snapshot) : List NetworkEvent :=
  NetlinkMonitor.detectRemoved current (p.previousOrder.arrange w.monitor.prevState.entries)
    (NetlinkMonitor.detectChanges w.monitor.prevState (p.currentOrder.arrange current.entries) [])

theorem poll_error {w : Watched κ} {p : Poll} {err : NicAutoSwitchError}
    (h : w.monitor.snapshotInterfaces p.links = .error err) : poll rt w p = w := by
  unfold poll NetlinkMonitor.pollChanges
  rw [h]
  rfl

theorem poll_ok {w : Watched κ} {p : Poll} {current : Snapshot}
    (h : w.monitor.snapshotInterfaces p.links = .ok current) :
    (poll rt w p).monitor.prevState = current ∧
      (poll rt w p).system = run (LinkState.handle rt) w.system
        ((pollEvents w p current).map fun e => (p.routeOrder e, e)) := by
  unfold poll NetlinkMonitor.pollChanges
  rw [h]
  exact ⟨rfl, rfl⟩

theorem pollEvents_link (w : Watched κ) (p : Poll) (current : Snapshot) :
    ∀ e ∈ pollEvents w p current, (editOf e).isSome := by
  intro e he
  rcases mem_detectRemoved.mp he with hchange | ⟨l, _, _, rfl⟩
  · rcases mem_detectChanges hchange with hnil | ⟨x, rfl | rfl⟩
    · cases hnil
    · rfl
    · rfl
  · rfl

theorem removed_of_vanished {w : Watched κ} (p : Poll) {current : Snapshot} {x : String}
    (h : Vanished w.monitor.prevState current x) :
    .interfaceChanged x .removed ∈ pollEvents w p current := by
  obtain ⟨i, s, hl, hn, hgone⟩ := h
  refine mem_detectRemoved.mpr (Or.inr ⟨⟨i, s⟩, ?_, hgone, by rw [hn]⟩)
  exact (p.previousOrder.mem_arrange _ _).mpr ((mem_entries_iff _ i s).mpr hl)

theorem mem_replay_pollEvents {w : Watched κ} (p : Poll) {current : Snapshot}
    (hd : DistinctNames current) (s : Set String) (x : String) :
    x ∈ replayEvents (pollEvents w p current) s ↔
      ¬ Vanished w.monitor.prevState current x ∧
        (Changed w.monitor.prevState current x ∧ x ∈ PollReplay.upNames current ∨
          ¬ Changed w.monitor.prevState current x ∧ x ∈ s) := by
  have h := PollReplay.mem_replay_iff w.monitor.prevState hd p.currentOrder p.previousOrder s x
  unfold PollReplay.changeEdits PollReplay.removeEdits at h
  unfold replayEvents pollEvents
  rw [PollReplay.edits_detectRemoved]
  exact h

/- A poll that keeps the names of the links keeps the agreement. -/
theorem agrees_poll {w : Watched κ} (hr : w.system.dispatcher.state = .running) {p : Poll}
    (hk : KeepsNames w p) (h : Agrees w) :
    (poll rt w p).system.dispatcher.state = .running ∧ Agrees (poll rt w p) := by
  cases hc : w.monitor.snapshotInterfaces p.links with
  | error err =>
    rw [poll_error rt hc]
    exact ⟨hr, h⟩
  | ok current =>
    obtain ⟨hd, hnames⟩ := hk current hc
    obtain ⟨hprev, hsys⟩ := poll_ok rt hc
    have hlink := pollEvents_link w p current
    obtain ⟨hns, hrun⟩ := handle_links rt p.routeOrder (pollEvents w p current) hr
    rw [← hsys] at hns hrun
    refine ⟨hrun, fun x info hx => ?_⟩
    rw [hns] at hx
    obtain ⟨hnot, ⟨old, hold⟩, hup⟩ := known_after_all _ hlink hx
      (upNames w.system.dispatcher.networkState) Iff.rfl
    rw [mem_replay_pollEvents p hd, mem_upNames hold] at hup
    -- the link that the monitor last saw under the name is still there
    obtain ⟨i, snap, hl, hn, hu⟩ := h x old hold
    have hv : ¬ Vanished w.monitor.prevState current x := fun hv => hnot (removed_of_vanished p hv)
    have hthere : i ∈ current := by
      by_contra hgone
      exact hv ⟨i, snap, hl, hn, hgone⟩
    obtain ⟨t, ht⟩ := (mem_iff_lookup current i).mp hthere
    have htn : t.name = x := (hnames i snap t hl ht).trans hn
    refine ⟨i, t, by rw [hprev, ht], htn, ?_⟩
    rw [Bool.eq_iff_iff, hup, PollReplay.mem_upNames_iff hd ht htn]
    by_cases hch : Changed w.monitor.prevState current x
    · simp [hv, hch]
    · have hwas := PollReplay.wasUp_of_unchanged hch ht htn
      unfold wasUp at hwas
      rw [hl] at hwas
      simp [hv, hch, ← hwas, ← hu]

/-! ### The start -/

theorem collect_ok {α : Type} (visit : α → LinkMessage → α) (links : List LinkMessage) (acc : α) :
    NetlinkMonitor.collect visit (links.map .ok) acc = .ok (links.foldl visit acc) := by
  induction links generalizing acc with
  | nil => rfl
  | cons link rest ih => exact ih (visit acc link)

theorem foldl_append_singleton {α β : Type} (f : α → β) (l : List α) (acc : List β) :
    l.foldl (fun acc x => acc ++ [f x]) acc = acc ++ l.map f := by
  induction l generalizing acc with
  | nil => simp
  | cons x rest ih =>
    rw [List.foldl_cons, ih]
    simp

theorem started_networkState (config : Config) (rm : RouteManager) (k : κ)
    (interfaces : List InterfaceInfo) :
    (LinkState.started rt config rm k interfaces).dispatcher.networkState =
        interfaces.foldl NetworkState.updateInterface .new ∧
      (LinkState.started rt config rm k interfaces).dispatcher.state = .running := by
  have hview := applyInitialState_view rt interfaces (Dispatch.launch config rm k)
  exact ⟨hview.networkState, hview.state⟩

section Start

variable (config : Config) (rm : RouteManager) (k : κ) (handle : Handle) {links : List LinkMessage}

theorem started_running (links : List LinkMessage) :
    (started rt config rm k handle links).system.dispatcher.state = .running :=
  (started_networkState rt config rm k _).2

theorem started_known (hn : (links.map linkName).Nodup) (x : String) (info : InterfaceInfo) :
    (started rt config rm k handle links).system.dispatcher.networkState.getInterface x =
        some info ↔
      ∃ link ∈ links, linkName link = x ∧ NetlinkMonitor.linkToInterfaceInfo link = info := by
  have hinfos : (NetlinkMonitor.new (.ok handle) (links.map .ok)).getInterfaces (links.map .ok) =
      .ok (links.map NetlinkMonitor.linkToInterfaceInfo) := by
    have h := collect_ok (fun acc link => acc ++ [NetlinkMonitor.linkToInterfaceInfo link]) links []
    rw [foldl_append_singleton, List.nil_append] at h
    rw [← h, NetlinkMonitor.new, NetlinkMonitor.snapshotInterfaces, collect_ok]
    rfl
  have hfold : ∀ ns : NetworkState,
      ((links.map NetlinkMonitor.linkToInterfaceInfo).foldl NetworkState.updateInterface ns
        ).interfaces = links.foldl (fun m link => m.insert (linkName link)
          (NetlinkMonitor.linkToInterfaceInfo link)) ns.interfaces := by
    clear hinfos hn
    induction links with
    | nil => exact fun ns => rfl
    | cons link rest ih => exact fun ns => ih _
  show NetworkState.getInterface (LinkState.started rt config rm k _).dispatcher.networkState x =
    some info ↔ _
  rw [hinfos, (started_networkState rt config rm k _).1, NetworkState.getInterface, hfold,
    lookup_foldl_insert _ _ hn]
  simp [NetworkState.new]

theorem started_seen (hi : (links.map LinkMessage.index).Nodup) (i : ℕ) (snap : LinkSnapshot) :
    (started rt config rm k handle links).monitor.prevState.lookup i = some snap ↔
      ∃ link ∈ links, link.index = i ∧ NetlinkMonitor.extractLinkSnapshot link = snap := by
  have hprev : (started rt config rm k handle links).monitor.prevState =
      links.foldl (fun acc link => acc.insert link.index
        (NetlinkMonitor.extractLinkSnapshot link)) ∅ := by
    show (NetlinkMonitor.new (.ok handle) (links.map .ok)).prevState = _
    rw [NetlinkMonitor.new, NetlinkMonitor.snapshotInterfaces, collect_ok]
  rw [hprev, lookup_foldl_insert _ _ hi]
  simp

/- At the start they agree exactly if no link is up without running. -/
theorem agrees_started (hi : (links.map LinkMessage.index).Nodup)
    (hn : (links.map linkName).Nodup) :
    Agrees (started rt config rm k handle links) ↔
      ∀ link ∈ links, LinkFlag.up ∈ link.flags → LinkFlag.running ∈ link.flags := by
  unfold Agrees
  simp only [started_known rt config rm k handle hn, started_seen rt config rm k handle hi]
  apply Iff.intro
  · intro h link hl hup
    obtain ⟨i, snap, ⟨link', hl', _, rfl⟩, hname, hu⟩ := h (linkName link) _ ⟨link, hl, rfl, rfl⟩
    have heq : link' = link := List.inj_on_of_nodup_map hn hl' hl hname
    subst heq
    simp only [NetlinkMonitor.extractLinkSnapshot, NetlinkMonitor.linkToInterfaceInfo, hup,
      decide_true, Bool.true_and, decide_eq_true_eq] at hu
    exact hu
  · rintro h x info ⟨link, hl, hx, rfl⟩
    refine ⟨link.index, _, ⟨link, hl, rfl, rfl⟩, hx, ?_⟩
    have hrun := h link hl
    simp only [NetlinkMonitor.extractLinkSnapshot, NetlinkMonitor.linkToInterfaceInfo]
    by_cases hup : LinkFlag.up ∈ link.flags
    · simp [hup, hrun hup]
    · simp [hup]

/- Through any polls that keep the names of the links, the dispatcher and the monitor agree
on which links are up exactly if they did at the start: if no link was up without running. -/
theorem agrees_iff_running (hi : (links.map LinkMessage.index).Nodup)
    (hn : (links.map linkName).Nodup) (polls : List Poll)
    (hp : Along (poll rt) KeepsNames (started rt config rm k handle links) polls) :
    Throughout (poll rt) Agrees (started rt config rm k handle links) polls ↔
      ∀ link ∈ links, LinkFlag.up ∈ link.flags → LinkFlag.running ∈ link.flags := by
  rw [← agrees_started rt config rm k handle hi hn]
  apply Iff.intro
  · intro h
    exact h [] List.nil_prefix
  · intro h
    have hkeep : Throughout (poll rt)
        (fun w => w.system.dispatcher.state = .running ∧ Agrees w)
        (started rt config rm k handle links) polls :=
      throughout_of_along (poll rt) _ KeepsNames (fun w p hw hk => agrees_poll rt hw.1 hk hw.2) _
        polls ⟨started_running rt config rm k handle links, h⟩ hp
    exact fun pre hpre => (hkeep pre hpre).2

end Start

/- The link of eth0, which is up; its cable may be plugged in. -/
def cable (plugged : Bool) : LinkMessage where
  index := 2
  flags := if plugged then [.up, .running] else [.up]
  attributes := [.ifName "eth0"]

def pollCable (plugged : Bool) : Poll where
  links := [.ok (cable plugged)]
  currentOrder := .asListed
  previousOrder := .asListed
  routeOrder _ := .asListed

def startedCable (plugged : Bool) : Watched Unit :=
  started grantAll LinkState.twoLinks .default () {} [cable plugged]

theorem cable_keepsNames (plugged plugged' : Bool) :
    KeepsNames (startedCable plugged) (pollCable plugged') := by
  intro current hc
  have hcurrent : current = AList.insert 2 ⟨"eth0", plugged'⟩ ∅ := by
    cases plugged <;> cases plugged' <;> exact (Except.ok.inj hc).symm
  rw [hcurrent]
  refine ⟨PollReplay.singleton_distinct 2 _, fun i s t hs ht => ?_⟩
  have hi : i = 2 := by
    by_contra hne
    rw [AList.lookup_insert_ne hne, AList.lookup_empty] at ht
    cases ht
  subst hi
  rw [AList.lookup_insert] at ht
  cases ht
  cases plugged <;> cases hs <;> rfl

theorem agrees_iff_running_plugged :
    Throughout (poll grantAll) Agrees (startedCable true) [pollCable false] ↔
      ∀ link ∈ [cable true], LinkFlag.up ∈ link.flags → LinkFlag.running ∈ link.flags :=
  agrees_iff_running grantAll LinkState.twoLinks .default () {} (by decide) (by decide)
    [pollCable false] ⟨cable_keepsNames true false, trivial⟩

/- Without a cable the dispatcher takes eth0 to be up and the monitor does not, and a poll
of the same links changes neither. -/
theorem unplugged_disagrees :
    Along (poll grantAll) KeepsNames (startedCable false) [pollCable false] ∧
      ¬ Throughout (poll grantAll) Agrees (startedCable false) [pollCable false] := by
  refine ⟨⟨cable_keepsNames false false, trivial⟩, fun h => ?_⟩
  have hstart : Agrees (startedCable false) := h [] List.nil_prefix
  have hrunning := (agrees_started grantAll LinkState.twoLinks .default () {} (by decide)
    (by decide)).mp hstart (cable false) List.mem_cons_self (by decide)
  exact absurd hrunning (by decide)

end NicAutoswitch.Engine.LinkAgreement
