import NicAutoswitch.Engine.SsidRecords

/-!
# What the dispatcher knows

All that a dispatcher holds besides its executor is decided by what it is told. Neither the
answers of the kernel nor the active routes nor the order in which these are met have any
part in it. What it knows of the network does not depend on the configuration either, whose
order numbers the interfaces, and what it knows of one interface comes from the events of it.
-/

namespace NicAutoswitch.Engine
open HashMaps Schema Monitor Router StateProg Transition

/-- A dispatcher without its executor. -/
structure Knowledge where
  config : Config
  networkState : NetworkState
  currentSsids : HashMap String String
  interfaceIndices : HashMap String ℕ
  state : DispatcherState

def EventDispatcher.knowledge (d : EventDispatcher) : Knowledge :=
  ⟨d.config, d.networkState, d.currentSsids, d.interfaceIndices, d.state⟩

namespace Knowledge

/- The interface has an index. -/
def indexed (k : Knowledge) (i : String) : Knowledge :=
  { k with interfaceIndices := (EventDispatcher.indexForInterface k.interfaceIndices i).2 }

/- Only default rules that are there need a table. -/
def appliedDefaults (k : Knowledge) (i : String) : Knowledge :=
  if k.config.routing.defaultRules.isEmpty then k else k.indexed i

def appliedRules (k : Knowledge) (i : String) (ssid : Option String) : Knowledge :=
  match ssid.bind k.config.wifiProfiles.lookup with
  | some _ => k.indexed i
  | none => k.appliedDefaults i

def shouldApply (k : Knowledge) (i : String) : Bool :=
  match k.networkState.getInterface i with
  | some info => info.isUp && !decide (i ∈ k.currentSsids)
  | none => false

def reacted (k : Knowledge) : NetworkEvent → Knowledge
  | .interfaceChanged i .up => if k.shouldApply i then k.appliedDefaults i else k
  | .interfaceChanged _ _ => k
  | .wifiConnected i ssid =>
    { k with currentSsids := k.currentSsids.insert i ssid }.appliedRules i (some ssid)
  | .wifiDisconnected i _ => { k with currentSsids := k.currentSsids.erase i }.appliedDefaults i
  | .addressChanged i _ _ => k.appliedRules i (k.currentSsids.lookup i)
  | .routeChanged _ _ _ _ => k

def upNames (k : Knowledge) (interfaces : List InterfaceInfo) : List String :=
  (interfaces.filter fun info => info.isUp && decide (info.name ∈ k.config.interfaces)).map
    (·.name)

/- What an operation tells. -/
def told (k : Knowledge) : Dispatch.Op → Knowledge
  | .start => { k with state := .running }
  | .stop => { k with state := .stopped }
  | .applyInitialState interfaces =>
    run appliedDefaults
      { k with networkState := interfaces.foldl NetworkState.updateInterface k.networkState }
      (k.upNames interfaces)
  | .handleEvent _ event =>
    if k.state = .running then
      { k with networkState := k.networkState.observe event }.reacted event
    else k
  | .updateConfig config =>
    { k with
      interfaceIndices :=
        EventDispatcher.rebuildIndices k.interfaceIndices config.interfaces.keys
          (k.interfaceIndices.entries.length % 256) ∅
      config := config }

end Knowledge

variable {κ : Type} (rt : Rtnetlink κ)

/-! ### Handlers -/

theorem knowledge_run {ι : Type} (step : System κ → ι → System κ)
    (h : ∀ s i, (step s i).dispatcher.knowledge = s.dispatcher.knowledge) (s : System κ)
    (is : List ι) : (run step s is).dispatcher.knowledge = s.dispatcher.knowledge :=
  run_preserves step (fun s' => s'.dispatcher.knowledge = s.dispatcher.knowledge)
    (fun s' i hs => (h s' i).trans hs) s is rfl

theorem knowledge_appliedUnlessActive (t : ℕ) (s : System κ) (rule : RouteRule) :
    (appliedUnlessActive rt t s rule).dispatcher.knowledge = s.dispatcher.knowledge := by
  unfold appliedUnlessActive
  split_ifs <;> rfl

theorem knowledge_appliedDefaults (s : System κ) (i : String) :
    (appliedDefaults rt s i).dispatcher.knowledge =
      s.dispatcher.knowledge.appliedDefaults i := by
  unfold appliedDefaults Knowledge.appliedDefaults
  by_cases he : s.dispatcher.config.routing.defaultRules.isEmpty = true
  · rw [if_pos he, if_pos (show s.dispatcher.knowledge.config.routing.defaultRules.isEmpty = true
      from he)]
  · rw [if_neg he, if_neg (show ¬ s.dispatcher.knowledge.config.routing.defaultRules.isEmpty = true
      from he)]
    exact knowledge_run _ (knowledge_appliedUnlessActive rt _) (indexed i s) _

theorem knowledge_appliedRules (s : System κ) (i : String) (ssid : Option String) :
    (appliedRules rt s i ssid).dispatcher.knowledge =
      s.dispatcher.knowledge.appliedRules i ssid := by
  unfold appliedRules Knowledge.appliedRules
  have hconfig : s.dispatcher.knowledge.config = s.dispatcher.config := rfl
  rw [hconfig]
  cases ssid.bind s.dispatcher.config.wifiProfiles.lookup with
  | none => exact knowledge_appliedDefaults rt s i
  | some profile => exact knowledge_run (applied rt _) (fun _ _ => rfl) (indexed i s) profile.rules

theorem knowledge_removeOne (rules : HashMap String RouteRule) (s : System κ) (e : String × ℕ) :
    (removeOne rt rules s e).dispatcher.knowledge = s.dispatcher.knowledge := by
  unfold removeOne
  cases rules.lookup e.1 <;> rfl

theorem knowledge_reacted (order : RouteOrder) (event : NetworkEvent) (s : System κ) :
    (Engine.reacted rt order s event).dispatcher.knowledge =
      s.dispatcher.knowledge.reacted event := by
  cases event with
  | interfaceChanged i change =>
    cases change with
    | down => exact knowledge_run _ (knowledge_removeOne rt _) s _
    | removed => exact knowledge_run _ (knowledge_removeOne rt _) s _
    | added => rfl
    | up =>
      show (if s.dispatcher.shouldApply i then _ else s).dispatcher.knowledge =
        if s.dispatcher.shouldApply i then _ else _
      split_ifs
      · exact knowledge_appliedDefaults rt s i
      · rfl
  | wifiConnected i ssid =>
    exact knowledge_appliedRules rt { s with dispatcher := s.dispatcher.recordSsid i ssid } i _
  | wifiDisconnected i last =>
    exact knowledge_appliedDefaults rt { s with dispatcher := s.dispatcher.forgetSsid i } i
  | addressChanged i added removed => exact knowledge_appliedRules rt s i _
  | routeChanged i destination gateway added => rfl

/-! ### Operations -/

theorem knowledge_perform (s : System κ) (op : Dispatch.Op) :
    (Dispatch.perform rt s op).dispatcher.knowledge = s.dispatcher.knowledge.told op := by
  cases op with
  | start =>
    show s.dispatcher.start.knowledge = { s.dispatcher.knowledge with state := .running }
    unfold EventDispatcher.start
    split_ifs with hr
    · rw [← hr]
      rfl
    · rfl
  | stop => rfl
  | updateConfig config => rfl
  | applyInitialState interfaces =>
    show (after (Dispatch.applyInitialState rt interfaces) s).dispatcher.knowledge = _
    rw [applyInitialState_after]
    exact run_simulates (appliedDefaults rt) Knowledge.appliedDefaults
      (fun s' : System κ => s'.dispatcher.knowledge) (fun _ => True) (fun _ _ h => h)
      (fun s' i _ => knowledge_appliedDefaults rt s' i) (swept rt interfaces s)
      (s.dispatcher.upNames interfaces) trivial
  | handleEvent order event =>
    show (after (Dispatch.handleEvent rt order event) s).dispatcher.knowledge =
      if s.dispatcher.state = .running then _ else _
    split_ifs with hr
    · rw [handleEvent_after rt order event hr]
      exact knowledge_reacted rt order event (observed event s)
    · rw [handleEvent_idle rt order event hr]

/- Whatever the kernel answers, what is known after a run is what the run has told. -/
theorem knowledge_run_perform (s : System κ) (ops : List Dispatch.Op) :
    (run (Dispatch.perform rt) s ops).dispatcher.knowledge =
      run Knowledge.told s.dispatcher.knowledge ops :=
  run_simulates (Dispatch.perform rt) Knowledge.told (fun s : System κ => s.dispatcher.knowledge)
    (fun _ => True) (fun _ _ h => h) (fun s op _ => knowledge_perform rt s op) s ops trivial

/- The operation, but for the order in which it meets the active routes. -/
def Dispatch.Op.unordered : Dispatch.Op → Dispatch.Op
  | .handleEvent _ event => .handleEvent .asListed event
  | .start => .start
  | .stop => .stop
  | .applyInitialState interfaces => .applyInitialState interfaces
  | .updateConfig config => .updateConfig config

theorem told_unordered (k : Knowledge) (op : Dispatch.Op) : k.told op.unordered = k.told op := by
  cases op <;> rfl

theorem run_told_unordered (k : Knowledge) (ops : List Dispatch.Op) :
    run Knowledge.told k (ops.map Dispatch.Op.unordered) = run Knowledge.told k ops := by
  unfold run
  rw [List.foldl_map]
  simp only [told_unordered]

/-! ### The network -/

/-- What is known of the network. -/
structure NetworkKnowledge where
  state : DispatcherState
  networkState : NetworkState
  currentSsids : HashMap String String

def Knowledge.network (k : Knowledge) : NetworkKnowledge :=
  ⟨k.state, k.networkState, k.currentSsids⟩

namespace NetworkKnowledge

def reacted (k : NetworkKnowledge) : NetworkEvent → NetworkKnowledge
  | .wifiConnected i ssid => { k with currentSsids := k.currentSsids.insert i ssid }
  | .wifiDisconnected i _ => { k with currentSsids := k.currentSsids.erase i }
  | .interfaceChanged _ _ | .addressChanged _ _ _ | .routeChanged _ _ _ _ => k

/- What an operation tells of the network. A configuration tells nothing. -/
def told (k : NetworkKnowledge) : Dispatch.Op → NetworkKnowledge
  | .start => { k with state := .running }
  | .stop => { k with state := .stopped }
  | .applyInitialState interfaces =>
    { k with networkState := interfaces.foldl NetworkState.updateInterface k.networkState }
  | .handleEvent _ event =>
    if k.state = .running then
      { k with networkState := k.networkState.observe event }.reacted event
    else k
  | .updateConfig _ => k

end NetworkKnowledge

namespace Knowledge

/- Giving indices tells nothing of the network. -/
theorem network_appliedDefaults (k : Knowledge) (i : String) :
    (k.appliedDefaults i).network = k.network := by
  unfold appliedDefaults
  split_ifs <;> rfl

theorem network_appliedRules (k : Knowledge) (i : String) (ssid : Option String) :
    (k.appliedRules i ssid).network = k.network := by
  unfold appliedRules
  split
  · rfl
  · exact network_appliedDefaults k i

theorem network_reacted (k : Knowledge) (event : NetworkEvent) :
    (k.reacted event).network = k.network.reacted event := by
  cases event with
  | interfaceChanged i change =>
    cases change with
    | up =>
      show (if k.shouldApply i then k.appliedDefaults i else k).network = k.network
      split_ifs
      · exact network_appliedDefaults k i
      · rfl
    | down => rfl
    | added => rfl
    | removed => rfl
  | wifiConnected i ssid => exact network_appliedRules _ i _
  | wifiDisconnected i last => exact network_appliedDefaults _ i
  | addressChanged i added removed => exact network_appliedRules k i _
  | routeChanged i destination gateway added => rfl

theorem network_told (k : Knowledge) (op : Dispatch.Op) :
    (k.told op).network = k.network.told op := by
  cases op with
  | start => rfl
  | stop => rfl
  | updateConfig config => rfl
  | applyInitialState interfaces =>
    exact run_preserves appliedDefaults
      (fun k' => k'.network = k.network.told (.applyInitialState interfaces))
      (fun k' i h => (network_appliedDefaults k' i).trans h) _ _ rfl
  | handleEvent order event =>
    show (if k.state = .running then _ else k).network = if k.state = .running then _ else _
    split_ifs
    · exact network_reacted _ event
    · rfl

end Knowledge

/- The operation, but for the configuration and the order in which it meets the active routes. -/
def Dispatch.Op.news (op : Dispatch.Op) : Dispatch.Op :=
  match op.unordered with
  | .updateConfig _ => .updateConfig {}
  | op' => op'

theorem told_news (k : NetworkKnowledge) (op : Dispatch.Op) : k.told op.news = k.told op := by
  cases op <;> rfl

theorem run_told_news (k : NetworkKnowledge) (ops : List Dispatch.Op) :
    run NetworkKnowledge.told k (ops.map Dispatch.Op.news) = run NetworkKnowledge.told k ops := by
  unfold run
  rw [List.foldl_map]
  simp only [told_news]

theorem network_run_perform (s : System κ) (ops : List Dispatch.Op) :
    (run (Dispatch.perform rt) s ops).dispatcher.knowledge.network =
      run NetworkKnowledge.told s.dispatcher.knowledge.network ops := by
  rw [knowledge_run_perform]
  exact run_simulates Knowledge.told NetworkKnowledge.told Knowledge.network (fun _ => True)
    (fun _ _ h => h) (fun k op _ => Knowledge.network_told k op) s.dispatcher.knowledge ops trivial

/- Two dispatchers that know the same of the network and are told the same of it know the same,
whatever their kernels, their route managers, their active routes, their configurations and the
orders of the maps in these. -/
theorem network_independent {κ κ' : Type} (rt : Rtnetlink κ) (rt' : Rtnetlink κ') (s : System κ)
    (s' : System κ') (h : s.dispatcher.knowledge.network = s'.dispatcher.knowledge.network)
    (ops ops' : List Dispatch.Op)
    (hops : ops.map Dispatch.Op.news = ops'.map Dispatch.Op.news) :
    (run (Dispatch.perform rt) s ops).dispatcher.knowledge.network =
      (run (Dispatch.perform rt') s' ops').dispatcher.knowledge.network := by
  rw [network_run_perform, network_run_perform, h, ← run_told_news _ ops, hops, run_told_news]

/- The interfaces of the host in the other order. -/
def reordered : Config :=
  { LinkState.twoLinks with
    interfaces := (AList.insert "wlan0" ⟨.wlan, .name "wlan0", 100⟩ ∅).insert "eth0"
      ⟨.lan, .name "eth0", 100⟩ }

/- The dispatcher of a host with two links, with the route of its rule in force. -/
def withRoute : System Unit :=
  let s := Dispatch.launch LinkState.twoLinks .default ()
  { s with
    dispatcher := { s.dispatcher with
      executor := s.dispatcher.executor.trackActiveRoute "lan" "eth0" 100 } }

/- Both links are up, a network is joined and eth0 goes down, in a dry run with a route in force
and in another one that has the configuration in the other order. -/
theorem network_independent_reordered :
    (run (Dispatch.perform grantAll) withRoute
        [.applyInitialState LinkState.bothUp, .handleEvent .asListed (.wifiConnected "wlan0" "home"),
          .updateConfig LinkState.twoLinks,
          .handleEvent .asListed (.interfaceChanged "eth0" .down)]).dispatcher.knowledge.network =
      (run (Dispatch.perform grantAll) (Dispatch.launch reordered .default ())
        [.applyInitialState LinkState.bothUp, .handleEvent .asListed (.wifiConnected "wlan0" "home"),
          .updateConfig reordered,
          .handleEvent .asListed (.interfaceChanged "eth0" .down)]).dispatcher.knowledge.network :=
  network_independent grantAll grantAll withRoute (Dispatch.launch reordered .default ()) rfl _ _ rfl

/-! ### One interface -/

/-- What is known of an interface. -/
structure LocalKnowledge where
  state : DispatcherState
  info : Option InterfaceInfo
  ssid : Option String

def Knowledge.about (k : Knowledge) (i : String) : LocalKnowledge :=
  ⟨k.state, k.networkState.getInterface i, k.currentSsids.lookup i⟩

/- The operations that tell something of the interface. -/
def Dispatch.Op.concerns (i : String) : Dispatch.Op → Bool
  | .handleEvent _ event => event.interface == some i
  | .updateConfig _ => false
  | .start => true
  | .stop => true
  | .applyInitialState _ => true

/- An event of another interface tells nothing of this one. -/
theorem getInterface_observe_other {event : NetworkEvent} {i : String}
    (h : event.interface ≠ some i) (ns : NetworkState) :
    (ns.observe event).getInterface i = ns.getInterface i := by
  have hother : ∀ {j : String} (f : InterfaceInfo → InterfaceInfo), some j ≠ some i →
      (ns.withInterface j f).getInterface i = ns.getInterface i := by
    intro j f hj
    rw [NetworkState.getInterface_withInterface, if_neg fun hi => hj (congrArg some hi.symm)]
  cases event with
  | interfaceChanged j change =>
    cases change with
    | up => exact hother _ h
    | down => exact hother _ h
    | added => rfl
    | removed =>
      exact (NetworkState.getInterface_removeInterface ns j i).trans
        (if_neg fun hi => h (congrArg some hi.symm))
  | wifiConnected j ssid => exact hother _ h
  | wifiDisconnected j last => exact hother _ h
  | addressChanged j added removed => exact hother _ h
  | routeChanged j destination gateway added => rfl

/- What an event tells of an interface depends on what is known of that interface alone. -/
theorem getInterface_observe_congr {ns ns' : NetworkState} {i : String}
    (h : ns.getInterface i = ns'.getInterface i) (event : NetworkEvent) :
    (ns.observe event).getInterface i = (ns'.observe event).getInterface i := by
  by_cases hi : event.interface = some i
  · have hown : ∀ f : InterfaceInfo → InterfaceInfo,
        (ns.withInterface i f).getInterface i = (ns'.withInterface i f).getInterface i := by
      intro f
      rw [NetworkState.getInterface_withInterface, NetworkState.getInterface_withInterface, h]
    cases event with
    | interfaceChanged j change =>
      cases hi
      cases change with
      | up => exact hown _
      | down => exact hown _
      | added => exact h
      | removed =>
        refine (NetworkState.getInterface_removeInterface ns i i).trans
          (Eq.trans ?_ (NetworkState.getInterface_removeInterface ns' i i).symm)
        rw [h]
    | wifiConnected j ssid =>
      cases hi
      exact hown _
    | wifiDisconnected j last =>
      cases hi
      exact hown _
    | addressChanged j added removed =>
      cases hi
      exact hown _
    | routeChanged j destination gateway added => exact h
  · rw [getInterface_observe_other hi, getInterface_observe_other hi, h]

theorem getInterface_foldl_congr (interfaces : List InterfaceInfo) {ns ns' : NetworkState}
    {i : String} (h : ns.getInterface i = ns'.getInterface i) :
    (interfaces.foldl NetworkState.updateInterface ns).getInterface i =
      (interfaces.foldl NetworkState.updateInterface ns').getInterface i := by
  induction interfaces generalizing ns ns' with
  | nil => exact h
  | cons info rest ih =>
    apply ih
    have hins := lookup_insert_eq_ite ns.interfaces info.name i info
    have hins' := lookup_insert_eq_ite ns'.interfaces info.name i info
    refine hins.trans (Eq.trans ?_ hins'.symm)
    exact congrArg (fun known => if i = info.name then some info else known) h

namespace Knowledge

variable {k k' : Knowledge} {i : String}

/- Applying rules gives indices and tells nothing of an interface. -/
theorem about_appliedDefaults (k : Knowledge) (i j : String) :
    (k.appliedDefaults j).about i = k.about i := by
  unfold appliedDefaults
  split_ifs <;> rfl

theorem about_appliedRules (k : Knowledge) (i j : String) (ssid : Option String) :
    (k.appliedRules j ssid).about i = k.about i := by
  unfold appliedRules
  split
  · rfl
  · exact about_appliedDefaults k i j

theorem about_reacted (k : Knowledge) (event : NetworkEvent) (i : String) :
    (k.reacted event).about i =
      { k.about i with ssid := SsidRecords.ssidAfter event i (k.about i).ssid } := by
  cases event with
  | interfaceChanged j change =>
    cases change with
    | up =>
      show (if k.shouldApply j then k.appliedDefaults j else k).about i = _
      split_ifs
      · exact about_appliedDefaults k i j
      · rfl
    | down => rfl
    | added => rfl
    | removed => rfl
  | wifiConnected j ssid =>
    refine (about_appliedRules _ i j _).trans ?_
    exact congrArg (LocalKnowledge.mk _ _) (lookup_insert_eq_ite k.currentSsids j i ssid)
  | wifiDisconnected j last =>
    refine (about_appliedDefaults _ i j).trans ?_
    exact congrArg (LocalKnowledge.mk _ _) (lookup_erase_eq_ite k.currentSsids j i)
  | addressChanged j added removed => exact about_appliedRules k i j _
  | routeChanged j destination gateway added => rfl

theorem about_told_congr (h : k.about i = k'.about i) (op : Dispatch.Op) :
    (k.told op).about i = (k'.told op).about i := by
  obtain ⟨hstate, hinfo, hssid⟩ := LocalKnowledge.mk.inj h
  cases op with
  | start => exact congrArg (fun l : LocalKnowledge => { l with state := .running }) h
  | stop => exact congrArg (fun l : LocalKnowledge => { l with state := .stopped }) h
  | updateConfig config => exact h
  | applyInitialState interfaces =>
    have hrun : ∀ (k : Knowledge) (names : List String),
        (run appliedDefaults k names).about i = k.about i := fun k names =>
      run_preserves appliedDefaults (fun k' => k'.about i = k.about i)
        (fun k' j hk => (about_appliedDefaults k' i j).trans hk) k names rfl
    refine (hrun _ _).trans (Eq.trans ?_ (hrun _ _).symm)
    show LocalKnowledge.mk k.state _ _ = LocalKnowledge.mk k'.state _ _
    rw [hstate, hssid, getInterface_foldl_congr interfaces hinfo]
  | handleEvent order event =>
    show (if k.state = .running then _ else k).about i =
      (if k'.state = .running then _ else k').about i
    rw [← hstate]
    split_ifs
    · rw [about_reacted, about_reacted]
      show LocalKnowledge.mk k.state ((k.networkState.observe event).getInterface i)
          (SsidRecords.ssidAfter event i (k.currentSsids.lookup i)) =
        LocalKnowledge.mk k.state ((k'.networkState.observe event).getInterface i)
          (SsidRecords.ssidAfter event i (k'.currentSsids.lookup i))
      rw [getInterface_observe_congr hinfo event, hssid]
    · exact h

/- An event tells nothing of the SSIDs of other interfaces. -/
theorem ssidAfter_other {event : NetworkEvent} (h : event.interface ≠ some i)
    (ssid : Option String) : SsidRecords.ssidAfter event i ssid = ssid := by
  cases event with
  | wifiConnected j joined => exact if_neg fun hi => h (congrArg some hi.symm)
  | wifiDisconnected j last => exact if_neg fun hi => h (congrArg some hi.symm)
  | interfaceChanged j change => rfl
  | addressChanged j added removed => rfl
  | routeChanged j destination gateway added => rfl

theorem about_told_other {op : Dispatch.Op} (hop : op.concerns i = false) (k : Knowledge) :
    (k.told op).about i = k.about i := by
  cases op with
  | start => cases hop
  | stop => cases hop
  | applyInitialState interfaces => cases hop
  | updateConfig config => rfl
  | handleEvent order event =>
    have hother : event.interface ≠ some i := beq_eq_false_iff_ne.mp hop
    show (if k.state = .running then _ else k).about i = _
    split_ifs
    · rw [about_reacted, ssidAfter_other hother]
      show LocalKnowledge.mk k.state ((k.networkState.observe event).getInterface i) _ = _
      rw [getInterface_observe_other hother]
      rfl
    · rfl

/- The operations that do not concern the interface can be left out. -/
theorem about_run (k : Knowledge) (i : String) (ops : List Dispatch.Op) :
    (run told k ops).about i = (run told k (ops.filter (Dispatch.Op.concerns i))).about i :=
  run_purge told (fun k k' => k.about i = k'.about i) (Dispatch.Op.concerns i)
    (fun _ _ op _ h => about_told_congr h op)
    (fun k _ _ hop h => (about_told_other hop k).trans h) k k ops rfl

theorem about_run_congr (h : k.about i = k'.about i) (ops : List Dispatch.Op) :
    (run told k ops).about i = (run told k' ops).about i := by
  induction ops generalizing k k' with
  | nil => exact h
  | cons op ops ih => exact ih (about_told_congr h op)

end Knowledge

/- What a dispatcher knows of an interface depends on what it has been told of that interface
alone: on no event of another one, no configuration and no kernel. -/
theorem knowledge_local {κ κ' : Type} (rt : Rtnetlink κ) (rt' : Rtnetlink κ') (i : String)
    (s : System κ) (s' : System κ')
    (h : s.dispatcher.knowledge.about i = s'.dispatcher.knowledge.about i)
    (ops ops' : List Dispatch.Op)
    (hops : (ops.filter (Dispatch.Op.concerns i)).map Dispatch.Op.unordered =
      (ops'.filter (Dispatch.Op.concerns i)).map Dispatch.Op.unordered) :
    (run (Dispatch.perform rt) s ops).dispatcher.knowledge.about i =
      (run (Dispatch.perform rt') s' ops').dispatcher.knowledge.about i := by
  rw [knowledge_run_perform, knowledge_run_perform, Knowledge.about_run, Knowledge.about_run _ i ops',
    ← run_told_unordered _ (ops.filter _), ← run_told_unordered _ (ops'.filter _), hops]
  exact Knowledge.about_run_congr h _

/- What is known of eth0, which goes down, with and without the events of wlan0 and a reload. -/
theorem knowledge_local_eth0 :
    (run (Dispatch.perform grantAll) (Dispatch.launch LinkState.twoLinks .default ())
        [.applyInitialState LinkState.bothUp, .handleEvent .asListed (.wifiConnected "wlan0" "home"),
          .handleEvent .asListed (.interfaceChanged "eth0" .down),
          .updateConfig {}]).dispatcher.knowledge.about "eth0" =
      (run (Dispatch.perform grantAll) withRoute
        [.applyInitialState LinkState.bothUp,
          .handleEvent .asListed (.interfaceChanged "eth0" .down)]).dispatcher.knowledge.about
          "eth0" :=
  knowledge_local grantAll grantAll "eth0" (Dispatch.launch LinkState.twoLinks .default ()) withRoute
    rfl _ _ rfl

end NicAutoswitch.Engine
