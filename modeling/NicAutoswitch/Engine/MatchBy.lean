import NicAutoswitch.Engine.Handlers
import NicAutoswitch.Kernel.Calls
import NicAutoswitch.Kernel.Linux

/-!
# The interface that an entry of the configuration means

An entry has a key and says how to match its interface. The initial state goes through the
key and does not look at the match.
-/

namespace NicAutoswitch.Engine.MatchBy
open HashMaps Schema Monitor Router StateProg Transition

/- Some entry, under whatever key, matches the name. -/
def MatchedByName (config : Config) (n : String) : Prop :=
  ∃ key entry, config.interfaces.lookup key = some entry ∧ entry.matchBy = .name n

/- The default rules are applied for exactly those interfaces of the list that are up and
matched. -/
def Recognised (d : EventDispatcher) (interfaces : List InterfaceInfo) : Prop :=
  ∀ info ∈ interfaces, info.isUp = true →
    (info.name ∈ d.upNames interfaces ↔ MatchedByName d.config info.name)

/- The condition, on the names of the interfaces that are up: each that is a key of the map is
matched by some entry, and each that an entry matches is a key. -/
structure KeysAgree (config : Config) (interfaces : List InterfaceInfo) : Prop where
  matched : ∀ info ∈ interfaces, info.isUp = true → info.name ∈ config.interfaces →
    MatchedByName config info.name
  keys : ∀ key entry, config.interfaces.lookup key = some entry → ∀ info ∈ interfaces,
    info.isUp = true → entry.matchBy = .name info.name → info.name ∈ config.interfaces

variable {κ : Type} {d : EventDispatcher} {interfaces : List InterfaceInfo}

theorem mem_upNames_iff {info : InterfaceInfo} (hm : info ∈ interfaces) (hu : info.isUp = true) :
    info.name ∈ d.upNames interfaces ↔ info.name ∈ d.config.interfaces := by
  unfold EventDispatcher.upNames
  apply Iff.intro
  · intro h
    obtain ⟨other, hother, hn⟩ := List.mem_map.mp h
    have hkey := (List.mem_filter.mp hother).2
    rw [Bool.and_eq_true, decide_eq_true_iff] at hkey
    exact hn ▸ hkey.2
  · intro h
    refine List.mem_map.mpr ⟨info, List.mem_filter.mpr ⟨hm, ?_⟩, rfl⟩
    rw [hu, decide_eq_true h]
    rfl

theorem recognised_iff_keysAgree (d : EventDispatcher) (interfaces : List InterfaceInfo) :
    Recognised d interfaces ↔ KeysAgree d.config interfaces := by
  apply Iff.intro
  · intro h
    constructor
    · intro info hm hu hk
      exact (h info hm hu).mp ((mem_upNames_iff hm hu).mpr hk)
    · intro key entry hl info hm hu he
      exact (mem_upNames_iff hm hu).mp ((h info hm hu).mpr ⟨key, entry, hl, he⟩)
  · intro h info hm hu
    rw [mem_upNames_iff hm hu]
    apply Iff.intro
    · exact h.matched info hm hu
    · rintro ⟨key, entry, hl, he⟩
      exact h.keys key entry hl info hm hu he

/- For every list of interfaces: the keys of the map are the matched names. -/
theorem keysAgree_always_iff (config : Config) :
    (∀ interfaces, KeysAgree config interfaces) ↔
      ∀ n, n ∈ config.interfaces ↔ MatchedByName config n := by
  apply Iff.intro
  · intro h n
    have hn := h [{ name := n, interfaceType := .lan, isUp := true }]
    apply Iff.intro
    · exact hn.matched _ List.mem_cons_self rfl
    · rintro ⟨key, entry, hl, he⟩
      exact hn.keys key entry hl _ List.mem_cons_self rfl he
  · intro h interfaces
    exact ⟨fun info _ _ hk => (h info.name).mp hk,
      fun key entry hl info _ _ he => (h info.name).mpr ⟨key, entry, hl, he⟩⟩

/- The initial state applies the default rules for the names that the filter leaves; they are
the matched ones exactly if keys and matches agree. -/
theorem recognised_iff (rt : Rtnetlink κ) (s : System κ) (interfaces : List InterfaceInfo) :
    after (Dispatch.applyInitialState rt interfaces) s =
        run (appliedDefaults rt) (swept rt interfaces s) (s.dispatcher.upNames interfaces) ∧
      (Recognised s.dispatcher interfaces ↔ KeysAgree s.dispatcher.config interfaces) ∧
      ((∀ interfaces, Recognised s.dispatcher interfaces) ↔
        ∀ n, n ∈ s.dispatcher.config.interfaces ↔ MatchedByName s.dispatcher.config n) := by
  refine ⟨applyInitialState_after rt interfaces s, recognised_iff_keysAgree _ interfaces, ?_⟩
  rw [← keysAgree_always_iff]
  exact forall_congr' fun interfaces => recognised_iff_keysAgree s.dispatcher interfaces

/-! ### A key that is not the name -/

/- The only entry has a key of its own and matches `eth0`. -/
def officeLan : Config where
  interfaces := AList.insert "office" ⟨.lan, .name "eth0", 100⟩ ∅
  routing := ⟨[Kernel.lanRule]⟩

/- The only entry has the key `eth0` and matches `eth1`. -/
def eth1Lan : Config where
  interfaces := AList.insert "eth0" ⟨.lan, .name "eth1", 100⟩ ∅
  routing := ⟨[Kernel.lanRule]⟩

/- The daemon after its start with `eth0` up, on a kernel that grants every request. -/
def startedWith (config : Config) : System Kernel.KernelState :=
  Dispatch.perform Kernel.noFault.linux (Dispatch.launch config connected .empty)
    (.applyInitialState Kernel.eth0Up)

/- Both configurations are accepted. With `eth0` up the first applies no rule although its entry
matches `eth0`, the second applies the rule although no entry does. -/
theorem key_decides :
    officeLan.validate = .ok () ∧ eth1Lan.validate = .ok () ∧
      MatchedByName officeLan "eth0" ∧ ¬ MatchedByName eth1Lan "eth0" ∧
      (startedWith officeLan).dispatcher.activeRoute "lan" = none ∧
      (startedWith eth1Lan).dispatcher.activeRoute "lan" = some ⟨"lan", "eth0", 100⟩ ∧
      ¬ Recognised (EventDispatcher.new officeLan connected) Kernel.eth0Up ∧
      ¬ Recognised (EventDispatcher.new eth1Lan connected) Kernel.eth0Up := by
  have hoffice : MatchedByName officeLan "eth0" := ⟨"office", _, rfl, rfl⟩
  have heth1 : ¬ MatchedByName eth1Lan "eth0" := by
    rintro ⟨key, entry, hl, he⟩
    have hm : ⟨key, entry⟩ ∈ eth1Lan.interfaces.entries := (mem_entries_iff _ key entry).mpr hl
    obtain rfl : entry = ⟨.lan, .name "eth1", 100⟩ := by
      cases List.mem_singleton.mp hm
      rfl
    exact absurd he (by decide)
  refine ⟨by decide +kernel, by decide +kernel, hoffice, heth1, by decide, by decide, ?_, ?_⟩
  · intro h
    have hin := (h _ List.mem_cons_self rfl).mpr hoffice
    revert hin
    decide
  · intro h
    exact heth1 ((h _ List.mem_cons_self rfl).mp (by decide))

end NicAutoswitch.Engine.MatchBy
