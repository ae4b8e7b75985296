import NicAutoswitch.Config.Loader

/-!
# Runs of the configuration loader

The loader holds the configuration twice, as `current` and in the channel. A send that
nobody receives leaves the channel with the older one, which the next subscriber sees.
A dry-run override changes the configuration at hand, and the next reload replaces it.
-/

namespace NicAutoswitch.Schema.LoaderRuns
open HashMaps Transition

/- A reload comes with what it finds at the path. -/
inductive LoaderOp where
  | reload (file : ConfigFile)
  | overrideDryRun (dryRun : Bool)
  | subscribe
  | drop (receiver : ℕ)
  deriving Repr, DecidableEq

variable (toml : Toml)

def step (l : ConfigLoader) : LoaderOp → ConfigLoader
  | .reload file => (l.reload toml file).2
  | .overrideDryRun dryRun => l.overrideDryRun dryRun
  | .subscribe => l.subscribe.2
  | .drop receiver => { l with sender := l.sender.drop receiver }

/-! ### What subscribers see -/

def SubscribersCurrent (l : ConfigLoader) : Prop :=
  ∀ r ∈ l.sender.receivers, l.sender.borrow r = some l.current

/- The condition: an operation that changes the current configuration finds a receiver. -/
def Heard (l : ConfigLoader) : LoaderOp → Prop
  | .reload file => ∀ config, ConfigLoader.loadFromPath toml l.path file = .ok config →
      config ≠ l.current → l.sender.receivers ≠ []
  | .overrideDryRun dryRun => dryRun = true → l.current.global.dryRun = false →
      l.sender.receivers ≠ []
  | .subscribe => True
  | .drop _ => True

def Synced (l : ConfigLoader) : Prop := l.sender.value = l.current

/- The copies agree exactly if all subscribers see the current configuration, and one who
subscribed now would too. -/
theorem synced_iff (l : ConfigLoader) :
    Synced l ↔ SubscribersCurrent l ∧ SubscribersCurrent l.subscribe.2 := by
  have hsome : l.subscribe.2.sender.receivers ≠ [] := List.cons_ne_nil _ _
  have hsub := Watch.all_see_iff l.subscribe.2.sender l.current
  unfold SubscribersCurrent
  rw [Watch.all_see_iff]
  refine ⟨fun h => ⟨Or.inr h, hsub.mpr (Or.inr h)⟩, fun h => ?_⟩
  exact (hsub.mp h.2).resolve_left hsome

theorem synced_publish {l : ConfigLoader} (h : Synced l) (config : Config) :
    Synced (l.publish config) ↔ (config ≠ l.current → l.sender.receivers ≠ []) := by
  unfold ConfigLoader.publish Synced
  by_cases hr : l.sender.receivers = []
  · rw [Watch.send_nobody hr, h]
    simp [hr, eq_comm]
  · rw [Watch.send_heard hr]
    simp [hr]

theorem withDryRun_ne {config : Config} (h : config.global.dryRun = false) :
    ConfigLoader.withDryRun config ≠ config := by
  intro he
  have hd : (ConfigLoader.withDryRun config).global.dryRun = false := he ▸ h
  cases hd

theorem synced_step {l : ConfigLoader} (h : Synced l) (op : LoaderOp) :
    Synced (step toml l op) ↔ Heard toml l op := by
  cases op with
  | reload file =>
    show Synced (l.reload toml file).2 ↔ ∀ config,
      ConfigLoader.loadFromPath toml l.path file = .ok config → config ≠ l.current →
        l.sender.receivers ≠ []
    cases hl : ConfigLoader.loadFromPath toml l.path file with
    | error e =>
      rw [ConfigLoader.reload_error toml hl]
      exact iff_of_true h fun _ hc => by cases hc
    | ok config =>
      rw [ConfigLoader.reload_ok toml hl, synced_publish h]
      apply Iff.intro
      · intro hp c hc
        cases hc
        exact hp
      · intro hp
        exact hp config rfl
  | overrideDryRun dryRun =>
    show Synced (l.overrideDryRun dryRun) ↔
      (dryRun = true → l.current.global.dryRun = false → l.sender.receivers ≠ [])
    by_cases hset : dryRun = true ∧ l.current.global.dryRun = false
    · obtain ⟨rfl, hd⟩ := hset
      rw [ConfigLoader.overrideDryRun_set hd, synced_publish h]
      simp [hd, withDryRun_ne hd]
    · have hidle : dryRun = true → l.current.global.dryRun = true := by
        intro hb
        by_contra hne
        exact hset ⟨hb, Bool.eq_false_of_not_eq_true hne⟩
      rw [ConfigLoader.overrideDryRun_idle hidle]
      refine iff_of_true h fun hb hd => ?_
      rw [hidle hb] at hd
      cases hd
  | subscribe => exact iff_of_true h trivial
  | drop receiver => exact iff_of_true h trivial

theorem synced_new {path : String} {file : ConfigFile} {l : ConfigLoader}
    (h : ConfigLoader.new toml path file = .ok l) : Synced l := by
  unfold ConfigLoader.new at h
  cases hl : ConfigLoader.loadFromPath toml path file with
  | error e =>
    rw [hl] at h
    cases h
  | ok config =>
    rw [hl] at h
    cases h
    rfl

/- Every subscriber, and any who subscribed next, sees the current configuration throughout
exactly the runs in which each change of the configuration finds a receiver. -/
theorem subscribers_current_iff {path : String} {file : ConfigFile} {l : ConfigLoader}
    (h : ConfigLoader.new toml path file = .ok l) (ops : List LoaderOp) :
    Throughout (step toml)
        (fun l => SubscribersCurrent l ∧ SubscribersCurrent l.subscribe.2) l ops ↔
      Along (step toml) (Heard toml) l ops := by
  have hiff := throughout_iff_along (step toml) (fun _ => True) Synced (Heard toml)
    (fun _ _ _ => trivial) (fun _ op _ hs => synced_step toml hs op) l ops trivial
    (synced_new toml h)
  rw [← hiff]
  exact forall_congr' fun pre => imp_congr_right fun _ => (synced_iff _).symm

/- One wired interface, and the other values from the file. -/
def wired (interval : ℕ) (dryRun : Bool) : Config where
  global := { monitorInterval := interval, dryRun := dryRun }
  interfaces := AList.insert "eth0" { interfaceType := .lan, matchBy := .name "eth0" } ∅

def fiveText : String :=
  "[global]\nmonitor_interval = 5\n\n[interfaces.eth0]\ninterface_type = \"lan\"\n" ++
    "match_by = \x7b name = \"eth0\" \x7d\n"

def fifteenText : String :=
  "[global]\nmonitor_interval = 15\n\n[interfaces.eth0]\ninterface_type = \"lan\"\n" ++
    "match_by = \x7b name = \"eth0\" \x7d\n"

def twoFiles : Toml := fun content =>
  if content = fiveText then .ok (wired 5 false)
  else if content = fifteenText then .ok (wired 15 false)
  else .error "expected a table"

theorem load_five : ConfigLoader.loadFromPath twoFiles "config.toml" (.text fiveText) =
    .ok (wired 5 false) :=
  ConfigLoader.loadFromPath_text twoFiles rfl (by decide +kernel)

theorem load_fifteen : ConfigLoader.loadFromPath twoFiles "config.toml" (.text fifteenText) =
    .ok (wired 15 false) :=
  ConfigLoader.loadFromPath_text twoFiles rfl (by decide +kernel)

def fiveLoader : ConfigLoader :=
  { path := "config.toml", current := wired 5 false, sender := { value := wired 5 false } }

theorem new_five :
    ConfigLoader.new twoFiles "config.toml" (.text fiveText) = .ok fiveLoader :=
  ConfigLoader.new_ok twoFiles load_five

theorem subscribers_current_iff_subscribed :
    Throughout (step twoFiles)
        (fun l => SubscribersCurrent l ∧ SubscribersCurrent l.subscribe.2) fiveLoader
        [.subscribe, .reload (.text fifteenText)] ↔
      Along (step twoFiles) (Heard twoFiles) fiveLoader
        [.subscribe, .reload (.text fifteenText)] :=
  subscribers_current_iff twoFiles new_five _

/- Nobody has subscribed when the file is reloaded, and the next subscriber is given the
configuration that was loaded first. -/
theorem late_subscriber_stale :
    ConfigLoader.new twoFiles "config.toml" (.text fiveText) = .ok fiveLoader ∧
    ¬ Throughout (step twoFiles) SubscribersCurrent fiveLoader
      [.reload (.text fifteenText), .subscribe] := by
  apply And.intro new_five
  intro h
  have hlast := h [.reload (.text fifteenText), .subscribe] List.prefix_rfl
  have hreload := ConfigLoader.reload_ok twoFiles (l := fiveLoader) load_fifteen
  unfold SubscribersCurrent at hlast
  simp only [run_cons, step, hreload] at hlast
  have hstale : some (wired 5 false) = some (wired 15 false) := hlast 0 List.mem_cons_self
  have hinterval : (5 : ℕ) = 15 :=
    congrArg (fun c : Config => c.global.monitorInterval) (Option.some_inj.mp hstale)
  cases hinterval

/-! ### A dry run from the command line -/

/-- `returned` are the configurations that reloads returned, `published` those that the
channel took. -/
structure Traffic where
  loader : ConfigLoader
  returned : List Config := []
  published : List Config := []

def exchange (t : Traffic) (op : LoaderOp) : Traffic where
  loader := step toml t.loader op
  returned :=
    match op with
    | .reload file =>
      match (t.loader.reload toml file).1 with
      | .ok config => config :: t.returned
      | .error _ => t.returned
    | _ => t.returned
  published :=
    match op with
    | .reload file =>
      match (t.loader.reload toml file).1 with
      | .ok config =>
        if t.loader.sender.receivers.isEmpty then t.published else config :: t.published
      | .error _ => t.published
    | _ => t.published

structure DryEverywhere (t : Traffic) : Prop where
  current : t.loader.current.global.dryRun = true
  returned : ∀ config ∈ t.returned, config.global.dryRun = true
  published : ∀ config ∈ t.published, config.global.dryRun = true

/- The condition: a file that loads asks for a dry run itself. -/
def LoadsDry (path : String) (op : LoaderOp) : Prop :=
  ∀ file, op = .reload file → ∀ config, ConfigLoader.loadFromPath toml path file = .ok config →
    config.global.dryRun = true

theorem overrideDryRun_path (l : ConfigLoader) (dryRun : Bool) :
    (l.overrideDryRun dryRun).path = l.path := by
  unfold ConfigLoader.overrideDryRun
  split_ifs <;> rfl

theorem overrideDryRun_keeps_dry {l : ConfigLoader} (h : l.current.global.dryRun = true)
    (dryRun : Bool) : (l.overrideDryRun dryRun).current.global.dryRun = true := by
  rw [ConfigLoader.overrideDryRun_idle fun _ => h]
  exact h

/- The override takes effect whatever the loader holds. -/
theorem overrideDryRun_dry (l : ConfigLoader) :
    (l.overrideDryRun true).current.global.dryRun = true := by
  by_cases h : l.current.global.dryRun = true
  · exact overrideDryRun_keeps_dry h true
  · rw [ConfigLoader.overrideDryRun_set (Bool.eq_false_of_not_eq_true h)]
    rfl

theorem exchange_path (t : Traffic) (op : LoaderOp) :
    (exchange toml t op).loader.path = t.loader.path := by
  cases op with
  | reload file =>
    show (t.loader.reload toml file).2.path = t.loader.path
    cases hl : ConfigLoader.loadFromPath toml t.loader.path file with
    | error e => rw [ConfigLoader.reload_error toml hl]
    | ok config =>
      rw [ConfigLoader.reload_ok toml hl]
      rfl
  | overrideDryRun dryRun => exact overrideDryRun_path t.loader dryRun
  | subscribe => rfl
  | drop receiver => rfl

/- A reload that fails leaves everything as it is. -/
theorem exchange_failed {t : Traffic} {file : ConfigFile} {e : NicAutoSwitchError}
    (h : ConfigLoader.loadFromPath toml t.loader.path file = .error e) :
    exchange toml t (.reload file) = t := by
  unfold exchange step
  simp only [ConfigLoader.reload_error toml h]

theorem exchange_loaded {t : Traffic} {file : ConfigFile} {config : Config}
    (h : ConfigLoader.loadFromPath toml t.loader.path file = .ok config) :
    (exchange toml t (.reload file)).loader.current = config ∧
    (exchange toml t (.reload file)).returned = config :: t.returned ∧
    ∀ c ∈ (exchange toml t (.reload file)).published, c = config ∨ c ∈ t.published := by
  unfold exchange step
  simp only [ConfigLoader.reload_ok toml h]
  refine ⟨rfl, trivial, fun c hc => ?_⟩
  split_ifs at hc with hnobody
  · exact Or.inr hc
  · exact List.mem_cons.mp hc

theorem dryEverywhere_step {t : Traffic} (h : DryEverywhere t) (op : LoaderOp) :
    DryEverywhere (exchange toml t op) ↔ LoadsDry toml t.loader.path op := by
  cases op with
  | reload file =>
    cases hl : ConfigLoader.loadFromPath toml t.loader.path file with
    | error e =>
      rw [exchange_failed toml hl]
      refine iff_of_true h fun f hf config hc => ?_
      cases hf
      rw [hl] at hc
      cases hc
    | ok config =>
      obtain ⟨hcurrent, hreturned, hpublished⟩ := exchange_loaded toml hl
      apply Iff.intro
      · intro hd f hf c hc
        cases hf
        rw [hl] at hc
        cases hc
        exact hd.returned config (hreturned ▸ List.mem_cons_self)
      · intro hc
        have hdry := hc file rfl config hl
        constructor
        · rw [hcurrent]
          exact hdry
        · intro c hmem
          rw [hreturned] at hmem
          rcases List.mem_cons.mp hmem with rfl | hold
          · exact hdry
          · exact h.returned c hold
        · intro c hmem
          rcases hpublished c hmem with rfl | hold
          · exact hdry
          · exact h.published c hold
  | overrideDryRun dryRun =>
    refine iff_of_true ?_ fun f hf => by cases hf
    exact ⟨overrideDryRun_keeps_dry h.current dryRun, h.returned, h.published⟩
  | subscribe => exact iff_of_true ⟨h.current, h.returned, h.published⟩ fun f hf => by cases hf
  | drop receiver =>
    exact iff_of_true ⟨h.current, h.returned, h.published⟩ fun f hf => by cases hf

/- After the override everything stays dry exactly in the runs whose reloads meet only files
that ask for a dry run themselves, or do not load. -/
theorem dry_everywhere_iff (l : ConfigLoader) (ops : List LoaderOp) :
    Throughout (exchange toml) DryEverywhere { loader := l.overrideDryRun true } ops ↔
      ∀ op ∈ ops, LoadsDry toml l.path op := by
  have hstart : DryEverywhere { loader := l.overrideDryRun true } :=
    ⟨overrideDryRun_dry l, (fun c hc => by cases hc), (fun c hc => by cases hc)⟩
  rw [← along_const (exchange toml) (LoadsDry toml l.path)]
  apply throughout_iff_along (exchange toml) (fun t => t.loader.path = l.path) DryEverywhere
    (fun _ => LoadsDry toml l.path)
  · intro t op hp
    rw [exchange_path]
    exact hp
  · intro t op hp hd
    rw [dryEverywhere_step toml hd, hp]
  · exact overrideDryRun_path l true
  · exact hstart

/- A reload of the file that was loaded before the override ends the dry run. -/
theorem reload_ends_dry_run :
    ConfigLoader.new twoFiles "config.toml" (.text fiveText) = .ok fiveLoader ∧
    ¬ Throughout (exchange twoFiles) DryEverywhere { loader := fiveLoader.overrideDryRun true }
      [.reload (.text fiveText)] := by
  apply And.intro new_five
  intro h
  have hlast := h [.reload (.text fiveText)] List.prefix_rfl
  have hpath : (fiveLoader.overrideDryRun true).path = "config.toml" :=
    overrideDryRun_path fiveLoader true
  have hload : ConfigLoader.loadFromPath twoFiles (fiveLoader.overrideDryRun true).path
      (.text fiveText) = .ok (wired 5 false) := hpath ▸ load_five
  have hcurrent := (exchange_loaded twoFiles (t := { loader := fiveLoader.overrideDryRun true })
    hload).1
  have hdry : (wired 5 false).global.dryRun = true := hcurrent ▸ hlast.current
  cases hdry

end NicAutoswitch.Schema.LoaderRuns
