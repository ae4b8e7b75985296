import NicAutoswitch.Config.Schema
import NicAutoswitch.Lib.Run
import NicAutoswitch.Lib.Watch

/-!
# Configuration loader (config/loader.rs)

The TOML parser is a parameter: a text is decoded into a configuration, or refused with
the text of an error. A file is what the path leads to when it is read.
-/

namespace NicAutoswitch.Schema
open Transition

/-- What is found at the path. -/
inductive ConfigFile where
  | missing
  | unreadable (error : String)
  | text (content : String)
  deriving Repr, DecidableEq

/-- `toml::from_str` -/
abbrev Toml := String → Except String Config

/-- `sender` is an `Option` in the source, which `new` always fills. -/
structure ConfigLoader where
  path : String
  current : Config
  sender : Watch Config

namespace ConfigLoader

variable (toml : Toml)

def loadFromPath (path : String) (file : ConfigFile) : Except NicAutoSwitchError Config :=
  match file with
  | .missing => .error (.config s!"Configuration file not found: {path}")
  | .unreadable e => .error (.config s!"Failed to read {path}: {e}")
  | .text content =>
    match toml content with
    | .error e => .error (.config s!"Failed to parse {path}: {e}")
    | .ok config => do
      config.validate
      return config

/- The receiver of the new channel is dropped at once. -/
def new (path : String) (file : ConfigFile) : Except NicAutoSwitchError ConfigLoader := do
  let config ← loadFromPath toml path file
  return { path, current := config, sender := { value := config } }

def load (l : ConfigLoader) (file : ConfigFile) : Except NicAutoSwitchError Config :=
  loadFromPath toml l.path file

def subscribe (l : ConfigLoader) : ℕ × ConfigLoader :=
  (l.sender.subscribe.1, { l with sender := l.sender.subscribe.2 })

/- Make the configuration the current one and send it; a refused send is at most logged. -/
def publish (l : ConfigLoader) (config : Config) : ConfigLoader :=
  { l with current := config, sender := (l.sender.send config).2 }

def withDryRun (config : Config) : Config :=
  { config with global := { config.global with dryRun := true } }

def overrideDryRun (l : ConfigLoader) (dryRun : Bool) : ConfigLoader :=
  if dryRun && !l.current.global.dryRun then l.publish (withDryRun l.current) else l

def reload (l : ConfigLoader) (file : ConfigFile) :
    Except NicAutoSwitchError Config × ConfigLoader :=
  match loadFromPath toml l.path file with
  | .error e => (.error e, l)
  | .ok config =>
    match config.validate with
    | .error e => (.error e, l)
    | .ok () => (.ok config, l.publish config)

theorem loadFromPath_ok {path : String} {file : ConfigFile} {config : Config}
    (h : loadFromPath toml path file = .ok config) :
    ∃ content, file = .text content ∧ toml content = .ok config ∧ config.validate = .ok () := by
  cases file with
  | missing => cases h
  | unreadable e => cases h
  | text content =>
    unfold loadFromPath at h
    dsimp only at h
    cases ht : toml content with
    | error e =>
      rw [ht] at h
      cases h
    | ok c =>
      rw [ht] at h
      cases hv : c.validate with
      | error e =>
        simp only [hv] at h
        cases h
      | ok u =>
        simp only [hv] at h
        cases h
        exact ⟨content, rfl, ht, hv⟩

theorem loadFromPath_text {path content : String} {config : Config}
    (ht : toml content = .ok config) (hv : config.validate = .ok ()) :
    loadFromPath toml path (.text content) = .ok config := by
  unfold loadFromPath
  simp only [ht, hv]
  rfl

theorem new_ok {path : String} {file : ConfigFile} {config : Config}
    (h : loadFromPath toml path file = .ok config) :
    new toml path file = .ok { path, current := config, sender := { value := config } } := by
  unfold new
  rw [h]
  rfl

/- The second validation of `reload` never fails. -/
theorem reload_ok {l : ConfigLoader} {file : ConfigFile} {config : Config}
    (h : loadFromPath toml l.path file = .ok config) :
    l.reload toml file = (.ok config, l.publish config) := by
  obtain ⟨_, _, _, hv⟩ := loadFromPath_ok toml h
  unfold reload
  rw [h]
  simp only [hv]

theorem reload_error {l : ConfigLoader} {file : ConfigFile} {e : NicAutoSwitchError}
    (h : loadFromPath toml l.path file = .error e) : l.reload toml file = (.error e, l) := by
  unfold reload
  rw [h]

theorem overrideDryRun_set {l : ConfigLoader} (h : l.current.global.dryRun = false) :
    l.overrideDryRun true = l.publish (withDryRun l.current) := by
  unfold overrideDryRun
  rw [h]
  rfl

theorem overrideDryRun_idle {l : ConfigLoader} {dryRun : Bool}
    (h : dryRun = true → l.current.global.dryRun = true) : l.overrideDryRun dryRun = l := by
  unfold overrideDryRun
  cases dryRun with
  | false => rfl
  | true =>
    rw [h rfl]
    rfl

end ConfigLoader

end NicAutoswitch.Schema
