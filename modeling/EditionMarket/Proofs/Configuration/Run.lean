import EditionMarket.Proofs.Configuration.Paths
import EditionMarket.Proofs.Program
import EditionMarket.Proofs.Schema

/-!
# The active configuration is a checked one

Hosts load files, override settings, look them up and forget them all, and much of that fails: there is no
such file, it is no document, its settings have issues, or a path does not run through sections. Three
things have to move together whatever happens: the raw settings, what they stand for, and the log level. This
is so whatever reads the documents and checks the settings.

Main definitions: `Step` and `Checked`. Main statements: `Checked.after`, every step keeps the three together,
`after_of_error`, a step that fails changes nothing, and `active_is_checked_and_overrides_are_local`.
-/

namespace EditionMarket.Configuration

/-! ## Steps -/

/-- What a host does with the configuration. -/
inductive Step
  /-- Load a file; `text?` is the text of it, if there is one at the path. -/
  | loadFile (path : String) (text? : Option String)
  | loadDefaults
  | override (path : String) (value : Raw)
  /-- Look something up, for which there has to be an active configuration. -/
  | look
  | reset

variable (intake : Intake)

/-- The program of a step. -/
def Step.perform : Step → ConfigurationM Unit
  | loadFile path text? => discard (Configuration.loadFile intake path text?)
  | loadDefaults => discard (installDefaults intake)
  | override path value => Configuration.override intake path value
  | look => discard (current intake)
  | reset => Configuration.reset

/-- The configuration after a step, whether it fails or not. -/
def after (configuration : Configuration) (step : Step) : Configuration :=
  match step.perform intake configuration with
  | .ok _ next => next
  | .error _ next => next

/-- Whether a step does not fail. -/
def Step.succeeds (step : Step) (configuration : Configuration) : Bool :=
  match step.perform intake configuration with
  | .ok _ _ => true
  | .error _ _ => false

/-- The configuration after a series of steps. -/
def run (configuration : Configuration) (steps : List Step) : Configuration :=
  steps.foldl (after intake) configuration

/-- The active configuration, if there is one, is what its raw settings stand for, and the log level is
its. -/
def Checked (configuration : Configuration) : Prop :=
  ∀ installed, configuration.active = some installed →
    intake.check .settings (.object installed.raw) = .ok installed.settings ∧
      configuration.level = some installed.settings.logging.level

variable {intake} {configuration final : Configuration} {installed : Installed} {fault : Fault} {u : Unit}

/-! ## What programs do -/

/-- Raw settings become active together with what they stand for and its log level, and if there are issues
with them nothing changes. -/
theorem install_eq (raw : Raw.Fields) (configuration : Configuration) :
    install intake raw configuration =
      match intake.check .settings (.object raw) with
      | .ok settings =>
        .ok ⟨raw, settings⟩ { active := some ⟨raw, settings⟩, level := some settings.logging.level }
      | .error issues => .error (.invalid issues) configuration := by
  unfold install
  cases intake.check .settings (.object raw) <;> rfl

theorem install_eq_ok_iff {raw : Raw.Fields} :
    install intake raw configuration = .ok installed final ↔
      intake.check .settings (.object raw) = .ok installed.settings ∧ installed.raw = raw ∧
        final = { active := some installed, level := some installed.settings.logging.level } := by
  rw [install_eq]
  cases hraw : intake.check .settings (.object raw) with
  | error issues =>
    constructor
    · rintro ⟨⟩
    · rintro ⟨⟨⟩, -⟩
  | ok settings =>
    constructor
    · rintro ⟨⟩
      exact ⟨rfl, rfl, rfl⟩
    · rintro ⟨h, rfl, rfl⟩
      cases h
      rfl

/-- Raw settings in which the project's own check finds no issues are installed. -/
theorem install_builtin {raw : Raw.Fields} (h : (Schema.settings (.object raw)).issues = [])
    (configuration : Configuration) :
    ∃ final, install .builtin raw configuration = .ok ⟨raw, (Schema.settings (.object raw)).value⟩ final := by
  have hchecked : Intake.builtin.check .settings (.object raw) = .ok (Schema.settings (.object raw)).value :=
    Schema.check_settings h
  exact ⟨_, install_eq_ok_iff.2 ⟨hchecked, rfl, rfl⟩⟩

/-- With an issue nothing changes. -/
theorem install_error {raw : Raw.Fields} (h : install intake raw configuration = .error fault final) :
    final = configuration := by
  rw [install_eq] at h
  split at h
  · cases h
  · cases h
    rfl

/-- What is installed is checked. -/
theorem checked_of_install {raw : Raw.Fields} (h : install intake raw configuration = .ok installed final) :
    final.Checked intake := by
  obtain ⟨hsettings, hraw, rfl⟩ := install_eq_ok_iff.1 h
  rintro _ ⟨⟩
  rw [hraw]
  exact ⟨hsettings, rfl⟩

theorem checked_of_installDocument {document : Except Fault Raw}
    (h : installDocument intake document configuration = .ok installed final) : final.Checked intake := by
  cases document with
  | error fault => cases h
  | ok document => exact checked_of_install h

theorem active_of_installDocument {document : Except Fault Raw}
    (h : installDocument intake document configuration = .ok installed final) :
    final.active = some installed := by
  cases document with
  | error fault => cases h
  | ok document =>
    obtain ⟨-, -, rfl⟩ := install_eq_ok_iff.1 h
    rfl

theorem installDocument_error {document : Except Fault Raw}
    (h : installDocument intake document configuration = .error fault final) : final = configuration := by
  cases document with
  | error fault =>
    cases h
    rfl
  | ok document => exact install_error h

theorem checked_of_loadFile {path : String} {text? : Option String}
    (h : Configuration.loadFile intake path text? configuration = .ok installed final) :
    final.Checked intake := by
  cases text? with
  | none => cases h
  | some text => exact checked_of_installDocument h

theorem loadFile_error {path : String} {text? : Option String}
    (h : Configuration.loadFile intake path text? configuration = .error fault final) :
    final = configuration := by
  cases text? with
  | none =>
    cases h
    rfl
  | some text => exact installDocument_error h

theorem current_of_active (h : configuration.active = some installed) :
    current intake configuration = .ok installed configuration := by
  have hget : (MonadState.get : ConfigurationM Configuration) configuration =
      .ok configuration configuration := rfl
  unfold current
  rw [Program.bind_of_ok hget, h]
  rfl

theorem current_of_none (h : configuration.active = none) :
    current intake configuration = installDefaults intake configuration := by
  have hget : (MonadState.get : ConfigurationM Configuration) configuration =
      .ok configuration configuration := rfl
  unfold current
  rw [Program.bind_of_ok hget, h]

/-- What is current is active from then on, and checked if it was before. -/
theorem current_eq_ok (h : current intake configuration = .ok installed final) :
    final.active = some installed ∧ (configuration.Checked intake → final.Checked intake) := by
  cases hactive : configuration.active with
  | some found =>
    rw [current_of_active hactive] at h
    cases h
    exact ⟨hactive, id⟩
  | none =>
    rw [current_of_none hactive] at h
    exact ⟨active_of_installDocument h, fun _ => checked_of_installDocument h⟩

theorem current_error (h : current intake configuration = .error fault final) : final = configuration := by
  cases hactive : configuration.active with
  | some found =>
    rw [current_of_active hactive] at h
    cases h
  | none =>
    rw [current_of_none hactive] at h
    exact installDocument_error h

/-- An override installs the overridden settings. -/
theorem override_eq_ok {path : String} {value : Raw}
    (h : override intake path value configuration = .ok u final) :
    ∃ before middle tree after, current intake configuration = .ok before middle ∧
      overridden before.raw path value = .ok tree ∧
        install intake (sections tree) middle = .ok after final := by
  obtain ⟨before, middle, hcurrent, h⟩ := Program.bind_eq_ok_iff.1 h
  cases hraw : overridden before.raw path value with
  | error fault =>
    rw [hraw] at h
    cases h
  | ok tree =>
    rw [hraw] at h
    dsimp only at h
    rw [Program.discard_eq_bind] at h
    obtain ⟨after, _, hinstall, h⟩ := Program.bind_eq_ok_iff.1 h
    obtain ⟨-, rfl⟩ := Program.pure_eq_ok_iff.1 h
    exact ⟨before, middle, tree, after, hcurrent, hraw, hinstall⟩

/-- One that fails leaves what was current. -/
theorem override_error {path : String} {value : Raw}
    (h : override intake path value configuration = .error fault final) :
    final = configuration ∨ ∃ before, current intake configuration = .ok before final := by
  rcases Program.bind_eq_error_iff.1 h with h | ⟨before, middle, hcurrent, h⟩
  · exact .inl (current_error h)
  · right
    refine ⟨before, ?_⟩
    cases hraw : overridden before.raw path value with
    | error fault =>
      rw [hraw] at h
      cases h
      exact hcurrent
    | ok tree =>
      rw [hraw] at h
      dsimp only at h
      rw [Program.discard_eq_bind] at h
      rcases Program.bind_eq_error_iff.1 h with h | ⟨_, _, -, h⟩
      · rw [install_error h]
        exact hcurrent
      · cases h

/-! ## What steps do -/

/-- Whoever discards the result of a program fails as it does. -/
theorem discard_error {α : Type} {program : ConfigurationM α}
    (h : Functor.discard program configuration = .error fault final) :
    program configuration = .error fault final := by
  rw [Program.discard_eq_bind] at h
  rcases Program.bind_eq_error_iff.1 h with h | ⟨_, _, -, h⟩
  · exact h
  · cases h

theorem discard_ok {α : Type} {program : ConfigurationM α}
    (h : Functor.discard program configuration = .ok u final) :
    ∃ value, program configuration = .ok value final := by
  rw [Program.discard_eq_bind] at h
  obtain ⟨value, middle, h, hpure⟩ := Program.bind_eq_ok_iff.1 h
  obtain ⟨-, rfl⟩ := Program.pure_eq_ok_iff.1 hpure
  exact ⟨value, h⟩

/-- A step that fails changes nothing, but for an override, which may have made the defaults active
first. -/
theorem perform_error {step : Step} (h : step.perform intake configuration = .error fault final) :
    final = configuration ∨ ∃ before, current intake configuration = .ok before final := by
  cases step with
  | loadFile path text? => exact .inl (loadFile_error (discard_error h))
  | loadDefaults => exact .inl (installDocument_error (discard_error h))
  | override path value => exact override_error h
  | look => exact .inl (current_error (discard_error h))
  | reset => cases h

/-- **A step that fails while a configuration is active changes nothing.** -/
theorem eq_of_perform_error {step : Step} (hactive : configuration.active = some installed)
    (h : step.perform intake configuration = .error fault final) : final = configuration := by
  rcases perform_error h with heq | ⟨before, hcurrent⟩
  · exact heq
  · rw [current_of_active hactive] at hcurrent
    cases hcurrent
    rfl

theorem checked_of_perform_ok {step : Step} (hchecked : configuration.Checked intake)
    (h : step.perform intake configuration = .ok u final) : final.Checked intake := by
  cases step with
  | loadFile path text? =>
    obtain ⟨installed, h⟩ := discard_ok h
    exact checked_of_loadFile h
  | loadDefaults =>
    obtain ⟨installed, h⟩ := discard_ok h
    exact checked_of_installDocument h
  | override path value =>
    obtain ⟨_, _, _, _, -, -, hinstall⟩ := override_eq_ok h
    exact checked_of_install hinstall
  | look =>
    obtain ⟨installed, h⟩ := discard_ok h
    exact (current_eq_ok h).2 hchecked
  | reset =>
    cases h
    exact nofun

/-- **Every step leaves a checked configuration.** -/
theorem Checked.after (h : configuration.Checked intake) (step : Step) :
    (configuration.after intake step).Checked intake := by
  unfold Configuration.after
  cases hp : step.perform intake configuration with
  | ok _ next => exact checked_of_perform_ok h hp
  | error fault next =>
    rcases perform_error hp with rfl | ⟨before, hcurrent⟩
    · exact h
    · exact (current_eq_ok hcurrent).2 h

theorem Checked.run (h : configuration.Checked intake) (steps : List Step) :
    (configuration.run intake steps).Checked intake := by
  induction steps generalizing configuration with
  | nil => exact h
  | cons step rest ih => exact ih (h.after step)

theorem perform_of_succeeds {step : Step} (h : step.succeeds intake configuration) :
    step.perform intake configuration = .ok () (configuration.after intake step) := by
  unfold Step.succeeds at h
  unfold Configuration.after
  cases hp : step.perform intake configuration with
  | ok _ next => rfl
  | error fault next =>
    rw [hp] at h
    cases h

theorem perform_of_not_succeeds {step : Step} (h : step.succeeds intake configuration = false) :
    ∃ fault, step.perform intake configuration = .error fault (configuration.after intake step) := by
  unfold Step.succeeds at h
  unfold Configuration.after
  cases hp : step.perform intake configuration with
  | ok _ next =>
    rw [hp] at h
    cases h
  | error fault next => exact ⟨fault, rfl⟩

/-! ## Look-ups -/

theorem get_eq {path : String} {otherwise : Raw} (h : current intake configuration = .ok installed final) :
    get intake path otherwise configuration = .ok ((lookup installed.raw path).getD otherwise) final := by
  unfold get
  rw [Program.bind_of_ok h]
  rfl

/-- The integer that the active configuration has at a path. -/
def intAt? (configuration : Configuration) (path : String) : Option Int :=
  match configuration.active.bind fun installed => lookup installed.raw path with
  | some (.int n) => some n
  | _ => none

theorem get_of_intAt? {path : String} {n : Int} (h : configuration.intAt? path = some n)
    {otherwise : Raw} : get intake path otherwise configuration = .ok (.int n) configuration := by
  unfold intAt? at h
  cases hactive : configuration.active with
  | none =>
    rw [hactive] at h
    cases h
  | some installed =>
    rw [get_eq (current_of_active hactive)]
    rw [hactive, Option.bind_some] at h
    split at h
    case h_1 hn =>
      cases h
      rw [hn, Option.getD_some]
    case h_2 => cases h

/-- Where nothing has happened yet, no configuration is active. -/
theorem checked_empty : ({} : Configuration).Checked intake := nofun

/-- **The active configuration is a checked one, failures leave it alone, and overrides change what they
should.** Whatever reads documents and checks settings, after any series of steps, failed ones included, with
any file contents, paths and settings: if a configuration is active, it is what its raw settings stand for, and
the log level is its. A step that fails then changes nothing, whatever the reason. And after an override that
succeeds, the setting is found at its path, with marks of its own; apart from that path everything is found as
before, if the section that it was put into stands in one place only. -/
theorem active_is_checked_and_overrides_are_local (intake : Intake) (steps : List Step) :
    let configuration := ({} : Configuration).run intake steps
    (configuration.active = none ∨
        ∃ installed, configuration.active = some installed ∧
          intake.check .settings (.object installed.raw) = .ok installed.settings ∧
            configuration.level = some installed.settings.logging.level) ∧
      (∀ (step : Step) installed fault final, configuration.active = some installed →
        step.perform intake configuration = .error fault final → final = configuration) ∧
      ∀ path value before middle final, current intake configuration = .ok before middle →
        override intake path value configuration = .ok () final →
          (∀ otherwise, get intake path otherwise final =
            .ok (value.raised (Raw.object before.raw).markBound) final) ∧
            (StandsOnce before.raw path → ∀ other otherwise, Apart (parts path) (parts other) →
              ∃ found, get intake other otherwise configuration = .ok found middle ∧
                get intake other otherwise final = .ok found final) := by
  intro configuration
  have hchecked : configuration.Checked intake := checked_empty.run steps
  refine ⟨?_, ?_, ?_⟩
  · cases hactive : configuration.active with
    | none => exact .inl rfl
    | some installed => exact .inr ⟨installed, rfl, hchecked installed hactive⟩
  · intro step installed fault final hactive herror
    exact eq_of_perform_error hactive herror
  · intro path value before middle final hcurrent hoverride
    obtain ⟨before', middle', tree, after, hcurrent', hraw, hinstall⟩ := override_eq_ok hoverride
    cases hcurrent.symm.trans hcurrent'
    obtain ⟨-, hafter, hfinal⟩ := install_eq_ok_iff.1 hinstall
    have hactive : current intake final = .ok after final := current_of_active (by rw [hfinal])
    constructor
    · intro otherwise
      rw [get_eq hactive, hafter, lookup_overridden_self hraw]
      rfl
    · intro hone other otherwise hapart
      refine ⟨_, get_eq hcurrent, ?_⟩
      rw [get_eq hactive, hafter, lookup_overridden_of_apart hone hapart hraw]

/-- Two limits are loaded from a file. -/
def loadLimits : Step :=
  .loadFile "config.yaml" (some "fanbase:\n  limits:\n    max_tokens: 5\n    max_launch_tokens: 6\n")

/-- One limit is overridden in vain, and then with success; the other one stays. -/
theorem active_is_checked_and_overrides_are_local_limits :
    let configuration := ({} : Configuration).run .builtin [loadLimits]
    let final := configuration.after .builtin (.override "fanbase.limits.max_tokens" (.int 7))
    ∃ installed, configuration.active = some installed ∧
      Intake.builtin.check .settings (.object installed.raw) = .ok installed.settings ∧
        configuration.level = some installed.settings.logging.level ∧
      (∃ fault, (Step.override "fanbase.limits.max_tokens" (.int 0)).perform .builtin configuration =
        .error fault configuration) ∧
      override .builtin "fanbase.limits.max_tokens" (.int 7) configuration = .ok () final ∧
        get .builtin "fanbase.limits.max_tokens" .null final = .ok (.int 7) final ∧
          ∃ found, get .builtin "fanbase.limits.max_launch_tokens" .null configuration = .ok found configuration ∧
            get .builtin "fanbase.limits.max_launch_tokens" .null final = .ok found final := by
  have hone : ∀ installed ∈ (({} : Configuration).run .builtin [loadLimits]).active,
      StandsOnce installed.raw "fanbase.limits.max_tokens" := by decide +kernel
  have hactive : (({} : Configuration).run .builtin [loadLimits]).active.isSome := by decide +kernel
  have hrefused : (Step.override "fanbase.limits.max_tokens" (.int 0)).succeeds .builtin
      (({} : Configuration).run .builtin [loadLimits]) = false := by decide +kernel
  have hsucceeds : (Step.override "fanbase.limits.max_tokens" (.int 7)).succeeds .builtin
      (({} : Configuration).run .builtin [loadLimits]) := by decide +kernel
  have hapart : Apart (parts "fanbase.limits.max_tokens") (parts "fanbase.limits.max_launch_tokens") := by
    decide +kernel
  have hrun := active_is_checked_and_overrides_are_local .builtin [loadLimits]
  dsimp only at hrun ⊢
  -- What has been evaluated is all that is needed of the configuration.
  generalize ({} : Configuration).run .builtin [loadLimits] = configuration at *
  obtain ⟨hchecked, hunchanged, hlocal⟩ := hrun
  obtain ⟨installed, hinstalled, hsettings, hlevel⟩ :=
    hchecked.resolve_left (Option.isSome_iff_ne_none.1 hactive)
  obtain ⟨fault, herror⟩ := perform_of_not_succeeds hrefused
  rw [hunchanged _ installed fault _ hinstalled herror] at herror
  have hoverride : override .builtin "fanbase.limits.max_tokens" (.int 7) configuration =
      .ok () (configuration.after .builtin (.override "fanbase.limits.max_tokens" (.int 7))) :=
    perform_of_succeeds hsucceeds
  obtain ⟨hself, hothers⟩ := hlocal "fanbase.limits.max_tokens" (.int 7) installed configuration _
    (current_of_active hinstalled) hoverride
  exact ⟨installed, hinstalled, hsettings, hlevel, ⟨fault, herror⟩, hoverride, hself .null,
    hothers (hone installed hinstalled) "fanbase.limits.max_launch_tokens" .null hapart⟩

/-- One section is loaded from a file for two methods. -/
def loadShared : Step :=
  .loadFile "config.yaml" (some "fanbase:\n  methods:\n    buy: &m\n      weight: 1\n    burn: *m\n")

/-- A section that stands in two places is overridden in both of them: whoever overrides the weight of buying
overrides that of burning as well. -/
theorem override_changes_shared_section :
    let configuration := ({} : Configuration).run .builtin [loadShared]
    let final := configuration.after .builtin (.override "fanbase.methods.buy.weight" (.int 7))
    Apart (parts "fanbase.methods.buy.weight") (parts "fanbase.methods.burn.weight") ∧
      override .builtin "fanbase.methods.buy.weight" (.int 7) configuration = .ok () final ∧
      get .builtin "fanbase.methods.burn.weight" .null configuration = .ok (.int 1) configuration ∧
      get .builtin "fanbase.methods.burn.weight" .null final = .ok (.int 7) final := by
  have hbefore :
      (({} : Configuration).run .builtin [loadShared]).intAt? "fanbase.methods.burn.weight" = some 1 := by
    decide +kernel
  have hafter : ((({} : Configuration).run .builtin [loadShared]).after .builtin
      (.override "fanbase.methods.buy.weight" (.int 7))).intAt? "fanbase.methods.burn.weight" = some 7 := by
    decide +kernel
  have hsucceeds : (Step.override "fanbase.methods.buy.weight" (.int 7)).succeeds .builtin
      (({} : Configuration).run .builtin [loadShared]) := by decide +kernel
  have hapart : Apart (parts "fanbase.methods.buy.weight") (parts "fanbase.methods.burn.weight") := by
    decide +kernel
  dsimp only
  generalize ({} : Configuration).run .builtin [loadShared] = configuration at *
  exact ⟨hapart, perform_of_succeeds hsucceeds, get_of_intAt? hbefore, get_of_intAt? hafter⟩

/-- A section that stands in two places of the value of an override does so afterwards, too. -/
def shareSection : Step :=
  let shared : Raw := .object [(.text "weight", .int 1)] (some 0)
  .override "fanbase.methods" (.object [(.text "buy", shared), (.text "burn", shared)])

example : (({} : Configuration).run .builtin
    [shareSection, .override "fanbase.methods.buy.weight" (.int 7)]).intAt? "fanbase.methods.burn.weight" =
      some 7 := by
  decide +kernel

end EditionMarket.Configuration
