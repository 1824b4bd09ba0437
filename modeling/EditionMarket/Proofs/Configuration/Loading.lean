import EditionMarket.Proofs.Configuration.Run

/-!
# Two ways to load a file

The settings in a file can be read without making them active, or they can be made active. The two take the
same text apart into the same document and check it in the same way, but before that they deal differently with
documents that are no sections: whoever only reads takes what holds nothing for no settings, and whoever makes
settings active takes everything for no settings that is not a section. So the two agree on all files but those
whose document holds something that is not a section. Such a document is checked by the one, and by the other
it is passed over in silence. All of this is so whatever reads documents and checks settings.

Main definition: `Raw.isStray`. Main statements: `loadFile_eq`, and `loaders_agree_unless_document_is_stray`.
-/

namespace EditionMarket

/-- Whether a document holds something and is still not a section. -/
def Raw.isStray : Raw → Bool
  | .object .. => false
  | raw => !raw.isVoid

/-- The project's own check takes nothing for a section but a section. -/
theorem Schema.check_of_isStray {raw : Raw} (h : raw.isStray) :
    Schema.check .settings raw = .error [⟨[], .notSection "AppConfig"⟩] := by
  cases raw with
  | object => cases h
  | _ => rfl

namespace Configuration

variable {intake : Intake} {text : String} {document : Raw}

/-! ## What the two do -/

theorem read_eq (h : intake.read text = .ok document) :
    read intake text = (intake.check .settings (orNothing document)).mapError .invalid := by
  unfold read
  rw [h]
  rfl

theorem loadFile_eq (path : String) (configuration : Configuration) (h : intake.read text = .ok document) :
    loadFile intake path (some text) configuration = install intake (sections document) configuration := by
  unfold loadFile
  dsimp only
  rw [h]
  rfl

/-- What the two check is the same, unless the document is stray. -/
theorem orNothing_eq_sections (h : document.isStray = false) :
    orNothing document = .object (sections document) := by
  cases document with
  | object => rfl
  | _ => simp_all [orNothing, sections, Raw.isStray]

/-- A stray document is checked as it is, and no section of it is made active. -/
theorem of_isStray (h : document.isStray = true) : orNothing document = document ∧ sections document = [] := by
  cases document with
  | object => cases h
  | _ => simp_all [orNothing, sections, Raw.isStray]

/-! ## How far they agree -/

/-- What is not stray is loaded as the settings that are read, or fails as reading it does. -/
theorem exists_loadFile_eq (path : String) (configuration : Configuration)
    (h : ∀ document, intake.read text = .ok document → document.isStray = false) :
    ∃ raw, loadFile intake path (some text) configuration =
      match read intake text with
      | .ok settings =>
        .ok ⟨raw, settings⟩ { active := some ⟨raw, settings⟩, level := some settings.logging.level }
      | .error fault => .error fault configuration := by
  cases hread : intake.read text with
  | error fault =>
    refine ⟨[], ?_⟩
    unfold loadFile read
    dsimp only
    rw [hread]
    rfl
  | ok document =>
    refine ⟨sections document, ?_⟩
    rw [loadFile_eq path configuration hread, install_eq, read_eq hread, orNothing_eq_sections (h document hread)]
    cases intake.check .settings (.object (sections document)) <;> rfl

/-- **The two loaders agree unless the document is stray.** Let documents be read and settings be checked in
whatever way, let there be a file with whatever text, and let whatever configuration be active. If the text is
not a document that holds something and is no section, then the file can be loaded exactly if it can be read.
The settings that are active afterwards are those that are read, and if the file cannot be loaded, it cannot be
read for the same reason. A stray document is loaded as no settings at all, and is checked as it is when it is
read. -/
theorem loaders_agree_unless_document_is_stray (intake : Intake) (path text : String)
    (configuration : Configuration) :
    ((∀ document, intake.read text = .ok document → document.isStray = false) →
      ((∃ installed final, loadFile intake path (some text) configuration = .ok installed final) ↔
        ∃ settings, read intake text = .ok settings) ∧
      (∀ installed final settings, loadFile intake path (some text) configuration = .ok installed final →
        read intake text = .ok settings → final.active = some installed ∧ installed.settings = settings) ∧
      (∀ fault final, loadFile intake path (some text) configuration = .error fault final →
        read intake text = .error fault)) ∧
      ∀ document, intake.read text = .ok document → document.isStray = true →
        loadFile intake path (some text) configuration = install intake [] configuration ∧
          read intake text = (intake.check .settings document).mapError .invalid := by
  constructor
  · intro hnone
    obtain ⟨raw, hload⟩ := exists_loadFile_eq path configuration hnone
    rw [hload]
    -- What becomes of loading is what becomes of reading.
    cases read intake text with
    | error fault =>
      refine ⟨by simp, ?_, ?_⟩
      · rintro _ _ _ ⟨⟩
      · rintro _ _ ⟨⟩
        rfl
    | ok settings =>
      refine ⟨by simp, ?_, ?_⟩
      · rintro _ _ _ ⟨⟩ ⟨⟩
        exact ⟨rfl, rfl⟩
      · rintro _ _ ⟨⟩
  · intro document hread hstray
    obtain ⟨hsame, hempty⟩ := of_isStray hstray
    rw [loadFile_eq path configuration hread, read_eq hread, hsame, hempty]
    exact ⟨rfl, rfl⟩

/-- A limit is loaded from a file, and read from it. -/
theorem loaders_agree_unless_document_is_stray_limits :
    let text := "fanbase:\n  limits:\n    max_tokens: 5\n"
    ∃ installed final settings, loadFile .builtin "config.yaml" (some text) {} = .ok installed final ∧
      read .builtin text = .ok settings ∧ final.active = some installed ∧ installed.settings = settings ∧
        settings.limits.tokensPerAccount = 5 := by
  intro text
  have hlimit : (read .builtin text).toOption.map (·.limits.tokensPerAccount) = some 5 := by decide +kernel
  have hsection : (Yaml.read text).toOption.map Raw.isStray = some false := by decide +kernel
  have hnone : ∀ document, Intake.builtin.read text = .ok document → document.isStray = false := by
    intro document hread
    have hdocument : Yaml.read text = .ok document := hread
    rw [hdocument] at hsection
    exact Option.some.inj hsection
  obtain ⟨hagree, -⟩ := loaders_agree_unless_document_is_stray .builtin "config.yaml" text {}
  obtain ⟨hiff, hsame, -⟩ := hagree hnone
  cases hread : read .builtin text with
  | error fault =>
    rw [hread] at hlimit
    cases hlimit
  | ok settings =>
    rw [hread] at hlimit
    obtain ⟨installed, final, hload⟩ := hiff.2 ⟨settings, hread⟩
    obtain ⟨hactive, hsettings⟩ := hsame installed final settings hload hread
    exact ⟨installed, final, settings, hload, rfl, hactive, hsettings, Option.some.inj hlimit⟩

/-- A list is loaded from a file, and cannot be read from it. -/
theorem list_is_loaded_but_not_read :
    (∃ installed final, loadFile .builtin "config.yaml" (some "- 1\n") {} = .ok installed final) ∧
      ¬ ∃ settings, read .builtin "- 1\n" = .ok settings := by
  have hlist : (Yaml.read "- 1\n").toOption.map Raw.isStray = some true := by decide +kernel
  cases hread : Yaml.read "- 1\n" with
  | error fault =>
    rw [hread] at hlist
    cases hlist
  | ok document =>
    rw [hread] at hlist
    obtain ⟨hsame, hempty⟩ := of_isStray (Option.some.inj hlist)
    have hbuiltin : Intake.builtin.read "- 1\n" = .ok document := hread
    rw [loadFile_eq _ _ hbuiltin, read_eq hbuiltin, hsame, hempty]
    have hrefused : Intake.builtin.check .settings document = _ := Schema.check_of_isStray (Option.some.inj hlist)
    rw [hrefused]
    refine ⟨⟨⟨[], {}⟩, _, rfl⟩, ?_⟩
    rintro ⟨settings, ⟨⟩⟩

end Configuration

end EditionMarket
