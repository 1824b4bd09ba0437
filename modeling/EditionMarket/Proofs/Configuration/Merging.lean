import EditionMarket.Proofs.Configuration.Paths
import EditionMarket.Proofs.Schema

/-!
# Settings that are left out

Raw settings need not name all settings. What they name is taken for itself, and what they leave out has a
default, on whatever level of sections it is left out. This file says so for every single setting, and for
every validation that does what is known of validations.

A section has a default of its own, which counts where the whole section is left out, and each setting in it
has one, which counts where the section is given without it. For all sections but those of methods the two are
the same. The section of a method that is left out stands for the weight and the description of that method,
but in one that is given, what is left out is the weight of a cheap method and no description.

Main definitions: `Leads`, what the names on a path lead to, and `Setting`. Main statements:
`Leads.check_eq_ok`, what is given is taken for itself; `Stands.eq_of_left_out`, what is left out has a
default; `settings_left_out_have_defaults_but_in_methods`; and `describing_a_method_changes_its_weight`.
-/

namespace EditionMarket

/-! ## Parts of settings -/

/-- The names on a path lead from a section through its entries to a part of it, which is there in what the
section is taken for. -/
inductive Leads : (shape : Shape) → List String → (part : Shape) → (shape.Held → part.Held) → Prop
  | here (shape : Shape) : Leads shape [] shape id
  | deeper {shape part : Shape} {path : List String} {entry : Entry shape.Held}
      {of : entry.shape.Held → part.Held} (hentry : entry ∈ shape.entries)
      (hpart : Leads entry.shape path part of) :
      Leads shape (entry.name :: path) part (of ∘ entry.of)

/-- A path is blocked if it runs into something that is given, and is not an object. -/
def Raw.blocks : Raw → List String → Bool
  | _, [] => false
  | .object fields _, part :: rest =>
    match Listing.get? fields (.text part) with
    | some inner => blocks inner rest
    | none => false
  | _, _ => true

theorem Raw.blocks_cons (fields : Raw.Fields) (mark : Option Nat) (part : String) (rest : List String) :
    Raw.blocks (.object fields mark) (part :: rest) =
      (Listing.get? fields (.text part)).any fun inner => Raw.blocks inner rest := by
  rw [Raw.blocks]
  cases Listing.get? fields (.text part) <;> rfl

section Validation

variable {check : Validation} {shape part : Shape} {raw : Raw} {held : shape.Held} {path : List String}

/-- Where a section passes, each of its entries is met. -/
theorem Validation.Documented.meets (hcheck : check.Documented) {given : Raw.Fields} {mark : Option Nat}
    (h : check shape (.object given mark) = .ok held) {entry : Entry shape.Held}
    (hentry : entry ∈ shape.entries) : entry.Meets check given held :=
  ((hcheck.object shape given mark held (List.ne_nil_of_mem hentry)).1 h).2 entry hentry

/-- **What is given for a part is taken for itself**, be it a single setting or a section. -/
theorem Leads.check_eq_ok {of : shape.Held → part.Held} (hleads : Leads shape path part of)
    (hcheck : check.Documented) (h : check shape raw = .ok held) {given : Raw}
    (hgiven : Configuration.follow raw path = some given) : check part given = .ok (of held) := by
  induction hleads generalizing raw with
  | here shape =>
    cases hgiven
    exact h
  | @deeper shape part path entry of hentry _ ih =>
    cases raw with
    | object fields mark =>
      have hmeets := hcheck.meets h hentry
      rw [Configuration.follow_cons] at hgiven
      unfold Entry.Meets at hmeets
      cases hget : Listing.get? fields (.text entry.name) with
      | none =>
        rw [hget] at hgiven
        cases hgiven
      | some inner =>
        rw [hget] at hgiven hmeets
        exact ih hmeets hgiven
    | _ => cases hgiven

end Validation

/-! ## Settings that are left out -/

/-- A single setting stands under its name in the section at the end of a path. If it is left out of its
section, it is the fallback, and if its section is left out as well, it is the default, wherever on the path
that may be. -/
inductive Stands : (shape : Shape) → List String → String → (part : Shape) → (shape.Held → part.Held) →
    part.Held → part.Held → Prop
  | here {shape : Shape} {entry : Entry shape.Held} (hentry : entry ∈ shape.entries)
      (unset : entry.shape.Held) :
      Stands shape [] entry.name entry.shape entry.of entry.unset unset
  | deeper {shape part : Shape} {home : List String} {name : String} {entry : Entry shape.Held}
      {of : entry.shape.Held → part.Held} {fallback : part.Held} (hentry : entry ∈ shape.entries)
      (hpart : Stands entry.shape home name part of fallback (of entry.unset)) :
      Stands shape (entry.name :: home) name part (of ∘ entry.of) fallback (of entry.unset)

namespace Stands

variable {check : Validation} {shape part : Shape} {raw : Raw} {held : shape.Held} {home : List String}
  {name : String} {of : shape.Held → part.Held} {fallback unset : part.Held}

theorem leads (h : Stands shape home name part of fallback unset) : Leads shape (home ++ [name]) part of := by
  induction h with
  | here hentry _ => exact .deeper hentry (.here _)
  | deeper hentry _ ih => exact .deeper hentry ih

/-- **What is left out has its fallback or its default**, unless something else is in its way. -/
theorem eq_of_left_out (hstands : Stands shape home name part of fallback unset) (hcheck : check.Documented)
    (h : check shape raw = .ok held) (hnone : Configuration.follow raw (home ++ [name]) = none)
    (hopen : raw.blocks (home ++ [name]) = false) :
    of held = if (Configuration.follow raw home).isSome then fallback else unset := by
  induction hstands generalizing raw with
  | @here shape entry hentry _ =>
    cases raw with
    | object fields mark =>
      have hmeets := hcheck.meets h hentry
      rw [List.nil_append, Configuration.follow_cons] at hnone
      unfold Entry.Meets at hmeets
      cases hget : Listing.get? fields (.text entry.name) with
      | none =>
        rw [hget] at hmeets
        exact hmeets
      | some inner =>
        rw [hget] at hnone
        cases hnone
    | _ => cases hopen
  | @deeper shape part home name entry of fallback hentry _ ih =>
    cases raw with
    | object fields mark =>
      have hmeets := hcheck.meets h hentry
      rw [List.cons_append, Configuration.follow_cons] at hnone
      rw [List.cons_append, Raw.blocks_cons] at hopen
      rw [Configuration.follow_cons]
      unfold Entry.Meets at hmeets
      cases hget : Listing.get? fields (.text entry.name) with
      | none =>
        rw [hget] at hmeets
        exact congrArg of hmeets
      | some inner =>
        rw [hget] at hnone hopen hmeets
        exact ih hmeets hnone hopen
    | _ => cases hopen

/-! ## Where settings stand -/

/-- What holds in the section of the market holds of it among all settings. -/
theorem ofMarket {of : Shape.market.Held → part.Held}
    (h : Stands .market home name part of fallback (of (default, Method.settings))) :
    Stands .settings ("fanbase" :: home) name part (fun settings => of (settings.limits, settings.methods))
      fallback (of (default, Method.settings)) := by
  have hentry : Entry.market ∈ Shape.settings.entries := List.mem_cons_self
  exact .deeper hentry h

theorem ofLimits {entry : Entry Limits} (hentry : entry ∈ Shape.limits.entries) :
    Stands .settings ["fanbase", "limits"] entry.name entry.shape (fun settings => entry.of settings.limits)
      entry.unset (entry.of default) := by
  have hlimits : Entry.limits ∈ Shape.market.entries := List.mem_cons_self
  exact .ofMarket (.deeper hlimits (.here hentry _))

theorem ofMethod {entry : Entry MethodSettings} (hentry : entry ∈ Shape.method.entries) (method : Method) :
    Stands .settings ["fanbase", "methods", method.name] entry.name entry.shape
      (fun settings => entry.of (settings.methods method)) entry.unset (entry.of method.settings) := by
  have hmethods : Entry.methods ∈ Shape.market.entries := List.mem_cons_of_mem _ List.mem_cons_self
  have hmethod : Entry.method method ∈ Shape.methods.entries :=
    List.mem_map_of_mem (Method.mem_all method)
  exact .ofMarket (.deeper hmethods (.deeper hmethod (.here hentry _)))

theorem ofCurrency {entry : Entry Nat} (hentry : entry ∈ Shape.currency.entries) :
    Stands .settings ["currency"] entry.name entry.shape (fun settings => entry.of settings.deposit)
      entry.unset (entry.of 0) := by
  have hcurrency : Entry.currency ∈ Shape.settings.entries := List.mem_cons_of_mem _ List.mem_cons_self
  exact .deeper hcurrency (.here hentry _)

theorem ofLogging {entry : Entry LoggingSettings} (hentry : entry ∈ Shape.logging.entries) :
    Stands .settings ["logging"] entry.name entry.shape (fun settings => entry.of settings.logging)
      entry.unset (entry.of default) := by
  have hlogging : Entry.logging ∈ Shape.settings.entries :=
    List.mem_cons_of_mem _ (List.mem_cons_of_mem _ List.mem_cons_self)
  exact .deeper hlogging (.here hentry _)

end Stands

/-! ## All settings -/

/-- The settings of a market whose methods have no weights and descriptions of their own. -/
def Settings.bare : Settings := { methods := fun _ => ⟨Weight.low.size, ""⟩ }

/-- A single setting. -/
inductive Setting
  | creatorsPerAccount
  | editionsPerCreator
  | tokensPerAccount
  | weight (method : Method)
  | description (method : Method)
  | deposit
  | outputFile
  | logsDir
  | recent
  | level
deriving DecidableEq

namespace Setting

/-- What a setting may be. -/
abbrev shape : Setting → Shape
  | creatorsPerAccount | editionsPerCreator | tokensPerAccount | recent => .positive
  | weight _ | deposit => .natural
  | description _ | outputFile | logsDir => .text
  | level => .level

/-- What a setting is. -/
def of (settings : Settings) : (setting : Setting) → setting.shape.Held
  | creatorsPerAccount => ⟨settings.limits.creatorsPerAccount, settings.limits.creatorsPerAccount_pos⟩
  | editionsPerCreator => ⟨settings.limits.editionsPerCreator, settings.limits.editionsPerCreator_pos⟩
  | tokensPerAccount => ⟨settings.limits.tokensPerAccount, settings.limits.tokensPerAccount_pos⟩
  | weight method => (settings.methods method).weight
  | description method => (settings.methods method).description
  | deposit => settings.deposit
  | outputFile => settings.logging.outputFile
  | logsDir => settings.logging.logsDir
  | recent => ⟨settings.logging.recent, settings.logging.recent_pos⟩
  | level => settings.logging.level

/-- The path to the section of a setting. -/
def home : Setting → List String
  | creatorsPerAccount | editionsPerCreator | tokensPerAccount => ["fanbase", "limits"]
  | weight method | description method => ["fanbase", "methods", method.name]
  | deposit => ["currency"]
  | outputFile | logsDir | recent | level => ["logging"]

/-- The name of a setting in its section. -/
def name : Setting → String
  | creatorsPerAccount => "max_creator_accounts"
  | editionsPerCreator => "max_launch_tokens"
  | tokensPerAccount => "max_tokens"
  | weight _ => "weight"
  | description _ => "description"
  | deposit => "existential_deposit"
  | outputFile => "output_file"
  | logsDir => "logs_dir"
  | recent => "default_recent"
  | level => "level"

/-- The path to a setting. -/
def path (setting : Setting) : List String := setting.home ++ [setting.name]

/-- Every setting stands in its section. If it is left out of it, it is as if no method had settings of its
own, and if its section is left out as well, it has its default. -/
theorem stands (setting : Setting) :
    Stands .settings setting.home setting.name setting.shape (fun settings => of settings setting)
      (of .bare setting) (of {} setting) := by
  have hmem {σ : Type} {entries : List (Entry σ)} (i : Nat) (entry : Entry σ) (h : entries[i]? = some entry) :
      entry ∈ entries := List.mem_of_getElem? h
  cases setting with
  | creatorsPerAccount => exact .ofLimits (hmem 0 .creatorsPerAccount rfl)
  | editionsPerCreator => exact .ofLimits (hmem 1 .editionsPerCreator rfl)
  | tokensPerAccount => exact .ofLimits (hmem 2 .tokensPerAccount rfl)
  | weight method => exact .ofMethod (hmem 0 .weight rfl) method
  | description method => exact .ofMethod (hmem 1 .description rfl) method
  | deposit => exact .ofCurrency (hmem 0 .deposit rfl)
  | outputFile => exact .ofLogging (hmem 0 .outputFile rfl)
  | logsDir => exact .ofLogging (hmem 1 .logsDir rfl)
  | recent => exact .ofLogging (hmem 2 .recent rfl)
  | level => exact .ofLogging (hmem 3 .level rfl)

end Setting

variable {check : Validation} {settings : Settings}

/-- What raw settings have at the path of a setting is taken for it. -/
theorem Setting.check_of_lookup (hcheck : check.Documented) {raw : Raw.Fields}
    (h : check .settings (.object raw) = .ok settings) (setting : Setting) {path : String}
    (hpath : Configuration.parts path = setting.path) {given : Raw}
    (hgiven : Configuration.lookup raw path = some given) :
    check setting.shape given = .ok (setting.of settings) := by
  unfold Configuration.lookup at hgiven
  rw [hpath] at hgiven
  exact setting.stands.leads.check_eq_ok hcheck h hgiven

/-- If they have nothing there, and nothing in its way, it is what it is where no settings are given at all.
This is so if its section has the default for it that counts without the section. -/
theorem Setting.of_left_out (hcheck : check.Documented) {raw : Raw.Fields}
    (h : check .settings (.object raw) = .ok settings) (setting : Setting) {path : String}
    (hpath : Configuration.parts path = setting.path) (hsame : setting.of .bare = setting.of {})
    (hnone : Configuration.lookup raw path = none) (hopen : (Raw.object raw).blocks setting.path = false) :
    setting.of settings = setting.of {} := by
  unfold Configuration.lookup at hnone
  rw [hpath] at hnone
  have heq := setting.stands.eq_of_left_out hcheck h hnone hopen
  rwa [hsame, ite_self] at heq

/-- **Settings that are left out have their defaults, but for those of methods.** Let a validation do what is
known of validations, and let raw settings pass. Whatever they give at the path of a setting, the setting is
what the validation takes that for. A setting that they do not give is what it is where no settings are given
at all, unless they give its section. Then it is what it would be if no method had a weight and a description
of its own, and that makes no difference for settings that are not of a method. If something is in the way to
it that is no object, then that is taken for a section as a whole, as is whatever they give for one. -/
theorem settings_left_out_have_defaults_but_in_methods (hcheck : check.Documented) {raw : Raw}
    (h : check .settings raw = .ok settings) :
    check .settings (.object []) = .ok {} ∧
      (∀ setting : Setting,
        match Configuration.follow raw setting.path with
        | some given => check setting.shape given = .ok (setting.of settings)
        | none => raw.blocks setting.path = false → setting.of settings =
            if (Configuration.follow raw setting.home).isSome then setting.of .bare else setting.of {}) ∧
      (∀ setting : Setting, (∀ method, setting ≠ .weight method ∧ setting ≠ .description method) →
        setting.of .bare = setting.of {}) ∧
      ∀ path part of, Leads .settings path part of → ∀ given, Configuration.follow raw path = some given →
        check part given = .ok (of settings) := by
  refine ⟨?_, fun setting => ?_, fun setting hother => ?_, ?_⟩
  · refine (hcheck.object .settings [] none {} (List.cons_ne_nil _ _)).2 ⟨?_, ?_⟩
    · exact fun label hlabel => absurd hlabel List.not_mem_nil
    · unfold Shape.entries
      simp only [List.forall_mem_cons]
      exact ⟨rfl, rfl, rfl, fun entry hentry => absurd hentry List.not_mem_nil⟩
  · cases hgiven : Configuration.follow raw setting.path with
    | some given => exact setting.stands.leads.check_eq_ok hcheck h hgiven
    | none => exact setting.stands.eq_of_left_out hcheck h hgiven
  · cases setting with
    | weight method => exact absurd rfl (hother method).1
    | description method => exact absurd rfl (hother method).2
    | _ => rfl
  · exact fun path part of hleads given hgiven => hleads.check_eq_ok hcheck h hgiven

/-- A limit is given as a text, and a directory; another limit and a weight have their defaults. -/
theorem settings_left_out_have_defaults_but_in_methods_limits :
    let raw : Raw := .object
      [(.text "fanbase", .object [(.text "limits", .object [(.text "max_tokens", .string " 08 ")])]),
        (.text "logging", .object [(.text "logs_dir", .string "out")])]
    ∃ settings, Schema.check .settings raw = .ok settings ∧ settings.limits.tokensPerAccount = 8 ∧
      settings.logging.logsDir = "out" ∧ settings.limits.editionsPerCreator = 256 ∧
        (settings.methods .mint).weight = 20000 := by
  intro raw
  have h : Schema.check .settings raw = .ok (Schema.settings raw).value :=
    Schema.check_settings (by decide +kernel)
  obtain ⟨-, hall, -⟩ := settings_left_out_have_defaults_but_in_methods Schema.check_documented h
  have htokens : Schema.check .positive (.string " 08 ") = .ok (Setting.of _ .tokensPerAccount) :=
    hall .tokensPerAccount
  have hspelt : Schema.check .positive (.string " 08 ") = .ok ⟨8, by decide⟩ := by rfl
  have hdir : Schema.check .text (.string "out") = .ok (Setting.of _ .logsDir) := hall .logsDir
  exact ⟨_, h, congrArg Subtype.val (Except.ok.inj (htokens.symm.trans hspelt)),
    (Except.ok.inj (hdir.symm.trans (Schema.check_documented.string "out"))),
    congrArg Subtype.val (hall .editionsPerCreator rfl), hall (.weight .mint) rfl⟩

/-- A method that is given a description, and nothing else, does not keep its weight. -/
theorem describing_a_method_changes_its_weight :
    let raw : Raw := .object
      [(.text "fanbase", .object [(.text "methods", .object
        [(.text "mint", .object [(.text "description", .string "x")])])])]
    ∃ settings, Schema.check .settings raw = .ok settings ∧
      Configuration.follow raw (Setting.weight .mint).path = none ∧
        (Setting.weight .mint).of settings = (5000 : Nat) ∧ (Setting.weight .mint).of {} = (20000 : Nat) :=
  ⟨_, Schema.check_settings (by decide +kernel), by decide +kernel, rfl, rfl⟩

end EditionMarket
