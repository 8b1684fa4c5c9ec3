/-
# What is wrong with settings

Each fault is about one field, and its message starts with the path of that field.

| fault | field | present if the field |
| --- | --- | --- |
| `scheme` | `session.broker_scheme` | is empty or has a character but ASCII letters and digits |
| `brokerPort` | `session.broker_port` | is zero |
| `serialBaud` | `codegen.serial_baud` | is zero |
| `clientId` | `extension.default_client_id` | has white space |

Settings are refused for the first fault of this table that is present, and accepted if there is
none (`Settings.fault?_eq_some_iff`, `Settings.fault?_eq_none_iff`).  The defaults pass all four
checks, so leaving a field out of a document takes its fault away and no other
(`SettingsFault.present_reset_iff`), and a document is refused for the first fault of a field that
it states (`Settings.document_refused_iff`).
-/

import BoardBlocks.Proofs.SettingsDocuments

namespace BoardBlocks

namespace SettingsFault

/-- When settings have a fault. -/
def Present (s : Settings) : SettingsFault → Prop
  | .scheme => s.session.brokerScheme = "" ∨
      ∃ c ∈ s.session.brokerScheme.toList, c.isAlphanum = false
  | .brokerPort => s.session.brokerPort = 0
  | .serialBaud => s.code.serialBaud = 0
  | .clientId => ∃ c ∈ s.palette.defaultClientId.toList, Text.isBlank c = true

/-- The check for a bad scheme. -/
theorem present_scheme_iff (s : Settings) : Present s .scheme ↔
    (s.session.brokerScheme = "" || !s.session.brokerScheme.toList.all Char.isAlphanum) = true := by
  rw [Present, Bool.or_eq_true, decide_eq_true_iff, Bool.not_eq_true', List.all_eq_false]
  simp only [Bool.not_eq_true]

/-- The check for white space in the client id. -/
theorem present_clientId_iff (s : Settings) : Present s .clientId ↔
    s.palette.defaultClientId.toList.any Text.isBlank = true := by
  rw [Present, List.any_eq_true]

instance (s : Settings) : DecidablePred (Present s)
  | .scheme => decidable_of_iff _ (present_scheme_iff s).symm
  | .brokerPort => inferInstanceAs (Decidable (_ = _))
  | .serialBaud => inferInstanceAs (Decidable (_ = _))
  | .clientId => decidable_of_iff _ (present_clientId_iff s).symm

/-- The default settings have no fault. -/
theorem not_present_default (f : SettingsFault) : ¬ Present {} f := by
  cases f <;> decide

/-- The section and the name of the field that a fault is about. -/
def field : SettingsFault → String × String
  | .scheme => ("session", "broker_scheme")
  | .brokerPort => ("session", "broker_port")
  | .serialBaud => ("codegen", "serial_baud")
  | .clientId => ("extension", "default_client_id")

/-- Every message names the field that it is about, and goes on with what is asked of it. -/
theorem message_names_field (f : SettingsFault) :
    ∃ demand, f.message = f.field.1 ++ "." ++ f.field.2 ++ " must " ++ demand := by
  cases f with
  | scheme => exact ⟨"be alphanumeric", by decide⟩
  | brokerPort => exact ⟨"be non-zero", by decide⟩
  | serialBaud => exact ⟨"be non-zero", by decide⟩
  | clientId => exact ⟨"not contain whitespace", by decide⟩

/-- Whether a document with gaps states the field that a fault is about: neither the field nor its
section is left out. -/
def Stated (gone : List String → Bool) (f : SettingsFault) : Prop :=
  gone [f.field.1] = false ∧ gone [f.field.1, f.field.2] = false

/-- A field that is stated keeps its fault, whatever becomes of the other fields. -/
theorem present_reset_of_stated (s : Settings) {gone : List String → Bool} {f : SettingsFault}
    (h : f.Stated gone) : Present (s.reset gone) f ↔ Present s f := by
  obtain ⟨hsection, hfield⟩ := h
  cases f <;> simp only [field] at hsection hfield <;>
    simp [Present, Settings.reset, SessionSettings.reset, CodeSettings.reset,
      PaletteSettings.reset, hsection, hfield]

/-- A field that is left out has its default, and so no fault. -/
theorem not_present_reset (s : Settings) {gone : List String → Bool} {f : SettingsFault}
    (h : ¬ f.Stated gone) : ¬ Present (s.reset gone) f := by
  have hreset : Present (s.reset gone) f ↔ Present {} f := by
    rw [Stated, not_and_or, Bool.not_eq_false, Bool.not_eq_false] at h
    rcases h with hsection | hfield
    · cases f <;> simp only [field] at hsection <;> simp [Present, Settings.reset, hsection]
    · cases f <;> simp only [field] at hfield <;> simp only [Present, Settings.reset] <;> split <;>
        simp [SessionSettings.reset, CodeSettings.reset, PaletteSettings.reset, hfield]
  exact hreset.not.2 (not_present_default f)

/-- **A fault is one of its field.**  Settings keep it unless that field is reset, alone or with its
section; what becomes of the other fields makes no difference. -/
theorem present_reset_iff (s : Settings) (gone : List String → Bool) (f : SettingsFault) :
    Present (s.reset gone) f ↔ Present s f ∧ f.Stated gone := by
  by_cases h : f.Stated gone
  · rw [present_reset_of_stated s h, and_iff_left h]
  · exact iff_of_false (not_present_reset s h) fun hs => h hs.2

end SettingsFault

namespace Settings

open SettingsFault (Present)

/-- The faults in the order in which they are looked for. -/
def checks : List SettingsFault :=
  [.scheme, .brokerPort, .serialBaud, .clientId]

/-- Every fault is checked for. -/
theorem mem_checks (f : SettingsFault) : f ∈ checks := by
  cases f <;> decide

/-- **The fault that is found is the first that is present.** -/
theorem fault?_eq_find? (s : Settings) : s.fault? = checks.find? (Present s ·) := by
  have hchecks : s.fault? =
      if Present s .scheme then some .scheme
      else if Present s .brokerPort then some .brokerPort
      else if Present s .serialBaud then some .serialBaud
      else if Present s .clientId then some .clientId
      else none := by
    simp only [fault?, SettingsFault.present_scheme_iff, SettingsFault.present_clientId_iff]
    rfl
  rw [hchecks]
  split_ifs <;> simp [checks, *]

/-- Settings are accepted if no fault is present. -/
theorem fault?_eq_none_iff (s : Settings) : s.fault? = none ↔ ∀ f, ¬ Present s f := by
  rw [fault?_eq_find?, List.find?_eq_none]
  simp [mem_checks]

/-- Settings are refused for a fault that is present, when none of the earlier ones is. -/
theorem fault?_eq_some_iff (s : Settings) (f : SettingsFault) : s.fault? = some f ↔
    Present s f ∧
      ∃ before after, checks = before ++ f :: after ∧ ∀ f' ∈ before, ¬ Present s f' := by
  rw [fault?_eq_find?, List.find?_eq_some_iff_append]
  simp

/-! ### Documents that are refused -/

/-- A document with gaps is accepted if no field that it states has a fault. -/
theorem document_accepted_iff (s : Settings) (gone : List String → Bool) :
    ofString (s.toJson.without gone []).compact = .ok (s.reset gone) ↔
      ∀ f : SettingsFault, f.Stated gone → ¬ Present s f := by
  rw [ofString_without, validate]
  cases hfault : (s.reset gone).fault? with
  | none =>
    have hnone := (fault?_eq_none_iff _).1 hfault
    simp only [SettingsFault.present_reset_iff, not_and'] at hnone
    simpa using hnone
  | some f =>
    obtain ⟨hpresent, -⟩ := (fault?_eq_some_iff _ f).1 hfault
    obtain ⟨hpresent, hstated⟩ := (SettingsFault.present_reset_iff s gone f).1 hpresent
    simp only [reduceCtorEq, false_iff]
    exact fun h => h f hstated hpresent

/-- **A document with gaps is refused for the first fault of a field that it states.** -/
theorem document_refused_iff (s : Settings) (gone : List String → Bool) (f : SettingsFault) :
    ofString (s.toJson.without gone []).compact = .error (.invalid f) ↔
      (Present s f ∧ f.Stated gone) ∧ ∃ before after, checks = before ++ f :: after ∧
        ∀ f' ∈ before, f'.Stated gone → ¬ Present s f' := by
  have hvalidate : (s.reset gone).validate = .error (.invalid f) ↔
      (s.reset gone).fault? = some f := by
    rw [validate]
    cases (s.reset gone).fault? <;> simp
  rw [ofString_without, hvalidate, fault?_eq_some_iff]
  simp only [SettingsFault.present_reset_iff, not_and']

end Settings
end BoardBlocks
