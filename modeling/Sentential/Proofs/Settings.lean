import Sentential.Settings

/-!
# Valid settings

A port, a log level and a limit are each valid or not on their own. Settings are made exactly from
valid values, so an override succeeds if all its values are valid, and an environment is accepted if
each of its variables is valid, absent or, for an integer, empty.
-/
namespace Sentential

namespace Settings

def ValidPort (port : Int) : Prop := 0 < port ∧ port < 65536

def ValidLevel (word : String) : Prop := (LogLevel.ofName? word).isSome = true

def ValidLimit (limit : Int) : Prop := 0 ≤ limit

end Settings

structure Changes.Valid (c : Changes) : Prop where
  port : ∀ port, c.port = some port → Settings.ValidPort port
  logLevel : ∀ word, c.logLevel = some word → Settings.ValidLevel word
  maxVariables : ∀ limit, c.maxVariables = some limit → Settings.ValidLimit limit

namespace Settings

variable {host logLevel : String} {port maxVariables : Int} {openBrowser : Bool}

theorem check_eq_ok (hp : ValidPort port) (hl : ValidLevel logLevel)
    (hm : ValidLimit maxVariables) :
    check host port logLevel openBrowser maxVariables =
      .ok ⟨host, port, logLevel, openBrowser, maxVariables, hp, hl, hm⟩ :=
  (dif_pos hp).trans ((dif_pos hl).trans (dif_pos hm))

theorem check_eq_portOutOfRange (h : ¬ValidPort port) :
    check host port logLevel openBrowser maxVariables = .error (.portOutOfRange port) :=
  dif_neg h

theorem exists_check_iff :
    (∃ s, check host port logLevel openBrowser maxVariables = .ok s) ↔
      ValidPort port ∧ ValidLevel logLevel ∧ ValidLimit maxVariables := by
  constructor
  · rintro ⟨s, h⟩
    unfold check at h
    split at h
    · next hp =>
      split at h
      · next hl =>
        split at h
        · next hm => exact ⟨hp, hl, hm⟩
        · cases h
      · cases h
    · cases h
  · rintro ⟨hp, hl, hm⟩
    exact ⟨_, check_eq_ok hp hl hm⟩

theorem getD_iff {α : Type} (P : α → Prop) {default : α} (h : P default) (value : Option α) :
    P (value.getD default) ↔ ∀ a, value = some a → P a := by
  cases value with
  | none => simp [h]
  | some a => simp

theorem exists_override_iff (s : Settings) (c : Changes) :
    (∃ t, s.override c = .ok t) ↔ c.Valid := by
  rw [override, exists_check_iff, getD_iff ValidPort s.port_range,
    getD_iff ValidLevel s.logLevel_known, getD_iff ValidLimit s.maxVariables_nonneg]
  constructor
  · rintro ⟨hport, hlevel, hlimit⟩
    exact ⟨hport, hlevel, hlimit⟩
  · rintro ⟨hport, hlevel, hlimit⟩
    exact ⟨hport, hlevel, hlimit⟩

end Settings

namespace Environment

/-- An integer variable is absent, empty or an integer with the property. -/
def ValidInteger (env : Environment) (variableName : String) (P : Int → Prop) : Prop :=
  ∀ text, env.lookup variableName = some text → text ≠ "" →
    ∃ n, Text.readInteger? text = some n ∧ P n

structure Valid (env : Environment) : Prop where
  port : env.ValidInteger "PROPLOGIC_PORT" Settings.ValidPort
  maxVariables : env.ValidInteger "PROPLOGIC_MAX_VARIABLES" Settings.ValidLimit
  logLevel : ∀ word, env.lookup "PROPLOGIC_LOG_LEVEL" = some word → Settings.ValidLevel word

end Environment

namespace Settings

theorem exists_readInteger_iff (env : Environment) (variableName : String) {P : Int → Prop}
    {default : Int} (h : P default) :
    (∃ n, readInteger env variableName default = .ok n ∧ P n) ↔
      env.ValidInteger variableName P := by
  unfold readInteger Environment.ValidInteger
  cases env.lookup variableName with
  | none => simp [h]
  | some text =>
    by_cases he : text = ""
    · simp [he, h]
    · cases hr : Text.readInteger? text <;> simp [he, hr]

theorem exists_ofEnvironment_iff (env : Environment) :
    (∃ s, ofEnvironment env = .ok s) ↔ env.Valid := by
  have hport := exists_readInteger_iff env "PROPLOGIC_PORT" (P := ValidPort) defaults.port_range
  have hlimit := exists_readInteger_iff env "PROPLOGIC_MAX_VARIABLES" (P := ValidLimit)
    defaults.maxVariables_nonneg
  have hlevel := getD_iff ValidLevel defaults.logLevel_known (env.lookup "PROPLOGIC_LOG_LEVEL")
  constructor
  · rintro ⟨s, h⟩
    unfold ofEnvironment at h
    split at h
    · cases h
    · next port hp =>
      split at h
      · cases h
      · next maxVariables hm =>
        obtain ⟨hvp, hvl, hvm⟩ := exists_check_iff.mp ⟨s, h⟩
        exact ⟨hport.mp ⟨port, hp, hvp⟩, hlimit.mp ⟨maxVariables, hm, hvm⟩, hlevel.mp hvl⟩
  · intro h
    obtain ⟨port, hp, hvp⟩ := hport.mpr h.port
    obtain ⟨maxVariables, hm, hvm⟩ := hlimit.mpr h.maxVariables
    simp only [ofEnvironment, hp, hm]
    exact exists_check_iff.mpr ⟨hvp, hlevel.mpr h.logLevel, hvm⟩

end Settings

end Sentential
