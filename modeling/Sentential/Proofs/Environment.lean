import Sentential.Proofs.Numeral
import Sentential.Proofs.Revision

/-!
# Reading an environment

An integer variable of the environment is absent, empty or a numeral that is short enough, or else
it cannot be read. The two integer variables are read first, and then the port, the log level and
the table limit are checked. So an environment gives settings, which have its values and the defaults
for what it leaves out, or it fails at the first of five checks, whatever the later ones would say.
-/
namespace Sentential

namespace Environment

open Settings (ValidPort ValidLimit)

/-- An integer variable stands for the integer: for the default if it is absent or empty. -/
inductive StandsFor (env : Environment) (variableName : String) (default : Int) : Int → Prop where
  | absent : env.lookup variableName = none → env.StandsFor variableName default default
  | empty : env.lookup variableName = some "" → env.StandsFor variableName default default
  | numeral {text : String} {n : Int} : env.lookup variableName = some text →
      Text.ShortNumeral text.toList n → env.StandsFor variableName default n

/-- The variable has a text that is not empty and no short numeral. -/
def Garbled (env : Environment) (variableName text : String) : Prop :=
  env.lookup variableName = some text ∧ text ≠ "" ∧ ∀ n, ¬Text.ShortNumeral text.toList n

/-- An integer variable is absent, empty or the short numeral of an integer with the property. -/
def Accepts (env : Environment) (variableName : String) (P : Int → Prop) : Prop :=
  env.lookup variableName = none ∨ env.lookup variableName = some "" ∨
    ∃ text n, env.lookup variableName = some text ∧ Text.ShortNumeral text.toList n ∧ P n

/-- The log level is absent or has the lower-case name of a level. -/
def KnownLevel (env : Environment) : Prop :=
  env.lookup "PROPLOGIC_LOG_LEVEL" = none ∨ ∃ (word : String) (level : LogLevel),
    env.lookup "PROPLOGIC_LOG_LEVEL" = some word ∧ Text.lowerString word = level.name

/-- The settings have the values of the environment, and the defaults for what it leaves out. -/
structure Gives (env : Environment) (s : Settings) : Prop where
  host : s.host = (env.lookup "PROPLOGIC_HOST").getD "127.0.0.1"
  port : env.StandsFor "PROPLOGIC_PORT" 3000 s.port
  logLevel : s.logLevel = (env.lookup "PROPLOGIC_LOG_LEVEL").getD "WARNING"
  openBrowser : s.openBrowser = false
  maxVariables : env.StandsFor "PROPLOGIC_MAX_VARIABLES" 12 s.maxVariables

/-- The error of the first check that the environment fails. -/
inductive Fails (env : Environment) : SettingsError → Prop where
  | portText {text : String} : env.Garbled "PROPLOGIC_PORT" text →
      env.Fails (.notInteger "PROPLOGIC_PORT" text)
  | limitText {port : Int} {text : String} : env.StandsFor "PROPLOGIC_PORT" 3000 port →
      env.Garbled "PROPLOGIC_MAX_VARIABLES" text →
      env.Fails (.notInteger "PROPLOGIC_MAX_VARIABLES" text)
  | portRange {port limit : Int} : env.StandsFor "PROPLOGIC_PORT" 3000 port →
      env.StandsFor "PROPLOGIC_MAX_VARIABLES" 12 limit → ¬ValidPort port →
      env.Fails (.portOutOfRange port)
  | level {port limit : Int} {word : String} : env.StandsFor "PROPLOGIC_PORT" 3000 port →
      env.StandsFor "PROPLOGIC_MAX_VARIABLES" 12 limit → ValidPort port →
      env.lookup "PROPLOGIC_LOG_LEVEL" = some word → ¬env.KnownLevel →
      env.Fails (.unknownLogLevel word)
  | limitRange {port limit : Int} : env.StandsFor "PROPLOGIC_PORT" 3000 port →
      env.StandsFor "PROPLOGIC_MAX_VARIABLES" 12 limit → ValidPort port → env.KnownLevel →
      ¬ValidLimit limit → env.Fails (.negativeLimit limit)

end Environment

namespace Settings

variable {env : Environment} {variableName : String} {default n : Int} {s : Settings}
  {error : SettingsError}

/-! ## Single variables -/

theorem readInteger_eq_ok_iff :
    readInteger env variableName default = .ok n ↔ env.StandsFor variableName default n := by
  unfold readInteger
  constructor
  · intro h
    split at h
    · next hl => exact Except.ok.inj h ▸ .absent hl
    · next text hl =>
      by_cases he : text = ""
      · rw [if_pos he] at h
        exact Except.ok.inj h ▸ .empty (he ▸ hl)
      · rw [if_neg he] at h
        split at h
        · next m hm => exact .numeral hl (Text.readInteger?_eq_some_iff.mp (Except.ok.inj h ▸ hm))
        · cases h
  · rintro (hl | hl | ⟨hl, hn⟩)
    · rw [hl]
    · rw [hl]
      exact if_pos rfl
    · next text =>
      have hread := Text.readInteger?_eq_some_iff.mpr hn
      have hne : text ≠ "" := by
        rintro rfl
        cases hread
      rw [hl]
      simp only [if_neg hne, hread]

theorem readInteger_eq_error_iff :
    readInteger env variableName default = .error error ↔
      ∃ text, env.Garbled variableName text ∧ error = .notInteger variableName text := by
  unfold readInteger Environment.Garbled
  cases env.lookup variableName with
  | none => simp
  | some text =>
    by_cases he : text = ""
    · simp [he]
    · simp only [← Text.readInteger?_eq_some_iff]
      cases hread : Text.readInteger? text <;> simp [he, hread, eq_comm (a := error)]

theorem validLevel_iff {word : String} :
    ValidLevel word ↔ ∃ level : LogLevel, Text.lowerString word = level.name := by
  unfold ValidLevel LogLevel.ofName?
  rw [List.find?_isSome]
  constructor
  · rintro ⟨level, -, hname⟩
    exact ⟨level, (of_decide_eq_true hname).symm⟩
  · rintro ⟨level, hname⟩
    exact ⟨level, by cases level <;> decide, decide_eq_true hname.symm⟩

theorem validLevel_getD_iff :
    ValidLevel ((env.lookup "PROPLOGIC_LOG_LEVEL").getD defaults.logLevel) ↔ env.KnownLevel := by
  unfold Environment.KnownLevel
  cases env.lookup "PROPLOGIC_LOG_LEVEL" with
  | none => exact iff_of_true defaults.logLevel_known (.inl rfl)
  | some word => simp [validLevel_iff]

/-! ## The checks in order -/

theorem check_eq_error_iff {host logLevel : String} {port maxVariables : Int}
    {openBrowser : Bool} :
    check host port logLevel openBrowser maxVariables = .error error ↔
      ¬ValidPort port ∧ error = .portOutOfRange port ∨
      ValidPort port ∧ ¬ValidLevel logLevel ∧ error = .unknownLogLevel logLevel ∨
      ValidPort port ∧ ValidLevel logLevel ∧ ¬ValidLimit maxVariables ∧
        error = .negativeLimit maxVariables := by
  by_cases hp : ValidPort port
  · by_cases hl : ValidLevel logLevel
    · by_cases hm : ValidLimit maxVariables
      · simp [check_eq_ok hp hl hm, hp, hl, hm]
      · have hcheck : check host port logLevel openBrowser maxVariables =
            .error (.negativeLimit maxVariables) :=
          (dif_pos hp).trans ((dif_pos hl).trans (dif_neg hm))
        simp [hcheck, hp, hl, hm, eq_comm]
    · have hcheck : check host port logLevel openBrowser maxVariables =
          .error (.unknownLogLevel logLevel) :=
        (dif_pos hp).trans (dif_neg hl)
      simp [hcheck, hp, hl, eq_comm]
  · simp [check_eq_portOutOfRange hp, hp, eq_comm]

/-- Once both integer variables are read, the checks decide. -/
theorem ofEnvironment_eq_check {port limit : Int} (hport : env.StandsFor "PROPLOGIC_PORT" 3000 port)
    (hlimit : env.StandsFor "PROPLOGIC_MAX_VARIABLES" 12 limit) :
    ofEnvironment env =
      check ((env.lookup "PROPLOGIC_HOST").getD defaults.host) port
        ((env.lookup "PROPLOGIC_LOG_LEVEL").getD defaults.logLevel) defaults.openBrowser limit := by
  have hp : readInteger env "PROPLOGIC_PORT" defaults.port = .ok port :=
    readInteger_eq_ok_iff.mpr hport
  have hm : readInteger env "PROPLOGIC_MAX_VARIABLES" defaults.maxVariables = .ok limit :=
    readInteger_eq_ok_iff.mpr hlimit
  simp only [ofEnvironment, hp, hm]

theorem ofEnvironment_eq_ok_iff : ofEnvironment env = .ok s ↔ env.Gives s := by
  constructor
  · intro h
    unfold ofEnvironment at h
    split at h
    · cases h
    · next port hp =>
      split at h
      · cases h
      · next limit hm =>
        obtain ⟨hhost, rfl, hlevel, hbrowser, rfl⟩ := check_eq_ok_iff.mp h
        exact ⟨hhost, readInteger_eq_ok_iff.mp hp, hlevel, hbrowser, readInteger_eq_ok_iff.mp hm⟩
  · intro h
    rw [ofEnvironment_eq_check h.port h.maxVariables]
    exact check_eq_ok_iff.mpr ⟨h.host, rfl, h.logLevel, h.openBrowser, rfl⟩

theorem fails_of_ofEnvironment (h : ofEnvironment env = .error error) : env.Fails error := by
  cases hp : readInteger env "PROPLOGIC_PORT" defaults.port with
  | error e =>
    obtain ⟨text, hgarbled, rfl⟩ := readInteger_eq_error_iff.mp hp
    simp only [ofEnvironment, hp] at h
    exact Except.error.inj h ▸ .portText hgarbled
  | ok port =>
    have hport := readInteger_eq_ok_iff.mp hp
    cases hm : readInteger env "PROPLOGIC_MAX_VARIABLES" defaults.maxVariables with
    | error e =>
      obtain ⟨text, hgarbled, rfl⟩ := readInteger_eq_error_iff.mp hm
      simp only [ofEnvironment, hp, hm] at h
      exact Except.error.inj h ▸ .limitText hport hgarbled
    | ok limit =>
      have hlimit := readInteger_eq_ok_iff.mp hm
      rw [ofEnvironment_eq_check hport hlimit] at h
      rcases check_eq_error_iff.mp h with
        ⟨hrange, rfl⟩ | ⟨hrange, hlevel, rfl⟩ | ⟨hrange, hlevel, hnegative, rfl⟩
      · exact .portRange hport hlimit hrange
      · rw [validLevel_getD_iff] at hlevel
        cases hword : env.lookup "PROPLOGIC_LOG_LEVEL" with
        | none => exact absurd (.inl hword) hlevel
        | some word => exact .level hport hlimit hrange hword hlevel
      · exact .limitRange hport hlimit hrange (validLevel_getD_iff.mp hlevel) hnegative

theorem ofEnvironment_of_fails (h : env.Fails error) : ofEnvironment env = .error error := by
  cases h with
  | @portText text hgarbled =>
    have hp : readInteger env "PROPLOGIC_PORT" defaults.port =
        .error (.notInteger "PROPLOGIC_PORT" text) :=
      readInteger_eq_error_iff.mpr ⟨text, hgarbled, rfl⟩
    simp only [ofEnvironment, hp]
  | @limitText port text hport hgarbled =>
    have hp : readInteger env "PROPLOGIC_PORT" defaults.port = .ok port :=
      readInteger_eq_ok_iff.mpr hport
    have hm : readInteger env "PROPLOGIC_MAX_VARIABLES" defaults.maxVariables =
        .error (.notInteger "PROPLOGIC_MAX_VARIABLES" text) :=
      readInteger_eq_error_iff.mpr ⟨text, hgarbled, rfl⟩
    simp only [ofEnvironment, hp, hm]
  | portRange hport hlimit hrange =>
    rw [ofEnvironment_eq_check hport hlimit]
    exact check_eq_error_iff.mpr (.inl ⟨hrange, rfl⟩)
  | level hport hlimit hrange hword hlevel =>
    rw [← validLevel_getD_iff] at hlevel
    rw [ofEnvironment_eq_check hport hlimit]
    refine check_eq_error_iff.mpr (.inr (.inl ⟨hrange, hlevel, ?_⟩))
    rw [hword, Option.getD_some]
  | limitRange hport hlimit hrange hlevel hnegative =>
    rw [ofEnvironment_eq_check hport hlimit]
    exact check_eq_error_iff.mpr
      (.inr (.inr ⟨hrange, validLevel_getD_iff.mpr hlevel, hnegative, rfl⟩))

/-! ## The environments that are accepted -/

theorem validInteger_iff_accepts {P : Int → Prop} :
    env.ValidInteger variableName P ↔ env.Accepts variableName P := by
  unfold Environment.ValidInteger Environment.Accepts
  simp only [Text.readInteger?_eq_some_iff]
  cases env.lookup variableName with
  | none => simp
  | some text => by_cases he : text = "" <;> simp [he]

theorem valid_iff_accepts :
    env.Valid ↔ env.Accepts "PROPLOGIC_PORT" ValidPort ∧
      env.Accepts "PROPLOGIC_MAX_VARIABLES" ValidLimit ∧ env.KnownLevel := by
  rw [← validInteger_iff_accepts, ← validInteger_iff_accepts, ← validLevel_getD_iff,
    getD_iff ValidLevel defaults.logLevel_known]
  constructor
  · rintro ⟨hport, hlimit, hlevel⟩
    exact ⟨hport, hlimit, hlevel⟩
  · rintro ⟨hport, hlimit, hlevel⟩
    exact ⟨hport, hlimit, hlevel⟩

/-- An environment gives settings exactly if its port and its table limit are absent, empty or
numerals in their range of at most 4300 digits, and its log level is absent or known. They are the
settings with the values of the environment and else the defaults, and any other environment has the
error of the first check that it fails. Numerals of at most 4300 digits are read as written, so the
decimal text of an integer with no more digits is read as the integer, and neither zeros in front
nor underscores between digits matter as long as the zeros keep to the limit. -/
theorem ofEnvironment_outcome (env : Environment) :
    ((∃ s, ofEnvironment env = .ok s) ↔ env.Accepts "PROPLOGIC_PORT" ValidPort ∧
      env.Accepts "PROPLOGIC_MAX_VARIABLES" ValidLimit ∧ env.KnownLevel) ∧
    (∀ s, ofEnvironment env = .ok s ↔ env.Gives s) ∧
    (∀ error, ofEnvironment env = .error error ↔ env.Fails error) ∧
    (∀ text n, Text.readInteger? text = some n ↔ Text.ShortNumeral text.toList n) ∧
    (∀ n : Int, Text.readInteger? (toString n) = some n ↔ n.natAbs < 10 ^ 4300) ∧
    ∀ sign unit digits ds zeros, Text.Sign sign unit → Text.Digits digits ds →
      zeros + ds.length ≤ 4300 →
      Text.readInteger? (String.ofList (sign ++ (List.replicate zeros '0' ++ digits))) =
        Text.readInteger? (String.ofList (sign ++ digits.filter (· != '_'))) := by
  refine ⟨?_, fun s => ofEnvironment_eq_ok_iff,
    fun error => ⟨fails_of_ofEnvironment, ofEnvironment_of_fails⟩,
    fun text n => Text.readInteger?_eq_some_iff, Text.readInteger?_toString_iff,
    fun sign unit digits ds zeros hsign hdigits => Text.readInteger?_zeros hsign hdigits⟩
  rw [exists_ofEnvironment_iff, valid_iff_accepts]

/-- A numeral with too many digits is an error, whatever its value. -/
theorem ofEnvironment_longPort {text : String} {ds : List Nat} {n : Int}
    (hl : env.lookup "PROPLOGIC_PORT" = some text) (h : Text.Numeral text.toList ds n)
    (hlength : 4300 < ds.length) :
    ofEnvironment env = .error (.notInteger "PROPLOGIC_PORT" text) := by
  refine ofEnvironment_of_fails (.portText ⟨hl, ?_, h.not_shortNumeral hlength⟩)
  rintro rfl
  have hcount := h.digitCount_eq
  rw [← hcount] at hlength
  cases hlength

/-- The port 80 in 4302 digits is a numeral in the range of ports, nothing else is wrong, and yet it
is an error. -/
theorem ofEnvironment_zeroPadded :
    let digits := List.replicate 4300 '0' ++ ['8', '0']
    let env : Environment := [("PROPLOGIC_PORT", String.ofList digits)]
    (∃ ds, Text.Numeral digits ds 80) ∧ ValidPort 80 ∧
      env.Accepts "PROPLOGIC_MAX_VARIABLES" ValidLimit ∧ env.KnownLevel ∧
      ofEnvironment env = .error (.notInteger "PROPLOGIC_PORT" (String.ofList digits)) := by
  intro digits env
  have h80 : Text.Digits ['8', '0'] [8, 0] :=
    .next (Text.digitValue?_eq_some_iff.mp (by decide))
      (.last (Text.digitValue?_eq_some_iff.mp (by decide)))
  obtain ⟨hdigits, hvalue⟩ := h80.zeros 4300
  have h : Text.Numeral digits (List.replicate 4300 0 ++ [8, 0]) 80 := by
    have h := Text.numeral_of_digits .absent hdigits
    rwa [hvalue] at h
  have htext : Text.Numeral (String.ofList digits).toList (List.replicate 4300 0 ++ [8, 0]) 80 := by
    rwa [String.toList_ofList]
  have hlength : 4300 < (List.replicate 4300 0 ++ [8, 0]).length := by
    rw [List.length_append, List.length_replicate]
    exact Nat.lt_add_of_pos_right Nat.two_pos
  exact ⟨⟨_, h⟩, ⟨by decide, by decide⟩, .inl rfl, .inl rfl,
    ofEnvironment_longPort rfl htext hlength⟩

end Settings

end Sentential
