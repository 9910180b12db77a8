import Sentential.Proofs.Settings
import Sentential.Service.Launch

/-!
# Revisions of settings

Settings are made, read from an environment and overridden, one after the other, and whatever fails
leaves those in force as they are. A revision succeeds exactly if each value that it names is valid
for itself. So two overrides come to the one that names the values of both, once the first of them
has succeeded.
-/
namespace Sentential

/-- The second settings have the values that the changes name, and all others from the first. -/
structure Changes.Made (c : Changes) (s t : Settings) : Prop where
  host : t.host = c.host.getD s.host
  port : t.port = c.port.getD s.port
  logLevel : t.logLevel = c.logLevel.getD s.logLevel
  openBrowser : t.openBrowser = c.openBrowser.getD s.openBrowser
  maxVariables : t.maxVariables = c.maxVariables.getD s.maxVariables

namespace Settings

variable {s t : Settings} {a c : Changes} {r : Revision}

/-! ## Overrides -/

theorem check_eq_ok_iff {host logLevel : String} {port maxVariables : Int} {openBrowser : Bool} :
    check host port logLevel openBrowser maxVariables = .ok t ↔
      t.host = host ∧ t.port = port ∧ t.logLevel = logLevel ∧ t.openBrowser = openBrowser ∧
        t.maxVariables = maxVariables := by
  constructor
  · intro h
    obtain ⟨hp, hl, hm⟩ := exists_check_iff.mp ⟨t, h⟩
    rw [check_eq_ok hp hl hm] at h
    obtain rfl := Except.ok.inj h
    exact ⟨rfl, rfl, rfl, rfl, rfl⟩
  · rintro ⟨rfl, rfl, rfl, rfl, rfl⟩
    exact check_eq_ok t.port_range t.logLevel_known t.maxVariables_nonneg

theorem override_eq_ok_iff : s.override c = .ok t ↔ c.Made s t := by
  rw [override, check_eq_ok_iff]
  constructor
  · rintro ⟨hhost, hport, hlevel, hbrowser, hlimit⟩
    exact ⟨hhost, hport, hlevel, hbrowser, hlimit⟩
  · rintro ⟨hhost, hport, hlevel, hbrowser, hlimit⟩
    exact ⟨hhost, hport, hlevel, hbrowser, hlimit⟩

theorem override_override (h : s.override a = .ok t) (b : Changes) :
    t.override b = s.override (a.merge b) := by
  obtain ⟨hhost, hport, hlevel, hbrowser, hlimit⟩ := override_eq_ok_iff.mp h
  simp only [override, hhost, hport, hlevel, hbrowser, hlimit, Changes.merge, Option.getD_or]

/-! ## Sequences of revisions -/

/-- The values are valid, and so the level is found and has the name that the listener is given. -/
structure Sound (s : Settings) : Prop where
  port : 0 < s.port ∧ s.port < 65536
  maxVariables : 0 ≤ s.maxVariables
  level : s.level.name = Text.lowerString s.logLevel
  launched : (Launch.ofSettings s).logLevel = s.level.name

theorem name_level (s : Settings) : s.level.name = Text.lowerString s.logLevel := by
  have hfound : LogLevel.ofName? s.logLevel = some s.level := (Option.some_get _).symm
  simpa using List.find?_some hfound

theorem sound (s : Settings) : s.Sound where
  port := s.port_range
  maxVariables := s.maxVariables_nonneg
  level := s.name_level
  launched := s.name_level.symm

def Revision.Valid : Revision → Prop
  | .fresh c => c.Valid
  | .environment env => env.Valid
  | .changed c => c.Valid

theorem exists_revise_iff (s : Settings) (r : Revision) :
    (∃ t, s.revise r = .ok t) ↔ r.Valid := by
  cases r with
  | fresh c => exact exists_override_iff defaults c
  | environment env => exact exists_ofEnvironment_iff env
  | changed c => exact exists_override_iff s c

theorem after_of_ok (h : s.revise r = .ok t) : s.after r = t := by
  rw [after, h]
  rfl

theorem after_of_error {error : SettingsError} (h : s.revise r = .error error) :
    s.after r = s := by
  rw [after, h]
  rfl

/-- The settings in force after some revisions. -/
def afterAll (s : Settings) (rs : List Revision) : Settings := rs.foldl after s

theorem afterAll_concat (s : Settings) (past : List Revision) (r : Revision) :
    s.afterAll (past ++ [r]) = (s.afterAll past).after r := by
  rw [afterAll, List.foldl_append]
  rfl

theorem revisions_append (s : Settings) (past future : List Revision) :
    s.revisions (past ++ future) = s.revisions past ++ (s.afterAll past).revisions future := by
  induction past generalizing s with
  | nil => rfl
  | cons r past ih => exact congrArg _ (ih _)

/-- At any moment the settings in force are sound, and the next revision is a revision of these. It
succeeds if its values are valid, and then what it gives is in force, and otherwise nothing changes.
An override after a successful one comes to what their merged changes come to, the later value
winning: the same settings, with every value that neither names as it was, or the same error. -/
theorem revisions_sound (s : Settings) (past : List Revision) :
    (s.afterAll past).Sound ∧
    (∀ r future, s.revisions (past ++ r :: future) = s.revisions past ++
      (s.afterAll past).revise r :: (s.afterAll (past ++ [r])).revisions future) ∧
    (∀ r, (∃ t, (s.afterAll past).revise r = .ok t) ↔ r.Valid) ∧
    (∀ r t, (s.afterAll past).revise r = .ok t → s.afterAll (past ++ [r]) = t) ∧
    (∀ r error, (s.afterAll past).revise r = .error error →
      s.afterAll (past ++ [r]) = s.afterAll past) ∧
    ∀ (c t : Settings) (a b : Changes), c.override a = .ok t →
      t.override b = c.override (a.merge b) ∧
        ∀ u, t.override b = .ok u → (a.merge b).Made c u := by
  refine ⟨sound _, fun r future => ?_, exists_revise_iff _, fun r t h => ?_, fun r error h => ?_,
    fun c t a b h => ⟨override_override h b, fun u hu => ?_⟩⟩
  · rw [revisions_append, afterAll_concat]
    rfl
  · rw [afterAll_concat, after_of_ok h]
  · rw [afterAll_concat, after_of_error h]
  · rw [override_override h] at hu
    exact override_eq_ok_iff.mp hu

theorem revisions_sound_refusedPort :
    defaults.afterAll ([.environment [("PROPLOGIC_PORT", "8080")]] ++ [.changed { port := some 0 }]) =
      defaults.afterAll [.environment [("PROPLOGIC_PORT", "8080")]] ∧
    ∃ t u, defaults.afterAll ([] ++ [.changed { port := some 8080 }]) = t ∧
      t.override { port := some 0, logLevel := some "debug" } =
        defaults.override { port := some 0, logLevel := some "debug" } ∧
      t.override { logLevel := some "debug" } = .ok u ∧
      Changes.Made { port := some 8080, logLevel := some "debug" } defaults u := by
  have hrefused := revisions_sound defaults [.environment [("PROPLOGIC_PORT", "8080")]]
  obtain ⟨-, -, -, hforce, -, haction⟩ := revisions_sound defaults []
  obtain ⟨t, ht⟩ : ∃ t, defaults.override { port := some 8080 } = .ok t := ⟨_, rfl⟩
  obtain ⟨u, hu⟩ : ∃ u, t.override { logLevel := some "debug" } = .ok u :=
    (exists_override_iff t _).mpr ⟨nofun, by rintro _ ⟨⟩; rfl, nofun⟩
  exact ⟨hrefused.2.2.2.2.1 _ (.portOutOfRange 0) rfl, t, u, hforce _ t ht,
    (haction defaults t _ _ ht).1, hu, (haction defaults t _ _ ht).2 u hu⟩

end Settings

end Sentential
