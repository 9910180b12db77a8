import Sentential.Service
import Sentential.Service.InProcess

/-!
# The settings that a service keeps

A service reads its settings when a call first needs them, and keeps them from then on. In a run of
any length, under any framework, they change only when they are set, or when a request that needs
them finds none and the environment of that moment is valid. A response depends on the request and
on the settings in force, the kept ones or else those of the present environment, and on nothing
else of the run. Only tables and normal forms depend on the settings at all.
-/
namespace Sentential

/-! ## Calls -/

theorem Call.method_of_expression? {c : Call} {e : String} (h : c.expression? = some e) :
    c.route.method = "POST" := by
  cases c with
  | health | connectives => cases h
  | evaluate _ | parse _ | truthTable _ | normalForms _ => rfl

namespace Framework.Documented

variable {F : Framework} {r : F.Request} {c : Call} {e : String}

theorem call?_of_posts (hF : F.Documented) (hc : c.expression? = some e)
    (h : F.Posts r c.route e) : F.call? r = some c := by
  refine hF.calls.mpr ⟨?_, h.path, fun e' he' => ?_⟩
  · rw [h.method, Call.method_of_expression? hc]
  · rw [h.expression, ← hc]
    exact he'

theorem posts_of_call? (hF : F.Documented) (hc : c.expression? = some e)
    (h : F.call? r = some c) : F.Posts r c.route e := by
  obtain ⟨hmethod, hpath, hexpression⟩ := hF.calls.mp h
  exact ⟨hmethod.trans (Call.method_of_expression? hc), hpath, hexpression e hc⟩

theorem call?_of_tabulates (hF : F.Documented) (h : F.Tabulates r e) :
    F.call? r = some (.truthTable e) ∨ F.call? r = some (.normalForms e) :=
  h.imp (hF.call?_of_posts rfl) (hF.call?_of_posts rfl)

end Framework.Documented

namespace Service

variable {F : Framework} {s t : Service} {r : F.Request}

/-- The kept settings, or those of the present environment. -/
def inForce (s : Service) : Except SettingsError Settings :=
  match s.kept with
  | some settings => .ok settings
  | none => Settings.ofEnvironment s.environment

theorem inForce_of_kept {settings : Settings} (h : s.kept = some settings) :
    s.inForce = .ok settings := by
  rw [inForce, h]

theorem inForce_of_not_kept (h : s.kept = none) :
    s.inForce = Settings.ofEnvironment s.environment := by
  rw [inForce, h]

/-- Reading gives the settings in force, and whatever it gives is kept. -/
theorem readSettings_eq (s : Service) :
    s.readSettings = (s.inForce, { s with kept := s.inForce.toOption }) := by
  rcases s with ⟨environment, _ | settings⟩
  · simp only [readSettings, inForce]
    cases Settings.ofEnvironment environment <;> rfl
  · rfl

theorem tabulate_state (s : Service) (expression : String) (body : TruthTable → Json) :
    (s.tabulate expression body).2 = { s with kept := s.inForce.toOption } := by
  rw [tabulate, readSettings_eq]
  cases s.inForce <;> rfl

theorem deliver_tabulate (hF : F.Documented) (r : F.Request) (s : Service) (expression : String)
    (body : TruthTable → Json) :
    F.deliver r (s.tabulate expression body).1 =
      s.inForce.toOption.elim (F.failure r) fun settings =>
        F.deliver r (answerTable settings expression body) := by
  rw [tabulate, readSettings_eq]
  cases s.inForce with
  | error error => exact hF.unhandled r (.settings error)
  | ok settings => rfl

/-! ## Responses -/

theorem respond_of_call {c : Call} (h : F.call? r = some c) (s : Service) :
    s.respond r = (F.deliver r (s.handle c).1, (s.handle c).2) := by
  rw [respond, h]

theorem respond_of_tabulates (hF : F.Documented) {e : String} (h : F.Tabulates r e) :
    ∃ body, ∀ s : Service,
      s.respond r = (F.deliver r (s.tabulate e body).1, (s.tabulate e body).2) := by
  rcases hF.call?_of_tabulates h with hc | hc
  · exact ⟨tableBody, respond_of_call hc⟩
  · exact ⟨formsBody, respond_of_call hc⟩

/-- Any other request has one response for all services, and leaves a service as it is. -/
theorem respond_of_not_needsSettings (hF : F.Documented) (h : ¬F.NeedsSettings r) :
    ∃ response, ∀ s : Service, s.respond r = (response, s) := by
  cases hc : F.call? r with
  | none => exact ⟨F.own r, fun s => by rw [respond, hc]⟩
  | some c =>
    cases c with
    | health => exact ⟨F.deliver r (.ok health), respond_of_call hc⟩
    | connectives => exact ⟨F.deliver r (.ok connectives), respond_of_call hc⟩
    | evaluate e => exact ⟨F.deliver r (evaluate e), respond_of_call hc⟩
    | parse e => exact ⟨F.deliver r (parse e), respond_of_call hc⟩
    | truthTable e => exact absurd ⟨e, .inl (hF.posts_of_call? rfl hc)⟩ h
    | normalForms e => exact absurd ⟨e, .inr (hF.posts_of_call? rfl hc)⟩ h

theorem respond_state (hF : F.Documented) (h : F.NeedsSettings r) (s : Service) :
    (s.respond r).2 = { s with kept := s.inForce.toOption } := by
  obtain ⟨e, he⟩ := h
  obtain ⟨body, hrespond⟩ := respond_of_tabulates hF he
  rw [hrespond, tabulate_state]

theorem respond_of_error (hF : F.Documented) {error : SettingsError} (h : F.NeedsSettings r)
    (hk : s.kept = none) (henv : Settings.ofEnvironment s.environment = .error error) :
    s.respond r = (F.failure r, s) := by
  obtain ⟨e, he⟩ := h
  obtain ⟨body, hrespond⟩ := respond_of_tabulates hF he
  rw [hrespond, deliver_tabulate hF, tabulate_state, inForce_of_not_kept hk, henv]
  exact Prod.ext rfl (congrArg (Service.mk s.environment) hk.symm)

/-- Services under the same settings, or both without any, answer alike. -/
theorem respond_congr (hF : F.Documented) (h : s.inForce.toOption = t.inForce.toOption)
    (r : F.Request) : (s.respond r).1 = (t.respond r).1 := by
  by_cases hr : F.NeedsSettings r
  · obtain ⟨e, he⟩ := hr
    obtain ⟨body, hrespond⟩ := respond_of_tabulates hF he
    rw [hrespond, hrespond, deliver_tabulate hF, deliver_tabulate hF, h]
  · obtain ⟨response, hrespond⟩ := respond_of_not_needsSettings hF hr
    rw [hrespond, hrespond]

/-! ## Events -/

/-- The event sets the kept settings, or sets them to nothing. -/
inductive Event.Sets : Event F → Option Settings → Prop where
  | nothing : Sets (.settings none) none
  | changed {changes : Changes} {settings : Settings} :
      Settings.defaults.override changes = .ok settings →
      Sets (.settings (some changes)) (some settings)

/-- What an event does to the kept settings. -/
theorem kept_step (hF : F.Documented) (s : Service) (e : Event F) :
    (s.step e).2.kept = s.kept ∨ e.Sets (s.step e).2.kept ∨
      ∃ r settings, e = .request r ∧ F.NeedsSettings r ∧ s.kept = none ∧
        Settings.ofEnvironment s.environment = .ok settings ∧
          (s.step e).2.kept = some settings := by
  cases e with
  | environment env => exact .inl rfl
  | settings changes =>
    cases changes with
    | none => exact .inr (.inl .nothing)
    | some changes =>
      cases hc : Settings.defaults.override changes with
      | error e => exact .inl (by simp only [step, setKept, hc])
      | ok settings =>
        refine .inr (.inl ?_)
        simp only [step, setKept, hc]
        exact .changed hc
  | request r =>
    by_cases hr : F.NeedsSettings r
    · have hstep : (s.step (.request r)).2.kept = s.inForce.toOption := by
        rw [step, respond_state hF hr]
      rw [hstep]
      cases hk : s.kept with
      | some settings => exact .inl (by rw [inForce_of_kept hk]; rfl)
      | none =>
        rw [inForce_of_not_kept hk]
        cases henv : Settings.ofEnvironment s.environment with
        | error error => exact .inl rfl
        | ok settings => exact .inr (.inr ⟨r, settings, rfl, hr, rfl, rfl, rfl⟩)
    · obtain ⟨response, hrespond⟩ := respond_of_not_needsSettings hF hr
      exact .inl (by rw [step, hrespond])

theorem environment_handle (s : Service) (c : Call) :
    (s.handle c).2.environment = s.environment := by
  cases c with
  | health | connectives | evaluate _ | parse _ => rfl
  | truthTable e | normalForms e => rw [handle, tabulate_state]

theorem environment_respond (s : Service) (r : F.Request) :
    (s.respond r).2.environment = s.environment := by
  rw [respond]
  split
  · rfl
  · exact environment_handle s _

theorem environment_setKept (s : Service) (changes : Option Changes) :
    (s.setKept (F := F) changes).2.environment = s.environment := by
  cases changes with
  | none => rfl
  | some changes =>
    rw [setKept]
    split <;> rfl

theorem kept_step_of_kept (hF : F.Documented) {settings : Settings} {e : Event F}
    (h : s.kept = some settings) (he : ∀ changes, e ≠ .settings changes) :
    (s.step e).2.kept = some settings := by
  rcases kept_step hF s e with hsame | hsets | ⟨_, _, -, -, hnone, -⟩
  · rw [hsame, h]
  · -- The index must be a variable before the cases can be told apart.
    generalize (s.step e).2.kept = value at hsets
    cases hsets with
    | nothing => exact absurd rfl (he none)
    | changed _ => exact absurd rfl (he _)
  · rw [h] at hnone
    cases hnone

/-! ## Runs -/

def after (s : Service) : List (Event F) → Service
  | [] => s
  | e :: more => (s.step e).2.after more

theorem after_append (s : Service) (past future : List (Event F)) :
    s.after (past ++ future) = (s.after past).after future := by
  induction past generalizing s with
  | nil => rfl
  | cons e past ih => exact ih _

theorem outcomes_append (s : Service) (past future : List (Event F)) :
    s.outcomes (past ++ future) = s.outcomes past ++ (s.after past).outcomes future := by
  induction past generalizing s with
  | nil => rfl
  | cons e past ih => exact congrArg _ (ih _)

def presentEnvironment (env : Environment) : List (Event F) → Environment
  | [] => env
  | .environment env :: more => presentEnvironment env more
  | .settings _ :: more => presentEnvironment env more
  | .request _ :: more => presentEnvironment env more

theorem environment_after (s : Service) (events : List (Event F)) :
    (s.after events).environment = presentEnvironment s.environment events := by
  induction events generalizing s with
  | nil => rfl
  | cons e more ih =>
    rw [after, ih]
    cases e with
    | environment env => rfl
    | settings changes => rw [presentEnvironment, step, environment_setKept]
    | request r => rw [presentEnvironment, step, environment_respond]

theorem kept_after_of_kept (hF : F.Documented) {settings : Settings} {events : List (Event F)}
    (h : s.kept = some settings) (he : ∀ changes, .settings changes ∉ events) :
    (s.after events).kept = some settings := by
  induction events generalizing s with
  | nil => exact h
  | cons e more ih =>
    refine ih (kept_step_of_kept hF h fun changes hc => ?_) fun changes hm => ?_
    · exact he changes (List.mem_cons.mpr (.inl hc.symm))
    · exact he changes (List.mem_cons_of_mem _ hm)

theorem after_concat (s : Service) (past : List (Event F)) (e : Event F) :
    s.after (past ++ [e]) = ((s.after past).step e).2 := after_append s past [e]

theorem after_request (s : Service) (past : List (Event F)) (r : F.Request) :
    s.after (past ++ [.request r]) = ((s.after past).respond r).2 := after_concat s past _

theorem outcomes_request (s : Service) (past future : List (Event F)) (r : F.Request) :
    s.outcomes (past ++ .request r :: future) = s.outcomes past ++
      .response ((s.after past).respond r).1 :: (s.after (past ++ [.request r])).outcomes future := by
  rw [outcomes_append, after_request]
  rfl

/-- At any moment of a run the next event changes the kept settings only if it sets them, or if it
is a request that needs them while there are none and the present environment is valid. Settings
stay as they are for the rest of a run that does not set them. A request that needs settings of an
invalid environment fails and leaves the run as it is. What is answered to a request depends only on
the settings in force, and not even on these if it does not need them. -/
theorem run_keeps (F : Framework) (hF : F.Documented) (s : Service) (past : List (Event F)) :
    (∀ e, (s.after (past ++ [e])).kept ≠ (s.after past).kept →
      e.Sets (s.after (past ++ [e])).kept ∨
        ∃ r settings, e = .request r ∧ F.NeedsSettings r ∧ (s.after past).kept = none ∧
          Settings.ofEnvironment (presentEnvironment s.environment past) = .ok settings ∧
            (s.after (past ++ [e])).kept = some settings) ∧
    (∀ r settings, F.NeedsSettings r → (s.after past).kept = none →
      Settings.ofEnvironment (presentEnvironment s.environment past) = .ok settings →
        (s.after (past ++ [.request r])).kept = some settings) ∧
    (∀ settings future, (s.after past).kept = some settings →
      (∀ changes, .settings changes ∉ future) →
        (s.after (past ++ future)).kept = some settings) ∧
    (∀ r error future, F.NeedsSettings r → (s.after past).kept = none →
      Settings.ofEnvironment (presentEnvironment s.environment past) = .error error →
        s.after (past ++ [.request r]) = s.after past ∧
          s.outcomes (past ++ .request r :: future) = s.outcomes past ++
            .response (F.failure r) :: (s.after past).outcomes future ∧
          F.status (F.failure r) = 500) ∧
    (∀ r future (t : Service), (s.after past).inForce.toOption = t.inForce.toOption →
      s.outcomes (past ++ .request r :: future) = s.outcomes past ++
        .response (t.respond r).1 :: (s.after (past ++ [.request r])).outcomes future) ∧
    (∀ r future (t : Service), ¬F.NeedsSettings r →
      s.after (past ++ [.request r]) = s.after past ∧
        s.outcomes (past ++ .request r :: future) = s.outcomes past ++
          .response (t.respond r).1 :: (s.after past).outcomes future) := by
  have henv := environment_after s past
  refine ⟨fun e hchange => ?_, fun r settings hr hk hok => ?_, fun settings future hk hf => ?_,
    fun r error future hr hk herror => ?_, fun r future t ht => ?_, fun r future t hr => ?_⟩
  · rw [after_concat] at hchange ⊢
    have hstep := (kept_step hF (s.after past) e).resolve_left hchange
    rwa [henv] at hstep
  · rw [after_request, respond_state hF hr, inForce_of_not_kept hk, henv, hok]
    rfl
  · rw [after_append]
    exact kept_after_of_kept hF hk hf
  · rw [outcomes_request, after_request, respond_of_error hF hr hk (henv ▸ herror)]
    exact ⟨rfl, rfl, hF.failed r⟩
  · rw [outcomes_request, respond_congr hF ht]
  · obtain ⟨response, hrespond⟩ := respond_of_not_needsSettings hF hr
    rw [outcomes_request, after_request, hrespond, hrespond]
    exact ⟨rfl, rfl⟩

theorem run_keeps_retry :
    let r : InProcess.Request :=
      ⟨"POST", "/api/normal-forms", some (.object [("expression", .text "A∧B")])⟩
    let invalid : Environment := [("PROPLOGIC_PORT", "none")]
    let narrow : Environment := [("PROPLOGIC_MAX_VARIABLES", "1")]
    let events : List (Event .inProcess) := [.environment invalid, .request r]
    Framework.inProcess.NeedsSettings r ∧
      Service.outcomes {} events = [.done, .response .failure] ∧
      Settings.ofEnvironment narrow = .ok { maxVariables := 1 } ∧
      (Service.after {} (events ++ [.environment narrow, .request r, .environment invalid,
        .request r])).kept = some { maxVariables := 1 } := by
  intro r invalid narrow events
  have hF := Framework.inProcess_documented
  have hr : Framework.inProcess.NeedsSettings r := ⟨"A∧B", .inr ⟨rfl, rfl, rfl⟩⟩
  have hinvalid : Settings.ofEnvironment invalid =
      .error (.notInteger "PROPLOGIC_PORT" "none") := by rfl
  have hnarrow : Settings.ofEnvironment [("PROPLOGIC_MAX_VARIABLES", "1")] =
      .ok { maxVariables := 1 } := by rfl
  obtain ⟨-, -, -, hfail, -⟩ := run_keeps .inProcess hF {} [.environment invalid]
  obtain ⟨hstate, houtcomes, -⟩ := hfail r _ [] hr rfl hinvalid
  refine ⟨hr, houtcomes, hnarrow, ?_⟩
  obtain ⟨-, hread, -⟩ := run_keeps .inProcess hF {} (events ++ [.environment narrow])
  have hkept := hread r _ hr (by rw [after_append]; exact congrArg kept hstate) hnarrow
  obtain ⟨-, -, honce, -⟩ :=
    run_keeps .inProcess hF {} (events ++ [.environment narrow] ++ [.request r])
  refine honce _ [.environment invalid, .request r] hkept fun changes => ?_
  simp only [List.mem_cons, reduceCtorEq, List.not_mem_nil, or_self, not_false_eq_true]

end Service

end Sentential
