import Sentential.Service.Framework

/-!
# The service

The service answers the calls that a web framework finds in requests. Tables and normal forms are
bounded by the settings, which are read from the environment when first needed and kept from then
on. Reading that fails keeps nothing, and the call that needed it fails.
-/
namespace Sentential

/-- The environment of a service and the settings that it keeps. -/
structure Service where
  environment : Environment := []
  kept : Option Settings := none

namespace Service

/-- The kept settings. While there are none, the environment is read, and what it gives is kept. -/
def readSettings (s : Service) : Except SettingsError Settings × Service :=
  match s.kept with
  | some settings => (.ok settings, s)
  | none =>
    match Settings.ofEnvironment s.environment with
    | .ok settings => (.ok settings, { s with kept := some settings })
    | .error e => (.error e, s)

def tabulate (s : Service) (expression : String) (body : TruthTable → Json) :
    Except Raised Json × Service :=
  match s.readSettings with
  | (.ok settings, s) => (answerTable settings expression body, s)
  | (.error e, s) => (.error (.unhandled (.settings e)), s)

def handle (s : Service) : Call → Except Raised Json × Service
  | .health => (.ok health, s)
  | .connectives => (.ok connectives, s)
  | .evaluate e => (evaluate e, s)
  | .parse e => (parse e, s)
  | .truthTable e => s.tabulate e tableBody
  | .normalForms e => s.tabulate e formsBody

variable {F : Framework}

def respond (s : Service) (r : F.Request) : F.Response × Service :=
  match F.call? r with
  | none => (F.own r, s)
  | some c => (F.deliver r (s.handle c).1, (s.handle c).2)

inductive Event (F : Framework) where
  | environment (env : Environment)
  | settings (changes : Option Changes)
  | request (r : F.Request)

inductive Outcome (F : Framework) where
  | done
  | refused (error : SettingsError)
  | response (r : F.Response)

def setKept (s : Service) : Option Changes → Outcome F × Service
  | none => (.done, { s with kept := none })
  | some changes =>
    match Settings.defaults.override changes with
    | .ok settings => (.done, { s with kept := some settings })
    | .error e => (.refused e, s)

def step (s : Service) : Event F → Outcome F × Service
  | .environment env => (.done, { s with environment := env })
  | .settings changes => s.setKept changes
  | .request r => (.response (s.respond r).1, (s.respond r).2)

def outcomes (s : Service) : List (Event F) → List (Outcome F)
  | [] => []
  | e :: more => (s.step e).1 :: outcomes (s.step e).2 more

end Service

end Sentential
