import Sentential.Settings

/-!
# Launching the service

A launch announces the address, hands the settings over to the listener, and opens the reference
pages in a browser when the settings say so.
-/
namespace Sentential

structure Launch where
  output : List String
  settings : Settings
  logLevel : String
  opened : List String

namespace Launch

def address (s : Settings) : String := "http://" ++ s.host ++ ":" ++ toString s.port

def ofSettings (s : Settings) : Launch where
  output := ["\n∴ ─── Propositional Workbench ───", "  " ++ address s,
    "  Press Ctrl+C to stop\n"]
  settings := s
  logLevel := Text.lowerString s.logLevel
  opened := if s.openBrowser then [address s ++ "/docs"] else []

def run (settings : Option Settings) (env : Environment) : Except SettingsError Launch :=
  match settings with
  | some s => .ok (ofSettings s)
  | none => (Settings.ofEnvironment env).map ofSettings

end Launch

end Sentential
