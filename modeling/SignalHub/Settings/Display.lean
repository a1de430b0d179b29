import SignalHub.Settings.Basic
import SignalHub.Toml.Printer
import SignalHub.Word
/-!
# Settings as a TOML document

Settings are shown as a document that can be loaded again. Integers in TOML have a sign and 63 bits,
so settings with a larger number cannot be shown.

Results:
* `Settings.sections?`: settings as a document.
* `Settings.toToml?`: the text of the document.
-/
namespace SignalHub

/-- How a setting is shown. -/
structure Shown (α : Type) where
  show? : α → Option Toml.Scalar

namespace Shown

/-- Numbers are shown as integers of TOML. -/
def number (n : Nat) : Option Toml.Scalar := if n < Word.half then some (.int n) else none

/-- How each type of setting is shown. -/
def codecs : SettingCodecs Shown where
  text := ⟨fun s => some (.text s)⟩
  bool := ⟨fun b => some (.bool b)⟩
  port := ⟨fun w => number w.toNat⟩
  size := ⟨fun w => number w.toNat⟩
  seconds := ⟨fun w => number w.toNat⟩

/-- A setting with its name. -/
def setting? {σ α : Type} (s : σ) (f : Field Shown σ α) : Option (String × Toml.Scalar) :=
  (f.codec.show? (f.get s)).map fun v => (f.name, v)

/-- A section with its settings in order. -/
def section? {σ : Type} (name : String) (fields : Fields Shown σ σ) (s : σ) :
    Option Toml.Section :=
  ((fields.mapList (setting? s)).mapM id).map fun settings => ⟨name, settings⟩

end Shown

/-- Settings as a document, unless a number is too large. -/
def Settings.sections? (s : Settings) : Option (List Toml.Section) := do
  let server ← Shown.section? "server" (ServerSettings.fields Shown.codecs) s.server
  let storage ← Shown.section? "storage" (StorageSettings.fields Shown.codecs) s.storage
  let stream ← Shown.section? "stream" (StreamSettings.fields Shown.codecs) s.stream
  let metrics ← Shown.section? "metrics" (MetricsSettings.fields Shown.codecs) s.metrics
  pure [server, storage, stream, metrics]

/-- The text of the document, unless a number is too large. -/
def Settings.toToml? (s : Settings) : Option String := s.sections?.map Toml.render

end SignalHub
