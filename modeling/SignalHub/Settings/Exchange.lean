import SignalHub.Settings.Basic
import SignalHub.Json.Codec
/-!
# Settings in JSON

Results:
* `Settings.codec`: the exchange format of settings, and of each section.
-/
namespace SignalHub

open Json Json.Codec

/-- How settings stand in JSON. -/
def settingCodecs : SettingCodecs Codec where
  text := text
  bool := Codec.bool
  port := word16
  size := word "usize"
  seconds := word "u64"

/-- The exchange format of the storage section. -/
def StorageSettings.codec : Codec StorageSettings :=
  struct "struct StorageConfig" (StorageSettings.fields settingCodecs)

/-- The exchange format of the stream section. -/
def StreamSettings.codec : Codec StreamSettings :=
  struct "struct StreamConfig" (StreamSettings.fields settingCodecs)

/-- The exchange format of the metrics section. -/
def MetricsSettings.codec : Codec MetricsSettings :=
  struct "struct MetricsConfig" (MetricsSettings.fields settingCodecs)

/-- The exchange format of settings. -/
def Settings.codec : Codec Settings :=
  struct "struct Config" (Settings.fields settingCodecs fun label fs => struct label fs)

end SignalHub
