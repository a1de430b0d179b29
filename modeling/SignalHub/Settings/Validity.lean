import SignalHub.Settings.Basic
/-!
# Which settings a hub accepts

Settings are checked section by section and the first fault decides: sizes that must not be zero,
limits that contradict each other, an unknown log format, a metrics endpoint that is no path.

Results:
* `Settings.fault?`: the first fault, if there is one.
* `Settings.validate`: accepts settings without a fault.
* `SettingsError.message`: the wording of a fault.
-/
namespace SignalHub

/-- Why settings are not accepted. -/
inductive SettingsError where
  /-- A number that must not be zero, by section and name. -/
  | zero (part name : String)
  | limitsCross (standard most : UInt64)
  | unknownLogFormat (format : String)
  | relativeEndpoint (endpoint : String)
  deriving DecidableEq, Repr

/-- The wording of the fault. -/
def SettingsError.message : SettingsError → String
  | .zero s name => s ++ "." ++ name ++ " must be greater than 0"
  | .limitsCross standard most =>
    "storage.default_query_limit (" ++ toString standard.toNat ++
      ") exceeds storage.max_query_limit (" ++ toString most.toNat ++ ")"
  | .unknownLogFormat format =>
    "Invalid log_format '" ++ format ++ "': expected 'text' or 'json'"
  | .relativeEndpoint endpoint => "metrics.endpoint must start with '/': " ++ endpoint

/-- A fault that is there if the condition holds. -/
def faultIf (wrong : Bool) (e : SettingsError) : Option SettingsError :=
  if wrong then some e else none

/-- The first fault of the storage section. -/
def StorageSettings.fault? (s : StorageSettings) : Option SettingsError :=
  faultIf (s.traceCapacity == 0) (.zero "storage" "trace_capacity")
    <|> faultIf (s.logCapacity == 0) (.zero "storage" "log_capacity")
    <|> faultIf (s.metricCapacity == 0) (.zero "storage" "metric_capacity")
    <|> faultIf (s.mailboxSize == 0) (.zero "storage" "subscriber_buffer")
    <|> faultIf (s.defaultLimit == 0) (.zero "storage" "default_query_limit")
    <|> faultIf (s.maxLimit < s.defaultLimit) (.limitsCross s.defaultLimit s.maxLimit)

/-- The fault of the stream section. -/
def StreamSettings.fault? (s : StreamSettings) : Option SettingsError :=
  faultIf (s.keepaliveSeconds == 0) (.zero "stream" "keepalive_seconds")

/-- The fault of the server section. -/
def ServerSettings.fault? (s : ServerSettings) : Option SettingsError :=
  faultIf (s.logFormat != "text" && s.logFormat != "json") (.unknownLogFormat s.logFormat)

/-- The fault of the metrics section. -/
def MetricsSettings.fault? (s : MetricsSettings) : Option SettingsError :=
  faultIf (s.endpoint.toList.head? != some '/') (.relativeEndpoint s.endpoint)

/-- The first fault of settings. -/
def Settings.fault? (s : Settings) : Option SettingsError :=
  s.storage.fault? <|> s.stream.fault? <|> s.server.fault? <|> s.metrics.fault?

/-- Accepts settings without a fault. -/
def Settings.validate (s : Settings) : Except SettingsError Unit :=
  match s.fault? with
  | some e => .error e
  | none => .ok ()

end SignalHub
