import SignalHub.Fields
/-!
# Settings

The settings of a hub, in four sections, each setting with its default.

Results:
* `ServerSettings`, `StorageSettings`, `StreamSettings`, `MetricsSettings`: the sections.
* `Settings`: all of them.
-/
namespace SignalHub

/-- Where the hub listens and how it logs. -/
structure ServerSettings where
  host : String := "0.0.0.0"
  port : UInt16 := 4319
  logLevel : String := "info"
  logFormat : String := "text"
  deriving DecidableEq, Repr, Inhabited

/-- How much is kept and how much a query may ask for. -/
structure StorageSettings where
  traceCapacity : UInt64 := 10000
  logCapacity : UInt64 := 50000
  metricCapacity : UInt64 := 50000
  /-- How many unread pings a subscriber's mailbox holds. -/
  mailboxSize : UInt64 := 1
  defaultLimit : UInt64 := 1000
  maxLimit : UInt64 := 10000
  deriving DecidableEq, Repr, Inhabited

/-- How live feeds start and how often they look by themselves. -/
structure StreamSettings where
  traceBackfill : UInt64 := 50
  logBackfill : UInt64 := 100
  metricBackfill : UInt64 := 50
  keepaliveSeconds : UInt64 := 15
  deriving DecidableEq, Repr, Inhabited

/-- Whether and where the hub's own metrics are published. -/
structure MetricsSettings where
  enabled : Bool := true
  endpoint : String := "/metrics"
  deriving DecidableEq, Repr, Inhabited

/-- The settings of a hub. -/
structure Settings where
  server : ServerSettings := {}
  storage : StorageSettings := {}
  stream : StreamSettings := {}
  metrics : MetricsSettings := {}
  deriving DecidableEq, Repr, Inhabited

/-- How the sections name and read their settings, for a family `C` of codecs. -/
structure SettingCodecs (C : Type → Type) where
  text : C String
  bool : C Bool
  port : C UInt16
  size : C UInt64
  seconds : C UInt64

variable {C : Type → Type}

/-- The settings of the server section. -/
def ServerSettings.fields (c : SettingCodecs C) : Fields C ServerSettings ServerSettings :=
  let d : ServerSettings := {}
  ((((Fields.done ServerSettings.mk
    |>.defaulted "host" c.text host d.host)
    |>.defaulted "port" c.port port d.port)
    |>.defaulted "log_level" c.text logLevel d.logLevel)
    |>.defaulted "log_format" c.text logFormat d.logFormat)

/-- The settings of the storage section. -/
def StorageSettings.fields (c : SettingCodecs C) : Fields C StorageSettings StorageSettings :=
  let d : StorageSettings := {}
  ((((((Fields.done StorageSettings.mk
    |>.defaulted "trace_capacity" c.size traceCapacity d.traceCapacity)
    |>.defaulted "log_capacity" c.size logCapacity d.logCapacity)
    |>.defaulted "metric_capacity" c.size metricCapacity d.metricCapacity)
    |>.defaulted "subscriber_buffer" c.size mailboxSize d.mailboxSize)
    |>.defaulted "default_query_limit" c.size defaultLimit d.defaultLimit)
    |>.defaulted "max_query_limit" c.size maxLimit d.maxLimit)

/-- The settings of the stream section. -/
def StreamSettings.fields (c : SettingCodecs C) : Fields C StreamSettings StreamSettings :=
  let d : StreamSettings := {}
  ((((Fields.done StreamSettings.mk
    |>.defaulted "trace_backfill" c.size traceBackfill d.traceBackfill)
    |>.defaulted "log_backfill" c.size logBackfill d.logBackfill)
    |>.defaulted "metric_backfill" c.size metricBackfill d.metricBackfill)
    |>.defaulted "keepalive_seconds" c.seconds keepaliveSeconds d.keepaliveSeconds)

/-- The settings of the metrics section. -/
def MetricsSettings.fields (c : SettingCodecs C) : Fields C MetricsSettings MetricsSettings :=
  let d : MetricsSettings := {}
  ((Fields.done MetricsSettings.mk
    |>.defaulted "enabled" c.bool enabled d.enabled)
    |>.defaulted "endpoint" c.text endpoint d.endpoint)

/-- The sections, each read by the codec that `nest` makes of its fields. -/
def Settings.fields (c : SettingCodecs C) (nest : {σ : Type} → String → Fields C σ σ → C σ) :
    Fields C Settings Settings :=
  ((((Fields.done Settings.mk
    |>.defaulted "server" (nest "struct ServerConfig" (ServerSettings.fields c)) server {})
    |>.defaulted "storage" (nest "struct StorageConfig" (StorageSettings.fields c)) storage {})
    |>.defaulted "stream" (nest "struct StreamConfig" (StreamSettings.fields c)) stream {})
    |>.defaulted "metrics" (nest "struct MetricsConfig" (MetricsSettings.fields c)) metrics {})

end SignalHub
