import SignalHub.Record.Attributes
/-!
# Metric points

A metric point is one measured value of an instrument.

Results:
* `MetricPoint.codec`: the exchange format.
-/
namespace SignalHub

/-- A kind of instrument. -/
inductive Instrument where
  | gauge
  | sum
  | histogram
  deriving DecidableEq, Repr

/-- The name of an instrument. -/
def Instrument.label : Instrument → String
  | .gauge => "GAUGE"
  | .sum => "SUM"
  | .histogram => "HISTOGRAM"

/-- All instruments under their names. -/
def Instrument.all : List (String × Instrument) :=
  [("GAUGE", .gauge), ("SUM", .sum), ("HISTOGRAM", .histogram)]

/-- An instrument by its name. -/
def Instrument.codec : Json.Codec Instrument := .choice Instrument.all Instrument.label

/-- One measured value. A timestamp of zero means that the producer gave none. -/
structure MetricPoint where
  timestamp : UInt64
  service : String
  name : String
  instrument : Instrument
  value : Float
  attributes : Attributes

namespace MetricPoint

open Json Json.Codec

/-- The fields in the order of the exchange format. -/
def fields : Fields Codec MetricPoint MetricPoint :=
  ((((((Fields.done MetricPoint.mk
    |>.defaulted "timestamp_unix_nano" (word "u64") timestamp 0)
    |>.required "service_name" text service)
    |>.required "name" text name)
    |>.required "metric_type" Instrument.codec instrument)
    |>.required "value" double value)
    |>.defaulted "attributes" Attributes.codec attributes .empty)

theorem rebuild_fields (p : MetricPoint) : fields.rebuild p = p := rfl

/-- The exchange format of metric points. -/
def codec : Codec MetricPoint := struct "struct MetricPoint" fields

/-- Stamps a point that came without a timestamp. -/
def stamp (now : UInt64) (p : MetricPoint) : MetricPoint :=
  if p.timestamp = 0 then { p with timestamp := now } else p

end MetricPoint

end SignalHub
