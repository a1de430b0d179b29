/-!
# The version of the hub
-/
namespace SignalHub

/-- The version that the hub reports. -/
def version : String := "0.1.0"

end SignalHub
