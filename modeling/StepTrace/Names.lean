/-!
Names with a fixed meaning in programs, events and stores.
-/
namespace StepTrace

/-- The name that stands for all arguments of a call. -/
def argumentsName : String := "arguments"

/-- The function that a program with probes calls at each of them. -/
def recordName : String := "__stepwiseRecord"

/-- The suite of steps outside every declared suite. -/
def noSuite : String := "no suite"

/-- The test of steps recorded while no case is active. -/
def unknownTest : String := "unknown test"

/-- The file of steps that do not say theirs. -/
def unknownFile : String := "unknown"

/-- What stands between the names of nested suites. -/
def suiteSeparator : String := " > "

/-- The stream of events that do not name one. -/
def defaultStream : String := ""

/-- The member that tells a marker from other objects. -/
def markerKey : String := "$stepwise"

/-- The environment variable that names the file of events. -/
def eventsVariable : String := "STEPWISE_EVENTS"

end StepTrace
