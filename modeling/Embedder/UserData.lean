import Embedder.Bytes
import Embedder.Error

namespace Embedder

/-!
# User data

What an execution environment carries from call to call: the event handed to the guest, when a
benchmark started, and what the instruction counter was when it passed its threshold.

* `UserData.withEvent`: the data of an event.
* `UserData.recordExceeded`, `UserData.resetInstrumentation`: the counter's record.
-/

/-- The data that an environment lends to its calls. -/
structure UserData where
  startTime : UInt64
  instructionCount : UInt64
  thresholdExceeded : Bool
  eventId : Bytes
  eventPayload : Bytes
  deriving DecidableEq, Repr

namespace UserData

/-- No event and nothing recorded. -/
def empty : UserData :=
  ⟨0, 0, false, [], []⟩

instance : Inhabited UserData :=
  ⟨empty⟩

/-- Event bytes, if a 32-bit guest can address them. -/
def checkLength (what : String) (bytes : Bytes) : Except Error Bytes :=
  if bytes.length < 4294967296 then .ok bytes
  else .error (.allocation bytes.length (.eventBeyondRange what))

/-- The data with another event identifier. -/
def setEventId (u : UserData) (bytes : Bytes) : Except Error UserData := do
  pure { u with eventId := ← checkLength "event id" bytes }

/-- The data with another event payload. -/
def setEventPayload (u : UserData) (bytes : Bytes) : Except Error UserData := do
  pure { u with eventPayload := ← checkLength "event payload" bytes }

/-- The data of an event, with nothing recorded. -/
def withEvent (id payload : Bytes) : Except Error UserData := do
  (← empty.setEventId id).setEventPayload payload

/-- The data with the counter's value when it passed its threshold. -/
def recordExceeded (u : UserData) (count : UInt64) : UserData :=
  { u with instructionCount := count, thresholdExceeded := true }

/-- The data with nothing recorded about the counter. -/
def resetInstrumentation (u : UserData) : UserData :=
  { u with instructionCount := 0, thresholdExceeded := false }

/-- A change to user data that a host can ask for. -/
inductive Edit where
  | withEvent (id payload : Bytes)
  | setEventId (bytes : Bytes)
  | setEventPayload (bytes : Bytes)
  | setStart (time : UInt64)
  | recordExceeded (count : UInt64)
  | resetInstrumentation
  | read
  deriving Repr

/-- The data after a change. -/
def edit (u : UserData) : Edit → Except Error UserData
  | .withEvent id payload => withEvent id payload
  | .setEventId bytes => u.setEventId bytes
  | .setEventPayload bytes => u.setEventPayload bytes
  | .setStart time => .ok { u with startTime := time }
  | .recordExceeded count => .ok (u.recordExceeded count)
  | .resetInstrumentation => .ok u.resetInstrumentation
  | .read => .ok u

end UserData

end Embedder
