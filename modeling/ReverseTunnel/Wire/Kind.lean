/-!
The kinds of control messages and their codes on the wire.

There are eight kinds, numbered from 1; `ofCode?` inverts `code` and knows no
other number.
-/

namespace ReverseTunnel.Wire

/-- What a control message is for. -/
inductive Kind where
  | auth
  | authAck
  | heartbeat
  | heartbeatAck
  | openDataPort
  | openDataPortAck
  | openDataConn
  | openDataConnAck
  deriving DecidableEq, Repr

namespace Kind

/-- The code that stands for the kind in a frame. -/
def code : Kind → Int16
  | auth => 1
  | authAck => 2
  | heartbeat => 3
  | heartbeatAck => 4
  | openDataPort => 5
  | openDataPortAck => 6
  | openDataConn => 7
  | openDataConnAck => 8

/-- The kind that a code stands for. -/
def ofCode? (c : Int16) : Option Kind :=
  if c = 1 then some auth
  else if c = 2 then some authAck
  else if c = 3 then some heartbeat
  else if c = 4 then some heartbeatAck
  else if c = 5 then some openDataPort
  else if c = 6 then some openDataPortAck
  else if c = 7 then some openDataConn
  else if c = 8 then some openDataConnAck
  else none

/-- The name that logs and reports show. -/
def name : Kind → String
  | auth => "AUTH"
  | authAck => "AUTH_ACK"
  | heartbeat => "HEARTBEAT"
  | heartbeatAck => "HEARTBEAT_ACK"
  | openDataPort => "OPEN_DATA_PORT"
  | openDataPortAck => "OPEN_DATA_PORT_ACK"
  | openDataConn => "OPEN_DATA_CONN"
  | openDataConnAck => "OPEN_DATA_CONN_ACK"

@[simp]
theorem ofCode?_code (k : Kind) : ofCode? k.code = some k := by cases k <;> decide

theorem ofCode?_eq_some_iff {c : Int16} {k : Kind} : ofCode? c = some k ↔ c = k.code := by
  constructor
  · intro h
    unfold ofCode? at h
    repeat' split at h
    all_goals first
      | (simp only [Option.some.injEq] at h; subst h; assumption)
      | cases h
  · rintro rfl
    exact ofCode?_code k

end Kind

end ReverseTunnel.Wire
