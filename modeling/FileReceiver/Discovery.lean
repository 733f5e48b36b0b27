/-
# Announcements

A running receiver sends its identity to all devices of its network, at once
and then after every interval. An announcement is one datagram that holds the
identity as compact JSON. To stop, the receiver waits for the sender of the
announcements no longer than an interval and a second; the sum has to fit 64
bits.

Key definitions: `Discovery.target`, `Discovery.datagram?`,
`Discovery.waitingBound?`.
-/
import FileReceiver.Device
import FileReceiver.Json.Printer

namespace FileReceiver.Discovery

/-- The most bytes that one datagram carries. -/
def datagramLimit : Nat := 65507

/-- Where announcements go: to every device, at the given port. -/
def target (port : UInt16) : String :=
  "255.255.255.255:" ++ toString port.toNat

/-- The text that announces a device. -/
def announcement (d : Device) : String :=
  (Device.schema.toValue d).compact

/-- The datagram that announces a device, unless it is too large for one. -/
def datagram? (d : Device) : Option String :=
  let text := announcement d
  if text.utf8ByteSize ≤ datagramLimit then some text else none

/-- The seconds that stopping waits for the announcements to end, if 64 bits hold them. -/
def waitingBound? (interval : UInt64) : Option UInt64 :=
  if interval.toNat + 1 < UInt64.size then some (interval + 1) else none

end FileReceiver.Discovery
