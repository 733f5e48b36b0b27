/-
# Devices

What a device says about itself when it announces itself and when it pairs.
Everything may be missing; a device that asks to pair has to name its id and
its alias.

Key definitions: `Device`, `Device.schema`, `Device.missing?`.
-/
import FileReceiver.Json.Record

namespace FileReceiver

/-- The identity of a device. -/
structure Device where
  id : String := ""
  nickname : String := ""
  hostname : String := ""
  operatingSystem : String := ""
  address : String := ""
  port : UInt16 := 0
  kind : String := ""
  model : String := ""
deriving DecidableEq, Repr

/-- What an identity has to name. -/
inductive DeviceNeed where
  | id
  | nickname
deriving DecidableEq, Repr

namespace Device

open Json

/-- The written form of a device. -/
def schema : Schema Device where
  title := "DeviceInfo"
  default := {}
  fields := [
    Form.text.field "device_id" Device.id fun v d => { d with id := v },
    Form.text.field "alias" Device.nickname fun v d => { d with nickname := v },
    Form.text.field "hostname" Device.hostname fun v d => { d with hostname := v },
    Form.text.field "operating_system" operatingSystem fun v d => { d with operatingSystem := v },
    Form.text.field "ip_address" address fun v d => { d with address := v },
    Form.uint16.field "port" port fun v d => { d with port := v },
    Form.text.field "device_type" kind fun v d => { d with kind := v },
    Form.text.field "device_model" model fun v d => { d with model := v }]

/-- What a device that asks to pair fails to name. -/
def missing? (d : Device) : Option DeviceNeed :=
  if Text.isBlankText d.id then some .id
  else if Text.isBlankText d.nickname then some .nickname
  else none

end Device

end FileReceiver
