/-
# Settings

What a receiver is told about itself before it starts: its ports, its PIN,
its folder and certificate, its name, and how long a body may be. Whatever is
not set has a default.

Key definitions: `Settings`, `Settings.schema`, `Settings.interval`.
-/
import FileReceiver.Json.Record
import FileReceiver.Path

namespace FileReceiver

structure Settings where
  port : UInt16 := 56789
  broadcastPort : UInt16 := 56789
  /-- The seconds between two announcements. -/
  broadcastInterval : UInt64 := 3
  pin : String := "123456"
  outputFolder : Path := ⟨"received_files"⟩
  certificate : Path := ⟨"cert.pem"⟩
  key : Path := ⟨"key.pem"⟩
  nickname : String := "LanSend Rust Receiver"
  deviceKind : String := "desktop"
  deviceModel : String := "SimulatedPC/Rust"
  maxBody : UInt64 := 33554432
deriving DecidableEq, Repr

namespace Settings

open Json

/-- A path is written as the text that it was given as. -/
def pathForm : Form Path where
  structured := false
  decode v := ((Form.textNamed "path string").decode v).map Path.mk
  encode p := .string p.text

/-- The written form of settings. -/
def schema : Schema Settings where
  title := "AppConfig"
  default := {}
  fields := [
    Form.uint16.field "port" Settings.port fun v s => { s with port := v },
    Form.uint16.field "broadcast_port" broadcastPort fun v s => { s with broadcastPort := v },
    Form.uint64.field "broadcast_interval_secs" broadcastInterval fun v s =>
      { s with broadcastInterval := v },
    Form.text.field "pin" Settings.pin fun v s => { s with pin := v },
    pathForm.field "output_dir" outputFolder fun v s => { s with outputFolder := v },
    pathForm.field "cert_path" certificate fun v s => { s with certificate := v },
    pathForm.field "key_path" key fun v s => { s with key := v },
    Form.text.field "alias" Settings.nickname fun v s => { s with nickname := v },
    Form.text.field "device_type" deviceKind fun v s => { s with deviceKind := v },
    Form.text.field "device_model" deviceModel fun v s => { s with deviceModel := v },
    Form.byteCount.field "max_body_bytes" maxBody fun v s => { s with maxBody := v }]

/-- The seconds between two announcements as they are used, at least one. -/
def interval (s : Settings) : UInt64 :=
  max s.broadcastInterval 1

end Settings

end FileReceiver
