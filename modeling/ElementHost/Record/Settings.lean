import ElementHost.Link.Config
import ElementHost.Pins.Lines
import ElementHost.Record.Datum

/-!
# Recorded settings

How the settings of a host are exchanged as data, and that each of them is read back as it was
written: `Recorded` for `Level`, `Drive`, `PinSetup`, `Line.Binding`, `ResetTiming`, `Bus.Speed` and
`Link.Config`.
-/

namespace ElementHost

instance : Recorded Level where
  read? datum :=
    match datum.choice? with
    | some "Low" => some .low
    | some "High" => some .high
    | _ => none
  write
    | .low => .text "Low"
    | .high => .text "High"
  read?_write level := by cases level <;> rfl

instance : Recorded Drive where
  read? datum :=
    match datum.choice? with
    | some "PushPull" => some .pushPull
    | some "OpenDrain" => some .openDrain
    | _ => none
  write
    | .pushPull => .text "PushPull"
    | .openDrain => .text "OpenDrain"
  read?_write drive := by cases drive <;> rfl

instance : Recorded PinSetup where
  read? datum := return {
    drive := ← datum.get? "drive_mode"
    initial := ← datum.get? "initial_level" }
  write setup := .record [
    ("drive_mode", Recorded.write setup.drive),
    ("initial_level", Recorded.write setup.initial)]
  read?_write _ := by simp

instance : Recorded Line.Binding where
  read? datum := return {
    port := ← datum.get? "port"
    pin := ← datum.get? "pin"
    setup := ← datum.get? "config" }
  write binding := .record [
    ("port", Recorded.write binding.port),
    ("pin", Recorded.write binding.pin),
    ("config", Recorded.write binding.setup)]
  read?_write _ := by simp

instance : Recorded ResetTiming where
  read? datum := return {
    lowMicros := ← datum.get? "reset_low_us"
    settleMillis := ← datum.get? "power_settle_ms"
    startupMillis := ← datum.get? "startup_ms" }
  write timing := .record [
    ("reset_low_us", Recorded.write timing.lowMicros),
    ("power_settle_ms", Recorded.write timing.settleMillis),
    ("startup_ms", Recorded.write timing.startupMillis)]
  read?_write _ := by simp

instance : Recorded Bus.Speed where
  read? datum := return { hertz := ← datum.get? "frequency" }
  write speed := .record [("frequency", Recorded.write speed.hertz)]
  read?_write _ := by simp

instance : Recorded Link.Config where
  read? datum := return {
    address := ← datum.get? "peer_address"
    maxAttempts := ← datum.get? "max_write_attempts"
    retryMicros := ← datum.get? "retry_delay_us"
    stop := ← datum.get? "send_stop"
    bitrate := ← datum.get? "bitrate_khz" }
  write config := .record [
    ("peer_address", Recorded.write config.address),
    ("max_write_attempts", Recorded.write config.maxAttempts),
    ("retry_delay_us", Recorded.write config.retryMicros),
    ("send_stop", Recorded.write config.stop),
    ("bitrate_khz", Recorded.write config.bitrate)]
  read?_write _ := by simp

end ElementHost
