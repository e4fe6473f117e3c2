import Mathlib

namespace MacroKeyboard

/-- The error vocabulary shared by every firmware component. -/
inductive AppError
  | none | invalidArgument | notFound | conflict
  | storageUnavailable | storageFull | storageCorrupt
  | macroSyntax | macroLimit | usbNotReady | executorBusy | executionCancelled
  | authRequired | authFailed | rateLimited | timeout | io | internal
  | authStateIncomplete | resetRecoveryRequired | resetSettingsIncomplete | commitUncertain
deriving DecidableEq, Repr, Inhabited

def appErrorCodeString : AppError → String
  | .none => "none"
  | .invalidArgument => "invalid_argument"
  | .notFound => "not_found"
  | .conflict => "conflict"
  | .storageUnavailable => "storage_unavailable"
  | .storageFull => "storage_full"
  | .storageCorrupt => "storage_corrupt"
  | .macroSyntax => "macro_syntax"
  | .macroLimit => "macro_limit"
  | .usbNotReady => "usb_not_ready"
  | .executorBusy => "executor_busy"
  | .executionCancelled => "execution_cancelled"
  | .authRequired => "auth_required"
  | .authFailed => "auth_failed"
  | .authStateIncomplete => "auth_state_incomplete"
  | .resetRecoveryRequired => "reset_recovery_required"
  | .resetSettingsIncomplete => "reset_settings_incomplete"
  | .commitUncertain => "commit_uncertain"
  | .rateLimited => "rate_limited"
  | .timeout => "timeout"
  | .io => "io"
  | .internal => "internal"

namespace Limits

def macroSourceMaxBytes : Nat := 4096
def compiledActionsMax : Nat := 4096
def delayDirectiveMaxMs : UInt32 := 10000
def keyPressMaxMs : UInt32 := 10000
def interKeyMaxMs : UInt32 := 10000
def estimatedDurationMaxMs : UInt32 := 300000
def executorAbsoluteDeadlineMs : UInt32 := 310000
def blobMaxBytes : Nat := 131072
def serialConfirmationTimeoutSeconds : UInt32 := 60
def snapshotRetentionTargetMax : UInt8 := 100

end Limits

def bytes (s : String) : List UInt8 := s.toList.map (fun c => c.toNat.toUInt8)

end MacroKeyboard
