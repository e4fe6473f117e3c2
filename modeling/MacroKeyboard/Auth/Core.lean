import MacroKeyboard.Settings.DeviceSettings

namespace MacroKeyboard.Auth

open Settings

def sessionTokenBytes : Nat := 32
def tokenHexBytes : Nat := 65
def sessionTableMax : Nat := 8
def rateLimitSourceMax : Nat := 8
def rateLimitFailureMax : Nat := 5
def sessionIdleUs : Nat := 86400 * 1000000
def sessionAbsoluteUs : Nat := 604800 * 1000000
def failureWindowUs : Nat := 60 * 1000000
def lockoutUs : Nat := 300 * 1000000
def tokenGenerationAttempts : Nat := 4
def pbkdf2Iterations : UInt32 := 5500
def passwordMinBytes : Nat := 12
def passwordMaxBytes : Nat := 128
def uint64Max : Nat := 2 ^ 64 - 1

structure AuthPasswordRecord where
  iterations : UInt32
  salt : Buffer passwordSaltBytes
  hash : Buffer passwordVerifierBytes
deriving DecidableEq, Repr

/-- A session of the table. The `generation` is that of the password record that
was verified for it, and nothing reads it. -/
structure AuthSessionEntry where
  active : Bool
  sessionToken : List UInt8
  expiresAtUs : Nat
  absoluteExpiresAtUs : Nat
  lastUsedUs : Nat
  generation : Nat
deriving DecidableEq, Repr

structure AuthRateLimitEntry where
  active : Bool
  sourceIpv4 : UInt32
  failuresUs : List Nat
  lockoutUntilUs : Nat
  lastUsedUs : Nat
deriving DecidableEq, Repr

def AuthSessionEntry.cleared : AuthSessionEntry := ⟨false, [], 0, 0, 0, 0⟩
def AuthRateLimitEntry.cleared : AuthRateLimitEntry := ⟨false, 0, [], 0, 0⟩

structure AuthCore where
  sessions : List AuthSessionEntry
  rateLimits : List AuthRateLimitEntry
  lastNowUs : Nat
  clockInitialized : Bool
deriving DecidableEq, Repr

/-- What the operations below one call of the component report: its mutex, the
clock, and the random bytes of each attempt. -/
structure AuthCalls where
  lock : Bool
  unlock : Bool
  nowUs : UInt64
  randomFill : Nat → Option (List UInt8)

def AuthCore.init : AuthCore where
  sessions := List.replicate sessionTableMax .cleared
  rateLimits := List.replicate rateLimitSourceMax .cleared
  lastNowUs := 0
  clockInitialized := false

def AuthCore.readNow (calls : AuthCalls) (core : AuthCore) : Option (Nat × AuthCore) :=
  if core.clockInitialized ∧ calls.nowUs.toNat < core.lastNowUs then none
  else some (calls.nowUs.toNat, { core with lastNowUs := calls.nowUs.toNat, clockInitialized := true })

theorem AuthCore.readNow_sessions {calls : AuthCalls} {core ticked : AuthCore} {now : Nat}
    (h : core.readNow calls = some (now, ticked)) : ticked.sessions = core.sessions := by
  unfold AuthCore.readNow at h
  split at h
  · cases h
  · cases h
    rfl

def hexDigit (nibble : UInt8) : UInt8 := if nibble < 10 then 0x30 + nibble else 0x57 + nibble

/-- `random_hex`. -/
def hexOf (randomBytes : List UInt8) : List UInt8 :=
  randomBytes.flatMap (fun (byte : UInt8) => [hexDigit (byte >>> 4), hexDigit (byte &&& 0x0f)])

def validHexToken (token : List UInt8) : Bool :=
  token.length == tokenHexBytes - 1 &&
    token.all (fun character => (0x30 ≤ character && character ≤ 0x39) || (0x61 ≤ character && character ≤ 0x66))

def tokenExists (sessions : List AuthSessionEntry) (token : List UInt8) : Bool :=
  sessions.any (fun entry => entry.active && entry.sessionToken == token)

/-- `auth_core_generate_session_tokens` from the given attempt on. -/
def generateSessionTokens (calls : AuthCalls) (sessions : List AuthSessionEntry) : Nat → Nat → Option (List UInt8)
  | 0, _ => none
  | attempts + 1, attempt =>
    match calls.randomFill attempt with
    | none => none
    | some randomBytes =>
      if tokenExists sessions (hexOf randomBytes) then generateSessionTokens calls sessions attempts (attempt + 1)
      else some (hexOf randomBytes)

/-- `mbedtls_pkcs5_pbkdf2_hmac_ext`, which derives 32 bytes from a password, a
salt and a number of iterations. -/
abbrev Derivation : Type := List UInt8 → Buffer passwordSaltBytes → UInt32 → Buffer passwordVerifierBytes

def passwordArgumentsValid (password : List UInt8) : Bool :=
  passwordMinBytes ≤ password.length && password.length ≤ passwordMaxBytes && !password.contains 0

/-- `auth_core_password_create`, with a salt if random bytes can be had, where
the derivation may fail. -/
def passwordCreate (derive : Derivation) (salt : Option (Buffer passwordSaltBytes)) (derives : Bool)
    (password : List UInt8) : Except AppError AuthPasswordRecord :=
  if ¬ passwordArgumentsValid password then .error .invalidArgument
  else
    match salt with
    | none => .error .internal
    | some salt =>
      if ¬ derives then .error .internal
      else .ok ⟨pbkdf2Iterations, salt, derive password salt pbkdf2Iterations⟩

def passwordVerify (derive : Derivation) (derives : Bool) (password : List UInt8) (record : AuthPasswordRecord) :
    Except AppError Bool :=
  if ¬ passwordArgumentsValid password ∨ record.iterations < pbkdf2Iterations then .error .invalidArgument
  else if ¬ derives then .error .internal
  else .ok (derive password record.salt record.iterations = record.hash)

end MacroKeyboard.Auth
