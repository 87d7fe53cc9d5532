import Sosedi.Auth.OneTimeCodes
import Sosedi.Domain.Uploads

/-!
# Second factors of administrators

The rows and Redis keys of `AdminMfaService`, the time-based codes of `admin-totp.ts`, and the
commands on them.

The ghost fields name the call behind each use of a code, and count the checks of codes by the
life of the attempt counter that admitted them.
-/

namespace Sosedi

/-! ## Time-based codes -/

def totpPeriodSeconds : Int := 30

def base32Alphabet : String := "ABCDEFGHIJKLMNOPQRSTUVWXYZ234567"

/-- The loop of `decodeBase32`, with its 32-bit accumulator. -/
def decodeBase32Loop : List Char → Nat → BitVec 32 → Bytes → Option Bytes
  | [], _, _, decoded => some decoded
  | character :: rest, bits, accumulator, decoded =>
    match base32Alphabet.toList.idxOf? character with
    | none => none
    | some index =>
      let accumulator := (accumulator <<< 5) ||| BitVec.ofNat 32 index
      let bits := bits + 5
      if 8 ≤ bits then
        decodeBase32Loop rest (bits - 8) accumulator
          (decoded ++ [UInt8.ofBitVec ((accumulator >>> (bits - 8)).setWidth 8)])
      else decodeBase32Loop rest bits accumulator decoded

def decodeBase32 (toUpperCase : String → String) (value : String) : Option Bytes :=
  let normalized := ((toUpperCase value).toList.reverse.dropWhile (· == '=')).reverse
  decodeBase32Loop normalized 0 0 []

/-- `counter.writeBigUInt64BE(BigInt(timeStep))`. -/
def timeStepBytes (timeStep : Int) : Bytes :=
  (List.range 8).map fun i => UInt8.ofNat (timeStep / 256 ^ (7 - i) % 256).toNat

def byteAt (bytes : Bytes) (i : Nat) : Nat := (bytes.getD i 0).toNat

def padStart (width : Nat) (digits : String) : String :=
  String.ofList (List.replicate (width - digits.length) '0') ++ digits

/-- `generateTotpCode` at the start of a time step. -/
def generateTotpCode (hmacSha1 : Bytes → Bytes → Bytes) (key : Bytes) (timeStep : Int) : String :=
  let digest := hmacSha1 key (timeStepBytes timeStep)
  let offset := byteAt digest (digest.length - 1) % 16
  let value := (byteAt digest offset % 128) * 2 ^ 24 + byteAt digest (offset + 1) * 2 ^ 16 +
    byteAt digest (offset + 2) * 2 ^ 8 + byteAt digest (offset + 3)
  padStart 6 (toString (value % 1000000))

/-- `/^\d{6}$/`. -/
def isSixDigits (token : String) : Bool := token.length == 6 && token.toList.all (·.isDigit)

/-- The time step whose code the token is; `none` is `{ valid: false }`. -/
def verifyTotpCode (hmacSha1 : Bytes → Bytes → Bytes) (key : Bytes) (token : String)
    (afterTimeStep : Option Int) (epochSeconds : Int) : Option Int :=
  if isSixDigits token then
    let currentTimeStep := epochSeconds / totpPeriodSeconds
    [-1, 0, 1].map (currentTimeStep + ·) |>.find? fun timeStep =>
      0 ≤ timeStep && afterTimeStep.all (· < timeStep) &&
        generateTotpCode hmacSha1 key timeStep == token
  else none

/-! ## Rows and keys -/

def mfaSetupTtlSeconds : Nat := 10 * 60

def mfaAttemptTtlSeconds : Nat := 5 * 60

def maxMfaAttempts : Nat := 5

def recoveryCodeCount : Nat := 10

/-- Ghost `uses`: the time steps that were used, oldest first, with the step-ups that used them;
the first one confirmed the setup. -/
structure MfaCredential where
  totpSecretEncrypted : String
  lastTotpStep : Int
  uses : List (Int × Option Id)
  deriving DecidableEq

/-- The rows are kept under their unique `codeHash`.  Ghost `usedBy`: the call that used it. -/
structure RecoveryCode where
  userId : Id
  usedAt : Option Time
  usedBy : Option Id
  deriving DecidableEq

inductive StepUpCode where
  | totp (timeStep : Int)
  | recovery (codeHash : String)
  deriving DecidableEq

/-- Ghost: a successful step-up. -/
structure StepUp where
  userId : Id
  code : StepUpCode
  ticket : Id
  deriving DecidableEq

/-- Ghost: a check of a code, with the life of the counter that admitted it, its number there,
and the life of the counter at the moment of the check. -/
structure MfaCheck where
  userId : Id
  life : Nat
  number : Nat
  during : Option Nat
  ticket : Id
  deriving DecidableEq

structure MfaStore where
  /-- `auth:admin-mfa-setup:<userId>`. -/
  setup : Table Id (Entry String)
  /-- `auth:admin-mfa-attempt:<userId>`. -/
  attempt : Table Id (Entry Nat)
  /-- Ghost: the life of the counter of a user. -/
  current : Table Id Nat
  nextLife : Nat
  /-- Ghost: the life and the number that a call got from the counter. -/
  admitted : List (Nat × Nat × Id)
  checks : List MfaCheck
  stepUps : List StepUp

def MfaStore.initial : MfaStore := ⟨.empty, .empty, .empty, 0, [], [], []⟩

inductive MfaEvent where
  | read
  | setSetup (userId : Id) (secret : String)
  | deleteSetup (userId : Id)
  /-- INCR. -/
  | countAttempt (userId ticket : Id)
  | expireAttempts (userId : Id)
  | check (userId : Id) (life number : Nat) (ticket : Id)
  | clearAttempts (userId : Id)
  | recordStepUp (stepUp : StepUp)

namespace MfaStore

variable (s : MfaStore)

/-- The life of the counter that INCR counts in. -/
def lifeOf (now : Time) (userId : Id) : Nat :=
  if (s.attempt.read now userId).isSome then (s.current.get userId).getD s.nextLife
  else s.nextLife

def during (now : Time) (userId : Id) : Option Nat :=
  if (s.attempt.read now userId).isSome then s.current.get userId else none

end MfaStore

def MfaEvent.apply (now : Time) : MfaEvent → MfaStore → MfaStore
  | read, s => s
  | setSetup userId secret, s =>
    { s with setup := s.setup.set userId secret (expiry now mfaSetupTtlSeconds) }
  | deleteSetup userId, s => { s with setup := s.setup.erase userId }
  | countAttempt userId ticket, s =>
    { s with
      attempt := match s.attempt.read now userId with
        | some n => s.attempt.modify userId ({ · with value := n + 1 })
        | none => s.attempt.put userId ⟨1, none⟩
      current := s.current.put userId (s.lifeOf now userId)
      nextLife := max s.nextLife (s.lifeOf now userId + 1)
      admitted := (s.lifeOf now userId, s.attempt.next now userId, ticket) :: s.admitted }
  | expireAttempts userId, s =>
    { s with
      attempt := match s.attempt.read now userId with
        | some n => s.attempt.set userId n (expiry now mfaAttemptTtlSeconds)
        | none => s.attempt }
  | check userId life number ticket, s =>
    { s with checks := ⟨userId, life, number, s.during now userId, ticket⟩ :: s.checks }
  | clearAttempts userId, s => { s with attempt := s.attempt.erase userId }
  | recordStepUp stepUp, s => { s with stepUps := stepUp :: s.stepUps }

end Sosedi
