import Sosedi.Auth.Sessions

/-!
# One-time codes in Redis

The codes sent by SMS, their failure counters and blocks, and the Redis commands on them.

The ghost fields keep the codes in the order in which they were issued, and the lives of the
failure counters: a life begins when a counter is created and ends with the reset of the
counter or with the block that replaces it.
-/

namespace Sosedi

/-- A bcrypt hash, which contains its salt. -/
structure OtpHash where
  salt : Id
  digest : String
  deriving DecidableEq

def otpTtlSeconds : Nat := 5 * 60

def otpRateLimit : Nat := 3

def otpRateWindowSeconds : Nat := 10 * 60

def otpGlobalRateWindowSeconds : Nat := 24 * 60 * 60

def otpFailLimit : Nat := 5

def otpBlockSeconds : Nat := 30 * 60

/-- Ghost: the life of a failure counter, with the wrong codes compared in it; `endsAt` is the
end of the block that ends it. -/
structure OtpLife where
  phone : String
  compared : Nat
  endsAt : Option Time
  deriving DecidableEq

/-- Ghost: a successful verification of the code with this salt. -/
structure OtpUse where
  phone : String
  salt : Id
  ticket : Id
  deriving DecidableEq

structure OtpStore where
  /-- `auth:otp:code:<phone>`. -/
  code : Table String (Entry OtpHash)
  /-- `auth:otp:fail:<phone>`. -/
  fail : Table String (Entry Nat)
  /-- `auth:otp:block:<phone>`. -/
  block : Table String (Entry Unit)
  /-- `auth:otp:send:..`. -/
  send : Table String (Entry Nat)
  /-- Ghost: the codes issued, newest first. -/
  issued : List (String × Id)
  verified : List OtpUse
  /-- Ghost: the calls that compared a wrong code and are not counted yet. -/
  uncounted : List (String × Id)
  lives : Table Nat OtpLife
  nextLife : Nat
  /-- Ghost: the life of the counter of a phone. -/
  current : Table String Nat

def OtpStore.initial : OtpStore := ⟨.empty, .empty, .empty, .empty, [], [], [], .empty, 0, .empty⟩

inductive OtpEvent where
  | read
  /-- `incrWithExpire` of a rate limit. -/
  | countSend (key : String) (ttl : Nat)
  | setCode (phone : String) (hash : OtpHash)
  /-- `consumeOtpCode` after a failed SMS. -/
  | withdraw (phone : String) (hash : OtpHash)
  /-- `bcrypt.compare` with the stored hash. -/
  | compare (phone : String) (ticket : Id) (matched : Bool)
  | countFailure (phone : String) (ticket : Id)
  | setBlock (phone : String)
  /-- DEL of the code and of the counter. -/
  | dropCode (phone : String)
  /-- `consumeOtpCode` of a verification. -/
  | consume (phone : String) (hash : OtpHash) (ticket : Id)
  | resetFailures (phone : String)

namespace OtpStore

variable (s : OtpStore)

/-- The life goes on: its counter counts, or its block is in force. -/
def alive (now : Time) (id : Nat) (life : OtpLife) : Bool :=
  match life.endsAt with
  | some t => now < t
  | none => (s.fail.read now life.phone).isSome && s.current.get life.phone == some id

/-- Rewrite the lives of the phone that go on. -/
def mapLives (now : Time) (phone : String) (f : OtpLife → OtpLife) : Table Nat OtpLife :=
  s.lives.mapRows fun id life => if life.phone = phone ∧ s.alive now id life then f life else life

/-- The code that was issued last for the phone. -/
def newest (phone : String) : Option Id := (s.issued.find? (·.1 == phone)).map (·.2)

end OtpStore

def OtpEvent.apply (now : Time) : OtpEvent → OtpStore → OtpStore
  | read, s => s
  | countSend key ttl, s => { s with send := s.send.incr now key (expiry now ttl) }
  | setCode phone hash, s =>
    { s with
      code := s.code.set phone hash (expiry now otpTtlSeconds)
      issued := (phone, hash.salt) :: s.issued }
  | withdraw phone hash, s =>
    if s.code.read now phone = some hash then { s with code := s.code.erase phone } else s
  | compare phone ticket matched, s =>
    if matched then s
    else { s with
      uncounted := (phone, ticket) :: s.uncounted
      lives := s.mapLives now phone fun life => { life with compared := life.compared + 1 } }
  | countFailure phone ticket, s =>
    let counted := { s with
      fail := s.fail.incr now phone (expiry now otpBlockSeconds)
      uncounted := s.uncounted.erase (phone, ticket) }
    if (s.fail.read now phone).isSome then counted
    else { counted with
      lives := s.lives.put s.nextLife ⟨phone, 0, none⟩
      current := s.current.put phone s.nextLife
      nextLife := s.nextLife + 1 }
  | setBlock phone, s =>
    { s with
      block := s.block.set phone () (expiry now otpBlockSeconds)
      lives := s.mapLives now phone ({ · with endsAt := some (expiry now otpBlockSeconds) }) }
  | dropCode phone, s =>
    let blockedUntil := if (s.block.read now phone).isSome then
      ((s.block.get phone).bind (·.expiresAt)).getD now else now
    { s with
      code := s.code.erase phone
      fail := s.fail.erase phone
      lives := s.mapLives now phone fun life =>
        { life with endsAt := some (life.endsAt.getD blockedUntil) } }
  | consume phone hash ticket, s =>
    if s.code.read now phone = some hash then
      { s with
        code := s.code.erase phone
        verified := ⟨phone, hash.salt, ticket⟩ :: s.verified }
    else s
  | resetFailures phone, s => { s with fail := s.fail.erase phone }

end Sosedi
