import Sosedi.System

/-!
# Scripted runs

A script says which call starts and which client moves next; a move that cannot fire, or
that the run does not admit, is skipped, so every script can be played.  Playing is
computable, and what it reaches is a run of the system (`Runs.play`).

`Scenario` is the store in which the examples start: a lender with an approved item, two
borrowers and a moderator.
-/

namespace Sosedi

open Transactions

/-- One line of a script: a call arrives, or a client does up to `nodes` nodes. -/
inductive Line where
  | call (c : Call)
  | run (client nodes : Nat)

def Line.moves (sha256 : Bytes → String) : Line → List (Move Sys)
  | call c => [.start (c.prog sha256)]
  | run client nodes => List.replicate nodes (.run client)

section Play

variable (ok : Event → Store → Prop) [∀ ev σ, Decidable (ok ev σ)]

def play (sha256 : Bytes → String) (s : State Sys) (script : List Line) : State Sys :=
  attemptAll ok s (script.flatMap (Line.moves sha256))

/-- The events of a script. -/
def observe (sha256 : Bytes → String) (s : State Sys) (script : List Line) : List Event :=
  observedAll ok s (script.flatMap (Line.moves sha256))

end Play

variable {ok : Event → Store → Prop} [∀ ev σ, Decidable (ok ev σ)] {sha256 : Bytes → String}
  {s₀ s : State Sys}

theorem calls_of_mem_moves {line : Line} {p : Prog Sys Unit}
    (h : Move.start p ∈ line.moves sha256) : Calls sha256 p := by
  cases line with
  | call c =>
    simp only [Line.moves, List.mem_singleton, Move.start.injEq] at h
    exact ⟨c, h⟩
  | run i n => simp [Line.moves, List.mem_replicate] at h

/-- **Every script is a run.** -/
theorem Runs.play (h : Runs sha256 ok s₀ s) (script : List Line) :
    Runs sha256 ok s₀ (play ok sha256 s script) := by
  refine ⟨h.threads, h.initial, ?_⟩
  refine reaches_attemptAll h.reaches fun p hp => ?_
  obtain ⟨line, -, hline⟩ := List.mem_flatMap.mp hp
  exact calls_of_mem_moves hline

theorem traces_observe (script : List Line) :
    Traces (Calls sha256) ok s (observe ok sha256 s script) (play ok sha256 s script) := by
  refine traces_observedAll fun p hp => ?_
  obtain ⟨line, -, hline⟩ := List.mem_flatMap.mp hp
  exact calls_of_mem_moves hline

theorem reaches_play (s : State Sys) (script : List Line) :
    Reaches (Calls sha256) ok s (play ok sha256 s script) := (traces_observe script).reaches

/-- A call that arrives is the last client. -/
theorem thread_play_call (s : State Sys) (script : List Line) (c : Call) :
    (play ok sha256 s (script ++ [.call c])).thread (play ok sha256 s script).threads.length =
      ⟨c.prog sha256, [], []⟩ := by
  simp [play, attemptAll, Line.moves, attempt, State.fire, State.thread]

/-- Any event may happen. -/
def anyEvent : Event → Store → Prop := fun _ _ => True

instance (ev : Event) (σ : Store) : Decidable (anyEvent ev σ) := .isTrue trivial

/-! ## The store of the examples -/

namespace Scenario

/-- A hash that tells apart what the examples store. -/
def hash (bytes : Bytes) : String := String.ofList (bytes.map fun b => Char.ofNat b.toNat)

def env : Env where
  policy := .fakeSafeDeal ⟨5000000, "deposit-1", 86400, by decide, by decide⟩
  offerVersion := some "offer-1"
  cancellationPolicyVersion := some "cancellation-1"
  sharp := fun _ bytes => some bytes
  publicUrl := fun key => key

def user (phone : String) : User where
  phone
  name := some "Name"
  city := none
  avatarUrl := none
  role := .user
  adminCapabilities := []
  isBlocked := false
  sessionVersion := 0
  deletedAt := none
  anonymizedAt := none

/-- Rent is 100 rubles a day, the deposit 50 rubles. -/
def drill : Item where
  categoryId := 1
  title := "Drill"
  description := "A drill"
  condition := .good
  completeness := "Full"
  handoverTerms := "By the door"
  pricePerDay := ⟨10000⟩
  depositAmount := some ⟨5000⟩
  publicArea := "North"
  address := "Street 1"
  latitude := 55
  longitude := 37
  ownerId := 2
  status := .approved
  rejectReason := none
  listingRulesVersion := some "rules-1"
  updatedAt := 0
  changes := []

def noUploads : UploadTables :=
  ⟨.empty, .empty, .empty, .empty, .empty, .empty, .empty, .empty⟩

/-- The lender is 2, the borrowers are 1 and 4, the moderator is 3. -/
def database : Database where
  users := (((Table.empty.insert 1 (user "+71")).insert 2 (user "+72")).insert 3
    { user "+73" with role := .admin, adminCapabilities := [.moderation, .finance] }).insert 4
      (user "+74")
  kycDocuments := []
  categories := Table.empty.insert 1 ⟨true, true, true⟩
  items := Table.empty.insert 1 drill
  userBlocks := []
  periods := .empty
  deals := .empty
  uploads := noUploads
  reports := .empty
  reviews := .empty
  messageAuthors := .empty
  adminAuditLog := []
  notifications := []

/-- Midnight of 1 August 2026. -/
def start : Time := 1785542400000

def world : World := ⟨.empty, ⟨.empty, [], []⟩, [], start⟩

def state : State Sys := ⟨database, world, []⟩

theorem initial : Initial state.store := by
  constructor <;> try rfl
  intro i item h
  obtain ⟨-, rfl⟩ | h := Table.of_get_insert h
  · rfl
  · cases h

/-- The runs that start in the scenario. -/
theorem runs (ok : Event → Store → Prop) : Runs hash ok state state := .refl rfl initial

/-- A borrower asks for the drill from 3 to 5 August. -/
def create (borrowerId newId : Id) (requestId : String) : Call :=
  .createBooking env borrowerId ⟨1, "2026-08-03", "2026-08-05", some "offer-1",
    some "cancellation-1", some true, some true⟩ requestId "payload" start start start newId

def photo : Bytes := [0xff, 0xd8, 0xff]

/-- The author uploads a photo and makes the act, the other party confirms it. -/
def exchange (client : Nat) (author confirmer : Id) (stage : BookingActStage)
    (readiness : Option Readiness) (intentId : Id) (confirmedAt : Time) : List Line :=
  [.call (.requestUploadUrl author ⟨.bookingEvidence, "image/jpeg", 3, none, some 10, none, none⟩
      "photo" intentId), .run client 6,
    .call (.clientUpload (UploadService.getBookingEvidenceQuarantinePrefix 10 author ++ "photo.jpg")
      photo "image/jpeg"), .run (client + 1) 1,
    .call (.createAct env author 10 ⟨stage, intentId, readiness⟩ intentId), .run (client + 2) 17,
    .call (.confirmAct confirmer 10 stage confirmedAt), .run (client + 3) 12]

/-- A deal up to the handover. -/
def handedOver : List Line :=
  [.call (create 1 10 "r1"), .run 0 15, .call (.confirmBooking 2 10 start), .run 1 12,
    .call (.checkout env 1 10 .success "pay-1" 20 start start), .run 2 10] ++
  exchange 3 2 1 .handover (some ⟨true, true, ""⟩) 30 start

/-- A deal up to the return; the dispute window is open for a day. -/
def returned : List Line := handedOver ++ exchange 7 1 2 .return none 31 start

end Scenario

end Sosedi
