import Sosedi.Notifications.NotifyRuns

/-!
# Scripted runs of notifications

As `Scripts`, for the calls of notifications.  `NotifyScenario` is the store in which the
examples start: a booking of the users 2 and 3, and a ticket of user 4.
-/

namespace Sosedi

open Transactions

/-- One line of a script: a call arrives, a client does up to `nodes` nodes, or dies. -/
inductive NotifyLine where
  | call (c : NotifyCall)
  | run (client nodes : Nat)
  | crash (client : Nat)

def NotifyLine.moves : NotifyLine → List (Move NotifySys)
  | call c => [.start c.prog]
  | run client nodes => List.replicate nodes (.run client)
  | crash client => [.crash client]

/-- Any event may happen. -/
def anyNotifyEvent : NotifyEvent → NotifyStore → Prop := fun _ _ => True

instance (ev : NotifyEvent) (σ : NotifyStore) : Decidable (anyNotifyEvent ev σ) := .isTrue trivial

def playNotify (s : State NotifySys) (script : List NotifyLine) : State NotifySys :=
  attemptAll anyNotifyEvent s (script.flatMap NotifyLine.moves)

theorem notifyCalls_of_mem_moves {line : NotifyLine} {p : Prog NotifySys Unit}
    (h : Move.start p ∈ line.moves) : NotifyCalls p := by
  cases line with
  | call c =>
    simp only [NotifyLine.moves, List.mem_singleton, Move.start.injEq] at h
    exact ⟨c, h⟩
  | run i n => simp [NotifyLine.moves, List.mem_replicate] at h
  | crash i => simp [NotifyLine.moves] at h

/-- **Every script is a run.** -/
theorem NotifyRuns.play {s₀ s : State NotifySys} (h : NotifyRuns s₀ s)
    (script : List NotifyLine) : NotifyRuns s₀ (playNotify s script) := by
  refine h.trans (reaches_attemptAll .refl fun p hp => ?_)
  obtain ⟨line, -, hline⟩ := List.mem_flatMap.mp hp
  exact notifyCalls_of_mem_moves hline

namespace NotifyScenario

def database : NotifyDatabase where
  bookings := Table.empty.insert 1 ⟨2, 3⟩
  tickets := Table.empty.insert 1 4
  outbox := .empty
  inbox := .empty
  inboxInserts := []
  tokens := .empty
  issuedTokenIds := []
  deliveries := .empty
  deliveryInserts := []

def state : State NotifySys := ⟨database, ⟨0⟩, []⟩

/-- The runs that start in the scenario. -/
theorem runs : NotifyRuns state state := .refl rfl ⟨rfl, rfl, rfl, rfl, rfl, rfl, rfl⟩

def phone (token : String) : DeviceTokensService.RegisterDeviceTokenDto := ⟨.fcm, .android, token⟩

/-- User 2 registers a phone, the booking is confirmed, and the outbox is processed. -/
def delivered : List NotifyLine :=
  [.call (.register (fun _ => true) 2 "phone-1" (phone "token-1") 7), .run 0 40,
    .call (.enqueue (.booking 1 .confirmed) 0 1), .run 1 40,
    .call (.processOutbox 0), .run 2 40]

end NotifyScenario

end Sosedi
