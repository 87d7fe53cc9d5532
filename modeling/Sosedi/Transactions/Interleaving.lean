import Sosedi.Transactions.Program

/-!
# Interleaved clients

A state is the committed database, the outside world and the clients in flight, each
with the rest of its program, its uncommitted writes and its locks.  One move starts a
client, lets one client do its next node, or kills one (a crash, a deadlock victim, a
lost connection), which rolls its open transaction back.  A lock or a row that another
client holds blocks the node: it cannot fire until the holder has committed or rolled back.
-/

namespace Transactions

variable {S : Signature}

structure Thread (S : Signature) where
  prog : Prog S Unit
  writes : List (S.DB → S.DB)
  locks : List S.Key

/-- A client with nothing left to do. -/
def Thread.done : Thread S := ⟨.ret (), [], []⟩

structure State (S : Signature) where
  db : S.DB
  world : S.World
  threads : List (Thread S)

namespace State

variable (s : State S)

/-- The part of the state that outlives the clients. -/
def store : S.DB × S.World := (s.db, s.world)

def thread (i : Nat) : Thread S := s.threads.getD i Thread.done

def setThread (i : Nat) (t : Thread S) : State S := { s with threads := s.threads.set i t }

/-- Some other client holds `k`. -/
def othersHold [DecidableEq S.Key] (i : Nat) (k : S.Key) : Bool :=
  (List.range s.threads.length).any fun j => j != i && decide (k ∈ (s.thread j).locks)

end State

inductive Move (S : Signature) where
  | start (p : Prog S Unit)
  | run (i : Nat)
  | crash (i : Nat)

variable [DecidableEq S.Key]

/-- The next node of client `i`; `none` when it has none or is blocked. -/
def State.advance (s : State S) (i : Nat) : Option (State S) :=
  let t := s.thread i
  match t.prog with
  | .ret _ => none
  | .throw _ => some (s.setThread i Thread.done)
  | .lock k next =>
    if s.othersHold i k then none else some (s.setThread i ⟨next, t.writes, k :: t.locks⟩)
  | .query next => some (s.setThread i ⟨next (view t.writes s.db), t.writes, t.locks⟩)
  | .exec rows write next =>
    let v := view t.writes s.db
    if (rows v).any (s.othersHold i) then none
    else some (s.setThread i ⟨next v, t.writes ++ [write v], rows v ++ t.locks⟩)
  | .commit _ next =>
    some ({ s with db := view t.writes s.db }.setThread i ⟨next, [], []⟩)
  | .call _ f next =>
    some ({ s with world := f s.world }.setThread i ⟨next s.world, t.writes, t.locks⟩)

def State.fire (s : State S) : Move S → Option (State S)
  | .start p => some { s with threads := s.threads ++ [⟨p, [], []⟩] }
  | .run i => s.advance i
  | .crash i => some (s.setThread i Thread.done)

/-- The event of the node that client `i` is about to do. -/
def State.event (s : State S) (i : Nat) : Option S.Event :=
  match (s.thread i).prog with
  | .commit ev _ => some ev
  | .call ev _ _ => some ev
  | _ => none

/-- A move that a run may make: clients come from `Ops`, events satisfy `ok`. -/
def State.Admits (Ops : Prog S Unit → Prop) (ok : S.Event → S.DB × S.World → Prop)
    (s : State S) : Move S → Prop
  | .start p => Ops p
  | .run i => ∀ ev, s.event i = some ev → ok ev s.store
  | .crash _ => True

/-- The states of the runs from `s₀`. -/
inductive Reaches (Ops : Prog S Unit → Prop) (ok : S.Event → S.DB × S.World → Prop)
    (s₀ : State S) : State S → Prop where
  | refl : Reaches Ops ok s₀ s₀
  | step {s s'} (m : Move S) (h : Reaches Ops ok s₀ s) (hm : s.Admits Ops ok m)
      (hf : s.fire m = some s') : Reaches Ops ok s₀ s'

/-- A whole schedule; `none` when one of its moves is blocked. -/
def State.schedule (s : State S) : List (Move S) → Option (State S)
  | [] => some s
  | m :: ms => (s.fire m).bind fun s' => s'.schedule ms

/-! ## Threads after a move -/

namespace State

variable {s : State S} {i j : Nat}

omit [DecidableEq S.Key] in
theorem thread_of_length_le (h : s.threads.length ≤ i) : s.thread i = Thread.done := by
  simp [thread, List.getD_eq_getElem?_getD, List.getElem?_eq_none h]

omit [DecidableEq S.Key] in
theorem thread_setThread (s : State S) (i j : Nat) (t : Thread S) :
    (s.setThread i t).thread j = if i = j ∧ i < s.threads.length then t else s.thread j := by
  simp only [thread, setThread, List.getD_eq_getElem?_getD, List.getElem?_set]
  by_cases h : i = j
  · subst h
    by_cases hi : i < s.threads.length
    · simp [hi]
    · simp [hi]
  · simp [h]

omit [DecidableEq S.Key] in
/-- Only a client that exists has a node to do. -/
theorem lt_of_prog_ne (h : ∀ a, (s.thread i).prog ≠ .ret a) : i < s.threads.length := by
  refine Nat.lt_of_not_le fun hle => h () ?_
  rw [thread_of_length_le hle]
  rfl

theorem not_held_of_othersHold {k : S.Key} (h : s.othersHold i k = false) (hne : j ≠ i) :
    k ∉ (s.thread j).locks := by
  intro hk
  by_cases hj : j < s.threads.length
  · have : s.othersHold i k = true := by
      simp only [othersHold, List.any_eq_true, List.mem_range, Bool.and_eq_true, bne_iff_ne,
        decide_eq_true_eq]
      exact ⟨j, hj, hne, hk⟩
    simp [this] at h
  · rw [thread_of_length_le (Nat.le_of_not_lt hj)] at hk
    simp [Thread.done] at hk

/-- A client changes its own thread only. -/
theorem threads_of_advance {s' : State S} (h : s.advance i = some s') :
    ∃ t, s'.threads = s.threads.set i t := by
  simp only [advance] at h
  split at h
  · cases h
  · cases h
    exact ⟨_, rfl⟩
  · split at h
    · cases h
    · cases h
      exact ⟨_, rfl⟩
  · cases h
    exact ⟨_, rfl⟩
  · split at h
    · cases h
    · cases h
      exact ⟨_, rfl⟩
  · cases h
    exact ⟨_, rfl⟩
  · cases h
    exact ⟨_, rfl⟩

theorem length_of_advance {s' : State S} (h : s.advance i = some s') :
    s'.threads.length = s.threads.length := by
  obtain ⟨t, ht⟩ := threads_of_advance h
  rw [ht, List.length_set]

theorem thread_of_advance {s' : State S} (h : s.advance i = some s') (hne : i ≠ j) :
    s'.thread j = s.thread j := by
  obtain ⟨t, ht⟩ := threads_of_advance h
  simp only [thread, ht, List.getD_eq_getElem?_getD, List.getElem?_set, if_neg hne]

/-- A client without uncommitted writes commits nothing. -/
theorem db_of_advance {s' : State S} (h : s.advance i = some s')
    (hw : (s.thread i).writes = []) : s'.db = s.db := by
  simp only [advance] at h
  split at h
  · cases h
  · cases h
    rfl
  · split at h
    · cases h
    · cases h
      rfl
  · cases h
    rfl
  · split at h
    · cases h
    · cases h
      rfl
  · cases h
    rw [hw]
    rfl
  · cases h
    rfl

end State

end Transactions
