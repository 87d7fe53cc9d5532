import Sosedi.Transactions.Interleaving

/-!
# Schedules that skip

A list of moves can always be played: a move that cannot fire, or that the run does not admit,
is skipped.  Playing is computable, and what it reaches is a run (`reaches_attemptAll`).
`Traces` are the runs with the events of their commits and calls; `observedAll` computes those
of a schedule (`traces_observedAll`).
-/

namespace Transactions

variable {S : Signature} [DecidableEq S.Key] {Ops : Prog S Unit → Prop} {s₀ s s' : State S}

section Attempt

variable (ok : S.Event → S.DB × S.World → Prop) [∀ ev σ, Decidable (ok ev σ)]

/-- The move if it fires and is admitted, else nothing. -/
def attempt (s : State S) (m : Move S) : State S :=
  match m with
  | .run i =>
    if (s.event i).all fun ev => decide (ok ev s.store) then (s.fire m).getD s else s
  | m => (s.fire m).getD s

def attemptAll (s : State S) (moves : List (Move S)) : State S := moves.foldl (attempt ok) s

/-- The event of the move, if it takes place. -/
def observed (s : State S) : Move S → List S.Event
  | .run i => ((s.event i).filter fun ev => decide (ok ev s.store)).toList
  | _ => []

def observedAll (s : State S) : List (Move S) → List S.Event
  | [] => []
  | m :: ms => observed ok s m ++ observedAll (attempt ok s m) ms

end Attempt

/-- The event of a move. -/
def State.eventsOf (s : State S) : Move S → List S.Event
  | .run i => (s.event i).toList
  | _ => []

/-- The states of the runs from `s₀`, with the events on the way there. -/
inductive Traces (Ops : Prog S Unit → Prop) (ok : S.Event → S.DB × S.World → Prop)
    (s₀ : State S) : List S.Event → State S → Prop where
  | refl : Traces Ops ok s₀ [] s₀
  | step {evs s s'} (m : Move S) (h : Traces Ops ok s₀ evs s) (hm : s.Admits Ops ok m)
      (hf : s.fire m = some s') : Traces Ops ok s₀ (evs ++ s.eventsOf m) s'

variable {ok ok' : S.Event → S.DB × S.World → Prop}

theorem Reaches.trans (h : Reaches Ops ok s₀ s) (h' : Reaches Ops ok s s') :
    Reaches Ops ok s₀ s' := by
  induction h' with
  | refl => exact h
  | step m _ hm hf ih => exact ih.step m hm hf

/-- What did not hold at the start and holds at the end became true in some move. -/
theorem Reaches.became {P : State S → Prop} (h : Reaches Ops ok s₀ s) (h₀ : ¬P s₀) (hP : P s) :
    ∃ a m b, Reaches Ops ok s₀ a ∧ a.Admits Ops ok m ∧ a.fire m = some b ∧
      Reaches Ops ok b s ∧ ¬P a ∧ P b := by
  induction h with
  | refl => exact absurd hP h₀
  | @step a b m hr hm hf ih =>
    by_cases ha : P a
    · obtain ⟨a', m', b', hr', hm', hf', hlater, hno, hyes⟩ := ih ha
      exact ⟨a', m', b', hr', hm', hf', hlater.step m hm hf, hno, hyes⟩
    · exact ⟨a, m, b, hr, hm, hf, .refl, ha, hP⟩

/-- A commit or a call is never blocked. -/
theorem State.fire_of_event {i : Nat} {ev : S.Event} (h : s.event i = some ev) :
    ∃ s', s.fire (.run i) = some s' := by
  unfold State.event at h
  simp only [State.fire, State.advance]
  split at h
  · rename_i hp
    simp [hp]
  · rename_i hp
    simp [hp]
  · cases h

/-- The store changes by commits and calls only. -/
theorem State.store_of_event_none {i : Nat} (h : s.event i = none)
    (hf : s.fire (.run i) = some s') : s'.store = s.store := by
  unfold State.event at h
  simp only [State.fire, State.advance] at hf
  split at hf
  · cases hf
  · cases hf
    rfl
  · split at hf
    · cases hf
    · cases hf
      rfl
  · cases hf
    rfl
  · split at hf
    · cases hf
    · cases hf
      rfl
  · rename_i hp
    simp [hp] at h
  · rename_i hp
    simp [hp] at h

omit [DecidableEq S.Key] in
theorem State.Admits.mono {m : Move S} (hok : ∀ ev σ, ok ev σ → ok' ev σ)
    (h : s.Admits Ops ok m) : s.Admits Ops ok' m := by
  cases m with
  | start p => exact h
  | run i => exact fun ev hev => hok _ _ (h ev hev)
  | crash i => trivial

theorem Reaches.mono (hok : ∀ ev σ, ok ev σ → ok' ev σ) (h : Reaches Ops ok s₀ s) :
    Reaches Ops ok' s₀ s := by
  induction h with
  | refl => exact .refl
  | step m _ hm hf ih => exact ih.step m (hm.mono hok) hf

theorem Traces.reaches {evs : List S.Event} (h : Traces Ops ok s₀ evs s) :
    Reaches Ops ok s₀ s := by
  induction h with
  | refl => exact .refl
  | step m _ hm hf ih => exact ih.step m hm hf

theorem Reaches.traces (h : Reaches Ops ok s₀ s) : ∃ evs, Traces Ops ok s₀ evs s := by
  induction h with
  | refl => exact ⟨[], .refl⟩
  | step m _ hm hf ih =>
    obtain ⟨evs, ih⟩ := ih
    exact ⟨_, ih.step m hm hf⟩

theorem Traces.trans {evs evs' : List S.Event} (h : Traces Ops ok s₀ evs s)
    (h' : Traces Ops ok s evs' s') : Traces Ops ok s₀ (evs ++ evs') s' := by
  induction h' with
  | refl => rwa [List.append_nil]
  | step m _ hm hf ih =>
    rw [← List.append_assoc]
    exact ih.step m hm hf

variable [∀ ev σ, Decidable (ok ev σ)]

theorem reaches_attempt {m : Move S} (h : Reaches Ops ok s₀ s)
    (hm : ∀ p, m = .start p → Ops p) : Reaches Ops ok s₀ (attempt ok s m) := by
  have hfire : s.Admits Ops ok m → Reaches Ops ok s₀ ((s.fire m).getD s) := by
    intro hadmits
    cases hf : s.fire m with
    | none => exact h
    | some s' => exact h.step m hadmits hf
  cases m with
  | start p => exact hfire (hm p rfl)
  | crash i => exact hfire trivial
  | run i =>
    simp only [attempt]
    split
    · rename_i hok
      refine hfire fun ev hev => ?_
      rw [hev, Option.all_some, decide_eq_true_eq] at hok
      exact hok
    · exact h

/-- **What a schedule reaches is reached by a run.** -/
theorem reaches_attemptAll {moves : List (Move S)} (h : Reaches Ops ok s₀ s)
    (hmoves : ∀ p, Move.start p ∈ moves → Ops p) :
    Reaches Ops ok s₀ (attemptAll ok s moves) := by
  induction moves generalizing s with
  | nil => exact h
  | cons m ms ih =>
    exact ih (reaches_attempt h fun p hp => hmoves p (hp ▸ List.mem_cons_self ..))
      fun p hp => hmoves p (List.mem_cons_of_mem _ hp)

theorem traces_observed {m : Move S} (hm : ∀ p, m = .start p → Ops p) :
    Traces Ops ok s (observed ok s m) (attempt ok s m) := by
  have hfire : s.Admits Ops ok m → s.eventsOf m = observed ok s m →
      (s.fire m = none → observed ok s m = []) →
      Traces Ops ok s (observed ok s m) ((s.fire m).getD s) := by
    intro hadmits hevents hnone
    cases hf : s.fire m with
    | none =>
      rw [hnone hf]
      exact .refl
    | some s' => exact hevents ▸ Traces.refl.step m hadmits hf
  cases m with
  | start p => exact hfire (hm p rfl) rfl fun _ => rfl
  | crash i => exact hfire trivial rfl fun _ => rfl
  | run i =>
    cases hev : s.event i with
    | none =>
      have hseen : observed ok s (.run i) = [] := by simp [observed, hev]
      simp only [attempt, hev, Option.all_none, if_true]
      exact hfire (fun ev h => by rw [hev] at h; cases h) (by simp [State.eventsOf, hev, hseen])
        fun _ => hseen
    | some ev =>
      by_cases hok : ok ev s.store
      · have hseen : observed ok s (.run i) = [ev] := by simp [observed, hev, hok]
        simp only [attempt, hev, Option.all_some, hok, decide_true, if_true]
        refine hfire ?_ (by simp [State.eventsOf, hev, hseen]) fun hnone => ?_
        · intro ev' hev'
          rw [hev] at hev'
          exact Option.some.inj hev' ▸ hok
        · obtain ⟨s', hs'⟩ := s.fire_of_event hev
          rw [hs'] at hnone
          cases hnone
      · have hseen : observed ok s (.run i) = [] := by simp [observed, hev, hok]
        simp only [attempt, hev, Option.all_some, hok, decide_false, Bool.false_eq_true, if_false,
          hseen]
        exact .refl

/-- **The events of a schedule are those of a run.** -/
theorem traces_observedAll {moves : List (Move S)} (hmoves : ∀ p, Move.start p ∈ moves → Ops p) :
    Traces Ops ok s (observedAll ok s moves) (attemptAll ok s moves) := by
  induction moves generalizing s with
  | nil => exact .refl
  | cons m ms ih =>
    exact (traces_observed fun p hp => hmoves p (hp ▸ List.mem_cons_self ..)).trans
      (ih fun p hp => hmoves p (List.mem_cons_of_mem _ hp))

end Transactions
