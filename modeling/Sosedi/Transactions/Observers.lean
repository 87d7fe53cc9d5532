import Mathlib.Logic.Function.Basic
import Mathlib.Tactic.Common
import Sosedi.Transactions.Schedules

/-!
# Observers of clients

An `Observer` keeps a value beside each client: it sees the databases that the client reads and
the commits and calls that it makes, and says which of these it allows.  The clients know
nothing of it.

Proved here:

* `follows_bind`, `follows_forEach`: how proofs about programs compose;
* `Watched.reaches`, `Reaches.watched`: the observed runs are the runs;
* `Watched.follows`: in an observed run every client makes only events that are allowed;
* `Served.post`: a client that has returned has kept what its program promises;
* `Reaches.justified`: an event that the past of its client must justify is justified by earlier
  states of the run.
-/

namespace Transactions

variable {S : Signature} {α β Φ : Type}

structure Observer (S : Signature) (Φ : Type) where
  start : Φ
  see : Φ → S.DB → Φ
  act : Φ → S.Event → Φ
  allows : Φ → S.Event → Prop

variable (O : Observer S Φ)

/-- From `φ` on the observer allows all that the client does, whatever the client finds; `Q`
holds of what it returns. -/
def Prog.Follows (Q : α → Φ → List (S.DB → S.DB) → Prop) :
    Prog S α → Φ → List (S.DB → S.DB) → Prop
  | .ret a, φ, ω => Q a φ ω
  | .throw _, _, _ => True
  | .lock _ next, φ, ω => next.Follows Q φ ω
  | .query next, φ, ω => ∀ db, (next (view ω db)).Follows Q (O.see φ db) ω
  | .exec _ write next, φ, ω =>
    ∀ db, (next (view ω db)).Follows Q (O.see φ db) (ω ++ [write (view ω db)])
  | .commit ev next, φ, _ => O.allows φ ev ∧ next.Follows Q (O.act φ ev) []
  | .call ev _ next, φ, ω => O.allows φ ev ∧ ∀ w, (next w).Follows Q (O.act φ ev) ω

variable {O} {Q : α → Φ → List (S.DB → S.DB) → Prop} {φ : Φ} {ω : List (S.DB → S.DB)}

theorem follows_bind (p : Prog S α) (f : α → Prog S β)
    (Q : β → Φ → List (S.DB → S.DB) → Prop) :
    (p.bind f).Follows O Q φ ω ↔ p.Follows O (fun a φ ω => (f a).Follows O Q φ ω) φ ω := by
  induction p generalizing φ ω with
  | ret a => rfl
  | throw e => rfl
  | lock k next ih => simp only [Prog.bind, Prog.Follows, ih]
  | query next ih => simp only [Prog.bind, Prog.Follows, ih]
  | exec rows write next ih => simp only [Prog.bind, Prog.Follows, ih]
  | commit ev next ih => simp only [Prog.bind, Prog.Follows, ih]
  | call ev f next ih => simp only [Prog.bind, Prog.Follows, ih]

theorem follows_mono {Q' : α → Φ → List (S.DB → S.DB) → Prop} (p : Prog S α)
    (hQ : ∀ a φ ω, Q a φ ω → Q' a φ ω) (h : p.Follows O Q φ ω) : p.Follows O Q' φ ω := by
  induction p generalizing φ ω with
  | ret a => exact hQ a φ ω h
  | throw e => trivial
  | lock k next ih => exact ih h
  | query next ih => exact fun db => ih _ (h db)
  | exec rows write next ih => exact fun db => ih _ (h db)
  | commit ev next ih => exact ⟨h.1, ih h.2⟩
  | call ev f next ih => exact ⟨h.1, fun w => ih w (h.2 w)⟩

section Statements

@[simp] theorem follows_ret (a : α) : (Prog.ret a : Prog S α).Follows O Q φ ω = Q a φ ω := rfl

@[simp] theorem follows_pure (a : α) : (pure a : Prog S α).Follows O Q φ ω = Q a φ ω := rfl

theorem follows_lift (x : Except S.Error α) :
    (lift x : Prog S α).Follows O Q φ ω ↔ ∀ a, x = .ok a → Q a φ ω := by
  cases x <;> simp [lift, Prog.Follows]

@[simp] theorem follows_select (f : S.DB → α) : (select f : Prog S α).Follows O Q φ ω =
    ∀ db, Q (f (view ω db)) (O.see φ db) ω := rfl

@[simp] theorem follows_write (rows : List S.Key) (f : S.DB → S.DB)
    (Q : Unit → Φ → List (S.DB → S.DB) → Prop) : (write rows f : Prog S Unit).Follows O Q φ ω =
      (∀ db, Q () (O.see φ db) (ω ++ [f])) := rfl

@[simp] theorem follows_updateWhere (row : S.Key) (cond : S.DB → Bool) (f : S.DB → S.DB)
    (Q : Bool → Φ → List (S.DB → S.DB) → Prop) :
    (updateWhere row cond f : Prog S Bool).Follows O Q φ ω =
      ∀ db, Q (cond (view ω db)) (O.see φ db) (ω ++ [if cond (view ω db) then f else id]) := rfl

/-- A conditional update, whether it finds its row or not. -/
theorem follows_updateEither (row : S.Key) (cond : S.DB → Bool) (f : S.DB → S.DB)
    {Q : Bool → Φ → List (S.DB → S.DB) → Prop}
    (h : ∀ db updated, Q updated (O.see φ db) (ω ++ [if updated then f else id])) :
    (updateWhere row cond f : Prog S Bool).Follows O Q φ ω := by
  intro db
  exact h db (cond (view ω db))

theorem follows_insertUnique (rows : List S.Key) (taken : S.DB → Bool) (e : S.Error)
    (f : S.DB → S.DB) {Q : Unit → Φ → List (S.DB → S.DB) → Prop}
    (h : ∀ db, taken (view ω db) = false → Q () (O.see φ db) (ω ++ [f])) :
    (insertUnique rows taken e f : Prog S Unit).Follows O Q φ ω := by
  intro db
  cases ht : taken (view ω db) with
  | true => simp [ht, Prog.Follows]
  | false => simpa [ht, Prog.Follows] using h db ht

@[simp] theorem follows_commit (ev : S.Event) (Q : Unit → Φ → List (S.DB → S.DB) → Prop) :
    (commit ev : Prog S Unit).Follows O Q φ ω = (O.allows φ ev ∧ Q () (O.act φ ev) []) := rfl

@[simp] theorem follows_call (ev : S.Event) (f : S.World → S.World) (out : S.World → α) :
    (call ev f out : Prog S α).Follows O Q φ ω =
      (O.allows φ ev ∧ ∀ w, Q (out w) (O.act φ ev) ω) := rfl

/-- A loop, with what holds between its rounds. -/
theorem follows_forEach {I : Φ → List (S.DB → S.DB) → Prop} {l : List β}
    {body : β → Prog S Unit} (h : ∀ x ∈ l, ∀ φ ω, I φ ω → (body x).Follows O (fun _ => I) φ ω)
    (hI : I φ ω) : (forEach l body).Follows O (fun _ => I) φ ω := by
  induction l generalizing φ ω with
  | nil => exact hI
  | cons x xs ih =>
    simp only [forEach, Prog.bind_eq, follows_bind]
    refine follows_mono _ ?_ (h x (List.mem_cons_self ..) φ ω hI)
    exact fun _ φ' ω' hI' => ih (fun y hy => h y (List.mem_cons_of_mem _ hy)) hI'

end Statements

/-! ## Observed runs -/

namespace Observer

variable (O) (s : State S)

/-- The value after the next node of client `i`. -/
def node (i : Nat) (φ : Φ) : Φ :=
  match (s.thread i).prog with
  | .query _ => O.see φ s.db
  | .exec _ _ _ => O.see φ s.db
  | .commit ev _ => O.act φ ev
  | .call ev _ _ => O.act φ ev
  | .throw _ => O.start
  | _ => φ

/-- The values after a move. -/
def after (φ : Nat → Φ) : Move S → Nat → Φ
  | .start _ => Function.update φ s.threads.length O.start
  | .run i => Function.update φ i (O.node s i (φ i))
  | .crash i => Function.update φ i O.start

end Observer

theorem Observer.node_of_event {s : State S} {i : Nat} {ev : S.Event}
    (h : s.event i = some ev) : O.node s i φ = O.act φ ev := by
  unfold State.event at h
  unfold Observer.node
  split at h
  · rename_i hp
    cases h
    rw [hp]
  · rename_i hp
    cases h
    rw [hp]
  · cases h

variable [DecidableEq S.Key]

/-- The states of the runs from `s₀` whose moves satisfy `cond`, with the values of the
observer. -/
inductive Watched (O : Observer S Φ) (Ops : Prog S Unit → Prop)
    (cond : (Nat → Φ) → State S → Move S → Prop) (s₀ : State S) : (Nat → Φ) → State S → Prop where
  | refl : Watched O Ops cond s₀ (fun _ => O.start) s₀
  | step {φ s s'} (m : Move S) (h : Watched O Ops cond s₀ φ s)
      (hm : s.Admits Ops (fun _ _ => True) m) (hc : cond φ s m) (hf : s.fire m = some s') :
      Watched O Ops cond s₀ (O.after s φ m) s'

variable {Ops : Prog S Unit → Prop} {cond : (Nat → Φ) → State S → Move S → Prop}
  {s₀ s s' : State S} {φ : Nat → Φ}

theorem Watched.reaches (h : Watched O Ops cond s₀ φ s) :
    Reaches Ops (fun _ _ => True) s₀ s := by
  induction h with
  | refl => exact .refl
  | step m _ hm _ hf ih => exact .step m ih hm hf

/-- Every run can be observed. -/
theorem Reaches.watched (h : Reaches Ops (fun _ _ => True) s₀ s) :
    ∃ φ, Watched O Ops (fun _ _ _ => True) s₀ φ s := by
  induction h with
  | refl => exact ⟨_, .refl⟩
  | step m _ hm hf ih =>
    obtain ⟨φ, hφ⟩ := ih
    exact ⟨_, .step m hφ hm trivial hf⟩

/-- A schedule whose moves all satisfy `cond` can be observed. -/
theorem Watched.attemptAll {ok : S.Event → S.DB × S.World → Prop} [∀ ev σ, Decidable (ok ev σ)]
    {moves : List (Move S)} (h : Watched O Ops cond s₀ φ s)
    (hmoves : ∀ m ∈ moves, (∀ p, m = .start p → Ops p) ∧ ∀ φ s, cond φ s m) :
    ∃ φ', Watched O Ops cond s₀ φ' (Transactions.attemptAll ok s moves) := by
  induction moves generalizing φ s with
  | nil => exact ⟨φ, h⟩
  | cons m ms ih =>
    obtain ⟨hstart, hcond⟩ := hmoves m (List.mem_cons_self ..)
    have hms : ∀ m ∈ ms, (∀ p, m = .start p → Ops p) ∧ ∀ φ s, cond φ s m :=
      fun m' hm' => hmoves m' (List.mem_cons_of_mem _ hm')
    have hadmits : s.Admits Ops (fun _ _ => True) m := by
      cases m with
      | start p => exact hstart p rfl
      | run i => exact fun _ _ => trivial
      | crash i => trivial
    have hfire : ∃ φ', Watched O Ops cond s₀ φ' ((s.fire m).getD s) := by
      cases hf : s.fire m with
      | none => exact ⟨φ, h⟩
      | some s' => exact ⟨_, h.step m hadmits (hcond φ s) hf⟩
    obtain ⟨φ', hφ'⟩ : ∃ φ', Watched O Ops cond s₀ φ' (attempt ok s m) := by
      cases m with
      | start p => exact hfire
      | crash i => exact hfire
      | run i =>
        simp only [attempt]
        split
        · exact hfire
        · exact ⟨φ, h⟩
    exact ih hφ' hms

/-- What a client follows. -/
def Thread.Follows (O : Observer S Φ) (t : Thread S) (φ : Φ) : Prop :=
  t.prog.Follows O (fun _ _ _ => True) φ t.writes

omit [DecidableEq S.Key] in
theorem Thread.follows_done (φ : Φ) : (Thread.done : Thread S).Follows O φ := trivial

/-- The next node of a client that follows, or that throws. -/
private theorem follows_node {i : Nat} {φ : Φ} {Q : Unit → Φ → List (S.DB → S.DB) → Prop}
    (h : (s.thread i).prog.Follows O Q φ (s.thread i).writes) (hf : s.advance i = some s')
    (hi : i < s.threads.length) :
    (s'.thread i).prog.Follows O Q (O.node s i φ) (s'.thread i).writes ∨
      s'.thread i = Thread.done ∧ O.node s i φ = O.start := by
  have hset : ∀ (db : S.DB) (world : S.World) (t : Thread S),
      (({ s with db, world } : State S).setThread i t).thread i = t := by
    intro db world t
    rw [State.thread_setThread, if_pos ⟨rfl, hi⟩]
  simp only [State.advance] at hf
  unfold Observer.node
  cases hp : (s.thread i).prog with
  | ret a =>
    rw [hp] at hf
    cases hf
  | throw e =>
    rw [hp] at hf
    cases hf
    rw [State.thread_setThread, if_pos ⟨rfl, hi⟩]
    exact Or.inr ⟨rfl, rfl⟩
  | lock k next =>
    rw [hp] at h hf
    simp only at hf
    split at hf
    · cases hf
    · cases hf
      rw [State.thread_setThread, if_pos ⟨rfl, hi⟩]
      exact Or.inl h
  | query next =>
    rw [hp] at h hf
    cases hf
    rw [State.thread_setThread, if_pos ⟨rfl, hi⟩]
    exact Or.inl (h s.db)
  | exec rows write next =>
    rw [hp] at h hf
    simp only at hf
    split at hf
    · cases hf
    · cases hf
      rw [State.thread_setThread, if_pos ⟨rfl, hi⟩]
      exact Or.inl (h s.db)
  | commit ev next =>
    rw [hp] at h hf
    cases hf
    rw [hset (view (s.thread i).writes s.db) s.world]
    exact Or.inl h.2
  | call ev f next =>
    rw [hp] at h hf
    cases hf
    rw [hset s.db (f s.world)]
    exact Or.inl (h.2 s.world)

/-- The next node of a client that follows. -/
private theorem follows_advance {i : Nat} {φ : Φ} (h : (s.thread i).Follows O φ)
    (hf : s.advance i = some s') (hi : i < s.threads.length) :
    (s'.thread i).Follows O (O.node s i φ) := by
  rcases follows_node h hf hi with h | ⟨hdone, -⟩
  · exact h
  · rw [hdone]
    exact Thread.follows_done _

/-- **Every client of an observed run follows.** -/
theorem Watched.follows (hOps : ∀ p, Ops p → p.Follows O (fun _ _ _ => True) O.start [])
    (h₀ : s₀.threads = []) (h : Watched O Ops cond s₀ φ s) (i : Nat) :
    (s.thread i).Follows O (φ i) := by
  induction h generalizing i with
  | refl =>
    have hdone : s₀.thread i = Thread.done := by simp [State.thread, h₀]
    rw [hdone]
    exact Thread.follows_done _
  | @step φ s s' m h hm hc hf ih =>
    cases m with
    | start p =>
      simp only [State.fire, Option.some.injEq] at hf
      subst hf
      simp only [Observer.after]
      by_cases hi : i = s.threads.length
      · subst hi
        rw [Function.update_self]
        have hget : ({ s with threads := s.threads ++ [⟨p, [], []⟩] } : State S).thread
            s.threads.length = ⟨p, [], []⟩ := by
          simp [State.thread]
        rw [hget]
        exact hOps p hm
      · rw [Function.update_of_ne hi]
        have hget : ({ s with threads := s.threads ++ [⟨p, [], []⟩] } : State S).thread i =
            s.thread i := by
          simp only [State.thread, List.getD_eq_getElem?_getD]
          rcases Nat.lt_or_gt_of_ne hi with hlt | hgt
          · rw [List.getElem?_append_left hlt]
          · rw [List.getElem?_eq_none (by simp; omega), List.getElem?_eq_none (by omega)]
        rw [hget]
        exact ih i
    | crash j =>
      simp only [State.fire, Option.some.injEq] at hf
      subst hf
      rw [State.thread_setThread]
      split
      · exact Thread.follows_done _
      · rename_i hne
        by_cases hi : i = j
        · subst hi
          -- there is no such client
          have hlen : s.threads.length ≤ i := Nat.le_of_not_lt fun hlt => hne ⟨rfl, hlt⟩
          rw [State.thread_of_length_le hlen]
          exact Thread.follows_done _
        · simp only [Observer.after, Function.update_of_ne hi]
          exact ih i
    | run j =>
      by_cases hi : i = j
      · subst hi
        simp only [Observer.after, Function.update_self]
        have hlt : i < s.threads.length := by
          refine State.lt_of_prog_ne fun a hp => ?_
          simp [State.fire, State.advance, hp] at hf
        exact follows_advance (ih i) hf hlt
      · simp only [Observer.after, Function.update_of_ne hi]
        rw [State.thread_of_advance hf (Ne.symm hi)]
        exact ih i

/-- A client that is there when the observation starts follows till it throws or is killed. -/
theorem Watched.follows_client {Q : Unit → Φ → List (S.DB → S.DB) → Prop} {i : Nat}
    (hp : (s₀.thread i).prog.Follows O Q O.start (s₀.thread i).writes)
    (hi : i < s₀.threads.length) (h : Watched O Ops cond s₀ φ s) :
    i < s.threads.length ∧ ((s.thread i).prog.Follows O Q (φ i) (s.thread i).writes ∨
      s.thread i = Thread.done ∧ φ i = O.start) := by
  induction h with
  | refl => exact ⟨hi, Or.inl hp⟩
  | @step φ s s' m h hm hc hf ih =>
    obtain ⟨hlen, ih⟩ := ih
    cases m with
    | start p =>
      simp only [State.fire, Option.some.injEq] at hf
      subst hf
      have hget : ({ s with threads := s.threads ++ [⟨p, [], []⟩] } : State S).thread i =
          s.thread i := by
        simp only [State.thread, List.getD_eq_getElem?_getD, List.getElem?_append_left hlen]
      refine ⟨by simp; omega, ?_⟩
      rw [hget]
      simp only [Observer.after, Function.update_of_ne (Nat.ne_of_lt hlen)]
      exact ih
    | crash j =>
      simp only [State.fire, Option.some.injEq] at hf
      subst hf
      refine ⟨by simpa [State.setThread] using hlen, ?_⟩
      rw [State.thread_setThread]
      simp only [Observer.after]
      by_cases hij : j = i
      · subst hij
        rw [if_pos ⟨rfl, hlen⟩, Function.update_self]
        exact Or.inr ⟨rfl, rfl⟩
      · rw [if_neg fun hand => hij hand.1, Function.update_of_ne (Ne.symm hij)]
        exact ih
    | run j =>
      refine ⟨by rw [State.length_of_advance hf]; exact hlen, ?_⟩
      simp only [Observer.after]
      by_cases hij : j = i
      · subst hij
        rw [Function.update_self]
        rcases ih with ih | ⟨hdone, -⟩
        · exact follows_node ih hf hlen
        · simp [State.fire, State.advance, hdone, Thread.done] at hf
      · rw [Function.update_of_ne (Ne.symm hij), State.thread_of_advance hf hij]
        exact ih

/-- The program has returned. -/
def Prog.ended : Prog S Unit → Bool
  | .ret _ => true
  | _ => false

omit [DecidableEq S.Key] in
theorem Prog.eq_ret_of_ended {p : Prog S Unit} (h : p.ended = true) : p = .ret () := by
  cases p with
  | ret a => rfl
  | _ => cases h

/-- Client `i` ran `p` from `s₀` on and has returned: it has neither thrown nor been killed. -/
structure Served (O : Observer S Φ) (Ops : Prog S Unit → Prop)
    (cond : (Nat → Φ) → State S → Move S → Prop) (p : Prog S Unit) (i : Nat) (s₀ : State S)
    (φ : Nat → Φ) (s : State S) : Prop where
  started : s₀.thread i = ⟨p, [], []⟩
  watched : Watched O Ops cond s₀ φ s
  returned : (s.thread i).prog = .ret ()
  unharmed : φ i ≠ O.start

/-- **What a program promises to return** holds when it has returned. -/
theorem Served.post {Q : Unit → Φ → List (S.DB → S.DB) → Prop} {p : Prog S Unit} {i : Nat}
    (h : Served O Ops cond p i s₀ φ s) (hi : i < s₀.threads.length)
    (hp : p.Follows O Q O.start []) : Q () (φ i) (s.thread i).writes := by
  have hstart : (s₀.thread i).prog.Follows O Q O.start (s₀.thread i).writes := by
    rw [h.started]
    exact hp
  rcases (h.watched.follows_client hstart hi).2 with hfollows | ⟨-, hφ⟩
  · rw [h.returned] at hfollows
    exact hfollows
  · exact absurd hφ h.unharmed

omit [DecidableEq S.Key] in
theorem Thread.Follows.event {i : Nat} {φ : Φ} (h : (s.thread i).Follows O φ) {ev : S.Event}
    (hev : s.event i = some ev) : O.allows φ ev := by
  unfold Thread.Follows at h
  unfold State.event at hev
  split at hev
  · rename_i hp
    cases hev
    rw [hp] at h
    exact h.1
  · rename_i hp
    cases hev
    rw [hp] at h
    exact h.1
  · cases hev

/-! ## The past of a client -/

/-- The databases that a client has read, and the events that it has made. -/
structure Past (S : Signature) where
  reads : S.DB → Prop
  events : S.Event → Prop

/-- The observer that remembers the past. -/
def Observer.past (justifies : Past S → S.Event → Prop) : Observer S (Past S) where
  start := ⟨fun _ => False, fun _ => False⟩
  see past db := ⟨fun db' => past.reads db' ∨ db' = db, past.events⟩
  act past ev := ⟨past.reads, fun ev' => past.events ev' ∨ ev' = ev⟩
  allows := justifies

variable {justifies : Past S → S.Event → Prop}

omit [DecidableEq S.Key] in
/-- A past that justifies everything allows every program. -/
theorem follows_past (p : Prog S α) {past : Past S} {ω : List (S.DB → S.DB)} :
    p.Follows (Observer.past fun _ _ => True) (fun _ _ _ => True) past ω := by
  induction p generalizing past ω with
  | ret a | throw e => trivial
  | lock k next ih => exact ih
  | query next ih => exact fun db => ih _
  | exec rows write next ih => exact fun db => ih _
  | commit ev next ih => exact ⟨trivial, ih⟩
  | call ev f next ih => exact ⟨trivial, fun w => ih w⟩

/-- Every part of the past of a client was there in an earlier state. -/
structure Past.Happened (Ops : Prog S Unit → Prop) (s₀ s : State S) (i : Nat) (past : Past S) :
    Prop where
  reads : ∀ db, past.reads db → ∃ s₁, Reaches Ops (fun _ _ => True) s₀ s₁ ∧
    Reaches Ops (fun _ _ => True) s₁ s ∧ s₁.db = db
  events : ∀ ev, past.events ev → ∃ s₁, Reaches Ops (fun _ _ => True) s₀ s₁ ∧
    Reaches Ops (fun _ _ => True) s₁ s ∧ s₁.event i = some ev

theorem Past.Happened.later {i : Nat} {past : Past S} (h : past.Happened Ops s₀ s i)
    (hr : Reaches Ops (fun _ _ => True) s s') : past.Happened Ops s₀ s' i := by
  refine ⟨fun db hdb => ?_, fun ev hev => ?_⟩
  · obtain ⟨s₁, h₀, h₁, hdb⟩ := h.reads db hdb
    exact ⟨s₁, h₀, h₁.trans hr, hdb⟩
  · obtain ⟨s₁, h₀, h₁, hev⟩ := h.events ev hev
    exact ⟨s₁, h₀, h₁.trans hr, hev⟩

theorem Past.happened_start (i : Nat) :
    (Observer.past justifies).start.Happened Ops s₀ s i :=
  ⟨fun _ h => h.elim, fun _ h => h.elim⟩

theorem Watched.happened {φ : Nat → Past S} {cond : (Nat → Past S) → State S → Move S → Prop}
    (h : Watched (Observer.past justifies) Ops cond s₀ φ s) (i : Nat) :
    (φ i).Happened Ops s₀ s i := by
  induction h generalizing i with
  | refl => exact Past.happened_start i
  | @step φ s s' m h hm hc hf ih =>
    have hone : Reaches Ops (fun _ _ => True) s s' := .step m .refl hm hf
    have hlater := (ih i).later hone
    cases m with
    | start p =>
      simp only [Observer.after]
      by_cases hi : i = s.threads.length
      · rw [hi, Function.update_self]
        exact Past.happened_start _
      · rw [Function.update_of_ne hi]
        exact hlater
    | crash j =>
      simp only [Observer.after]
      by_cases hi : i = j
      · rw [hi, Function.update_self]
        exact Past.happened_start _
      · rw [Function.update_of_ne hi]
        exact hlater
    | run j =>
      simp only [Observer.after]
      by_cases hi : i = j
      · subst hi
        rw [Function.update_self]
        have hread : ((Observer.past justifies).see (φ i) s.db).Happened Ops s₀ s' i := by
          refine ⟨fun db hdb => ?_, hlater.events⟩
          rcases hdb with hdb | rfl
          · exact hlater.reads db hdb
          · exact ⟨s, h.reaches, hone, rfl⟩
        have hmade : ∀ ev, s.event i = some ev →
            ((Observer.past justifies).act (φ i) ev).Happened Ops s₀ s' i := by
          intro ev hev
          refine ⟨hlater.reads, fun ev' hev' => ?_⟩
          rcases hev' with hev' | rfl
          · exact hlater.events ev' hev'
          · exact ⟨s, h.reaches, hone, hev⟩
        unfold Observer.node
        split <;> rename_i hp
        · exact hread
        · exact hread
        · exact hmade _ (by simp [State.event, hp])
        · exact hmade _ (by simp [State.event, hp])
        · exact Past.happened_start i
        · exact hlater
      · rw [Function.update_of_ne hi]
        exact hlater

omit [DecidableEq S.Key] in
/-- The past of a client after a move: what it reads is the database at that moment. -/
theorem Past.reads_after {φ : Nat → Past S} {m : Move S} {i : Nat} {db : S.DB}
    (h : ((Observer.past justifies).after s φ m i).reads db) : (φ i).reads db ∨ db = s.db := by
  cases m with
  | start p =>
    simp only [Observer.after, Function.update_apply] at h
    split at h
    · exact h.elim
    · exact Or.inl h
  | crash j =>
    simp only [Observer.after, Function.update_apply] at h
    split at h
    · exact h.elim
    · exact Or.inl h
  | run j =>
    simp only [Observer.after, Function.update_apply] at h
    split at h
    · rename_i hij
      subst hij
      unfold Observer.node at h
      split at h
      · exact h
      · exact h
      · exact Or.inl h
      · exact Or.inl h
      · exact h.elim
      · exact Or.inl h
    · exact Or.inl h

omit [DecidableEq S.Key] in
theorem Past.events_after {φ : Nat → Past S} {m : Move S} {i : Nat} {ev : S.Event}
    (h : ((Observer.past justifies).after s φ m i).events ev) :
    (φ i).events ev ∨ m = .run i ∧ s.event i = some ev := by
  cases m with
  | start p =>
    simp only [Observer.after, Function.update_apply] at h
    split at h
    · exact h.elim
    · exact Or.inl h
  | crash j =>
    simp only [Observer.after, Function.update_apply] at h
    split at h
    · exact h.elim
    · exact Or.inl h
  | run j =>
    simp only [Observer.after, Function.update_apply] at h
    split at h
    · rename_i hij
      subst hij
      unfold Observer.node at h
      split at h <;> rename_i hp
      · exact Or.inl h
      · exact Or.inl h
      · refine h.imp_right fun hev => ⟨rfl, ?_⟩
        simp [State.event, hp, hev]
      · refine h.imp_right fun hev => ⟨rfl, ?_⟩
        simp [State.event, hp, hev]
      · exact h.elim
      · exact Or.inl h
    · exact Or.inl h

/-- **The past justifies**: where the clients make only events that their past justifies, the
next event of a client is justified by what it has found and done in earlier states. -/
theorem Reaches.justified
    (hOps : ∀ p, Ops p → p.Follows (Observer.past justifies) (fun _ _ _ => True)
      (Observer.past justifies).start [])
    (h₀ : s₀.threads = []) (h : Reaches Ops (fun _ _ => True) s₀ s) {i : Nat} {ev : S.Event}
    (hev : s.event i = some ev) :
    ∃ past : Past S, past.Happened Ops s₀ s i ∧ justifies past ev := by
  obtain ⟨φ, hφ⟩ := h.watched (O := Observer.past justifies)
  exact ⟨φ i, hφ.happened i, (hφ.follows hOps h₀ i).event hev⟩

end Transactions
