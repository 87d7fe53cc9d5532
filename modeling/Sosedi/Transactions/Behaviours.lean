import Sosedi.Transactions.Interleaving

/-!
# What a client may do

`Prog.Obeys` describes one client in an environment of which only `P` is known: it may find
another store with `P` at each of its nodes.  `Prog.CommitsLast` describes a transaction: its
commit is its last node, so a client that throws has changed nothing.  `Prog.AfterCommits` says
how a client goes on after its commits.

Proved here: in a run whose stores satisfy `P`, a client that obeys goes on to obey
(`Reaches.obeys`), so its commits and calls are those that `E` allows (`Thread.Obeys.event`);
a transaction that throws has committed nothing (`Reaches.commitsLast`, `returns_of_event`);
`Reaches.afterCommits`.
-/

namespace Transactions

variable {S : Signature} {α : Type}

/-- Whatever stores with `P` the client finds, its commits and calls, with the writes that it has
made till then, satisfy `E`, and `Q` holds of what it returns or throws. -/
def Prog.Obeys (P : S.DB × S.World → Prop) (E : S.Event → List (S.DB → S.DB) → Prop)
    (Q : Except S.Error α → Prop) : Prog S α → List (S.DB → S.DB) → Prop
  | .ret a, _ => Q (.ok a)
  | .throw e, _ => Q (.error e)
  | .lock _ next, ω => next.Obeys P E Q ω
  | .query next, ω => ∀ σ, P σ → (next (view ω σ.1)).Obeys P E Q ω
  | .exec _ write next, ω =>
    ∀ σ, P σ → (next (view ω σ.1)).Obeys P E Q (ω ++ [write (view ω σ.1)])
  | .commit ev next, ω => E ev ω ∧ next.Obeys P E Q []
  | .call ev _ next, ω => E ev ω ∧ ∀ σ, P σ → (next σ.2).Obeys P E Q ω

variable {P : S.DB × S.World → Prop} {E : S.Event → List (S.DB → S.DB) → Prop}
  {Q : Except S.Error α → Prop} {s s' : State S} {i : Nat}

/-- The answer is dropped. -/
theorem Prog.Obeys.discard {p : Prog S α} {ω : List (S.DB → S.DB)} (h : p.Obeys P E Q ω) :
    (p.bind fun _ => (.ret () : Prog S Unit)).Obeys P E (fun _ => True) ω := by
  induction p generalizing ω with
  | ret a => trivial
  | throw e => trivial
  | lock k next ih => exact ih h
  | query next ih => exact fun σ hσ => ih _ (h σ hσ)
  | exec rows write next ih => exact fun σ hσ => ih _ (h σ hσ)
  | commit ev next ih => exact ⟨h.1, ih h.2⟩
  | call ev f next ih => exact ⟨h.1, fun σ hσ => ih _ (h.2 σ hσ)⟩

/-- A check, after which the client knows that it passed. -/
theorem Prog.Obeys.lift_bind {β : Type} {x : Except S.Error β} {f : β → Prog S α}
    {ω : List (S.DB → S.DB)} (h : ∀ b, x = .ok b → (f b).Obeys P E Q ω)
    (hQ : ∀ e, x = .error e → Q (.error e)) : ((lift x).bind f).Obeys P E Q ω := by
  cases x with
  | ok b => exact h b rfl
  | error e => exact hQ e rfl

/-- A client obeys, whatever it returns. -/
def Thread.Obeys (P : S.DB × S.World → Prop) (E : S.Event → List (S.DB → S.DB) → Prop)
    (t : Thread S) : Prop :=
  t.prog.Obeys P E (fun _ => True) t.writes

theorem Thread.obeys_done : (Thread.done : Thread S).Obeys P E := trivial

theorem Thread.Obeys.event (h : (s.thread i).Obeys P E) {ev : S.Event}
    (hev : s.event i = some ev) : E ev (s.thread i).writes := by
  unfold Thread.Obeys at h
  unfold State.event at hev
  split at hev
  · rename_i hp
    cases hev
    rw [hp] at h
    exact h.1
  · rename_i hp
    cases hev
    rw [hp] at h
    exact h.1
  · cases hev

/-! ## Transactions -/

/-- Nothing is committed and nothing called. -/
def Prog.Silent : Prog S α → Prop
  | .ret _ => True
  | .throw _ => True
  | .lock _ next => next.Silent
  | .query next => ∀ v, (next v).Silent
  | .exec _ _ next => ∀ v, (next v).Silent
  | .commit _ _ => False
  | .call _ _ _ => False

/-- Nothing is called, and after a commit the program returns. -/
def Prog.CommitsLast : Prog S α → Prop
  | .ret _ => True
  | .throw _ => True
  | .lock _ next => next.CommitsLast
  | .query next => ∀ v, (next v).CommitsLast
  | .exec _ _ next => ∀ v, (next v).CommitsLast
  | .commit _ next => ∃ a, next = .ret a
  | .call _ _ _ => False

namespace Prog

variable {β : Type}

theorem Silent.bind {p : Prog S α} {f : α → Prog S β} (hp : p.Silent) (hf : ∀ a, (f a).Silent) :
    (p.bind f).Silent := by
  induction p with
  | ret a => exact hf a
  | throw e => trivial
  | lock k next ih => exact ih hp
  | query next ih => exact fun v => ih v (hp v)
  | exec rows write next ih => exact fun v => ih v (hp v)
  | commit ev next => exact hp
  | call ev f next => exact hp

theorem CommitsLast.bind {p : Prog S α} {f : α → Prog S β} (hp : p.Silent)
    (hf : ∀ a, (f a).CommitsLast) : (p.bind f).CommitsLast := by
  induction p with
  | ret a => exact hf a
  | throw e => trivial
  | lock k next ih => exact ih hp
  | query next ih => exact fun v => ih v (hp v)
  | exec rows write next ih => exact fun v => ih v (hp v)
  | commit ev next => exact hp.elim
  | call ev f next => exact hp.elim

/-- The answer is dropped. -/
theorem CommitsLast.discard {p : Prog S α} (h : p.CommitsLast) :
    (p.bind fun _ => (.ret () : Prog S Unit)).CommitsLast := by
  induction p with
  | ret a => trivial
  | throw e => trivial
  | lock k next ih => exact ih h
  | query next ih => exact fun v => ih v (h v)
  | exec rows write next ih => exact fun v => ih v (h v)
  | commit ev next =>
    obtain ⟨a, rfl⟩ := h
    exact ⟨(), rfl⟩
  | call ev f next => exact h.elim

theorem silent_ret (a : α) : (.ret a : Prog S α).Silent := trivial

theorem silent_lift (x : Except S.Error α) : (lift x : Prog S α).Silent := by
  cases x <;> trivial

theorem silent_acquire (k : S.Key) : (acquire k).Silent := trivial

theorem silent_select (f : S.DB → α) : (select f : Prog S α).Silent := fun _ => trivial

theorem silent_write (rows : List S.Key) (f : S.DB → S.DB) : (write rows f).Silent :=
  fun _ => trivial

theorem silent_updateWhere (row : S.Key) (cond : S.DB → Bool) (f : S.DB → S.DB) :
    (updateWhere row cond f).Silent := fun _ => trivial

theorem silent_insertUnique (rows : List S.Key) (taken : S.DB → Bool) (e : S.Error)
    (f : S.DB → S.DB) : (insertUnique rows taken e f).Silent := by
  intro v
  show (if taken v then (.throw e : Prog S Unit) else .ret ()).Silent
  split <;> trivial

theorem silent_when {c : Bool} {p : Prog S Unit} (h : p.Silent) : (when c p).Silent := by
  cases c with
  | true => exact h
  | false => trivial

theorem commitsLast_commit (ev : S.Event) (a : α) :
    ((Transactions.commit ev).bind fun _ => (.ret a : Prog S α)).CommitsLast := ⟨a, rfl⟩

end Prog

/-! ## After a commit -/

/-- Every event that the client commits satisfies `E`. -/
def Prog.Commits (E : S.Event → Prop) : Prog S α → Prop
  | .ret _ => True
  | .throw _ => True
  | .lock _ next => next.Commits E
  | .query next => ∀ v, (next v).Commits E
  | .exec _ _ next => ∀ v, (next v).Commits E
  | .commit ev next => E ev ∧ next.Commits E
  | .call _ _ next => ∀ w, (next w).Commits E

/-- After each commit, what is left of the program satisfies `R`. -/
def Prog.AfterCommits (R : S.Event → Prog S α → Prop) : Prog S α → Prop
  | .ret _ => True
  | .throw _ => True
  | .lock _ next => next.AfterCommits R
  | .query next => ∀ v, (next v).AfterCommits R
  | .exec _ _ next => ∀ v, (next v).AfterCommits R
  | .commit ev next => R ev next ∧ next.AfterCommits R
  | .call _ _ next => ∀ w, (next w).AfterCommits R

namespace Prog

variable {β : Type} {C : S.Event → Prop} {R : S.Event → Prog S β → Prop}

theorem Commits.bind {p : Prog S α} {f : α → Prog S β} (hp : p.Commits C)
    (hf : ∀ a, (f a).Commits C) : (p.bind f).Commits C := by
  induction p with
  | ret a => exact hf a
  | throw e => trivial
  | lock k next ih => exact ih hp
  | query next ih => exact fun v => ih v (hp v)
  | exec rows write next ih => exact fun v => ih v (hp v)
  | commit ev next ih => exact ⟨hp.1, ih hp.2⟩
  | call ev g next ih => exact fun w => ih w (hp w)

/-- Where a program commits only events of `C`, what is left after them does not matter. -/
theorem AfterCommits.bind {p : Prog S α} {f : α → Prog S β} (hp : p.Commits C)
    (hC : ∀ ev next, C ev → R ev next) (hf : ∀ a, (f a).AfterCommits R) :
    (p.bind f).AfterCommits R := by
  induction p with
  | ret a => exact hf a
  | throw e => trivial
  | lock k next ih => exact ih hp
  | query next ih => exact fun v => ih v (hp v)
  | exec rows write next ih => exact fun v => ih v (hp v)
  | commit ev next ih => exact ⟨hC _ _ hp.1, ih hp.2⟩
  | call ev g next ih => exact fun w => ih w (hp w)

theorem Commits.afterCommits {p : Prog S β} (hp : p.Commits C)
    (hC : ∀ ev next, C ev → R ev next) : p.AfterCommits R := by
  have h := AfterCommits.bind hp hC (f := .ret) fun _ => trivial
  rwa [bind_ret] at h

theorem commits_ret (a : α) : (.ret a : Prog S α).Commits C := trivial

theorem commits_lift (x : Except S.Error α) : (lift x : Prog S α).Commits C := by
  cases x <;> trivial

theorem commits_select (f : S.DB → α) : (select f : Prog S α).Commits C := fun _ => trivial

theorem commits_write (rows : List S.Key) (f : S.DB → S.DB) : (write rows f).Commits C :=
  fun _ => trivial

theorem commits_updateWhere (row : S.Key) (cond : S.DB → Bool) (f : S.DB → S.DB) :
    (updateWhere row cond f).Commits C := fun _ => trivial

theorem commits_call (ev : S.Event) (f : S.World → S.World) (out : S.World → α) :
    (Transactions.call ev f out).Commits C := fun _ => trivial

theorem commits_commit {ev : S.Event} (h : C ev) : (Transactions.commit ev).Commits C :=
  ⟨h, trivial⟩

theorem commits_insertUnique (rows : List S.Key) (taken : S.DB → Bool) (e : S.Error)
    (f : S.DB → S.DB) : (insertUnique rows taken e f).Commits C := by
  intro v
  show (if taken v then (.throw e : Prog S Unit) else .ret ()).Commits C
  split <;> trivial

theorem commits_when {c : Bool} {p : Prog S Unit} (h : p.Commits C) : (when c p).Commits C := by
  cases c with
  | true => exact h
  | false => trivial

theorem commits_forEach {l : List β} {body : β → Prog S Unit} (h : ∀ b, (body b).Commits C) :
    (forEach l body).Commits C := by
  induction l with
  | nil => trivial
  | cons b l ih => exact (h b).bind fun _ => ih

end Prog

/-! ## Runs -/

variable [DecidableEq S.Key] {Ops : Prog S Unit → Prop} {ok : S.Event → S.DB × S.World → Prop}

theorem Reaches.ops_mono {Ops' : Prog S Unit → Prop} (hOps : ∀ p, Ops p → Ops' p)
    (h : Reaches Ops ok s s') : Reaches Ops' ok s s' := by
  induction h with
  | refl => exact .refl
  | step m _ hm hf ih =>
    refine .step m ih ?_ hf
    cases m with
    | start p => exact hOps p hm
    | run i => exact hm
    | crash i => trivial

/-- What a client's own nodes keep of it, it has in every later state. -/
theorem Reaches.keeps_thread {T : Thread S → Prop} (hdone : T Thread.done)
    (hnode : ∀ s₁ s₂, Reaches Ops ok s s₁ → i < s₁.threads.length → T (s₁.thread i) →
      s₁.advance i = some s₂ → T (s₂.thread i))
    (h : T (s.thread i)) (hi : i < s.threads.length) (hr : Reaches Ops ok s s') :
    i < s'.threads.length ∧ T (s'.thread i) := by
  induction hr with
  | refl => exact ⟨hi, h⟩
  | @step s₁ s₂ m hr hm hf ih =>
    obtain ⟨hi₁, h₁⟩ := ih
    cases m with
    | start p =>
      simp only [State.fire, Option.some.injEq] at hf
      subst hf
      refine ⟨by simp; omega, ?_⟩
      have hget : ({ s₁ with threads := s₁.threads ++ [⟨p, [], []⟩] } : State S).thread i =
          s₁.thread i := by
        simp only [State.thread, List.getD_eq_getElem?_getD, List.getElem?_append_left hi₁]
      rw [hget]
      exact h₁
    | crash j =>
      simp only [State.fire, Option.some.injEq] at hf
      subst hf
      refine ⟨by simpa [State.setThread] using hi₁, ?_⟩
      rw [State.thread_setThread]
      split
      · exact hdone
      · exact h₁
    | run j =>
      by_cases hij : j = i
      · subst hij
        refine ⟨?_, hnode _ _ hr hi₁ h₁ hf⟩
        rw [State.length_of_advance hf]
        exact hi₁
      · refine ⟨?_, ?_⟩
        · rw [State.length_of_advance hf]
          exact hi₁
        · rw [State.thread_of_advance hf hij]
          exact h₁

/-- The next node of a client that obeys. -/
private theorem obeys_advance (hP : P s.store) (h : (s.thread i).Obeys P E)
    (hf : s.advance i = some s') (hi : i < s.threads.length) : (s'.thread i).Obeys P E := by
  unfold Thread.Obeys at h
  have hset : ∀ (db : S.DB) (world : S.World) (t : Thread S),
      (({ s with db, world } : State S).setThread i t).thread i = t := by
    intro db world t
    rw [State.thread_setThread, if_pos ⟨rfl, hi⟩]
  simp only [State.advance] at hf
  split at hf <;> rename_i hp <;> rw [hp] at h
  · cases hf
  · cases hf
    rw [State.thread_setThread, if_pos ⟨rfl, hi⟩]
    exact Thread.obeys_done
  · split at hf
    · cases hf
    · cases hf
      rw [State.thread_setThread, if_pos ⟨rfl, hi⟩]
      exact h
  · cases hf
    rw [State.thread_setThread, if_pos ⟨rfl, hi⟩]
    exact h s.store hP
  · split at hf
    · cases hf
    · cases hf
      rw [State.thread_setThread, if_pos ⟨rfl, hi⟩]
      exact h s.store hP
  · cases hf
    rw [hset (view (s.thread i).writes s.db) s.world]
    exact h.2
  · rename_i f next
    cases hf
    rw [hset s.db (f s.world)]
    exact h.2 s.store hP

/-- **A client that obeys goes on to obey**, as long as `P` holds. -/
theorem Reaches.obeys (hP : ∀ s', Reaches Ops ok s s' → P s'.store)
    (h : (s.thread i).Obeys P E) (hi : i < s.threads.length) (hr : Reaches Ops ok s s') :
    i < s'.threads.length ∧ (s'.thread i).Obeys P E :=
  hr.keeps_thread Thread.obeys_done (fun _ _ hr hi h hf => obeys_advance (hP _ hr) h hf hi) h hi

/-- The next node of a transaction. -/
private theorem commitsLast_advance (h : (s.thread i).prog.CommitsLast)
    (hf : s.advance i = some s') (hi : i < s.threads.length) :
    (s'.thread i).prog.CommitsLast := by
  have hset : ∀ (db : S.DB) (world : S.World) (t : Thread S),
      (({ s with db, world } : State S).setThread i t).thread i = t := by
    intro db world t
    rw [State.thread_setThread, if_pos ⟨rfl, hi⟩]
  simp only [State.advance] at hf
  split at hf <;> rename_i hp <;> rw [hp] at h
  · cases hf
  · cases hf
    rw [State.thread_setThread, if_pos ⟨rfl, hi⟩]
    trivial
  · split at hf
    · cases hf
    · cases hf
      rw [State.thread_setThread, if_pos ⟨rfl, hi⟩]
      exact h
  · cases hf
    rw [State.thread_setThread, if_pos ⟨rfl, hi⟩]
    exact h _
  · split at hf
    · cases hf
    · cases hf
      rw [State.thread_setThread, if_pos ⟨rfl, hi⟩]
      exact h _
  · cases hf
    obtain ⟨a, rfl⟩ := h
    rw [hset (view (s.thread i).writes s.db) s.world]
    trivial
  · exact h.elim

theorem Reaches.commitsLast (h : (s.thread i).prog.CommitsLast) (hi : i < s.threads.length)
    (hr : Reaches Ops ok s s') : i < s'.threads.length ∧ (s'.thread i).prog.CommitsLast :=
  hr.keeps_thread (T := fun t => t.prog.CommitsLast) trivial
    (fun _ _ _ hi h hf => commitsLast_advance h hf hi) h hi

/-- What a node makes of the client that does it. -/
inductive Thread.Next (s : State S) (t : Thread S) : Thread S → Prop where
  | throw {e : S.Error} (hprog : t.prog = .throw e) : Next s t Thread.done
  | lock {k : S.Key} {next : Prog S Unit} (hprog : t.prog = .lock k next) :
    Next s t ⟨next, t.writes, k :: t.locks⟩
  | query {next : S.DB → Prog S Unit} (hprog : t.prog = .query next) :
    Next s t ⟨next (view t.writes s.db), t.writes, t.locks⟩
  | exec {rows : S.DB → List S.Key} {write : S.DB → S.DB → S.DB} {next : S.DB → Prog S Unit}
    (hprog : t.prog = .exec rows write next) :
    Next s t ⟨next (view t.writes s.db), t.writes ++ [write (view t.writes s.db)],
      rows (view t.writes s.db) ++ t.locks⟩
  | commit {ev : S.Event} {next : Prog S Unit} (hprog : t.prog = .commit ev next) :
    Next s t ⟨next, [], []⟩
  | call {ev : S.Event} {f : S.World → S.World} {next : S.World → Prog S Unit}
    (hprog : t.prog = .call ev f next) : Next s t ⟨next s.world, t.writes, t.locks⟩

theorem next_of_advance (hf : s.advance i = some s') : (s.thread i).Next s (s'.thread i) := by
  have hset : ∀ (db : S.DB) (world : S.World) (t : Thread S), i < s.threads.length →
      (({ s with db, world } : State S).setThread i t).thread i = t := by
    intro db world t hi
    rw [State.thread_setThread, if_pos ⟨rfl, hi⟩]
  have hi : i < s.threads.length := by
    refine State.lt_of_prog_ne fun a hp => ?_
    simp [State.advance, hp] at hf
  simp only [State.advance] at hf
  split at hf <;> rename_i hp
  · cases hf
  · cases hf
    rw [hset s.db s.world _ hi]
    exact .throw hp
  · split at hf
    · cases hf
    · cases hf
      rw [hset s.db s.world _ hi]
      exact .lock hp
  · cases hf
    rw [hset s.db s.world _ hi]
    exact .query hp
  · split at hf
    · cases hf
    · cases hf
      rw [hset s.db s.world _ hi]
      exact .exec hp
  · cases hf
    rw [hset (view (s.thread i).writes s.db) s.world _ hi]
    exact .commit hp
  · rename_i f next
    cases hf
    rw [hset s.db (f s.world) _ hi]
    exact .call hp

/-- What all programs start with and every node keeps, every client of a run has. -/
theorem Reaches.each_thread {T : Thread S → Prop} (h₀ : s.threads = []) (hdone : T Thread.done)
    (hstart : ∀ p, Ops p → T ⟨p, [], []⟩)
    (hnode : ∀ s (t t' : Thread S), t.Next s t' → T t → T t') (hr : Reaches Ops ok s s')
    (i : Nat) : T (s'.thread i) := by
  induction hr with
  | refl =>
    have hthread : s.thread i = Thread.done := by simp [State.thread, h₀]
    rw [hthread]
    exact hdone
  | @step s₁ s₂ m hr hm hf ih =>
    cases m with
    | start p =>
      simp only [State.fire, Option.some.injEq] at hf
      subst hf
      simp only [State.thread, List.getD_eq_getElem?_getD] at ih ⊢
      rcases Nat.lt_trichotomy i s₁.threads.length with hlt | heq | hgt
      · rw [List.getElem?_append_left hlt]
        exact ih
      · subst heq
        rw [List.getElem?_append_right (Nat.le_refl _), Nat.sub_self]
        exact hstart p hm
      · rw [List.getElem?_eq_none (by simp; omega)]
        exact hdone
    | crash j =>
      simp only [State.fire, Option.some.injEq] at hf
      subst hf
      rw [State.thread_setThread]
      split
      · exact hdone
      · exact ih
    | run j =>
      by_cases hij : j = i
      · subst hij
        exact hnode _ _ _ (next_of_advance hf) ih
      · rw [State.thread_of_advance hf hij]
        exact ih

omit [DecidableEq S.Key] in
/-- What is left of a client after a node. -/
private theorem Thread.Next.afterCommits {R : S.Event → Prog S Unit → Prop} {t t' : Thread S}
    (hn : t.Next s t') (h : t.prog.AfterCommits R) : t'.prog.AfterCommits R := by
  cases hn with
  | throw => trivial
  | lock hprog =>
    rw [hprog] at h
    exact h
  | query hprog | exec hprog | call hprog =>
    rw [hprog] at h
    exact h _
  | commit hprog =>
    rw [hprog] at h
    exact h.2

/-- The clients of a run go on as their programs do after a commit. -/
theorem Reaches.afterCommits {R : S.Event → Prog S Unit → Prop}
    (hOps : ∀ p, Ops p → p.AfterCommits R) (h₀ : s.threads = []) (hr : Reaches Ops ok s s') :
    (s'.thread i).prog.AfterCommits R :=
  hr.each_thread (T := fun t => t.prog.AfterCommits R) h₀ trivial hOps
    (fun _ _ _ hn h => hn.afterCommits h) i

/-- **A transaction that commits returns.** -/
theorem returns_of_event (h : (s.thread i).prog.CommitsLast) {ev : S.Event}
    (hev : s.event i = some ev) (hi : i < s.threads.length) (hf : s.advance i = some s') :
    ∃ a, (s'.thread i).prog = .ret a := by
  unfold State.event at hev
  simp only [State.advance] at hf
  split at hev
  · rename_i next hp
    rw [hp] at h hf
    obtain ⟨a, rfl⟩ := h
    cases hf
    refine ⟨a, ?_⟩
    rw [State.thread_setThread, if_pos ⟨rfl, hi⟩]
  · rename_i hp
    rw [hp] at h
    exact h.elim
  · cases hev

end Transactions
