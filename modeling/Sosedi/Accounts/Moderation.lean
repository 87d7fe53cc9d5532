import Sosedi.Accounts.Listings

/-!
# Moderation

`approveItem` and `rejectItem` find the item `PENDING` and then write it by its id.  The log of
an item says which writes it had, with the status before and after each.

Proved here: the item may have been hidden or edited in between (`Scenario.moderation_race`); in a
run in which no write separates an approval from its check, and none but a new submission a
rejection, moderation decides what was reviewed (`moderation_reviewed`).
-/

namespace Sosedi

open Transactions

variable {i : Id} {item item' : Item}

/-- The decisions of a moderator. -/
def ItemWrite.decides : ItemWrite → Bool
  | .approve _ | .reject _ => true
  | _ => false

/-- Every decision on the item starts from `PENDING`, between two decisions the item entered
`PENDING` again, and no write of the owner lies between an approval and its check. -/
structure Reviewed (changes : List ItemChange) : Prop where
  pending : ∀ (n : Nat) (c : ItemChange), changes[n]? = some c → c.write.decides = true →
    c.before = .pending
  once : ∀ (n n' : Nat) (c c' : ItemChange), n < n' → changes[n]? = some c →
    changes[n']? = some c' → c.write.decides = true → c'.write.decides = true →
    ∃ (j : Nat) (e : ItemChange), n < j ∧ j < n' ∧ changes[j]? = some e ∧ e.before ≠ .pending ∧
      e.after = .pending
  unchanged : ∀ (n : Nat) (c : ItemChange) (checkedAt : Nat), changes[n]? = some c →
    c.write = .approve checkedAt → ∀ (j : Nat) (e : ItemChange), checkedAt ≤ j → j < n →
    changes[j]? = some e → e.write.byOwner = false

/-- The item was not written between an approval and its check; the last write between a
rejection and its check, if there is one, submitted the item again. -/
def decisionsInTime : Event → Store → Bool
  | .account (.approveItem itemId checkedAt _), σ =>
    (σ.1.items.get itemId).all fun item => item.changes.length == checkedAt
  | .account (.rejectItem itemId checkedAt _ _), σ =>
    (σ.1.items.get itemId).all fun item =>
      (item.changes.drop checkedAt).getLast?.all fun c => c.write.sets == .pending
  | _, _ => true

/-! ## The log of an item -/

/-- The log is a chain that ends in the status of the row, its decisions start from `PENDING`, and
its approvals follow no unseen write of the owner. -/
structure Item.Logged (item : Item) : Prop where
  sets : ∀ (n : Nat) (c : ItemChange), item.changes[n]? = some c → c.after = c.write.sets
  chain : ∀ (n : Nat) (c c' : ItemChange), item.changes[n]? = some c →
    item.changes[n + 1]? = some c' → c'.before = c.after
  last : ∀ c : ItemChange, item.changes.getLast? = some c → c.after = item.status
  pending : ∀ (n : Nat) (c : ItemChange), item.changes[n]? = some c → c.write.decides = true →
    c.before = .pending
  unchanged : ∀ (n : Nat) (c : ItemChange) (checkedAt : Nat), item.changes[n]? = some c →
    c.write = .approve checkedAt → ∀ (j : Nat) (e : ItemChange), checkedAt ≤ j → j < n →
    item.changes[j]? = some e → e.write.byOwner = false

private theorem getElem?_concat {α : Type} {l : List α} {x y : α} {n : Nat}
    (h : (l ++ [x])[n]? = some y) : l[n]? = some y ∨ n = l.length ∧ y = x := by
  rcases Nat.lt_trichotomy n l.length with hn | rfl | hn
  · rw [List.getElem?_append_left hn] at h
    exact Or.inl h
  · rw [List.getElem?_concat_length, Option.some.injEq] at h
    exact Or.inr ⟨rfl, h.symm⟩
  · rw [List.getElem?_eq_none (by simp; omega)] at h
    cases h

theorem Item.Logged.of_nil (h : item.changes = []) : item.Logged := by
  constructor <;> simp [h]

/-- One more write; a decision starts from `PENDING`, and an approval has seen the whole log. -/
theorem Item.Logged.write {write : ItemWrite} (h : item.Logged) (hw : item.Written write item')
    (hpending : write.decides = true → item.status = .pending)
    (happrove : ∀ checkedAt, write = .approve checkedAt → checkedAt = item.changes.length) :
    item'.Logged := by
  have hinv : ∀ {n c}, item'.changes[n]? = some c → item.changes[n]? = some c ∨
      n = item.changes.length ∧ c = ⟨write, item.status, write.sets⟩ := by
    intro n c hc
    rw [hw.changes] at hc
    exact getElem?_concat hc
  have hlt : ∀ {n c}, item.changes[n]? = some c → n < item.changes.length := by
    intro n c hc
    exact (List.getElem?_eq_some_iff.mp hc).1
  refine ⟨fun n c hc => ?_, fun n c c' hc hc' => ?_, fun c hc => ?_, fun n c hc hdecides => ?_,
    fun n c checkedAt hc hcw j e hj hjn he => ?_⟩
  · rcases hinv hc with hc | ⟨-, rfl⟩
    · exact h.sets n c hc
    · rfl
  · rcases hinv hc with hc | ⟨rfl, -⟩
    · rcases hinv hc' with hc' | ⟨hn, rfl⟩
      · exact h.chain n c c' hc hc'
      · refine (h.last c ?_).symm
        rw [List.getLast?_eq_getElem?, ← hn]
        exact hc
    · rcases hinv hc' with hc' | ⟨hn, -⟩
      · have := hlt hc'
        omega
      · omega
  · rw [hw.changes, List.getLast?_concat, Option.some.injEq] at hc
    rw [hw.status, ← hc]
  · rcases hinv hc with hc | ⟨-, rfl⟩
    · exact h.pending n c hc hdecides
    · exact hpending hdecides
  · rcases hinv hc with hc | ⟨rfl, rfl⟩
    · rcases hinv he with he | ⟨rfl, -⟩
      · exact h.unchanged n c checkedAt hc hcw j e hj hjn he
      · have := hlt hc
        omega
    · have := happrove checkedAt hcw
      omega

/-- In a log, a decision comes after an entry into `PENDING` that follows the decision before. -/
theorem Item.Logged.reviewed (h : item.Logged) : Reviewed item.changes := by
  refine ⟨h.pending, fun n n' c c' hlt hc hc' hdecides hdecides' => ?_, h.unchanged⟩
  have hafter : c.after ≠ .pending := by
    rw [h.sets n c hc]
    cases hw : c.write <;> simp [hw, ItemWrite.decides, ItemWrite.sets] at hdecides ⊢
  have hbefore : c'.before = .pending := h.pending n' c' hc' hdecides'
  -- from a write that left the item `PENDING` back to the one that entered it
  have hwalk : ∀ (j : Nat) (e : ItemChange), n ≤ j → j < n' → item.changes[j]? = some e →
      e.after = .pending → ∃ (j : Nat) (e : ItemChange), n < j ∧ j < n' ∧
        item.changes[j]? = some e ∧ e.before ≠ .pending ∧ e.after = .pending := by
    intro j e hnj
    induction j, hnj using Nat.le_induction generalizing e with
    | base =>
      intro _ he hpending
      rw [hc, Option.some.injEq] at he
      exact absurd (he ▸ hpending) hafter
    | succ j hnj ih =>
      intro hj he hpending
      by_cases hbefore : e.before = .pending
      · have hlen : j + 1 < item.changes.length := (List.getElem?_eq_some_iff.mp he).1
        have hprev : item.changes[j]? = some item.changes[j] := List.getElem?_eq_getElem (by omega)
        refine ih _ (by omega) hprev ?_
        rw [← h.chain _ _ _ hprev he, hbefore]
      · exact ⟨_, e, by omega, hj, he, hbefore, hpending⟩
  obtain ⟨m, rfl⟩ : ∃ m, n' = m + 1 := ⟨n' - 1, by omega⟩
  have hlen : m + 1 < item.changes.length := (List.getElem?_eq_some_iff.mp hc').1
  have hprev : item.changes[m]? = some item.changes[m] := List.getElem?_eq_getElem (by omega)
  refine hwalk m _ (by omega) (by omega) hprev ?_
  rw [← h.chain _ _ _ hprev hc', hbefore]

/-! ## Steps -/

variable {sha256 : Bytes → String} {ev : Event} {K : List LockKey} {a b : Store}

theorem Event.get_of_applyItems {t : Table Id Item} (h : (ev.applyItems t).get i = some item') :
    ∃ item, t.get i = some item := by
  by_contra hnone
  have hnone : t.get i = none := by simpa [Option.eq_none_iff_forall_ne_some] using hnone
  unfold applyItems at h
  split at h <;> simp [Table.get_modify, hnone] at h

/-- A decision in time finds the item `PENDING`. -/
theorem pending_of_decides {write : ItemWrite} (hlog : item.Logged)
    (hitem : a.1.items.get i = some item) (hw : ev.writesItem = some (i, write))
    (hdecides : write.decides = true) (hok : decisionsInTime ev a = true)
    (hg : ev.AccountGuard K a) : item.status = .pending ∧
      ∀ checkedAt, write = .approve checkedAt → checkedAt = item.changes.length := by
  unfold Event.writesItem at hw
  split at hw <;> cases hw
  · cases hdecides
  · cases hdecides
  · cases hdecides
  · obtain ⟨x, hx, hle, hpending⟩ := hg
    rw [hitem, Option.some.injEq] at hx
    subst hx
    simp only [decisionsInTime, hitem, Option.all_some, beq_iff_eq] at hok
    refine ⟨hpending hok, fun checkedAt hw => ?_⟩
    cases hw
    exact hok.symm
  · obtain ⟨x, hx, hle, hpending⟩ := hg
    rw [hitem, Option.some.injEq] at hx
    subst hx
    simp only [decisionsInTime, hitem, Option.all_some] at hok
    refine ⟨?_, fun checkedAt hw => by cases hw⟩
    rename_i checkedAt _ _
    by_cases hlen : item.changes.length ≤ checkedAt
    · exact hpending (by omega)
    · have hne : item.changes ≠ [] := by
        rintro hnil
        simp [hnil] at hlen
      have hlast : item.changes.getLast? = some (item.changes.getLast hne) :=
        List.getLast?_eq_some_getLast hne
      rw [List.getLast?_drop, if_neg hlen, hlast, Option.all_some, beq_iff_eq] at hok
      rw [← hlog.last _ hlast, ← hok]
      exact hlog.sets _ _ (List.getLast?_eq_getElem? ▸ hlast)
  · cases hdecides

theorem Item.Logged.step (hok : decisionsInTime ev a = true) (hg : Guar sha256 ev K a b)
    (h : ∀ i item, a.1.items.get i = some item → item.Logged)
    (hitem' : b.1.items.get i = some item') : item'.Logged := by
  rw [hg.accounts.items] at hitem'
  obtain ⟨item, hitem⟩ := Event.get_of_applyItems hitem'
  rcases Event.get_applyItems_inv hitem hitem' with rfl | ⟨write, hwrites, hwritten⟩
  · exact h i _ hitem
  · have hdecision := fun hdecides =>
      pending_of_decides (h i item hitem) hitem hwrites hdecides hok hg.accounts.guard
    refine (h i item hitem).write hwritten (fun hdecides => (hdecision hdecides).1) ?_
    rintro checkedAt rfl
    exact (hdecision rfl).2 checkedAt rfl

/-! ## Runs -/

variable {s₀ s : State Sys}

/-- **Moderation decides what was reviewed**, in every run that is in time. -/
theorem moderation_reviewed (h : Runs sha256 (fun ev σ => decisionsInTime ev σ = true) s₀ s)
    (hitem : s.db.items.get i = some item) : Reviewed item.changes := by
  have hlogged : ∀ i item, s.store.1.items.get i = some item → item.Logged := by
    refine h.invariant (P := fun σ => ∀ i item, σ.1.items.get i = some item → item.Logged) ?_ ?_
    · intro σ hi i item hitem
      exact Item.Logged.of_nil (hi.changes i item hitem)
    · intro ev K a b _ hok hg ha i item hitem
      exact Item.Logged.step hok hg ha hitem
  exact (hlogged i item hitem).reviewed

namespace Scenario

/-- The lender edits the drill; a moderator approves it, and after `nodes` nodes of that the lender
hides it. -/
def approveAndHide (nodes : Nat) : List Line :=
  [.call editPrice, .run 0 5, .call (.approveItem 3 1), .run 1 nodes, .call (.hideItem 2 1),
    .run 2 5, .run 1 20]

/-- The approval is finished when the lender hides the drill. -/
theorem moderation_reviewed_hidden : ∃ item,
    (play (fun ev σ => decisionsInTime ev σ = true) hash state (approveAndHide 20)).db.items.get
        1 = some item ∧
      item.changes = [⟨.updateOwn, .approved, .pending⟩, ⟨.approve 1, .pending, .approved⟩,
        ⟨.hideOwn, .approved, .hidden⟩] ∧ Reviewed item.changes := by
  have hitem : ((play (fun ev σ => decisionsInTime ev σ = true) hash state
      (approveAndHide 20)).db.items.get 1).map (·.changes) =
        some [⟨.updateOwn, .approved, .pending⟩, ⟨.approve 1, .pending, .approved⟩,
          ⟨.hideOwn, .approved, .hidden⟩] := by decide +kernel
  obtain ⟨item, hitem, hchanges⟩ := Option.map_eq_some_iff.mp hitem
  exact ⟨item, hitem, hchanges, moderation_reviewed ((runs _).play _) hitem⟩

/-- The approval makes the hidden drill visible. -/
theorem moderation_race : ∃ item,
    Runs hash anyEvent state (play anyEvent hash state (approveAndHide 2)) ∧
      (play anyEvent hash state (approveAndHide 2)).db.items.get 1 = some item ∧
      ¬Reviewed item.changes := by
  have hitem : ((play anyEvent hash state (approveAndHide 2)).db.items.get 1).map (·.changes) =
      some [⟨.updateOwn, .approved, .pending⟩, ⟨.hideOwn, .pending, .hidden⟩,
        ⟨.approve 1, .hidden, .approved⟩] := by decide +kernel
  obtain ⟨item, hitem, hchanges⟩ := Option.map_eq_some_iff.mp hitem
  refine ⟨item, (runs anyEvent).play _, hitem, fun h => ?_⟩
  have hbefore := h.pending 2 ⟨.approve 1, .hidden, .approved⟩ (by rw [hchanges]; rfl) rfl
  cases hbefore

end Scenario

end Sosedi
