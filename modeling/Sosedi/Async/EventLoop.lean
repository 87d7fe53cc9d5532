import Mathlib.Data.List.Perm.Basic
import Mathlib.Tactic.Common

/-!
# Single-threaded event loops

A `Loop` runs calls that suspend at their awaits.  A call runs up to its first await and leaves
what it waits for; when the answer arrives, the suspended call runs up to its next await.
Between two awaits nothing else happens, and anything may happen during one.

Proved here:

* `step_call`, `step_answer`, `step_cases`: what one step does;
* `Runs.invariant`: a relation between the past and the present that every step keeps;
* `Runs.mono`, `Runs.trans`: runs under weaker conditions, and runs one after the other;
* `runs_of_play`: a script that can be played is a run.
-/

namespace Async

/-- `resume w a σ` is `none` where the answer `a` cannot arrive at `w`. -/
structure Loop (State Call Wait Answer : Type) where
  call : Call → State → State × List Wait
  resume : Wait → Answer → State → Option (State × List Wait)

inductive Event (Call Wait Answer : Type) where
  | call (c : Call)
  | answer (w : Wait) (a : Answer)
  deriving DecidableEq

structure Config (State Wait : Type) where
  state : State
  waits : List Wait
  deriving DecidableEq

variable {State Call Wait Answer : Type} [DecidableEq Wait]

namespace Loop

def step (L : Loop State Call Wait Answer) :
    Event Call Wait Answer → Config State Wait → Option (Config State Wait)
  | .call c, k => some ⟨(L.call c k.state).1, k.waits ++ (L.call c k.state).2⟩
  | .answer w a, k =>
    if w ∈ k.waits then
      (L.resume w a k.state).map fun r => ⟨r.1, k.waits.erase w ++ r.2⟩
    else none

/-- The runs from `k₀` whose steps all meet `cond`, with the events so far. -/
inductive Runs (L : Loop State Call Wait Answer)
    (cond : Event Call Wait Answer → Config State Wait → Prop) (k₀ : Config State Wait) :
    List (Event Call Wait Answer) → Config State Wait → Prop
  | start : Runs L cond k₀ [] k₀
  | step {es : List (Event Call Wait Answer)} {e : Event Call Wait Answer}
      {k k' : Config State Wait} :
      Runs L cond k₀ es k → cond e k → L.step e k = some k' → Runs L cond k₀ (es ++ [e]) k'

def play (L : Loop State Call Wait Answer)
    (cond : Event Call Wait Answer → Config State Wait → Bool) :
    List (Event Call Wait Answer) → Config State Wait → Option (Config State Wait)
  | [], k => some k
  | e :: es, k => if cond e k then (L.step e k).bind (L.play cond es) else none

variable {L : Loop State Call Wait Answer}
  {cond : Event Call Wait Answer → Config State Wait → Prop}
  {k₀ k k' : Config State Wait} {es : List (Event Call Wait Answer)}
  {e : Event Call Wait Answer}

theorem step_call {c : Call} (h : L.step (.call c) k = some k') :
    k' = ⟨(L.call c k.state).1, k.waits ++ (L.call c k.state).2⟩ := by
  simpa only [step, Option.some.injEq, eq_comm] using h

theorem step_answer {w : Wait} {a : Answer} (h : L.step (.answer w a) k = some k') :
    ∃ (σ : State) (new : List Wait), w ∈ k.waits ∧ L.resume w a k.state = some (σ, new) ∧
      k' = ⟨σ, k.waits.erase w ++ new⟩ := by
  simp only [step] at h
  split at h
  · next hw =>
    obtain ⟨⟨σ, new⟩, hr, rfl⟩ := Option.map_eq_some_iff.mp h
    exact ⟨σ, new, hw, hr, rfl⟩
  · cases h

/-- A relation between the past and the present that holds at first and that every step keeps. -/
theorem Runs.invariant {I : List (Event Call Wait Answer) → Config State Wait → Prop}
    (start : I [] k₀)
    (call : ∀ (es : List (Event Call Wait Answer)) (c : Call) (σ : State) (ws : List Wait),
      I es ⟨σ, ws⟩ → cond (.call c) ⟨σ, ws⟩ →
        I (es ++ [.call c]) ⟨(L.call c σ).1, ws ++ (L.call c σ).2⟩)
    (answer : ∀ (es : List (Event Call Wait Answer)) (w : Wait) (a : Answer) (σ σ' : State)
      (ws new : List Wait), I es ⟨σ, ws⟩ → cond (.answer w a) ⟨σ, ws⟩ → w ∈ ws →
        L.resume w a σ = some (σ', new) → I (es ++ [.answer w a]) ⟨σ', ws.erase w ++ new⟩)
    (h : L.Runs cond k₀ es k) : I es k := by
  induction h with
  | start => exact start
  | @step es e k k' _ hc hs ih =>
    obtain ⟨σ, ws⟩ := k
    cases e with
    | call c =>
      rw [step_call hs]
      exact call es c σ ws ih hc
    | answer w a =>
      obtain ⟨σ', new, hw, hr, rfl⟩ := step_answer hs
      exact answer es w a σ σ' ws new ih hc hw hr

theorem Runs.mono {cond' : Event Call Wait Answer → Config State Wait → Prop}
    (hc : ∀ e k, cond e k → cond' e k) (h : L.Runs cond k₀ es k) : L.Runs cond' k₀ es k := by
  induction h with
  | start => exact .start
  | step _ h hs ih => exact .step ih (hc _ _ h) hs

theorem Runs.trans {es' : List (Event Call Wait Answer)} (h : L.Runs cond k₀ es k)
    (h' : L.Runs cond k es' k') : L.Runs cond k₀ (es ++ es') k' := by
  induction h' with
  | start => simpa using h
  | step _ hc hs ih =>
    rw [← List.append_assoc]
    exact .step ih hc hs

theorem Runs.cons {k₁ : Config State Wait} (hc : cond e k₀) (hs : L.step e k₀ = some k₁)
    (h : L.Runs cond k₁ es k) : L.Runs cond k₀ (e :: es) k :=
  (Runs.step .start hc hs).trans h

/-- A script that can be played is a run. -/
theorem runs_of_play {cond : Event Call Wait Answer → Config State Wait → Bool}
    (h : L.play cond es k₀ = some k) : L.Runs (fun e k => cond e k = true) k₀ es k := by
  induction es generalizing k₀ with
  | nil =>
    obtain rfl : k₀ = k := by simpa [play] using h
    exact .start
  | cons e es ih =>
    simp only [play] at h
    split at h
    · next hc =>
      obtain ⟨k₁, hs, h⟩ := Option.bind_eq_some_iff.mp h
      exact .cons hc hs (ih h)
    · cases h

end Loop

section Waits

variable {ws : List Wait} {w : Wait}

/-- What is in flight of a kind, when one answer has arrived. -/
theorem filterMap_perm_of_mem {β : Type} (f : Wait → Option β) {b : β} (hw : w ∈ ws)
    (hf : f w = some b) : (ws.filterMap f).Perm (b :: (ws.erase w).filterMap f) := by
  have h := (List.perm_cons_erase hw).filterMap f
  rwa [List.filterMap_cons_some hf] at h

theorem filterMap_erase_of_none {β : Type} (f : Wait → Option β) (hf : f w = none) :
    (ws.erase w).filterMap f = ws.filterMap f := by
  induction ws with
  | nil => rfl
  | cons v ws ih =>
    by_cases h : v = w
    · subst h
      rw [List.erase_cons_head, List.filterMap_cons_none hf]
    · rw [List.erase_cons_tail (by simpa using h), List.filterMap_cons, List.filterMap_cons, ih]

/-- A step that neither answers nor leaves a wait of a kind. -/
theorem filterMap_step_of_none {β : Type} {f : Wait → Option β} {new : List Wait}
    (hf : f w = none) (hnew : new.filterMap f = []) :
    (ws.erase w ++ new).filterMap f = ws.filterMap f := by
  rw [List.filterMap_append, filterMap_erase_of_none f hf, hnew, List.append_nil]

/-- A step that answers one wait of a kind and leaves one. -/
theorem filterMap_step_perm {β : Type} {f : Wait → Option β} {b b' : β} {w' : Wait} (hw : w ∈ ws)
    (hf : f w = some b) (hf' : f w' = some b') (heq : b = b') :
    ((ws.erase w ++ [w']).filterMap f).Perm (ws.filterMap f) := by
  rw [List.filterMap_append, List.filterMap_cons_some hf', List.filterMap_nil, ← heq]
  exact (List.perm_append_singleton _ _).trans (filterMap_perm_of_mem f hw hf).symm

theorem not_mem_of_nodup {β : Type} {f : Wait → Option β} {b : β} (h : (ws.filterMap f).Nodup)
    (hw : w ∈ ws) (hf : f w = some b) : b ∉ (ws.erase w).filterMap f :=
  (List.nodup_cons.mp ((filterMap_perm_of_mem f hw hf).nodup_iff.mp h)).1

/-- Where the waits of a kind have different values, those that remain differ from the one that
was answered. -/
theorem ne_of_nodup {β : Type} {f : Wait → Option β} {b b' : β} {w' : Wait}
    (h : (ws.filterMap f).Nodup) (hw : w ∈ ws) (hf : f w = some b) (hw' : w' ∈ ws.erase w)
    (hf' : f w' = some b') : b' ≠ b := by
  rintro rfl
  exact not_mem_of_nodup h hw hf (List.mem_filterMap.mpr ⟨w', hw', hf'⟩)

theorem Nodup.filterMap_erase {β : Type} {f : Wait → Option β} (h : (ws.filterMap f).Nodup) :
    ((ws.erase w).filterMap f).Nodup :=
  h.sublist (List.erase_sublist.filterMap f)

omit [DecidableEq Wait] in
theorem Nodup.filterMap_concat {β : Type} {f : Wait → Option β} {b : β}
    (h : (ws.filterMap f).Nodup) (hf : f w = some b) (hb : b ∉ ws.filterMap f) :
    ((ws ++ [w]).filterMap f).Nodup := by
  rw [List.filterMap_append, List.filterMap_cons_some hf, List.filterMap_nil]
  have hsingle : [b].Nodup := List.nodup_cons.mpr ⟨List.not_mem_nil, List.nodup_nil⟩
  refine List.nodup_append.mpr ⟨h, hsingle, fun a ha b' hb' hab => ?_⟩
  rw [List.mem_singleton.mp hb'] at hab
  exact hb (hab ▸ ha)

end Waits

end Async
