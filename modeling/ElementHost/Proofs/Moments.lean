import Mathlib.Data.List.Induction

/-!
# Moments of a run

A run is a list of steps in their order, and a history is a list of events with the latest first.
What is said about every step, given the steps before it, or about every event, given the events
before it, is proved from the end of the run or of the history.

* `concat_eq_split_iff`, the moments of a run that is one step longer;
* `moment_trichotomy`, for two moments of a run;
* `Since`, a step of one kind with none but steps of another kind behind it;
* `forall_moment_concat_iff`, for the steps of a run;
* `forall_event_cons_iff`, for the events of a history.
-/

namespace ElementHost

variable {α : Type}

/-- The moments of a list of steps that is one step longer: those of the shorter list, and the last
step. -/
theorem concat_eq_split_iff (steps earlier later : List α) (last step : α) :
    steps ++ [last] = earlier ++ step :: later ↔
      later = [] ∧ earlier = steps ∧ step = last ∨
        ∃ between, later = between ++ [last] ∧ steps = earlier ++ step :: between := by
  constructor
  · intro h
    rcases List.eq_nil_or_concat later with rfl | ⟨between, d, rfl⟩
    · obtain ⟨rfl, hd⟩ := List.append_singleton_inj.1 h
      exact .inl ⟨rfl, rfl, hd.symm⟩
    · rw [List.concat_eq_append, ← List.cons_append, ← List.append_assoc] at h
      obtain ⟨rfl, rfl⟩ := List.append_singleton_inj.1 h
      exact .inr ⟨between, List.concat_eq_append, rfl⟩
  · rintro (⟨rfl, rfl, rfl⟩ | ⟨between, rfl, rfl⟩)
    · rfl
    · simp

/-- Of two moments of a run one comes first, if they are not the same. -/
theorem moment_trichotomy {earlier earlier' later later' : List α} {step step' : α}
    (h : earlier ++ step :: later = earlier' ++ step' :: later') :
    (∃ between, earlier' = earlier ++ step :: between ∧ later = between ++ step' :: later') ∨
      (earlier = earlier' ∧ step = step' ∧ later = later') ∨
        ∃ between, earlier = earlier' ++ step' :: between ∧
          later' = between ++ step :: later := by
  rcases List.append_eq_append_iff.1 h with ⟨gap, rfl, hgap⟩ | ⟨gap, rfl, hgap⟩
  · cases gap with
    | nil =>
      obtain ⟨rfl, rfl⟩ := List.cons.inj hgap
      exact .inr (.inl ⟨by simp, rfl, rfl⟩)
    | cons first between =>
      obtain ⟨rfl, rfl⟩ := List.cons.inj hgap
      exact .inl ⟨between, rfl, rfl⟩
  · cases gap with
    | nil =>
      obtain ⟨rfl, rfl⟩ := List.cons.inj hgap
      exact .inr (.inl ⟨by simp, rfl, rfl⟩)
    | cons first between =>
      obtain ⟨rfl, rfl⟩ := List.cons.inj hgap
      exact .inr (.inr ⟨between, rfl, rfl⟩)

/-- There was a step with the property `P`, and every step since has the property `Q`. -/
def Since (P Q : α → Prop) (steps : List α) : Prop :=
  ∃ earlier step later, steps = earlier ++ step :: later ∧ P step ∧ ∀ d ∈ later, Q d

theorem not_since_nil (P Q : α → Prop) : ¬ Since P Q [] := by
  rintro ⟨earlier, step, later, h, -⟩
  simp at h

theorem since_concat_iff (P Q : α → Prop) (steps : List α) (last : α) :
    Since P Q (steps ++ [last]) ↔ P last ∨ Since P Q steps ∧ Q last := by
  constructor
  · rintro ⟨earlier, step, later, h, hp, hq⟩
    rcases (concat_eq_split_iff ..).1 h with ⟨-, -, rfl⟩ | ⟨between, rfl, rfl⟩
    · exact .inl hp
    · exact .inr ⟨⟨earlier, step, between, rfl, hp, fun d hd => hq d (by simp [hd])⟩,
        hq last (by simp)⟩
  · rintro (hp | ⟨⟨earlier, step, later, rfl, hp, hq⟩, hlast⟩)
    · exact ⟨steps, last, [], rfl, hp, by simp⟩
    · refine ⟨earlier, step, later ++ [last], by simp, hp, ?_⟩
      intro d hd
      rcases List.mem_append.1 hd with hd | hd
      · exact hq d hd
      · rw [List.mem_singleton.1 hd]
        exact hlast

/-- Steps that have the property `Q` and not `P` change nothing. -/
theorem since_append_iff_of_forall {P Q : α → Prop} {more : List α}
    (h : ∀ d ∈ more, ¬ P d ∧ Q d) (steps : List α) :
    Since P Q (steps ++ more) ↔ Since P Q steps := by
  induction more using List.reverseRecOn with
  | nil => simp
  | append_singleton more last ih =>
    obtain ⟨hp, hq⟩ := h last (by simp)
    have hmore := ih fun d hd => h d (by simp [hd])
    rw [← List.append_assoc, since_concat_iff, hmore]
    simp [hp, hq]

/-- Whether there was such a step can be found out from the first step on. -/
theorem since_iff_foldl (P Q : α → Prop) [DecidablePred P] [DecidablePred Q] (steps : List α) :
    Since P Q steps ↔
      steps.foldl (fun found d => decide (P d) || found && decide (Q d)) false = true := by
  induction steps using List.reverseRecOn with
  | nil => simpa using not_since_nil P Q
  | append_singleton steps last ih =>
    rw [since_concat_iff, ih, List.foldl_append]
    simp

instance (P Q : α → Prop) [DecidablePred P] [DecidablePred Q] : DecidablePred (Since P Q) :=
  fun steps => decidable_of_iff _ (since_iff_foldl P Q steps).symm

/-- What holds at every moment of a list of steps that is one step longer: it holds at every moment
of the shorter list, and at the last step. -/
theorem forall_moment_concat_iff {P : List α → α → Prop} (steps : List α) (last : α) :
    (∀ earlier step later, steps ++ [last] = earlier ++ step :: later → P earlier step) ↔
      (∀ earlier step later, steps = earlier ++ step :: later → P earlier step) ∧
        P steps last := by
  constructor
  · intro h
    refine ⟨?_, h steps last [] rfl⟩
    rintro earlier step later rfl
    exact h earlier step (later ++ [last]) (by simp)
  · rintro ⟨h, hlast⟩ earlier step later hs
    rcases (concat_eq_split_iff ..).1 hs with ⟨-, rfl, rfl⟩ | ⟨between, -, hs⟩
    · exact hlast
    · exact h earlier step between hs

/-- What holds of every event of a history, given what came before, holds of the latest one and of
those before it. -/
theorem forall_event_cons_iff {P : α → List α → Prop} (latest : α) (history : List α) :
    (∀ newer event earlier, latest :: history = newer ++ event :: earlier → P event earlier) ↔
      P latest history ∧
        ∀ newer event earlier, history = newer ++ event :: earlier → P event earlier := by
  constructor
  · intro h
    refine ⟨h [] latest history rfl, ?_⟩
    rintro newer event earlier rfl
    exact h (latest :: newer) event earlier rfl
  · rintro ⟨hlatest, h⟩ newer event earlier hs
    cases newer with
    | nil =>
      cases hs
      exact hlatest
    | cons _ newer => exact h newer event earlier (List.cons.inj hs).2

end ElementHost
