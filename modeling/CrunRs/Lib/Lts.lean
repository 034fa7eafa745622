import Mathlib.Data.List.Induction

/-!
# Schedules of a labelled transition system

A system is a partial step function: `step s a` is the state after the action `a`, or `none` if `a`
is not enabled in `s`.  The action carries every choice there is — whose turn it is, and how a call
to the outside turned out — so a *schedule*, a list of actions, determines a run, and a run is
replayed by evaluation.

`invariant_along` is the induction over runs.  It is stated for runs whose steps meet a side
condition (`Along`), so that the same rule serves what holds in every run (`invariant`) and what
holds in the runs that avoid some interleaving.  Where a step breaks a property exactly if it does
not meet the condition, so does a run (`throughout_iff_along`).
-/

set_option autoImplicit false

namespace Lts

universe u v

variable {σ : Type u} {ι : Type v} (step : σ → ι → Option σ)

/-! ## Runs -/

/-- The state after a schedule, if every action was enabled when its turn came. -/
def exec : σ → List ι → Option σ
  | s, [] => some s
  | s, a :: as => (step s a).bind fun s' ↦ exec s' as

/-- The states some schedule leads to. -/
def Reachable (s t : σ) : Prop := ∃ as, exec step s as = some t

variable {step}

theorem exec_cons_eq_some_iff {s t : σ} {a : ι} {as : List ι} :
    exec step s (a :: as) = some t ↔ ∃ s', step s a = some s' ∧ exec step s' as = some t :=
  Option.bind_eq_some_iff

theorem Reachable.refl (s : σ) : Reachable step s s := ⟨[], rfl⟩

theorem Reachable.head {s s' t : σ} {a : ι} (ha : step s a = some s') (h : Reachable step s' t) :
    Reachable step s t := by
  obtain ⟨as, hexec⟩ := h
  exact ⟨a :: as, exec_cons_eq_some_iff.mpr ⟨s', ha, hexec⟩⟩

theorem Reachable.trans {s t u : σ} (h : Reachable step s t) (h' : Reachable step t u) :
    Reachable step s u := by
  obtain ⟨as, hexec⟩ := h
  induction as generalizing s with
  | nil => exact Option.some.inj hexec ▸ h'
  | cons a as ih =>
    obtain ⟨s', ha, hrest⟩ := exec_cons_eq_some_iff.mp hexec
    exact .head ha (ih hrest)

/-! ## Runs whose steps meet a condition -/

variable (step) in
/-- Every action of the schedule meets `C` in the state it is taken from. -/
def Along (C : σ → ι → Prop) : σ → List ι → Prop
  | _, [] => True
  | s, a :: as => C s a ∧ ∀ s', step s a = some s' → Along C s' as

theorem along_cons_iff {C : σ → ι → Prop} {s s' : σ} {a : ι} {as : List ι} (h : step s a = some s') :
    Along step C s (a :: as) ↔ C s a ∧ Along step C s' as :=
  and_congr_right fun _ ↦
    ⟨fun hall ↦ hall s' h, fun hrest _ ht ↦ Option.some.inj (h.symm.trans ht) ▸ hrest⟩

instance decidableAlong {C : σ → ι → Prop} [∀ s a, Decidable (C s a)] :
    ∀ s as, Decidable (Along step C s as)
  | _, [] => isTrue trivial
  | s, a :: as => match h : step s a with
    | none => decidable_of_iff (C s a)
        ⟨fun hc ↦ ⟨hc, fun _ hs' ↦ absurd (h.symm.trans hs') (Option.some_ne_none _).symm⟩, And.left⟩
    | some s' =>
      have := decidableAlong (C := C) s' as
      decidable_of_iff (C s a ∧ Along step C s' as)
        ⟨fun hc ↦ ⟨hc.1, fun _ hs' ↦ Option.some.inj (h.symm.trans hs') ▸ hc.2⟩,
          fun hc ↦ ⟨hc.1, hc.2 s' h⟩⟩

variable (step) in
/-- Every state the schedule passes through, the first and the last included, meets `P`. -/
def Throughout (P : σ → Prop) : σ → List ι → Prop
  | s, [] => P s
  | s, a :: as => P s ∧ ∀ s', step s a = some s' → Throughout P s' as

theorem Throughout.head {P : σ → Prop} {s : σ} {as : List ι} (h : Throughout step P s as) : P s := by
  cases as with
  | nil => exact h
  | cons a as => exact h.1

/-! ## Invariants -/

/-- **Invariants along runs.**  What every step that meets `C` preserves holds at the end of every
run whose steps meet `C`. -/
theorem invariant_along {C : σ → ι → Prop} {P : σ → Prop}
    (hstep : ∀ s a s', P s → C s a → step s a = some s' → P s') {s t : σ} {as : List ι}
    (hs : P s) (halong : Along step C s as) (hexec : exec step s as = some t) : P t := by
  induction as generalizing s with
  | nil => exact Option.some.inj hexec ▸ hs
  | cons a as ih =>
    obtain ⟨s', ha, hrest⟩ := exec_cons_eq_some_iff.mp hexec
    exact ih (hstep s a s' hs halong.1 ha) (halong.2 s' ha) hrest

/-- What follows from an invariant that every step meeting `C` preserves holds of all steps of a run
whose steps meet `C`. -/
theorem Along.of_invariant {C D : σ → ι → Prop} {P : σ → Prop}
    (hstep : ∀ s a s', P s → C s a → step s a = some s' → P s') (hD : ∀ s a, P s → D s a) {s : σ}
    {as : List ι} (hs : P s) (h : Along step C s as) : Along step D s as := by
  induction as generalizing s with
  | nil => trivial
  | cons a as ih =>
    exact ⟨hD s a hs, fun s' hs' ↦ ih (hstep s a s' hs h.1 hs') (h.2 s' hs')⟩

/-- If, as long as `P` holds and the invariant `I` with it, a step keeps `P` exactly when it meets
`C`, then `P` holds throughout a run exactly when all of its steps meet `C`. -/
theorem throughout_iff_along {C : σ → ι → Prop} {P I : σ → Prop}
    (hI : ∀ s a s', I s → P s → step s a = some s' → I s')
    (hP : ∀ s a s', I s → P s → step s a = some s' → (P s' ↔ C s a)) {s t : σ} {as : List ι}
    (hs : I s) (hps : P s) (hexec : exec step s as = some t) :
    Throughout step P s as ↔ Along step C s as := by
  induction as generalizing s with
  | nil => exact ⟨fun _ ↦ trivial, fun _ ↦ hps⟩
  | cons a as ih =>
    obtain ⟨s', ha, hrest⟩ := exec_cons_eq_some_iff.mp hexec
    have honly : ∀ s'', step s a = some s'' → s'' = s' := fun s'' h ↦
      Option.some.inj (h.symm.trans ha)
    have hkeep := hP s a s' hs hps ha
    have hinv := hI s a s' hs hps ha
    constructor
    · rintro ⟨_, hall⟩
      have hrest' := hall s' ha
      refine ⟨hkeep.mp hrest'.head, fun s'' hs'' ↦ ?_⟩
      rw [honly s'' hs'']
      exact (ih hinv hrest'.head hrest).mp hrest'
    · rintro ⟨hc, hall⟩
      refine ⟨hps, fun s'' hs'' ↦ ?_⟩
      rw [honly s'' hs'']
      exact (ih hinv (hkeep.mpr hc) hrest).mpr (hall s' ha)

theorem along_of_forall_mem {C : σ → ι → Prop} {as : List ι} (h : ∀ a ∈ as, ∀ s, C s a) (s : σ) :
    Along step C s as := by
  induction as generalizing s with
  | nil => trivial
  | cons a as ih =>
    exact ⟨h a List.mem_cons_self s, fun s' _ ↦ ih (fun b hb ↦ h b (List.mem_cons_of_mem a hb)) s'⟩

/-- **Invariants.**  What every step preserves holds in every reachable state. -/
theorem invariant {P : σ → Prop} (hstep : ∀ s a s', P s → step s a = some s' → P s') {s t : σ}
    (hs : P s) (hreach : Reachable step s t) : P t := by
  obtain ⟨as, hexec⟩ := hreach
  exact invariant_along (fun s a s' hp (_ : True) ha ↦ hstep s a s' hp ha) hs
    (along_of_forall_mem (fun _ _ _ ↦ trivial) s) hexec

/-! ## Histories -/

theorem exec_append (s : σ) (as bs : List ι) :
    exec step s (as ++ bs) = (exec step s as).bind fun s' ↦ exec step s' bs := by
  induction as generalizing s with
  | nil => rfl
  | cons a as ih =>
    rw [List.cons_append, exec, exec, Option.bind_assoc]
    exact congrArg _ (funext ih)

theorem exec_concat_eq_some_iff {s t : σ} {a : ι} {as : List ι} :
    exec step s (as ++ [a]) = some t ↔ ∃ s', exec step s as = some s' ∧ step s' a = some t := by
  simp only [exec_append, Option.bind_eq_some_iff, exec, Option.some.injEq, exists_eq_right]

/-- **Invariants of a state and of what led to it.** -/
theorem history_invariant {P : List ι → σ → Prop}
    (hstep : ∀ as s a s', P as s → step s a = some s' → P (as ++ [a]) s') {s t : σ} {as : List ι}
    (hs : P [] s) (hexec : exec step s as = some t) : P as t := by
  induction as using List.reverseRecOn generalizing t with
  | nil => exact Option.some.inj hexec ▸ hs
  | append_singleton as a ih =>
    obtain ⟨s', hrun, ha⟩ := exec_concat_eq_some_iff.mp hexec
    exact hstep as s' a t (ih hrun) ha

end Lts
