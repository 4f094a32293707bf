import Mathlib.Data.List.Infix

/-!
# Runs of a partial step function

A system is a step function `S → A → Option S` : `none` where the action is not
enabled. `run` takes a list of actions, so a statement about every list is a
statement about every interleaving.

`Always I` says that `I` holds in every state a run passes, `Along p` that `p` holds
of every step it takes. `always_iff_along` is the invariant rule : where one step keeps
`I` exactly when `p` holds of it, a run keeps `I` exactly when `p` holds along it.
-/

namespace Runs

variable {S A : Type*}

/-- The state after the actions `as`, `none` once one of them is not enabled. -/
def run (step : S → A → Option S) : S → List A → Option S
  | s, [] => some s
  | s, a :: as => (step s a).bind fun s' => run step s' as

/-- `I` holds in every state the run passes, the first included. -/
def Always (step : S → A → Option S) (I : S → Prop) : S → List A → Prop
  | s, [] => I s
  | s, a :: as => I s ∧ ∀ s', step s a = some s' → Always step I s' as

/-- `p` holds of every step the run takes, read at the state before it. -/
def Along (step : S → A → Option S) (p : S → A → Prop) : S → List A → Prop
  | _, [] => True
  | s, a :: as => ∀ s', step s a = some s' → p s a ∧ Along step p s' as

/-- Whether `p` holds along a run, where it can be decided of each step. -/
instance Along.decidable (step : S → A → Option S) (p : S → A → Prop)
    [∀ s a, Decidable (p s a)] : ∀ s as, Decidable (Along step p s as)
  | _, [] => isTrue trivial
  | s, a :: as =>
    match h : step s a with
    | none => isTrue fun s' h' => by simp [h] at h'
    | some s' =>
      have := Along.decidable step p s' as
      decidable_of_iff (p s a ∧ Along step p s' as) (by simp [Along, h])

/-- A step that is enabled under `c`, and where it leads. -/
theorem enabled_iff {c : Prop} [Decidable c] {s s' : S} :
    (if c then some s else none) = some s' ↔ c ∧ s' = s := by
  rw [Option.ite_none_right_eq_some, Option.some_inj, eq_comm]

variable {step : S → A → Option S}

@[simp] theorem run_nil (s : S) : run step s [] = some s := rfl

theorem run_cons (s : S) (a : A) (as : List A) :
    run step s (a :: as) = (step s a).bind fun s' => run step s' as := rfl

theorem run_append (s : S) (as bs : List A) :
    run step s (as ++ bs) = (run step s as).bind fun s' => run step s' bs := by
  induction as generalizing s with
  | nil => rfl
  | cons a as ih =>
    simp only [List.cons_append, run_cons]
    cases step s a with
    | none => rfl
    | some s' => exact ih s'

/-- A run of a step that is always enabled. -/
theorem run_some (f : S → A → S) (s : S) (as : List A) :
    run (fun s a => some (f s a)) s as = some (as.foldl f s) := by
  induction as generalizing s with
  | nil => rfl
  | cons a as ih => exact ih (f s a)

/-- A run one action longer is a run and one step. -/
theorem run_snoc {s t : S} {as : List A} {a : A} :
    run step s (as ++ [a]) = some t ↔ ∃ s', run step s as = some s' ∧ step s' a = some t := by
  simp [run_append, run_cons, Option.bind_eq_some_iff]

/-- Induction on a run from its first state, the last step taken last. -/
theorem run_induction {s₀ : S} {P : List A → S → Prop} (h₀ : P [] s₀)
    (hstep : ∀ as s a s', run step s₀ as = some s → P as s → step s a = some s' →
      P (as ++ [a]) s') :
    ∀ {as s}, run step s₀ as = some s → P as s := by
  intro as
  induction as using List.reverseRecOn with
  | nil =>
    intro s h
    obtain rfl := Option.some.inj h
    exact h₀
  | append_singleton as a ih =>
    intro s h
    obtain ⟨s', hrun, ha⟩ := run_snoc.1 h
    exact hstep as s' a s hrun (ih hrun) ha

theorem Always.head {I : S → Prop} {s : S} {as : List A} (h : Always step I s as) : I s := by
  cases as with
  | nil => exact h
  | cons a as => exact h.1

/-- `Always I` is `I` after every initial part of the actions. -/
theorem always_iff {I : S → Prop} {s : S} {as : List A} :
    Always step I s as ↔ ∀ pre s', pre <+: as → run step s pre = some s' → I s' := by
  induction as generalizing s with
  | nil =>
    refine ⟨fun h pre s' hpre hrun => ?_, fun h => h [] s List.nil_prefix rfl⟩
    rw [List.prefix_nil.1 hpre] at hrun
    exact Option.some.inj hrun ▸ h
  | cons a as ih =>
    constructor
    · rintro ⟨hs, hrest⟩ pre s' hpre hrun
      cases pre with
      | nil => exact Option.some.inj hrun ▸ hs
      | cons b pre =>
        obtain ⟨rfl, hpre'⟩ := List.cons_prefix_cons.1 hpre
        obtain ⟨t, ht, hrun⟩ := Option.bind_eq_some_iff.1 hrun
        exact ih.1 (hrest t ht) pre s' hpre' hrun
    · intro h
      refine ⟨h [] s List.nil_prefix rfl, fun t ht => ih.2 fun pre s' hpre hrun => ?_⟩
      refine h (a :: pre) s' (List.cons_prefix_cons.2 ⟨rfl, hpre⟩) ?_
      rw [run_cons, ht]
      exact hrun

theorem Always.mono {I J : S → Prop} (hIJ : ∀ s, I s → J s) {s : S} {as : List A}
    (h : Always step I s as) : Always step J s as := by
  induction as generalizing s with
  | nil => exact hIJ s h
  | cons a as ih => exact ⟨hIJ s h.1, fun s' ha => ih (h.2 s' ha)⟩

theorem Along.cons {p : S → A → Prop} {s s' : S} {a : A} {as : List A} (ha : step s a = some s')
    (hp : p s a) (h : Along step p s' as) : Along step p s (a :: as) := by
  intro t ht
  obtain rfl := Option.some.inj (ha.symm.trans ht)
  exact ⟨hp, h⟩

/-- What an invariant gives of the steps that meet `p` holds along a run whose steps all
meet `p`. -/
theorem Along.mono_of_invariant {I : S → Prop} {p q : S → A → Prop}
    (hstep : ∀ s a s', I s → p s a → step s a = some s' → q s a ∧ I s') {s : S} {as : List A}
    (hs : I s) (h : Along step p s as) : Along step q s as := by
  induction as generalizing s with
  | nil => trivial
  | cons a as ih =>
    intro s' ha
    obtain ⟨hp, hrest⟩ := h s' ha
    obtain ⟨hq, hs'⟩ := hstep s a s' hs hp ha
    exact ⟨hq, ih hs' hrest⟩

/-- What holds along a run one action longer holds along the run, and of its last step. -/
theorem Along.of_snoc {p : S → A → Prop} {s : S} {as : List A} {a : A}
    (h : Along step p s (as ++ [a])) : Along step p s as ∧
      ∀ t t', run step s as = some t → step t a = some t' → p t a := by
  induction as generalizing s with
  | nil =>
    refine ⟨trivial, fun t t' ht ht' => ?_⟩
    obtain rfl := Option.some.inj ht
    exact (h t' ht').1
  | cons b as ih =>
    refine ⟨fun s' hs' => ⟨(h s' hs').1, (ih (h s' hs').2).1⟩, fun t t' ht ht' => ?_⟩
    obtain ⟨s', hs', hrun⟩ := Option.bind_eq_some_iff.1 ht
    exact (ih (h s' hs').2).2 t t' hrun ht'

/-- Induction on a run along which `p` holds. -/
theorem run_induction_along {p : S → A → Prop} {s₀ : S} {P : List A → S → Prop} (h₀ : P [] s₀)
    (hstep : ∀ as s a s', P as s → p s a → step s a = some s' → P (as ++ [a]) s') {as : List A}
    {s : S} (hp : Along step p s₀ as) (h : run step s₀ as = some s) : P as s := by
  refine run_induction (P := fun as s => Along step p s₀ as → P as s) (fun _ => h₀) ?_ h hp
  intro as s a s' hrun ih ha hp
  obtain ⟨hp, hlast⟩ := hp.of_snoc
  exact hstep as s a s' (ih hp) (hlast s s' hrun ha) ha

/-- Runs on actions that step alike pass the same states. -/
theorem run_eq_of_forall₂ {R : A → A → Prop} (hR : ∀ s a b, R a b → step s a = step s b) (s : S)
    {as bs : List A} (h : List.Forall₂ R as bs) : run step s as = run step s bs := by
  induction h generalizing s with
  | nil => rfl
  | cons hab _ ih =>
    rw [run_cons, run_cons, hR s _ _ hab]
    cases step s _ with
    | none => rfl
    | some s' => exact ih s'

/-- A run that meets `p` throughout is simulated by a run of another system, where each
step that meets `p` is simulated by some of its steps. -/
theorem run_simulates {T B : Type*} {step' : T → B → Option T} {R : S → T → Prop}
    {p : S → A → Prop}
    (hsim : ∀ s t a s', R s t → p s a → step s a = some s' →
      ∃ bs t', run step' t bs = some t' ∧ R s' t') {s s' : S} {t : T} {as : List A}
    (hR : R s t) (hp : Along step p s as) (hrun : run step s as = some s') :
    ∃ bs t', run step' t bs = some t' ∧ R s' t' := by
  induction as generalizing s t with
  | nil =>
    obtain rfl := Option.some.inj hrun
    exact ⟨[], t, rfl, hR⟩
  | cons a as ih =>
    obtain ⟨s₁, ha, hrun⟩ := Option.bind_eq_some_iff.1 hrun
    obtain ⟨hpa, hrest⟩ := hp s₁ ha
    obtain ⟨bs, t₁, hbs, hR₁⟩ := hsim s t a s₁ hR hpa ha
    obtain ⟨cs, t', hcs, hR'⟩ := ih hR₁ hrest hrun
    refine ⟨bs ++ cs, t', ?_, hR'⟩
    rw [run_append, hbs]
    exact hcs

/-- Let `K` be kept by the steps that keep `I`. If a step keeps `I` exactly when `p`
holds of it, a run keeps `I` exactly when `p` holds along it. -/
theorem always_iff_along {K I : S → Prop} {p : S → A → Prop}
    (hK : ∀ s a s', K s → I s → step s a = some s' → K s')
    (hI : ∀ s a s', K s → I s → step s a = some s' → (I s' ↔ p s a)) {s : S} {as : List A}
    (hk : K s) (hi : I s) : Always step I s as ↔ Along step p s as := by
  induction as generalizing s with
  | nil => exact iff_of_true hi trivial
  | cons a as ih =>
    refine ⟨fun h s' ha => ?_, fun h => ⟨hi, fun s' ha => ?_⟩⟩
    · have hs' := (h.2 s' ha).head
      exact ⟨(hI s a s' hk hi ha).1 hs', (ih (hK s a s' hk hi ha) hs').1 (h.2 s' ha)⟩
    · obtain ⟨hp, hrest⟩ := h s' ha
      have hs' := (hI s a s' hk hi ha).2 hp
      exact (ih (hK s a s' hk hi ha) hs').2 hrest

end Runs
