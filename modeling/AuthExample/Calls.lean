import AuthExample.Runs
import Mathlib.Logic.Relation

/-!
# Programs that call a shared store

A program makes calls to a store and goes on with their replies. Before each call, and after
the last, others may act on the store. A run interleaves both, and its trace lists them.

`wp I Q p` holds of a world from which, whatever the others do, `I` holds throughout and `Q`
where `p` ends. `wp_run` : it is kept by a run. The rules take an assertion that the actions
of the others keep (`Stable`). `within_run` : a program that makes at most `n` calls takes at
most `n` steps of its own. `run_eq_actRun` : a program whose calls leave the store alone is as if it
had not run.
-/

namespace Calls

open Runs

/-- A program : it has ended, or makes a call and goes on with the reply. -/
inductive Program (Op : Type) (Reply : Op → Type) (α : Type)
  | ret (a : α)
  | call (op : Op) (next : Reply op → Program Op Reply α)

variable {Op : Type} {Reply : Op → Type} {α β γ σ A E : Type}

namespace Program

/-- A program, then that of its result. -/
def bind : Program Op Reply α → (α → Program Op Reply β) → Program Op Reply β
  | .ret a, f => f a
  | .call op next, f => .call op fun r => (next r).bind f

instance : Monad (Program Op Reply) where
  pure := .ret
  bind := bind

/-- The program makes at most so many calls, whatever their replies. -/
def Within : Program Op Reply α → ℕ → Prop
  | .ret _, _ => True
  | .call _ next, n => 0 < n ∧ ∀ r, (next r).Within (n - 1)

theorem Within.mono {p : Program Op Reply α} {n m : ℕ} (h : p.Within n) (hnm : n ≤ m) :
    p.Within m := by
  induction p generalizing n m with
  | ret a => trivial
  | call op next ih => exact ⟨h.1.trans_le hnm, fun r => ih r (h.2 r) (Nat.sub_le_sub_right hnm 1)⟩

theorem Within.bind {p : Program Op Reply α} {f : α → Program Op Reply β} {n m : ℕ}
    (hp : p.Within n) (hf : ∀ a, (f a).Within m) : (p >>= f).Within (n + m) := by
  induction p generalizing n with
  | ret a => exact (hf a).mono (Nat.le_add_left m n)
  | call op next ih =>
    refine ⟨Nat.add_pos_left hp.1 m, fun r => ?_⟩
    rw [Nat.sub_add_comm hp.1]
    exact ih r (hp.2 r)

/-- The program makes such calls only, whatever their replies. -/
def Only (ok : Op → Prop) : Program Op Reply α → Prop
  | .ret _ => True
  | .call op next => ok op ∧ ∀ r, (next r).Only ok

theorem Only.bind {ok : Op → Prop} {p : Program Op Reply α} {f : α → Program Op Reply β}
    (hp : p.Only ok) (hf : ∀ a, (f a).Only ok) : (p >>= f).Only ok := by
  induction p with
  | ret a => exact hf a
  | call op next ih => exact ⟨hp.1, fun r => ih r (hp.2 r)⟩

end Program

/-! ## Runs -/

/-- A store and those who act on it : how it serves a call, and what an action of the others
does to it, `none` where they do not take it. -/
structure System (Op : Type) (Reply : Op → Type) (σ A : Type) where
  serve : (op : Op) → σ → σ × Reply op
  act : A → σ → Option σ

/-- What has happened : a call of the program was served, or another acted. -/
inductive Event (Op : Type) (Reply : Op → Type) (A : Type)
  | called (op : Op) (reply : Reply op)
  | acted (a : A)

/-- The store, and what has happened to it. -/
structure World (Op : Type) (Reply : Op → Type) (σ A : Type) where
  store : σ
  trace : List (Event Op Reply A)

/-- A program that runs in a world. -/
structure Config (Op : Type) (Reply : Op → Type) (σ A α : Type) where
  program : Program Op Reply α
  world : World Op Reply σ A

/-- A step of the program's own, or one of the others. -/
inductive Act (A : Type)
  | own
  | other (a : A)

namespace System

variable (S : System Op Reply σ A)

/-- The world once a call is served. -/
def served (op : Op) (w : World Op Reply σ A) : World Op Reply σ A :=
  ⟨(S.serve op w.store).1, w.trace ++ [.called op (S.serve op w.store).2]⟩

/-- The world once another has acted. -/
def acted (a : A) (w : World Op Reply σ A) : Option (World Op Reply σ A) :=
  (S.act a w.store).map fun store => ⟨store, w.trace ++ [.acted a]⟩

/-- One step. A program that has ended takes none. -/
def step (c : Config Op Reply σ A α) : Act A → Option (Config Op Reply σ A α)
  | .own =>
    match c.program with
    | .ret _ => none
    | .call op next => some ⟨next (S.serve op c.world.store).2, S.served op c.world⟩
  | .other a => (S.acted a c.world).map fun world => { c with world }

theorem own_eq_some {c c' : Config Op Reply σ A α} (h : S.step c .own = some c') :
    ∃ op next, c.program = .call op next ∧
      c' = ⟨next (S.serve op c.world.store).2, S.served op c.world⟩ := by
  obtain ⟨program, world⟩ := c
  cases program with
  | ret a => cases h
  | call op next => exact ⟨op, next, rfl, (Option.some.inj h).symm⟩

theorem acted_eq_some {w w' : World Op Reply σ A} {a : A} (h : S.acted a w = some w') :
    ∃ store, S.act a w.store = some store ∧ w' = ⟨store, w.trace ++ [.acted a]⟩ := by
  obtain ⟨store, hact, rfl⟩ := Option.map_eq_some_iff.1 h
  exact ⟨store, hact, rfl⟩

theorem other_eq_some {c c' : Config Op Reply σ A α} {a : A} (h : S.step c (.other a) = some c') :
    ∃ world, S.acted a c.world = some world ∧ c' = { c with world } := by
  obtain ⟨world, hacted, rfl⟩ := Option.map_eq_some_iff.1 h
  exact ⟨world, hacted, rfl⟩

/-- A program that has not ended takes its next step. -/
theorem ended_or_step (c : Config Op Reply σ A α) :
    (∃ a, c.program = .ret a) ∨ ∃ c', S.step c .own = some c' := by
  obtain ⟨program, world⟩ := c
  cases program with
  | ret a => exact Or.inl ⟨a, rfl⟩
  | call op next => exact Or.inr ⟨_, rfl⟩

end System

/-- The steps of the program's own. -/
def ownSteps (as : List (Act A)) : ℕ := as.countP fun | .own => true | .other _ => false

/-- A program within `n` calls takes at most `n` steps of its own, whatever the others do. -/
theorem within_run {S : System Op Reply σ A} {c₀ c : Config Op Reply σ A α}
    {as : List (Act A)} {n : ℕ} (hn : c₀.program.Within n) (h : run S.step c₀ as = some c) :
    ownSteps as ≤ n ∧ c.program.Within (n - ownSteps as) := by
  have hstart : ownSteps ([] : List (Act A)) ≤ n ∧
      c₀.program.Within (n - ownSteps ([] : List (Act A))) := ⟨Nat.zero_le n, hn⟩
  refine run_induction (P := fun as c => ownSteps as ≤ n ∧
    c.program.Within (n - ownSteps as)) hstart ?_ h
  rintro as c a c' - ⟨hle, hw⟩ hstep
  cases a with
  | own =>
    obtain ⟨op, next, hp, rfl⟩ := S.own_eq_some hstep
    rw [hp] at hw
    obtain ⟨hpos, hnext⟩ := hw
    have hcount : ownSteps (as ++ [.own]) = ownSteps as + 1 := by simp [ownSteps]
    rw [hcount, ← Nat.sub_sub]
    exact ⟨by omega, hnext _⟩
  | other a =>
    obtain ⟨world, -, rfl⟩ := Option.map_eq_some_iff.1 hstep
    have hcount : ownSteps (as ++ [.other a]) = ownSteps as := by simp [ownSteps]
    rw [hcount]
    exact ⟨hle, hw⟩

/-- The actions of the others. -/
def othersActs : List (Act A) → List A := List.filterMap fun | .own => none | .other a => some a

/-- A run of a program whose calls leave the store alone, where `I` holds, is a run of the
others. -/
theorem run_eq_actRun {S : System Op Reply σ A} {ok : Op → Prop} {I : σ → Prop}
    (hidle : ∀ op s, ok op → I s → (S.serve op s).1 = s)
    (hact : ∀ a s s', I s → S.act a s = some s' → I s')
    {c₀ c : Config Op Reply σ A α} (hp : c₀.program.Only ok) (hI : I c₀.world.store)
    {as : List (Act A)} (h : run S.step c₀ as = some c) :
    run (fun s a => S.act a s) c₀.world.store (othersActs as) = some c.world.store := by
  refine (run_induction (P := fun as c =>
    run (fun s a => S.act a s) c₀.world.store (othersActs as) = some c.world.store ∧
      c.program.Only ok ∧ I c.world.store) ⟨rfl, hp, hI⟩ ?_ h).1
  rintro as c a c' - ⟨hrun, honly, hI⟩ hstep
  rw [othersActs, List.filterMap_append, ← othersActs]
  cases a with
  | own =>
    obtain ⟨op, next, hp, rfl⟩ := S.own_eq_some hstep
    rw [hp] at honly
    have hstore : (S.serve op c.world.store).1 = c.world.store := hidle op _ honly.1 hI
    refine ⟨?_, honly.2 _, by rwa [System.served, hstore]⟩
    rw [System.served, hstore]
    exact (congrArg _ (List.append_nil _)).trans hrun
  | other a =>
    obtain ⟨world, hworld, rfl⟩ := S.other_eq_some hstep
    obtain ⟨store, hstore, rfl⟩ := S.acted_eq_some hworld
    exact ⟨run_snoc.2 ⟨_, hrun, hstore⟩, honly, hact a _ _ hI hstore⟩

/-! ## Preconditions -/

section

variable (S : System Op Reply σ A)

/-- What the others make of a world. -/
def Reaches : World Op Reply σ A → World Op Reply σ A → Prop :=
  Relation.ReflTransGen fun w w' => ∃ a, S.acted a w = some w'

/-- An assertion that the others keep. -/
def Stable (P : World Op Reply σ A → Prop) : Prop :=
  ∀ w a w', P w → S.acted a w = some w' → P w'

/-- From the world, `I` holds as long as the program runs, and `Q` once it has ended, whatever
the others do. -/
def wp (I : World Op Reply σ A → Prop) (Q : α → World Op Reply σ A → Prop) :
    Program Op Reply α → World Op Reply σ A → Prop
  | .ret a, w => ∀ w', Reaches S w w' → I w' ∧ Q a w'
  | .call op next, w => ∀ w', Reaches S w w' →
      I w' ∧ wp I Q (next (S.serve op w'.store).2) (S.served op w')

end

variable {S : System Op Reply σ A} {I : World Op Reply σ A → Prop}

theorem Stable.reaches {P : World Op Reply σ A → Prop} (hP : Stable S P)
    {w w' : World Op Reply σ A} (hw : P w) (h : Reaches S w w') : P w' := by
  induction h with
  | refl => exact hw
  | tail _ hact ih =>
    obtain ⟨a, ha⟩ := hact
    exact hP _ a _ ih ha

theorem wp_acted {Q : α → World Op Reply σ A → Prop} {p : Program Op Reply α}
    {w w' : World Op Reply σ A} (h : wp S I Q p w) {a : A} (ha : S.acted a w = some w') :
    wp S I Q p w' := by
  cases p with
  | ret _ => exact fun w'' hw'' => h w'' (Relation.ReflTransGen.head ⟨a, ha⟩ hw'')
  | call _ _ => exact fun w'' hw'' => h w'' (Relation.ReflTransGen.head ⟨a, ha⟩ hw'')

/-- A run keeps the precondition of the program that is left. -/
theorem wp_run {Q : α → World Op Reply σ A → Prop} {p : Program Op Reply α}
    {w : World Op Reply σ A} (hp : wp S I Q p w) {c : Config Op Reply σ A α} {as : List (Act A)}
    (h : run S.step ⟨p, w⟩ as = some c) : wp S I Q c.program c.world := by
  refine run_induction (P := fun _ c => wp S I Q c.program c.world) hp ?_ h
  intro as c a c' _ hc hstep
  cases a with
  | own =>
    obtain ⟨op, next, hp, rfl⟩ := S.own_eq_some hstep
    rw [hp] at hc
    exact (hc _ Relation.ReflTransGen.refl).2
  | other a =>
    obtain ⟨world, hact, rfl⟩ := Option.map_eq_some_iff.1 hstep
    exact wp_acted hc hact

/-- What the precondition says of the world it holds of. -/
theorem wp_now {Q : α → World Op Reply σ A → Prop} {p : Program Op Reply α}
    {w : World Op Reply σ A} (h : wp S I Q p w) : I w ∧ ∀ a, p = .ret a → Q a w := by
  cases p with
  | ret a =>
    obtain ⟨hI, hQ⟩ := h w Relation.ReflTransGen.refl
    refine ⟨hI, fun b hb => ?_⟩
    cases hb
    exact hQ
  | call op next => exact ⟨(h w Relation.ReflTransGen.refl).1, nofun⟩

theorem wp_ret {P : World Op Reply σ A → Prop} (hP : Stable S P) {a : α}
    {Q : α → World Op Reply σ A → Prop} (hQ : ∀ w, P w → I w ∧ Q a w)
    {w : World Op Reply σ A} (hw : P w) : wp S I Q (.ret a) w :=
  fun _ hw' => hQ _ (hP.reaches hw hw')

theorem wp_bind {Q : β → World Op Reply σ A → Prop} {p : Program Op Reply α}
    {f : α → Program Op Reply β} {w : World Op Reply σ A}
    (h : wp S I (fun a w => wp S I Q (f a) w) p w) : wp S I Q (p >>= f) w := by
  induction p generalizing w with
  | ret a => exact (h w Relation.ReflTransGen.refl).2
  | call op next ih => exact fun w' hw' => ⟨(h w' hw').1, ih _ (h w' hw').2⟩

theorem wp_mono {Q Q' : α → World Op Reply σ A → Prop} (hQ : ∀ a w, Q a w → Q' a w)
    {p : Program Op Reply α} {w : World Op Reply σ A} (h : wp S I Q p w) : wp S I Q' p w := by
  induction p generalizing w with
  | ret a => exact fun w' hw' => ⟨(h w' hw').1, hQ a w' (h w' hw').2⟩
  | call op next ih => exact fun w' hw' => ⟨(h w' hw').1, ih _ (h w' hw').2⟩

/-! ## Calls that may fail -/

/-- A program that ends with the first error of a call. -/
abbrev Fallible (E : Type) (Op : Type) (Reply : Op → Type) :=
  ExceptT E (Program Op fun op => Except E (Reply op))

/-- A call, followed by `?`. -/
def perform (op : Op) : Fallible E Op Reply (Reply op) := ExceptT.mk (.call op .ret)

/-- The calls of a program and of what follows it, if it does not fail. -/
theorem within_bind {p : Fallible E Op Reply α} {f : α → Fallible E Op Reply β} {n m : ℕ}
    (hp : p.run.Within n) (hf : ∀ a, (f a).run.Within m) : (p >>= f).run.Within (n + m) :=
  hp.bind fun
    | .ok a => hf a
    | .error _ => trivial

theorem within_perform (op : Op) : (perform op : Fallible E Op Reply (Reply op)).run.Within 1 :=
  ⟨Nat.one_pos, fun _ => trivial⟩

/-- A loop makes at most the calls of its body so many times. -/
theorem within_forIn {f : β → α → Fallible E Op Reply (ForInStep α)} {n : ℕ}
    (hf : ∀ b a, (f b a).run.Within n) (l : List β) (a : α) :
    (forIn l a f).run.Within (l.length * n) := by
  induction l generalizing a with
  | nil => trivial
  | cons b l ih =>
    rw [List.forIn_cons, List.length_cons, Nat.succ_mul, Nat.add_comm]
    refine within_bind (hf b a) fun r => ?_
    cases r with
    | done a => trivial
    | yield a => exact ih a

theorem only_bind {ok : Op → Prop} {p : Fallible E Op Reply α} {f : α → Fallible E Op Reply β}
    (hp : p.run.Only ok) (hf : ∀ a, (f a).run.Only ok) : (p >>= f).run.Only ok :=
  hp.bind fun
    | .ok a => hf a
    | .error _ => trivial

theorem only_perform {ok : Op → Prop} {op : Op} (h : ok op) :
    (perform op : Fallible E Op Reply (Reply op)).run.Only ok :=
  ⟨h, fun _ => trivial⟩

theorem only_forIn {ok : Op → Prop} {f : β → α → Fallible E Op Reply (ForInStep α)} {l : List β}
    (hf : ∀ b ∈ l, ∀ a, (f b a).run.Only ok) (a : α) : (forIn l a f).run.Only ok := by
  induction l generalizing a with
  | nil => trivial
  | cons b l ih =>
    rw [List.forIn_cons]
    refine only_bind (hf b List.mem_cons_self a) fun r => ?_
    cases r with
    | done a => trivial
    | yield a => exact ih (fun b hb => hf b (List.mem_cons_of_mem _ hb)) a

/-- From the world the program ends without an error and with `Q`. -/
def wpOk (S : System Op (fun op => Except E (Reply op)) σ A)
    (I : World Op (fun op => Except E (Reply op)) σ A → Prop)
    (Q : α → World Op (fun op => Except E (Reply op)) σ A → Prop) (p : Fallible E Op Reply α) :
    World Op (fun op => Except E (Reply op)) σ A → Prop :=
  wp S I (fun r w => ∃ a, r = .ok a ∧ Q a w) p.run

section

variable {S : System Op (fun op => Except E (Reply op)) σ A}
  {I P : World Op (fun op => Except E (Reply op)) σ A → Prop}
  {w : World Op (fun op => Except E (Reply op)) σ A}

theorem wpOk_pure (hP : Stable S P) {Q : α → World Op (fun op => Except E (Reply op)) σ A → Prop}
    {a : α} (hQ : ∀ w, P w → I w ∧ Q a w) (hw : P w) : wpOk S I Q (pure a) w :=
  wp_ret hP (fun w hw => ⟨(hQ w hw).1, a, rfl, (hQ w hw).2⟩) hw

theorem wpOk_bind {Q : β → World Op (fun op => Except E (Reply op)) σ A → Prop}
    {p : Fallible E Op Reply α} {f : α → Fallible E Op Reply β}
    (h : wpOk S I (fun a w => wpOk S I Q (f a) w) p w) : wpOk S I Q (p >>= f) w := by
  refine wp_bind (wp_mono (fun r w hr => ?_) h)
  obtain ⟨a, rfl, ha⟩ := hr
  exact ha

/-- A call that is made where the others keep `P`, and then the rest. -/
theorem wpOk_perform {Q : α → World Op (fun op => Except E (Reply op)) σ A → Prop} {op : Op}
    {f : Reply op → Fallible E Op Reply α} (hP : Stable S P)
    (hcall : ∀ w, P w → I w ∧ ∃ r, (S.serve op w.store).2 = .ok r ∧
      wpOk S I Q (f r) (S.served op w)) (hw : P w) : wpOk S I Q (perform op >>= f) w := by
  intro w' hw'
  obtain ⟨hI, r, hr, hf⟩ := hcall w' (hP.reaches hw hw')
  refine ⟨hI, ?_⟩
  rw [hr]
  exact hf

/-- After any run the program is on its way, or has ended with `Q`. -/
theorem wpOk_run {Q : α → World Op (fun op => Except E (Reply op)) σ A → Prop}
    {p : Fallible E Op Reply α} (hp : wpOk S I Q p w)
    {c : Config Op (fun op => Except E (Reply op)) σ A (Except E α)} {as : List (Act A)}
    (h : run S.step ⟨p.run, w⟩ as = some c) :
    I c.world ∧ ∀ r, c.program = .ret r → ∃ a, r = .ok a ∧ Q a c.world :=
  wp_now (wp_run hp h)

/-- What the body of a loop leaves : `Q` where it breaks, else the invariant `L`. -/
def LoopPost (Q L : α → World Op (fun op => Except E (Reply op)) σ A → Prop) :
    ForInStep α → World Op (fun op => Except E (Reply op)) σ A → Prop
  | .done a => Q a
  | .yield a => L a

/-- The loop rule. `L n` holds with `n` passes left. -/
theorem wpOk_forIn {Q : α → World Op (fun op => Except E (Reply op)) σ A → Prop}
    {L : ℕ → α → World Op (fun op => Except E (Reply op)) σ A → Prop}
    {f : β → α → Fallible E Op Reply (ForInStep α)}
    (hbody : ∀ n b a w, L (n + 1) a w →
      wpOk S I (LoopPost (fun a => wpOk S I Q (pure a)) (L n)) (f b a) w)
    (hend : ∀ a w, L 0 a w → wpOk S I Q (pure a) w) {l : List β} {a : α}
    (hw : L l.length a w) : wpOk S I Q (forIn l a f) w := by
  induction l generalizing a w with
  | nil => exact hend a w hw
  | cons b l ih =>
    rw [List.forIn_cons]
    refine wpOk_bind (wp_mono (fun r w hr => ?_) (hbody l.length b a w hw))
    obtain ⟨r, rfl, hr⟩ := hr
    refine ⟨r, rfl, ?_⟩
    cases r with
    | done a => exact hr
    | yield a => exact ih hr

/-! ## Calls whose errors end the program -/

/-- What a program leaves : `Q` where it ends without an error, else `X`. -/
def ExceptPost (Q : α → World Op (fun op => Except E (Reply op)) σ A → Prop)
    (X : E → World Op (fun op => Except E (Reply op)) σ A → Prop) :
    Except E α → World Op (fun op => Except E (Reply op)) σ A → Prop
  | .ok a => Q a
  | .error e => X e

/-- From the world the program ends with `Q`, or with an error and `X`. -/
def wpExcept (S : System Op (fun op => Except E (Reply op)) σ A)
    (I : World Op (fun op => Except E (Reply op)) σ A → Prop)
    (Q : α → World Op (fun op => Except E (Reply op)) σ A → Prop)
    (X : E → World Op (fun op => Except E (Reply op)) σ A → Prop) (p : Fallible E Op Reply α) :
    World Op (fun op => Except E (Reply op)) σ A → Prop :=
  wp S I (ExceptPost Q X) p.run

variable {X : E → World Op (fun op => Except E (Reply op)) σ A → Prop}

theorem wpExcept_pure (hP : Stable S P)
    {Q : α → World Op (fun op => Except E (Reply op)) σ A → Prop} {a : α}
    (hQ : ∀ w, P w → I w ∧ Q a w) (hw : P w) : wpExcept S I Q X (pure a) w :=
  wp_ret hP hQ hw

/-- What follows a program, from what it leaves. -/
theorem wpExcept_bind {Q : α → World Op (fun op => Except E (Reply op)) σ A → Prop}
    {Q' : β → World Op (fun op => Except E (Reply op)) σ A → Prop} {p : Fallible E Op Reply α}
    {f : α → Fallible E Op Reply β} (h : wpExcept S I Q X p w)
    (hf : ∀ a w, Q a w → wpExcept S I Q' X (f a) w) : wpExcept S I Q' X (p >>= f) w := by
  have hcont (q : Program Op (fun op => Except E (Reply op)) (Except E α))
      {w : World Op (fun op => Except E (Reply op)) σ A} (hq : wp S I (ExceptPost Q X) q w) :
      wp S I (ExceptPost Q' X) (q >>= ExceptT.bindCont f) w := by
    induction q generalizing w with
    | ret r =>
      cases r with
      | ok a => exact hf a w (hq w Relation.ReflTransGen.refl).2
      | error e => exact hq
    | call op next ih => exact fun w' hw' => ⟨(hq w' hw').1, ih _ (hq w' hw').2⟩
  exact hcont p.run h

/-- A call that is made where the others keep `P`. -/
theorem wpExcept_perform {op : Op}
    {Q : Reply op → World Op (fun op => Except E (Reply op)) σ A → Prop} (hP : Stable S P)
    (hQ : ∀ r, Stable S (Q r)) (hX : ∀ e, Stable S (X e)) (hI : Stable S I)
    (hcall : ∀ w, P w → I w ∧ I (S.served op w) ∧
      ExceptPost Q X (S.serve op w.store).2 (S.served op w)) (hw : P w) :
    wpExcept S I Q X (perform op) w := by
  intro w' hw'
  obtain ⟨hnow, hserved, hpost⟩ := hcall w' (hP.reaches hw hw')
  refine ⟨hnow, fun w'' hw'' => ⟨hI.reaches hserved hw'', ?_⟩⟩
  cases hr : (S.serve op w'.store).2 with
  | ok r =>
    rw [hr] at hpost
    exact (hQ r).reaches hpost hw''
  | error e =>
    rw [hr] at hpost
    exact (hX e).reaches hpost hw''

/-- After any run the program is on its way, or has ended with `Q`, or with an error and `X`. -/
theorem wpExcept_run {Q : α → World Op (fun op => Except E (Reply op)) σ A → Prop}
    {p : Fallible E Op Reply α} (hp : wpExcept S I Q X p w)
    {c : Config Op (fun op => Except E (Reply op)) σ A (Except E α)} {as : List (Act A)}
    (h : run S.step ⟨p.run, w⟩ as = some c) :
    I c.world ∧ ∀ r, c.program = .ret r → ExceptPost Q X r c.world :=
  wp_now (wp_run hp h)

/-- The rule of a loop without `break`, where `L l` holds with the passes `l` left. -/
theorem wpExcept_forIn {Q : α → World Op (fun op => Except E (Reply op)) σ A → Prop}
    {L : List β → α → World Op (fun op => Except E (Reply op)) σ A → Prop}
    {f : β → α → Fallible E Op Reply (ForInStep α)}
    (hbody : ∀ b l a w, L (b :: l) a w →
      wpExcept S I (LoopPost (fun a => wpExcept S I Q X (pure a)) (L l)) X (f b a) w)
    (hend : ∀ a w, L [] a w → wpExcept S I Q X (pure a) w) {l : List β} {a : α}
    (hw : L l a w) : wpExcept S I Q X (forIn l a f) w := by
  induction l generalizing a w with
  | nil => exact hend a w hw
  | cons b l ih =>
    rw [List.forIn_cons]
    refine wpExcept_bind (hbody b l a w hw) fun r w hr => ?_
    cases r with
    | done a => exact hr
    | yield a => exact ih hr

end

end Calls
