import Mathlib.Data.List.Forall2
import Mathlib.Logic.Basic

/-! # Programs over a signature of operations

A program is a tree: it returns, raises, or asks for one operation and goes on
with the answer, which is the operation's result or the error it raised.  One
program text thus has several meanings, according to who answers: `run` answers
every operation in turn from one state, and a concurrent semantics may let other
programs move between two operations.  `Triple` has the rules of pre- and
postconditions for `run`, and `Keeps` the rule for what no operation breaks. -/
namespace Programs

/-! ## Errors without operations -/

section Errors
variable {ε α β : Type}

theorem bind_eq_ok {x : Except ε α} {f : α → Except ε β} {b : β} :
    (x >>= f) = .ok b ↔ ∃ a, x = .ok a ∧ f a = .ok b := by
  cases x with
  | error e => exact ⟨nofun, fun ⟨_, h, _⟩ => nomatch h⟩
  | ok a => exact ⟨fun h => ⟨a, rfl, h⟩, fun ⟨a', h, hf⟩ => by cases h; exact hf⟩

theorem map_eq_ok {x : Except ε α} {f : α → β} {b : β} :
    f <$> x = .ok b ↔ ∃ a, x = .ok a ∧ f a = b := by
  cases x with
  | error e => exact ⟨nofun, fun ⟨_, h, _⟩ => nomatch h⟩
  | ok a => exact ⟨fun h => ⟨a, rfl, Except.ok.inj h⟩, fun ⟨a', h, hf⟩ => by cases h; rw [← hf]; rfl⟩

theorem bind_eq_error {x : Except ε α} {f : α → Except ε β} {e : ε} :
    (x >>= f) = .error e ↔ x = .error e ∨ ∃ a, x = .ok a ∧ f a = .error e := by
  cases x with
  | error e' =>
    constructor
    · intro h
      exact .inl (congrArg Except.error (Except.error.inj h))
    · rintro (h | ⟨a, h, -⟩)
      · rw [Except.error.inj h]
        rfl
      · cases h
  | ok a =>
    constructor
    · intro h
      exact .inr ⟨a, rfl, h⟩
    · rintro (h | ⟨a', h, hf⟩)
      · cases h
      · cases h
        exact hf

theorem mapM_congr {f g : α → Except ε β} :
    ∀ {l : List α}, (∀ a ∈ l, f a = g a) → l.mapM f = l.mapM g
  | [], _ => rfl
  | a :: l, h => by
    rw [List.mapM_cons, List.mapM_cons, h a List.mem_cons_self,
      mapM_congr fun b hb => h b (List.mem_cons_of_mem _ hb)]

theorem mapM_eq_ok {f : α → Except ε β} {l : List α} {r : List β} :
    l.mapM f = .ok r ↔ List.Forall₂ (fun a b => f a = .ok b) l r := by
  induction l generalizing r with
  | nil => exact ⟨fun h => by cases h; exact .nil, fun h => by cases h; rfl⟩
  | cons a l ih =>
    rw [List.mapM_cons, bind_eq_ok]
    constructor
    · rintro ⟨b, hb, h⟩
      obtain ⟨rest, hrest, h⟩ := bind_eq_ok.mp h
      cases h
      exact .cons hb (ih.mp hrest)
    · intro h
      cases h with
      | cons hb hrest => exact ⟨_, hb, bind_eq_ok.mpr ⟨_, ih.mpr hrest, rfl⟩⟩

theorem mapM_eq_some {f : α → Option β} {l : List α} {r : List β} :
    l.mapM f = some r ↔ List.Forall₂ (fun a b => f a = some b) l r := by
  induction l generalizing r with
  | nil => exact ⟨fun h => by cases h; exact .nil, fun h => by cases h; rfl⟩
  | cons a l ih =>
    rw [List.mapM_cons, Option.bind_eq_bind, Option.bind_eq_some_iff]
    constructor
    · rintro ⟨b, hb, h⟩
      obtain ⟨rest, hrest, h⟩ := Option.bind_eq_some_iff.mp h
      cases h
      exact .cons hb (ih.mp hrest)
    · intro h
      cases h with
      | cons hb hrest => exact ⟨_, hb, Option.bind_eq_some_iff.mpr ⟨_, ih.mpr hrest, rfl⟩⟩

/-- The computation returns something, and raises nothing. -/
def Returns (x : Except ε α) : Prop := ∃ a, x = .ok a

theorem Returns.ok (a : α) : Returns (.ok a : Except ε α) := ⟨a, rfl⟩

theorem not_returns_error (e : ε) : ¬ Returns (.error e : Except ε α) := by
  rintro ⟨a, h⟩
  cases h

theorem returns_of_isOk {x : Except ε α} (h : x.isOk = true) : Returns x := by
  cases x with
  | ok a => exact .ok a
  | error e => cases h

theorem returns_bind {x : Except ε α} {f : α → Except ε β} :
    Returns (x >>= f) ↔ ∃ a, x = .ok a ∧ Returns (f a) := by
  constructor
  · rintro ⟨b, h⟩
    obtain ⟨a, ha, hb⟩ := bind_eq_ok.mp h
    exact ⟨a, ha, b, hb⟩
  · rintro ⟨a, ha, b, hb⟩
    exact ⟨b, bind_eq_ok.mpr ⟨a, ha, hb⟩⟩

/-- Before what returns, it is the first part that counts. -/
theorem returns_bind_left {x : Except ε α} {f : α → Except ε β} (hf : ∀ a, Returns (f a)) :
    Returns (x >>= f) ↔ Returns x := by
  rw [returns_bind]
  exact ⟨fun ⟨a, ha, _⟩ => ⟨a, ha⟩, fun ⟨a, ha⟩ => ⟨a, ha, hf a⟩⟩

theorem Returns.bind {x : Except ε α} {f : α → Except ε β} (hx : Returns x)
    (hf : ∀ a, x = .ok a → Returns (f a)) : Returns (x >>= f) := by
  obtain ⟨a, ha⟩ := hx
  exact returns_bind.mpr ⟨a, ha, hf a ha⟩

/-- What the computation raises, if anything, is among the expected errors. -/
def RaisesOnly (expected : ε → Prop) (x : Except ε α) : Prop := ∀ e, x = .error e → expected e

namespace RaisesOnly
variable {expected : ε → Prop}

theorem ok (a : α) : RaisesOnly expected (.ok a : Except ε α) := by
  intro e h
  cases h

theorem error {e : ε} (he : expected e) : RaisesOnly expected (.error e : Except ε α) := by
  intro e' h
  cases h
  exact he

theorem bind {x : Except ε α} {f : α → Except ε β} (hx : RaisesOnly expected x)
    (hf : ∀ a, x = .ok a → RaisesOnly expected (f a)) : RaisesOnly expected (x >>= f) := by
  intro e h
  rcases bind_eq_error.mp h with hfirst | ⟨a, ha, hrest⟩
  · exact hx e hfirst
  · exact hf a ha e hrest

end RaisesOnly

theorem raisesOnly_error_iff {expected : ε → Prop} {e : ε} :
    RaisesOnly expected (.error e : Except ε α) ↔ expected e :=
  ⟨fun h => h e rfl, .error⟩

theorem raisesOnly_bind {expected : ε → Prop} {x : Except ε α} {f : α → Except ε β} :
    RaisesOnly expected (x >>= f) ↔ RaisesOnly expected x ∧ ∀ a, x = .ok a → RaisesOnly expected (f a) := by
  constructor
  · intro h
    refine ⟨fun e he => h e (bind_eq_error.mpr (.inl he)), fun a ha e he => ?_⟩
    exact h e (bind_eq_error.mpr (.inr ⟨a, ha, he⟩))
  · rintro ⟨hx, hf⟩
    exact hx.bind hf

/-- Before a computation that raises what is expected, it is the first part that counts. -/
theorem raisesOnly_bind_left {expected : ε → Prop} {x : Except ε α} {f : α → Except ε β}
    (hf : ∀ a, x = .ok a → RaisesOnly expected (f a)) :
    RaisesOnly expected (x >>= f) ↔ RaisesOnly expected x :=
  raisesOnly_bind.trans (and_iff_left hf)

/-- Behind a computation that raises what is expected, it is the rest that counts. -/
theorem raisesOnly_bind_right {expected : ε → Prop} {x : Except ε α} {f : α → Except ε β}
    (hx : RaisesOnly expected x) :
    RaisesOnly expected (x >>= f) ↔ ∀ a, x = .ok a → RaisesOnly expected (f a) :=
  raisesOnly_bind.trans (and_iff_right hx)

/-- Going through a list returns if each of its elements does. -/
theorem returns_mapM {f : α → Except ε β} {l : List α} : Returns (l.mapM f) ↔ ∀ a ∈ l, Returns (f a) := by
  induction l with
  | nil =>
    constructor
    · intro _ a ha
      cases ha
    · intro _
      exact .ok []
  | cons a l ih =>
    rw [List.mapM_cons, returns_bind]
    constructor
    · rintro ⟨b, hb, h⟩
      obtain ⟨bs, hbs, -⟩ := returns_bind.mp h
      intro a' ha'
      rcases List.mem_cons.mp ha' with rfl | ha'
      · exact ⟨b, hb⟩
      · exact ih.mp ⟨bs, hbs⟩ a' ha'
    · intro h
      obtain ⟨b, hb⟩ := h a List.mem_cons_self
      obtain ⟨bs, hbs⟩ := ih.mpr fun a' ha' => h a' (List.mem_cons_of_mem _ ha')
      exact ⟨b, hb, returns_bind.mpr ⟨bs, hbs, .ok _⟩⟩

/-- A fold returns if no step that it comes to raises. -/
theorem returns_foldlM {f : β → α → Except ε β} {b : β} {l : List α} :
    Returns (l.foldlM f b) ↔
      ∀ before a after b', l = before ++ a :: after → before.foldlM f b = .ok b' → Returns (f b' a) := by
  induction l generalizing b with
  | nil =>
    constructor
    · intro _ before a after b' h
      simp at h
    · intro _
      exact .ok b
  | cons a l ih =>
    rw [List.foldlM_cons, returns_bind]
    constructor
    · rintro ⟨b₁, hb₁, h⟩ before a' after b' hl hb'
      cases before with
      | nil =>
        obtain ⟨rfl, -⟩ := List.cons.inj hl
        cases hb'
        exact ⟨b₁, hb₁⟩
      | cons a₁ before =>
        obtain ⟨rfl, htail⟩ := List.cons.inj hl
        rw [List.foldlM_cons, hb₁] at hb'
        exact ih.mp h before a' after b' htail hb'
    · intro h
      obtain ⟨b₁, hb₁⟩ := h [] a l b rfl rfl
      refine ⟨b₁, hb₁, ih.mpr fun before a' after b' hl hb' => ?_⟩
      refine h (a :: before) a' after b' (by rw [hl]; rfl) ?_
      rw [List.foldlM_cons, hb₁]
      exact hb'

end Errors

/-- A program over operations `Op` with results `Res`, raising errors `ε`. -/
inductive Program (ε : Type) (Op : Type) (Res : Op → Type) (α : Type) : Type where
  | ret (a : α)
  | raise (e : ε)
  | op (o : Op) (next : Except ε (Res o) → Program ε Op Res α)

namespace Program
variable {ε Op α β γ : Type} {Res : Op → Type}

/-- Sequencing: an error ends the program. -/
def bind : Program ε Op Res α → (α → Program ε Op Res β) → Program ε Op Res β
  | ret a, f => f a
  | raise e, _ => raise e
  | op o next, f => op o fun r => (next r).bind f

instance : Monad (Program ε Op Res) where
  pure := ret
  bind := bind

/-- One operation; the error it answers with is raised. -/
def perform (o : Op) : Program ε Op Res (Res o) :=
  op o fun r => match r with
    | .ok a => ret a
    | .error e => raise e

/-- `try p except h`: errors raised in `p`, its operations' included, go to `h`. -/
def tryCatch : Program ε Op Res α → (ε → Program ε Op Res α) → Program ε Op Res α
  | ret a, _ => ret a
  | raise e, h => h e
  | op o next, h => op o fun r => (next r).tryCatch h

/-- A computation without operations. -/
def ofExcept : Except ε α → Program ε Op Res α
  | .ok a => ret a
  | .error e => raise e

@[simp] theorem pure_eq (a : α) : (pure a : Program ε Op Res α) = ret a := rfl

@[simp] theorem ret_bind (a : α) (f : α → Program ε Op Res β) : (ret a >>= f) = f a := rfl

@[simp] theorem raise_bind (e : ε) (f : α → Program ε Op Res β) :
    ((raise e : Program ε Op Res α) >>= f) = raise e := rfl

theorem op_bind (o : Op) (next : Except ε (Res o) → Program ε Op Res α)
    (f : α → Program ε Op Res β) : (op o next >>= f) = op o fun r => next r >>= f := rfl

@[simp] theorem bind_assoc (p : Program ε Op Res α) (f : α → Program ε Op Res β)
    (g : β → Program ε Op Res γ) : ((p >>= f) >>= g) = (p >>= fun a => f a >>= g) := by
  induction p with
  | ret a => rfl
  | raise e => rfl
  | op o next ih =>
    rw [op_bind, op_bind, op_bind]
    exact congrArg (op o) (funext ih)

/-! ## Running a program alone -/

section Run
variable {σ : Type}

/-- Answer every operation in turn: `handle` gives its answer and the next state. -/
def run (handle : (o : Op) → σ → Except ε (Res o) × σ) :
    Program ε Op Res α → σ → Except ε α × σ
  | ret a, s => (.ok a, s)
  | raise e, s => (.error e, s)
  | op o next, s => (next (handle o s).1).run handle (handle o s).2

variable (handle : (o : Op) → σ → Except ε (Res o) × σ)

@[simp] theorem run_ret (a : α) (s : σ) : (ret a : Program ε Op Res α).run handle s = (.ok a, s) :=
  rfl

@[simp] theorem run_raise (e : ε) (s : σ) :
    (raise e : Program ε Op Res α).run handle s = (.error e, s) := rfl

theorem run_op (o : Op) (next : Except ε (Res o) → Program ε Op Res α) (s : σ) :
    (op o next).run handle s = (next (handle o s).1).run handle (handle o s).2 := rfl

/-- **Sequencing runs the second program where the first one returned.** -/
theorem run_bind (p : Program ε Op Res α) (f : α → Program ε Op Res β) (s : σ) :
    (p >>= f).run handle s =
      match p.run handle s with
      | (.ok a, s') => (f a).run handle s'
      | (.error e, s') => (.error e, s') := by
  induction p generalizing s with
  | ret a => rfl
  | raise e => rfl
  | op o next ih =>
    rw [op_bind, run_op, run_op]
    exact ih _ _

theorem run_map_of_ok {p : Program ε Op Res α} {s s' : σ} {a : α} (h : p.run handle s = (.ok a, s')) (f : α → β) :
    (f <$> p).run handle s = (.ok (f a), s') :=
  (run_bind handle p (fun a => ret (f a)) s).trans (by rw [h]; rfl)

theorem run_map_of_error {p : Program ε Op Res α} {s s' : σ} {e : ε} (h : p.run handle s = (.error e, s')) (f : α → β) :
    (f <$> p).run handle s = (.error e, s') :=
  (run_bind handle p (fun a => ret (f a)) s).trans (by rw [h])

theorem run_perform (o : Op) (s : σ) : (perform o : Program ε Op Res (Res o)).run handle s = handle o s := by
  rw [perform, run_op]
  cases hr : handle o s with
  | mk r s' => cases r <;> rfl

/-- Returning leaves the state alone. -/
theorem run_bind_ret_snd (p : Program ε Op Res α) (f : α → β) (s : σ) :
    ((p >>= fun a => ret (f a)).run handle s).2 = (p.run handle s).2 := by
  rw [run_bind]
  cases hr : p.run handle s with
  | mk r s' => cases r <;> rfl

/-- An operation whose answer is known is replaced by its result. -/
theorem run_perform_bind {o : Op} {s s' : σ} {a : Res o} (h : handle o s = (.ok a, s'))
    (f : Res o → Program ε Op Res α) : (perform o >>= f).run handle s = (f a).run handle s' := by
  rw [run_bind, perform, run_op, h]
  rfl

theorem run_perform_error {o : Op} {s s' : σ} {e : ε} (h : handle o s = (.error e, s'))
    (f : Res o → Program ε Op Res α) :
    (perform o >>= f).run handle s = (.error e, s') := by
  rw [run_bind, perform, run_op, h]
  rfl

theorem run_tryCatch (p : Program ε Op Res α) (h : ε → Program ε Op Res α) (s : σ) :
    (p.tryCatch h).run handle s =
      match p.run handle s with
      | (.ok a, s') => (.ok a, s')
      | (.error e, s') => (h e).run handle s' := by
  induction p generalizing s with
  | ret a => rfl
  | raise e => rfl
  | op o next ih => exact ih _ _

/-- **States that answer alike run alike**: a relation that every operation keeps, and under which
it gives the same answer, is kept by every run. -/
theorem run_agrees {handle} {R : σ → σ → Prop}
    (hstep : ∀ o s t, R s t → (handle o s).1 = (handle o t).1 ∧ R (handle o s).2 (handle o t).2)
    (p : Program ε Op Res α) {s t : σ} (h : R s t) :
    (p.run handle s).1 = (p.run handle t).1 ∧ R (p.run handle s).2 (p.run handle t).2 := by
  induction p generalizing s t with
  | ret a => exact ⟨rfl, h⟩
  | raise e => exact ⟨rfl, h⟩
  | op o next ih =>
    obtain ⟨hanswer, hkept⟩ := hstep o s t h
    rw [run_op, run_op, hanswer]
    exact ih _ hkept

/-! ## Pre- and postconditions -/

/-- From a state with `P`, the program ends with a result and a state that `Q` allows. -/
def Triple (P : σ → Prop) (p : Program ε Op Res α) (Q : Except ε α → σ → Prop) : Prop :=
  ∀ s, P s → Q (p.run handle s).1 (p.run handle s).2

namespace Triple
variable {handle} {P P' : σ → Prop} {p : Program ε Op Res α} {Q Q' : Except ε α → σ → Prop}

theorem ret {a : α} (h : ∀ s, P s → Q (.ok a) s) : Triple handle P (ret a) Q := h

theorem raise {e : ε} (h : ∀ s, P s → Q (.error e) s) : Triple handle P (raise e) Q := h

theorem perform {o : Op} {Q : Except ε (Res o) → σ → Prop}
    (h : ∀ s, P s → Q (handle o s).1 (handle o s).2) : Triple handle P (perform o) Q := by
  intro s hs
  have := h s hs
  rw [Program.perform, run_op]
  cases hr : (handle o s).1 with
  | ok a => rwa [hr] at this
  | error e => rwa [hr] at this

theorem ofExcept {x : Except ε α} (h : ∀ s, P s → Q x s) : Triple handle P (ofExcept x) Q := by
  cases x with
  | ok a => exact h
  | error e => exact h

theorem weaken (h : Triple handle P p Q) (hP : ∀ s, P' s → P s) (hQ : ∀ r s, Q r s → Q' r s) :
    Triple handle P' p Q' := fun s hs => hQ _ _ (h s (hP s hs))

/-- **The rule of sequencing.** -/
theorem bind {f : α → Program ε Op Res β} {R : Except ε α → σ → Prop}
    {Q : Except ε β → σ → Prop} (hp : Triple handle P p R)
    (hf : ∀ a, Triple handle (R (.ok a)) (f a) Q) (he : ∀ e s, R (.error e) s → Q (.error e) s) :
    Triple handle P (p >>= f) Q := by
  intro s hs
  have hR := hp s hs
  rw [run_bind]
  cases hr : p.run handle s with
  | mk r s' =>
    rw [hr] at hR
    cases r with
    | ok a => exact hf a s' hR
    | error e => exact he e s' hR

theorem map {f : α → β} {R : Except ε α → σ → Prop} {Q : Except ε β → σ → Prop}
    (hp : Triple handle P p R) (ha : ∀ a s, R (.ok a) s → Q (.ok (f a)) s)
    (he : ∀ e s, R (.error e) s → Q (.error e) s) : Triple handle P (f <$> p) Q :=
  hp.bind (fun a => .ret (ha a)) he

/-- The rule of handlers. -/
theorem tryCatch {h : ε → Program ε Op Res α} {R : Except ε α → σ → Prop}
    (hp : Triple handle P p R) (ha : ∀ a s, R (.ok a) s → Q (.ok a) s)
    (hh : ∀ e, Triple handle (R (.error e)) (h e) Q) : Triple handle P (p.tryCatch h) Q := by
  intro s hs
  have hR := hp s hs
  rw [run_tryCatch]
  cases hr : p.run handle s with
  | mk r s' =>
    rw [hr] at hR
    cases r with
    | ok a => exact ha a s' hR
    | error e => exact hh e s' hR

end Triple

/-! ## What no operation breaks -/

/-- Every operation the program may perform keeps `I`. -/
def Keeps (I : σ → Prop) : Program ε Op Res α → Prop
  | .ret _ | .raise _ => True
  | .op o next => (∀ s, I s → I (handle o s).2) ∧ ∀ r, (next r).Keeps I

namespace Keeps
variable {handle} {I : σ → Prop}

theorem ret (a : α) : Keeps handle I (ret a : Program ε Op Res α) := trivial

theorem raise (e : ε) : Keeps handle I (raise e : Program ε Op Res α) := trivial

theorem perform {o : Op} (h : ∀ s, I s → I (handle o s).2) :
    Keeps handle I (perform o : Program ε Op Res (Res o)) :=
  ⟨h, fun r => by cases r <;> trivial⟩

theorem ofExcept (x : Except ε α) : Keeps handle I (ofExcept x : Program ε Op Res α) := by
  cases x <;> trivial

theorem bind {p : Program ε Op Res α} {f : α → Program ε Op Res β} (hp : Keeps handle I p)
    (hf : ∀ a, Keeps handle I (f a)) : Keeps handle I (p >>= f) := by
  induction p with
  | ret a => exact hf a
  | raise e => trivial
  | op o next ih => exact ⟨hp.1, fun r => ih r (hp.2 r)⟩

theorem tryCatch {p : Program ε Op Res α} {h : ε → Program ε Op Res α} (hp : Keeps handle I p)
    (hh : ∀ e, Keeps handle I (h e)) : Keeps handle I (p.tryCatch h) := by
  induction p with
  | ret a => trivial
  | raise e => exact hh e
  | op o next ih => exact ⟨hp.1, fun r => ih r (hp.2 r)⟩

/-- What every operation keeps, every program keeps. -/
theorem of_handle (h : ∀ o s, I s → I (handle o s).2) (p : Program ε Op Res α) : Keeps handle I p := by
  induction p with
  | ret a => trivial
  | raise e => trivial
  | op o next ih => exact ⟨h o, ih⟩

/-- **What every operation keeps, the run keeps.** -/
theorem run {p : Program ε Op Res α} (hp : Keeps handle I p) {s : σ} (hs : I s) :
    I (p.run handle s).2 := by
  induction p generalizing s with
  | ret a => exact hs
  | raise e => exact hs
  | op o next ih => exact ih _ (hp.2 _) (hp.1 s hs)

theorem triple {p : Program ε Op Res α} (hp : Keeps handle I p) :
    Triple handle I p fun _ => I := fun _ hs => hp.run hs

end Keeps

end Run

end Program

end Programs
