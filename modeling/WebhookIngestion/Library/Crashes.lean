import WebhookIngestion.Library.Programs

/-! # Programs that are killed

A program may be killed between any two of its operations: what was performed has taken
effect, and nothing else happens.  `killed` is the state in which that leaves the
system, with the operation performed last.  `Throughout` is a postcondition together
with what holds after each operation; its rules are those of `Triple`. -/
namespace Programs
namespace Program
variable {ε Op α β σ : Type} {Res : Op → Type}

/-- The last operation and the state of a program that is killed after `n` operations, or
when it has ended. -/
def killed (handle : (o : Op) → σ → Except ε (Res o) × σ) : Nat → Program ε Op Res α → σ → Option Op × σ
  | n + 1, op o next, s =>
    let rest := killed handle n (next (handle o s).1) (handle o s).2
    (some (rest.1.getD o), rest.2)
  | _, _, s => (none, s)

/-- After each operation `I` holds of it and the state, and the program ends as `Q` has it. -/
def Throughout (handle : (o : Op) → σ → Except ε (Res o) × σ) (I : Op → σ → Prop) (Q : Except ε α → σ → Prop) :
    Program ε Op Res α → σ → Prop
  | ret a, s => Q (.ok a) s
  | raise e, s => Q (.error e) s
  | op o next, s =>
    I o (handle o s).2 ∧ Throughout handle I Q (next (handle o s).1) (handle o s).2

namespace Throughout
variable {handle : (o : Op) → σ → Except ε (Res o) × σ} {I : Op → σ → Prop} {p : Program ε Op Res α} {s : σ}

theorem perform {o : Op} {Q : Except ε (Res o) → σ → Prop} (hi : I o (handle o s).2)
    (hq : Q (handle o s).1 (handle o s).2) : Throughout handle I Q (perform o) s := by
  refine ⟨hi, ?_⟩
  cases hr : (handle o s).1 with
  | ok a => rwa [hr] at hq
  | error e => rwa [hr] at hq

theorem weaken {I' : Op → σ → Prop} {Q Q' : Except ε α → σ → Prop} (hp : Throughout handle I' Q' p s)
    (hi : ∀ o s, I' o s → I o s) (hq : ∀ r s, Q' r s → Q r s) : Throughout handle I Q p s := by
  induction p generalizing s with
  | ret a => exact hq _ _ hp
  | raise e => exact hq _ _ hp
  | op o next ih => exact ⟨hi _ _ hp.1, ih _ hp.2⟩

/-- The rule of sequencing. -/
theorem bind {f : α → Program ε Op Res β} {R : Except ε α → σ → Prop} {Q : Except ε β → σ → Prop}
    (hp : Throughout handle I R p s) (hf : ∀ a s, R (.ok a) s → Throughout handle I Q (f a) s)
    (he : ∀ e s, R (.error e) s → Q (.error e) s) : Throughout handle I Q (p >>= f) s := by
  induction p generalizing s with
  | ret a => exact hf a s hp
  | raise e => exact he e s hp
  | op o next ih => exact ⟨hp.1, ih _ hp.2⟩

/-- The rule of handlers. -/
theorem tryCatch {h : ε → Program ε Op Res α} {R Q : Except ε α → σ → Prop} (hp : Throughout handle I R p s)
    (ha : ∀ a s, R (.ok a) s → Q (.ok a) s) (hh : ∀ e s, R (.error e) s → Throughout handle I Q (h e) s) :
    Throughout handle I Q (p.tryCatch h) s := by
  induction p generalizing s with
  | ret a => exact ha a s hp
  | raise e => exact hh e s hp
  | op o next ih => exact ⟨hp.1, ih _ hp.2⟩

/-- An operation whose answer is known. -/
theorem perform_bind {o : Op} {s' : σ} {a : Res o} {f : Res o → Program ε Op Res β} {Q : Except ε β → σ → Prop}
    (h : handle o s = (.ok a, s')) (hi : I o s') (hf : Throughout handle I Q (f a) s') :
    Throughout handle I Q (Program.perform o >>= f) s := by
  refine ⟨?_, ?_⟩
  · rwa [h]
  · rw [h]
    exact hf

/-- An operation that is known to fail. -/
theorem perform_error {o : Op} {s' : σ} {e : ε} {f : Res o → Program ε Op Res β} {Q : Except ε β → σ → Prop}
    (h : handle o s = (.error e, s')) (hi : I o s') (hq : Q (.error e) s') :
    Throughout handle I Q (Program.perform o >>= f) s := by
  refine ⟨?_, ?_⟩
  · rwa [h]
  · rw [h]
    exact hq

/-- A program that is not killed ends as it should. -/
theorem run {Q : Except ε α → σ → Prop} (hp : Throughout handle I Q p s) :
    Q (p.run handle s).1 (p.run handle s).2 := by
  induction p generalizing s with
  | ret a => exact hp
  | raise e => exact hp
  | op o next ih => exact ih _ hp.2

/-- **A program that is killed leaves what holds after its last operation**, or what there was. -/
theorem killed {Q : Except ε α → σ → Prop} (hp : Throughout handle I Q p s) (n : Nat) :
    (∃ o, (killed handle n p s).1 = some o ∧ I o (killed handle n p s).2) ∨ killed handle n p s = (none, s) := by
  induction n generalizing p s with
  | zero => exact .inr rfl
  | succ n ih =>
    cases p with
    | ret a => exact .inr rfl
    | raise e => exact .inr rfl
    | op o next =>
      refine .inl ?_
      rw [Program.killed]
      rcases ih hp.2 with ⟨last, hlast, hi⟩ | hnone
      · exact ⟨last, by simp [hlast], hi⟩
      · exact ⟨o, by simp [hnone], by simpa [hnone] using hp.1⟩

end Throughout
end Program
end Programs
