import Mathlib.Logic.Function.Basic
import Mathlib.Logic.Relation
import WebhookIngestion.Library.Programs
import WebhookIngestion.Library.Runs

/-! # Programs that run at the same time

Any number of tasks, each of them a program with the history of what it has performed,
share one state; a scheduler picks who performs the next operation.  An operation is
answered, fails before it takes effect, or takes effect and has its answer lost; a task
that crashes is one that is never picked again.

`Obeys` says what a program does whatever it is answered, given its history.
`System.Reaches.obeys` carries it to every task of every reachable configuration, and
`System.Kept.reaches` is the rule for invariants, whose one proof obligation about tasks is
the performing of an operation that the task's program obeys to perform. -/
namespace Programs

/-- An operation that was performed, with its answer. -/
structure Performed (ε Op : Type) (Res : Op → Type) where
  op : Op
  answer : Except ε (Res op)

variable {ε Op α β : Type} {Res : Op → Type}

/-- What was performed, the latest first. -/
abbrev History (ε Op : Type) (Res : Op → Type) := List (Performed ε Op Res)

namespace Program

/-- Whatever its operations answer, the program performs an operation only where `Q` has it
after the history, and ends only as `P` has it. -/
def Obeys (Q : History ε Op Res → Op → Prop) (P : History ε Op Res → Except ε α → Prop) :
    Program ε Op Res α → History ε Op Res → Prop
  | .ret a, h => P h (.ok a)
  | .raise e, h => P h (.error e)
  | .op o next, h => Q h o ∧ ∀ r, (next r).Obeys Q P (⟨o, r⟩ :: h)

namespace Obeys
variable {Q : History ε Op Res → Op → Prop} {P R : History ε Op Res → Except ε α → Prop}
  {h : History ε Op Res} {p : Program ε Op Res α}

theorem perform {o : Op} {P : History ε Op Res → Except ε (Res o) → Prop} (hq : Q h o)
    (hp : ∀ r, P (⟨o, r⟩ :: h) r) : Obeys Q P (perform o) h := by
  refine ⟨hq, fun r => ?_⟩
  cases r with
  | ok a => exact hp (.ok a)
  | error e => exact hp (.error e)

theorem ofExcept {x : Except ε α} (hp : P h x) : Obeys Q P (ofExcept x) h := by
  cases x with
  | ok a => exact hp
  | error e => exact hp

theorem weaken {Q' : History ε Op Res → Op → Prop} (hp : Obeys Q' R p h) (hq : ∀ h o, Q' h o → Q h o)
    (himp : ∀ h r, R h r → P h r) : Obeys Q P p h := by
  induction p generalizing h with
  | ret a => exact himp h _ hp
  | raise e => exact himp h _ hp
  | op o next ih => exact ⟨hq h o hp.1, fun r => ih r (hp.2 r)⟩

/-- **The rule of sequencing.** -/
theorem bind {P : History ε Op Res → Except ε β → Prop} {f : α → Program ε Op Res β}
    (hp : Obeys Q R p h) (hf : ∀ h a, R h (.ok a) → Obeys Q P (f a) h)
    (he : ∀ h e, R h (.error e) → P h (.error e)) : Obeys Q P (p >>= f) h := by
  induction p generalizing h with
  | ret a => exact hf h a hp
  | raise e => exact he h e hp
  | op o next ih => exact ⟨hp.1, fun r => ih r (hp.2 r)⟩

theorem map {P : History ε Op Res → Except ε β → Prop} {f : α → β} (hp : Obeys Q R p h)
    (ha : ∀ h a, R h (.ok a) → P h (.ok (f a))) (he : ∀ h e, R h (.error e) → P h (.error e)) :
    Obeys Q P (f <$> p) h :=
  hp.bind ha he

/-- The rule of handlers. -/
theorem tryCatch {handler : ε → Program ε Op Res α} (hp : Obeys Q R p h)
    (ha : ∀ h a, R h (.ok a) → P h (.ok a)) (hh : ∀ h e, R h (.error e) → Obeys Q P (handler e) h) :
    Obeys Q P (p.tryCatch handler) h := by
  induction p generalizing h with
  | ret a => exact ha h a hp
  | raise e => exact hh h e hp
  | op o next ih => exact ⟨hp.1, fun r => ih r (hp.2 r)⟩

/-- What a program obeys for two reasons it obeys for both. -/
theorem and {Q' : History ε Op Res → Op → Prop} (hp : Obeys Q P p h) (hp' : Obeys Q' R p h) :
    Obeys (fun h o => Q h o ∧ Q' h o) (fun h r => P h r ∧ R h r) p h := by
  induction p generalizing h with
  | ret a => exact ⟨hp, hp'⟩
  | raise e => exact ⟨hp, hp'⟩
  | op o next ih => exact ⟨⟨hp.1, hp'.1⟩, fun r => ih r (hp.2 r) (hp'.2 r)⟩

/-- The history of a program only grows. -/
theorem grows (p : Program ε Op Res α) (h : History ε Op Res) :
    Obeys (fun h' _ => h <:+ h') (fun h' _ => h <:+ h') p h := by
  suffices hgo : ∀ h', h <:+ h' → Obeys (fun h' _ => h <:+ h') (fun h' _ => h <:+ h') p h' from hgo h List.suffix_rfl
  induction p with
  | ret a => exact fun _ hsuffix => hsuffix
  | raise e => exact fun _ hsuffix => hsuffix
  | op o next ih => exact fun h' hsuffix => ⟨hsuffix, fun r => ih r _ (hsuffix.trans (List.suffix_cons _ _))⟩

/-- What a program ends with it ends with after what was there before. -/
theorem growing (hp : Obeys Q P p h) : Obeys Q (fun h' r => P h' r ∧ h <:+ h') p h :=
  (hp.and (grows p h)).weaken (fun _ _ hq => hq.1) fun _ _ hp => hp

end Obeys

/-- Every operation the program may perform meets `C`. -/
def Every (C : Op → Prop) : Program ε Op Res α → Prop
  | .ret _ | .raise _ => True
  | .op o next => C o ∧ ∀ r, (next r).Every C

/-- Rules that do not look at the history are met by every operation. -/
theorem Obeys.every {C : Op → Prop} {P : History ε Op Res → Except ε α → Prop} {p : Program ε Op Res α}
    {h : History ε Op Res} (hp : Obeys (fun _ => C) P p h) : Every C p := by
  induction p generalizing h with
  | ret a => trivial
  | raise e => trivial
  | op o next ih => exact ⟨hp.1, fun r => ih r (hp.2 r)⟩

namespace Every
variable {C D : Op → Prop} {p : Program ε Op Res α}

theorem ret (a : α) : Every C (ret a : Program ε Op Res α) := trivial

theorem raise (e : ε) : Every C (raise e : Program ε Op Res α) := trivial

theorem perform {o : Op} (h : C o) : Every C (perform o : Program ε Op Res (Res o)) :=
  ⟨h, fun r => by cases r <;> trivial⟩

theorem ofExcept (x : Except ε α) : Every C (ofExcept x : Program ε Op Res α) := by
  cases x <;> trivial

theorem bind {f : α → Program ε Op Res β} (hp : Every C p) (hf : ∀ a, Every C (f a)) :
    Every C (p >>= f) := by
  induction p with
  | ret a => exact hf a
  | raise e => trivial
  | op o next ih => exact ⟨hp.1, fun r => ih r (hp.2 r)⟩

theorem map {f : α → β} (hp : Every C p) : Every C (f <$> p) := hp.bind fun a => ret (f a)

theorem tryCatch {handler : ε → Program ε Op Res α} (hp : Every C p) (hh : ∀ e, Every C (handler e)) :
    Every C (p.tryCatch handler) := by
  induction p with
  | ret a => trivial
  | raise e => exact hh e
  | op o next ih => exact ⟨hp.1, fun r => ih r (hp.2 r)⟩

theorem mono (hp : Every C p) (himp : ∀ o, C o → D o) : Every D p := by
  induction p with
  | ret a => trivial
  | raise e => trivial
  | op o next ih => exact ⟨himp o hp.1, fun r => ih r (hp.2 r)⟩

/-- Operations that each keep `I` make a program that keeps it. -/
theorem keeps {σ : Type} {handle : (o : Op) → σ → Except ε (Res o) × σ} {I : σ → Prop} (hp : Every C p)
    (hkeeps : ∀ o, C o → ∀ s, I s → I (handle o s).2) : Keeps handle I p := by
  induction p with
  | ret a => trivial
  | raise e => trivial
  | op o next ih => exact ⟨hkeeps o hp.1, fun r => ih r (hp.2 r)⟩

/-- A program of such operations extends any history by such operations. -/
theorem obeys (hp : Every C p) (h : History ε Op Res) :
    Obeys (fun h' o => C o ∧ ∃ new, h' = new ++ h ∧ ∀ done ∈ new, C done.op)
      (fun h' _ => ∃ new, h' = new ++ h ∧ ∀ done ∈ new, C done.op) p h := by
  suffices hgo : ∀ new : History ε Op Res, (∀ done ∈ new, C done.op) →
      Obeys (fun h' o => C o ∧ ∃ new, h' = new ++ h ∧ ∀ done ∈ new, C done.op)
        (fun h' _ => ∃ new, h' = new ++ h ∧ ∀ done ∈ new, C done.op) p (new ++ h) from hgo [] nofun
  induction p with
  | ret a => exact fun new hnew => ⟨new, rfl, hnew⟩
  | raise e => exact fun new hnew => ⟨new, rfl, hnew⟩
  | op o next ih =>
    intro new hnew
    refine ⟨⟨hp.1, new, rfl, hnew⟩, fun r => ih r (hp.2 r) (⟨o, r⟩ :: new) fun done hm => ?_⟩
    rcases List.mem_cons.mp hm with rfl | hm
    · exact hp.1
    · exact hnew done hm

theorem obeys_any (hp : Every C p) (h : History ε Op Res) : Obeys (fun _ => C) (fun _ _ => True) p h :=
  (hp.obeys h).weaken (fun _ _ ho => ho.1) fun _ _ _ => trivial

end Every

end Program

/-! ## Tasks under way -/

/-- A task: what it was started for, what it has performed, and what is left of it. -/
structure Task (κ ε Op : Type) (Res : Op → Type) (α : Type) where
  job : κ
  history : History ε Op Res
  program : Program ε Op Res α

/-- The shared state, and the tasks that were started. -/
structure Config (σ ι κ ε Op : Type) (Res : Op → Type) (α : Type) where
  state : σ
  tasks : ι → Option (Task κ ε Op Res α)

/-- What tasks run, and what may go wrong. -/
structure System (σ κ ε Op : Type) (Res : Op → Type) (α : Type) where
  handle : (o : Op) → σ → Except ε (Res o) × σ
  program : κ → Program ε Op Res α
  /-- Operations that may fail, with no effect. -/
  mayFail : Op → Prop
  /-- Operations whose answer may be lost. -/
  mayLose : Op → Prop
  /-- What happens to the state beside the tasks. -/
  outside : σ → σ → Prop

variable {σ ι κ : Type}

/-- One task moves on, and the state with it. -/
def Config.put [DecidableEq ι] (c : Config σ ι κ ε Op Res α) (s : σ) (i : ι) (task : Task κ ε Op Res α) :
    Config σ ι κ ε Op Res α := ⟨s, Function.update c.tasks i (some task)⟩

section Put
variable [DecidableEq ι] {c : Config σ ι κ ε Op Res α} {s : σ} {i j : ι} {task task' : Task κ ε Op Res α}

theorem Config.tasks_put_self : (c.put s i task).tasks i = some task := Function.update_self ..

theorem Config.put_put (s' : σ) (task' : Task κ ε Op Res α) :
    (c.put s i task).put s' i task' = c.put s' i task' := by
  rw [put, put, put, Function.update_idem]

theorem Config.put_self (h : c.tasks i = some task) : c.put c.state i task = c := by
  rw [put, ← h, Function.update_eq_self]

theorem Config.tasks_put_of_ne (h : j ≠ i) : (c.put s i task).tasks j = c.tasks j :=
  Function.update_of_ne h ..

/-- The tasks afterwards: the one that has moved, and the others. -/
theorem Config.tasks_put (h : (c.put s i task).tasks j = some task') :
    j = i ∧ task' = task ∨ j ≠ i ∧ c.tasks j = some task' := by
  by_cases hj : j = i
  · subst hj
    rw [tasks_put_self] at h
    exact .inl ⟨rfl, (Option.some.inj h).symm⟩
  · rw [tasks_put_of_ne hj] at h
    exact .inr ⟨hj, h⟩

end Put

/-- Before any task was started. -/
def Config.idle (s : σ) : Config σ ι κ ε Op Res α := ⟨s, fun _ => none⟩

namespace System
variable (S : System σ κ ε Op Res α)

/-- How an operation may be answered, and the state after it. -/
inductive Answers (o : Op) (s : σ) : Except ε (Res o) → σ → Prop
  | done : Answers o s (S.handle o s).1 (S.handle o s).2
  | failed (e : ε) (h : S.mayFail o) : Answers o s (.error e) s
  | lost (e : ε) (h : S.mayLose o) : Answers o s (.error e) (S.handle o s).2

/-- Every task obeys what programs of its kind obey. -/
def Obeys (Q : κ → History ε Op Res → Op → Prop) (P : κ → History ε Op Res → Except ε α → Prop)
    (c : Config σ ι κ ε Op Res α) : Prop :=
  ∀ i task, c.tasks i = some task → task.program.Obeys (Q task.job) (P task.job) task.history

theorem obeys_idle {Q : κ → History ε Op Res → Op → Prop} {P : κ → History ε Op Res → Except ε α → Prop}
    (s : σ) : Obeys Q P (Config.idle s : Config σ ι κ ε Op Res α) := fun _ _ h => nomatch h

variable [DecidableEq ι]

/-- One step of the scheduler, which starts a task, has one perform its next operation, or
lets something happen outside.  `C` has the states that an operation is performed in. -/
inductive Step (C : Op → σ → Prop) :
    Config σ ι κ ε Op Res α → Config σ ι κ ε Op Res α → Prop
  | start {c : Config σ ι κ ε Op Res α} {i : ι} (k : κ) (hfree : c.tasks i = none) :
      Step C c (c.put c.state i ⟨k, [], S.program k⟩)
  | perform {c : Config σ ι κ ε Op Res α} {i : ι} {k : κ} {h : History ε Op Res} {o : Op}
      {next : Except ε (Res o) → Program ε Op Res α} {r : Except ε (Res o)} {s : σ}
      (htask : c.tasks i = some ⟨k, h, .op o next⟩) (hallowed : C o c.state)
      (hanswers : S.Answers o c.state r s) :
      Step C c (c.put s i ⟨k, ⟨o, r⟩ :: h, next r⟩)
  | outside {c : Config σ ι κ ε Op Res α} {s : σ} (houtside : S.outside c.state s) :
      Step C c ⟨s, c.tasks⟩

/-- A configuration that some schedule leads to. -/
def Reaches (C : Op → σ → Prop) : Config σ ι κ ε Op Res α → Config σ ι κ ε Op Res α → Prop :=
  Relation.ReflTransGen (S.Step C)

variable {S} {C : Op → σ → Prop} {Q : κ → History ε Op Res → Op → Prop}
  {P : κ → History ε Op Res → Except ε α → Prop} {c c' : Config σ ι κ ε Op Res α}

theorem Obeys.step (hjobs : ∀ k, (S.program k).Obeys (Q k) (P k) []) (hc : Obeys Q P c)
    (h : S.Step C c c') : Obeys Q P c' := by
  intro j task htask'
  cases h with
  | @start i k hfree =>
    rcases Config.tasks_put htask' with ⟨-, rfl⟩ | ⟨-, hold⟩
    · exact hjobs k
    · exact hc j task hold
  | @perform i k h o next r s htask hallowed hanswers =>
    rcases Config.tasks_put htask' with ⟨-, rfl⟩ | ⟨-, hold⟩
    · exact (hc i _ htask).2 r
    · exact hc j task hold
  | outside houtside => exact hc j task htask'

/-- **Tasks obey along every schedule what their programs obey.** -/
theorem Reaches.obeys (hjobs : ∀ k, (S.program k).Obeys (Q k) (P k) []) (hc : Obeys Q P c)
    (h : S.Reaches C c c') : Obeys Q P c' := by
  induction h with
  | refl => exact hc
  | tail _ hstep ih => exact ih.step hjobs hstep

/-- What holds of a configuration is kept by every step: one obligation for each kind of
step, and for a task that performs an operation what its program obeys. -/
structure Kept (S : System σ κ ε Op Res α) (C : Op → σ → Prop) (Q : κ → History ε Op Res → Op → Prop)
    (I : Config σ ι κ ε Op Res α → Prop) : Prop where
  start : ∀ c i k, I c → c.tasks i = none →
    I (c.put c.state i ⟨k, [], S.program k⟩)
  perform : ∀ c i k h o (next : Except ε (Res o) → Program ε Op Res α) r s, I c →
    c.tasks i = some ⟨k, h, .op o next⟩ → Q k h o → C o c.state → S.Answers o c.state r s →
      I (c.put s i ⟨k, ⟨o, r⟩ :: h, next r⟩)
  outside : ∀ c s, I c → S.outside c.state s → I ⟨s, c.tasks⟩

/-- **The rule for invariants.** -/
theorem Kept.reaches {I : Config σ ι κ ε Op Res α → Prop} (hkept : S.Kept C Q I)
    (hjobs : ∀ k, (S.program k).Obeys (Q k) (P k) []) (hc : Obeys Q P c) (hI : I c)
    (h : S.Reaches C c c') : Obeys Q P c' ∧ I c' := by
  induction h with
  | refl => exact ⟨hc, hI⟩
  | @tail before after _ hstep ih =>
    obtain ⟨hbefore, hIbefore⟩ := ih
    refine ⟨hbefore.step hjobs hstep, ?_⟩
    cases hstep with
    | @start i k hfree => exact hkept.start before i k hIbefore hfree
    | @perform i k h o next r s htask hallowed hanswers =>
      exact hkept.perform before i k h o next r s hIbefore htask (hbefore i _ htask).1 hallowed hanswers
    | @outside s houtside => exact hkept.outside before s hIbefore houtside

/-- **What every operation keeps, every schedule keeps.** -/
theorem kept_state {J : σ → Prop} (hop : ∀ k h o s, Q k h o → C o s → J s → J (S.handle o s).2)
    (houtside : ∀ s s', S.outside s s' → J s → J s') :
    S.Kept C Q fun c : Config σ ι κ ε Op Res α => J c.state where
  start _ _ _ hJ _ := hJ
  perform c i k h o next r s hJ htask hq hallowed hanswers := by
    have hkept := hop k h o c.state hq hallowed hJ
    cases hanswers with
    | done => exact hkept
    | failed e hfail => exact hJ
    | lost e hlose => exact hkept
  outside c s hJ hout := houtside c.state s hout hJ

/-! ### Invariants put together

What the tasks have been told of the state, and what holds of the state because they have. -/

/-- Tasks that obey more keep what is kept. -/
theorem Kept.weaken {I : Config σ ι κ ε Op Res α → Prop} {Q' : κ → History ε Op Res → Op → Prop}
    (h : S.Kept C Q I) (himp : ∀ k past o, Q' k past o → Q k past o) : S.Kept C Q' I where
  start := h.start
  perform c i k past o next r s hI htask hq hallowed hanswers :=
    h.perform c i k past o next r s hI htask (himp k past o hq) hallowed hanswers
  outside := h.outside

/-- What is kept for two reasons is kept for both. -/
theorem Kept.and {I I' : Config σ ι κ ε Op Res α → Prop} (h : S.Kept C Q I) (h' : S.Kept C Q I') :
    S.Kept C Q fun c => I c ∧ I' c where
  start c i k hI hfree := ⟨h.start c i k hI.1 hfree, h'.start c i k hI.2 hfree⟩
  perform c i k past o next r s hI htask hq hallowed hanswers :=
    ⟨h.perform c i k past o next r s hI.1 htask hq hallowed hanswers,
      h'.perform c i k past o next r s hI.2 htask hq hallowed hanswers⟩
  outside c s hI hout := ⟨h.outside c s hI.1 hout, h'.outside c s hI.2 hout⟩

/-- **What every operation keeps in configurations of a kept kind, every schedule keeps.** -/
theorem Kept.and_state {I : Config σ ι κ ε Op Res α → Prop} {J : σ → Prop} (hkept : S.Kept C Q I)
    (hop : ∀ c i k h o (next : Except ε (Res o) → Program ε Op Res α), I c → c.tasks i = some ⟨k, h, .op o next⟩ →
      Q k h o → J c.state → J (S.handle o c.state).2)
    (houtside : ∀ s s', S.outside s s' → J s → J s') : S.Kept C Q fun c => I c ∧ J c.state where
  start c i k hI hfree := ⟨hkept.start c i k hI.1 hfree, hI.2⟩
  perform c i k h o next r s hI htask hq hallowed hanswers := by
    refine ⟨hkept.perform c i k h o next r s hI.1 htask hq hallowed hanswers, ?_⟩
    have hJ := hop c i k h o next hI.1 htask hq hI.2
    cases hanswers with
    | done => exact hJ
    | failed e hfail => exact hI.2
    | lost e hlose => exact hJ
  outside c s hI hout := ⟨hkept.outside c s hI.1 hout, houtside c.state s hout hI.2⟩

/-- What its answers have told a task is true of the state. -/
def Told (fact : Performed ε Op Res → σ → Prop) (c : Config σ ι κ ε Op Res α) : Prop :=
  ∀ i task, c.tasks i = some task → ∀ done ∈ task.history, fact done c.state

omit [DecidableEq ι] in
theorem told_idle {fact : Performed ε Op Res → σ → Prop} (s : σ) :
    Told fact (Config.idle s : Config σ ι κ ε Op Res α) := fun _ _ h => nomatch h

/-- **What an answer tells stays true**, if it is true at first and no operation undoes it that
a task performs to which its own answers have told the truth. -/
theorem kept_told {fact : Performed ε Op Res → σ → Prop}
    (htells : ∀ o s r s', S.Answers o s r s' → fact ⟨o, r⟩ s')
    (hstays : ∀ k h o s, Q k h o → (∀ done ∈ h, fact done s) → ∀ done, fact done s → fact done (S.handle o s).2)
    (houtside : ∀ s s', S.outside s s' → ∀ done, fact done s → fact done s') :
    S.Kept C Q (Told fact : Config σ ι κ ε Op Res α → Prop) where
  start c i k hI hfree := by
    intro j task hput done hm
    rcases Config.tasks_put hput with ⟨-, rfl⟩ | ⟨-, hold⟩
    · cases hm
    · exact hI j task hold done hm
  perform c i k h o next r s hI htask hq hallowed hanswers := by
    have hkept : ∀ done, fact done c.state → fact done s := by
      intro done hdone
      cases hanswers with
      | done => exact hstays k h o c.state hq (hI i _ htask) done hdone
      | failed e hfail => exact hdone
      | lost e hlose => exact hstays k h o c.state hq (hI i _ htask) done hdone
    intro j task hput done hm
    rcases Config.tasks_put hput with ⟨-, rfl⟩ | ⟨-, hold⟩
    · rcases List.mem_cons.mp hm with rfl | hm
      · exact htells o c.state r s hanswers
      · exact hkept done (hI i _ htask done hm)
    · exact hkept done (hI j task hold done hm)
  outside c s hI hout := fun i task htask done hm => houtside c.state s hout done (hI i task htask done hm)

/-! ### Schedules as data -/

/-- A turn of the scheduler in which nothing goes wrong. -/
inductive Turn (σ ι κ : Type) where
  | start (i : ι) (k : κ)
  | perform (i : ι)
  | outside (f : σ → σ)

/-- What a turn does; one that is out of place does nothing. -/
def turn (S : System σ κ ε Op Res α) (c : Config σ ι κ ε Op Res α) :
    Turn σ ι κ → Config σ ι κ ε Op Res α
  | .start i k =>
    match c.tasks i with
    | none => c.put c.state i ⟨k, [], S.program k⟩
    | some _ => c
  | .perform i =>
    match c.tasks i with
    | some ⟨k, h, .op o next⟩ =>
      let (r, s) := S.handle o c.state
      c.put s i ⟨k, ⟨o, r⟩ :: h, next r⟩
    | _ => c
  | .outside f => ⟨f c.state, c.tasks⟩

/-- A turn is allowed: the operation performed in a state that `C` has, the outside as it may be. -/
def Allows (S : System σ κ ε Op Res α) (C : Op → σ → Prop) (c : Config σ ι κ ε Op Res α) :
    Turn σ ι κ → Prop
  | .start .. => True
  | .perform i =>
    match c.tasks i with
    | some ⟨_, _, .op o _⟩ => C o c.state
    | _ => True
  | .outside f => S.outside c.state (f c.state)

/-- **A schedule of allowed turns is a run.** -/
theorem reaches_schedule {turns : List (Turn σ ι κ)} (h : Runs.Along (turn S) (S.Allows C) c turns) :
    S.Reaches C c (turns.foldl (turn S) c) := by
  refine h.invariant (I := S.Reaches C c) (fun before t hallowed hbefore => ?_) .refl
  cases t with
  | start i k =>
    rw [turn]
    split
    · rename_i hfree
      exact hbefore.tail (.start k hfree)
    · exact hbefore
  | perform i =>
    rw [Allows] at hallowed
    rw [turn]
    split
    · rename_i k history o next htask
      rw [htask] at hallowed
      exact hbefore.tail (.perform htask hallowed .done)
    · exact hbefore
  | outside f => exact hbefore.tail (.outside hallowed)

/-- A turn of a task that is allowed, as a check. -/
def allowsTask (C : Op → σ → Prop) [∀ o s, Decidable (C o s)] (c : Config σ ι κ ε Op Res α) :
    Turn σ ι κ → Bool
  | .start .. => true
  | .perform i =>
    match c.tasks i with
    | some ⟨_, _, .op o _⟩ => decide (C o c.state)
    | _ => true
  | .outside _ => false

/-- **A schedule of tasks that passes the check is a run.** -/
theorem reaches_of_allowsTask [∀ o s, Decidable (C o s)] {turns : List (Turn σ ι κ)}
    (h : Runs.Along (turn S) (fun c t => allowsTask C c t = true) c turns) :
    S.Reaches C c (turns.foldl (turn S) c) := by
  refine reaches_schedule (h.mono (I := fun _ => True) (fun _ _ _ => trivial) (fun before t _ hallowed => ?_) trivial)
  cases t with
  | start i k => trivial
  | perform i =>
    rw [allowsTask] at hallowed
    rw [Allows]
    split
    · rename_i k history o next htask
      rw [htask] at hallowed
      exact of_decide_eq_true hallowed
    · trivial
  | outside f => cases hallowed

/-- Where every operation is allowed, only the outside has to behave. -/
theorem along_turns {turns : List (Turn σ ι κ)}
    (h : ∀ f, Turn.outside f ∈ turns → ∀ s, S.outside s (f s)) (c : Config σ ι κ ε Op Res α) :
    Runs.Along (turn S) (S.Allows fun _ _ => True) c turns := by
  induction turns generalizing c with
  | nil => trivial
  | cons t turns ih =>
    refine ⟨?_, ih (fun f hm => h f (List.mem_cons_of_mem _ hm)) _⟩
    cases t with
    | start i k => trivial
    | perform i =>
      rw [Allows]
      split <;> trivial
    | outside f => exact h f List.mem_cons_self _

/-! ### One task after the other -/

/-- A task that nothing interferes with runs its program to the end. -/
theorem reaches_finish {i : ι} {k : κ} (p : Program ε Op Res α) (c : Config σ ι κ ε Op Res α)
    (h : History ε Op Res) (htask : c.tasks i = some ⟨k, h, p⟩) :
    ∃ h', S.Reaches (fun _ _ => True) c
      (c.put (p.run S.handle c.state).2 i ⟨k, h', .ofExcept (p.run S.handle c.state).1⟩) := by
  induction p generalizing c h with
  | ret a => exact ⟨h, by rw [Program.run_ret, Program.ofExcept, Config.put_self htask]; exact .refl⟩
  | raise e => exact ⟨h, by rw [Program.run_raise, Program.ofExcept, Config.put_self htask]; exact .refl⟩
  | op o next ih =>
    let c₁ := c.put (S.handle o c.state).2 i ⟨k, ⟨o, (S.handle o c.state).1⟩ :: h, next (S.handle o c.state).1⟩
    have hstep : S.Step (fun _ _ => True) c c₁ := .perform htask trivial .done
    obtain ⟨h', hrest⟩ := ih (S.handle o c.state).1 c₁ _ Config.tasks_put_self
    rw [Config.put_put] at hrest
    exact ⟨h', .head hstep hrest⟩

/-- **Running a program alone is one of its schedules.** -/
theorem reaches_alone (c : Config σ ι κ ε Op Res α) {i : ι} (hfree : c.tasks i = none) (k : κ) :
    ∃ h', S.Reaches (fun _ _ => True) c
      (c.put ((S.program k).run S.handle c.state).2 i ⟨k, h', .ofExcept ((S.program k).run S.handle c.state).1⟩) := by
  have hstart : S.Step (fun _ _ => True) c (c.put c.state i ⟨k, [], S.program k⟩) := .start k hfree
  obtain ⟨h', hrest⟩ := reaches_finish (S.program k) _ [] (Config.tasks_put_self (c := c) (s := c.state))
  rw [Config.put_put] at hrest
  exact ⟨h', .head hstart hrest⟩

end System

end Programs
