import Mathlib.Data.List.TakeWhile

/-! # Delimited texts

A text whose characters all pass a test can be read off the front of a longer one, if what
follows it starts with a character that does not pass.  `ReadsOff` says this of any two
texts; it passes from the parts of a joined text to the whole. -/
namespace Delimited

variable {α : Type} {p : α → Bool}

/-- Nothing follows, or something that starts with a delimiter. -/
def Stops (p : α → Bool) (rest : List α) : Prop := ∀ a ∈ rest.head?, p a = false

theorem Stops.nil : Stops p [] := nofun

theorem Stops.cons {a : α} (h : p a = false) (rest : List α) : Stops p (a :: rest) := by
  intro b hb
  rw [List.head?_cons, Option.mem_some_iff] at hb
  rwa [← hb]

theorem takeWhile_append {s rest : List α} (hs : ∀ a ∈ s, p a = true) (hrest : Stops p rest) :
    (s ++ rest).takeWhile p = s := by
  rw [List.takeWhile_append_of_pos hs]
  cases rest with
  | nil => simp
  | cons a rest => simp [List.takeWhile_cons_of_neg, hrest a rfl]

/-- A delimited text and what follows it are determined by the whole. -/
theorem append_inj {s t rest rest' : List α} (hs : ∀ a ∈ s, p a = true) (ht : ∀ a ∈ t, p a = true)
    (hrest : Stops p rest) (hrest' : Stops p rest') (h : s ++ rest = t ++ rest') : s = t ∧ rest = rest' := by
  have hst : s = t := by rw [← takeWhile_append hs hrest, h, takeWhile_append ht hrest']
  subst hst
  exact ⟨rfl, List.append_cancel_left h⟩

/-- The two texts can be told apart, or are one, whatever follows them. -/
def ReadsOff (p : α → Bool) (s t : List α) : Prop :=
  ∀ rest rest', Stops p rest → Stops p rest' → s ++ rest = t ++ rest' → s = t ∧ rest = rest'

theorem ReadsOff.of_all {s t : List α} (hs : ∀ a ∈ s, p a = true) (ht : ∀ a ∈ t, p a = true) :
    ReadsOff p s t :=
  fun _ _ hrest hrest' h => append_inj hs ht hrest hrest' h

theorem ReadsOff.refl (s : List α) : ReadsOff p s s :=
  fun _ _ _ _ h => ⟨rfl, List.append_cancel_left h⟩

/-- Texts that begin differently. -/
theorem ReadsOff.of_head {a b : α} (hne : a ≠ b) (s t : List α) : ReadsOff p (a :: s) (b :: t) :=
  fun _ _ _ _ h => absurd (List.cons.inj h).1 hne

/-- Texts with one front. -/
theorem ReadsOff.append_left {s t : List α} (h : ReadsOff p s t) (front : List α) :
    ReadsOff p (front ++ s) (front ++ t) := by
  intro rest rest' hrest hrest' heq
  rw [List.append_assoc, List.append_assoc] at heq
  obtain ⟨rfl, rfl⟩ := h rest rest' hrest hrest' (List.append_cancel_left heq)
  exact ⟨rfl, rfl⟩

/-! ### Joined parts -/

/-- The parts with a separator between them. -/
def joined (sep : α) : List (List α) → List α
  | [] => []
  | [part] => part
  | part :: parts => part ++ sep :: joined sep parts

theorem joined_cons (sep : α) (part : List α) (parts : List (List α)) :
    joined sep (part :: parts) = part ++ parts.flatMap (sep :: ·) := by
  induction parts generalizing part with
  | nil => simp [joined]
  | cons part' parts ih =>
    show part ++ sep :: joined sep (part' :: parts) = _
    rw [ih part', List.flatMap_cons, List.cons_append]

section
variable {sep close : α} (hsep : p sep = false) (hclose : p close = false) (hne : sep ≠ close)
include hsep hclose

theorem stops_flatMap (parts : List (List α)) (rest : List α) :
    Stops p (parts.flatMap (sep :: ·) ++ close :: rest) := by
  cases parts with
  | nil => exact .cons hclose rest
  | cons part parts => exact .cons hsep _

include hne

theorem flatMap_inj {parts parts' : List (List α)}
    (hparts : ∀ part ∈ parts, ∀ part' ∈ parts', ReadsOff p part part') {rest rest' : List α}
    (h : parts.flatMap (sep :: ·) ++ close :: rest = parts'.flatMap (sep :: ·) ++ close :: rest') :
    parts = parts' ∧ rest = rest' := by
  induction parts generalizing parts' with
  | nil =>
    cases parts' with
    | nil => exact ⟨rfl, (List.cons.inj h).2⟩
    | cons part' parts' => exact absurd (List.cons.inj h).1.symm hne
  | cons part parts ih =>
    cases parts' with
    | nil => exact absurd (List.cons.inj h).1 hne
    | cons part' parts' =>
      rw [List.flatMap_cons, List.flatMap_cons, List.append_assoc, List.append_assoc] at h
      obtain ⟨rfl, htail⟩ := hparts part List.mem_cons_self part' List.mem_cons_self _ _
        (stops_flatMap hsep hclose parts rest) (stops_flatMap hsep hclose parts' rest') (List.cons.inj h).2
      obtain ⟨rfl, rfl⟩ :=
        ih (fun s hs t ht => hparts s (List.mem_cons_of_mem _ hs) t (List.mem_cons_of_mem _ ht)) htail
      exact ⟨rfl, rfl⟩

/-- **Joined parts can be told apart** before a closing character, if the parts can, and
each starts with another character. -/
theorem joined_inj {parts parts' : List (List α)}
    (hparts : ∀ part ∈ parts, ∀ part' ∈ parts', ReadsOff p part part')
    (hfirst : ∀ part ∈ parts, ∃ a s, part = a :: s ∧ a ≠ close)
    (hfirst' : ∀ part ∈ parts', ∃ a s, part = a :: s ∧ a ≠ close) {rest rest' : List α}
    (h : joined sep parts ++ close :: rest = joined sep parts' ++ close :: rest') :
    parts = parts' ∧ rest = rest' := by
  cases parts with
  | nil =>
    cases parts' with
    | nil => exact ⟨rfl, (List.cons.inj h).2⟩
    | cons part' parts' =>
      obtain ⟨a, s, rfl, ha⟩ := hfirst' part' List.mem_cons_self
      rw [joined_cons] at h
      exact absurd (List.cons.inj h).1.symm ha
  | cons part parts =>
    cases parts' with
    | nil =>
      obtain ⟨a, s, rfl, ha⟩ := hfirst part List.mem_cons_self
      rw [joined_cons] at h
      exact absurd (List.cons.inj h).1 ha
    | cons part' parts' =>
      -- with a separator before them, the first parts are like the others
      refine flatMap_inj hsep hclose hne hparts ?_
      rw [joined_cons, joined_cons] at h
      exact congrArg (sep :: ·) h

/-- Joined parts in brackets can be told apart whatever follows them. -/
theorem ReadsOff.joined {parts parts' : List (List α)}
    (hparts : ∀ part ∈ parts, ∀ part' ∈ parts', ReadsOff p part part')
    (hfirst : ∀ part ∈ parts, ∃ a s, part = a :: s ∧ a ≠ close)
    (hfirst' : ∀ part ∈ parts', ∃ a s, part = a :: s ∧ a ≠ close) (opening : α) :
    ReadsOff p (opening :: Delimited.joined sep parts ++ [close])
      (opening :: Delimited.joined sep parts' ++ [close]) := by
  intro rest rest' _ _ h
  have htail : Delimited.joined sep parts ++ close :: rest = Delimited.joined sep parts' ++ close :: rest' := by
    simpa using h
  obtain ⟨rfl, rfl⟩ := joined_inj hsep hclose hne hparts hfirst hfirst' htail
  exact ⟨rfl, rfl⟩

end

end Delimited
