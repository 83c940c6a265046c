import WebhookIngestion.Fallback
import Mathlib.Data.Bool.AllAny

/-! # Fenced answers

An answer of the model between markdown fences is taken apart into lines and put together
again.  `str.splitlines` knows more line boundaries than JSON: the ones JSON allows in a string
come back as newlines, which it does not allow there. -/
namespace WebhookIngestion
open Text

/-! ### Lines -/

/-- The text with `"\n"` for each line boundary. -/
def unixLines : Chars → Chars
  | [] => []
  | '\r' :: '\n' :: rest => '\n' :: unixLines rest
  | c :: rest => (if isLineBreak c then '\n' else c) :: unixLines rest

section Lines
variable {current s t : Chars} {c : Char}

theorem unixLines_cons (h : ∀ rest, c = '\r' → s = '\n' :: rest → False) :
    unixLines (c :: s) = (if isLineBreak c then '\n' else c) :: unixLines s := by
  rw [unixLines]
  exact h

theorem splitLines_cons (h : ∀ rest, c = '\r' → s = '\n' :: rest → False) :
    splitLines current (c :: s) =
      if isLineBreak c then current :: splitLines [] s else splitLines (current ++ [c]) s := by
  rw [splitLines]
  exact h

theorem join_cons {line : Chars} {lines : List Chars} (h : lines ≠ []) :
    join ['\n'] (line :: lines) = line ++ '\n' :: join ['\n'] lines := by
  cases lines with
  | nil => exact absurd rfl h
  | cons next lines =>
    rw [join, List.append_assoc]
    · rfl
    · exact h

theorem splitLines_ne_nil (h : s ≠ [] ∨ current ≠ []) : splitLines current s ≠ [] := by
  induction s using unixLines.induct generalizing current with
  | case1 =>
    rw [splitLines, if_neg (h.resolve_left fun hne => hne rfl)]
    exact List.cons_ne_nil _ _
  | case2 rest ih =>
    rw [splitLines]
    exact List.cons_ne_nil _ _
  | case3 c rest hcrlf ih =>
    rw [splitLines_cons hcrlf]
    split
    · exact List.cons_ne_nil _ _
    · exact ih (.inr (List.append_ne_nil_of_right_ne_nil _ (List.cons_ne_nil _ _)))

/-- The text is the lines with a newline between each two, and with whitespace behind them. -/
def JoinTo (lines : List Chars) (text : Chars) : Prop :=
  ∃ last, (∀ c ∈ last, isSpace c = true) ∧ text = join ['\n'] lines ++ last

theorem JoinTo.cons (h : JoinTo (splitLines [] s) t) (hempty : s = [] → t = []) :
    JoinTo (current :: splitLines [] s) (current ++ '\n' :: t) := by
  by_cases hs : s = []
  · refine ⟨['\n'], List.all_iff_forall_prop.mp (by decide), ?_⟩
    rw [hempty hs, hs]
    rfl
  · obtain ⟨last, hlast, rfl⟩ := h
    refine ⟨last, hlast, ?_⟩
    rw [join_cons (splitLines_ne_nil (.inl hs)), List.append_assoc, List.cons_append]

/-- Joined with newlines, the lines of a text are the text with newlines, but for one at its end. -/
theorem joinTo_splitLines : JoinTo (splitLines current s) (current ++ unixLines s) := by
  have hempty {s : Chars} (hs : s = []) : unixLines s = [] := by rw [hs]; rfl
  induction s using unixLines.induct generalizing current with
  | case1 =>
    refine ⟨[], List.forall_mem_nil _, ?_⟩
    rw [splitLines]
    cases current <;> rfl
  | case2 rest ih =>
    rw [splitLines, unixLines]
    exact JoinTo.cons ih hempty
  | case3 c rest hcrlf ih =>
    rw [splitLines_cons hcrlf, unixLines_cons hcrlf]
    split
    · exact JoinTo.cons ih hempty
    · rw [show current ++ c :: unixLines rest = current ++ [c] ++ unixLines rest from List.append_cons ..]
      exact ih

theorem crlf_append (h : ∀ rest, c = '\r' → s = '\n' :: rest → False)
    (hst : s = [] → c = '\r' → t.head? ≠ some '\n') : ∀ rest, c = '\r' → s ++ t = '\n' :: rest → False := by
  intro rest hc heq
  cases s with
  | nil => exact hst rfl hc (congrArg List.head? heq)
  | cons d s => exact h s hc (by rw [(List.cons.inj heq).1])

/-- A newline ends a line. -/
theorem splitLines_append :
    splitLines current (s ++ '\n' :: t) = splitLines current (s ++ ['\n']) ++ splitLines [] t := by
  induction s using unixLines.induct generalizing current with
  | case1 => rfl
  | case2 rest ih =>
    rw [List.cons_append, List.cons_append, List.cons_append, List.cons_append, splitLines, splitLines, ih]
    rfl
  | case3 c rest hcrlf ih =>
    by_cases hreturn : rest = [] ∧ c = '\r'
    · obtain ⟨rfl, rfl⟩ := hreturn
      rfl
    · have hsplit (t : Chars) := crlf_append (t := t) hcrlf fun hrest hc => absurd ⟨hrest, hc⟩ hreturn
      rw [List.cons_append, List.cons_append, splitLines_cons (hsplit _), splitLines_cons (hsplit _)]
      split
      · rw [ih]
        rfl
      · exact ih

theorem unixLines_append (hst : s.getLast? = some '\r' → t.head? ≠ some '\n') :
    unixLines (s ++ t) = unixLines s ++ unixLines t := by
  have hrest {c : Char} {rest : Chars} (hst : (c :: rest).getLast? = some '\r' → t.head? ≠ some '\n') :
      rest.getLast? = some '\r' → t.head? ≠ some '\n' := by
    intro hlast
    refine hst ?_
    rw [List.getLast?_cons, hlast]
    rfl
  induction s using unixLines.induct with
  | case1 => rfl
  | case2 rest ih =>
    rw [List.cons_append, List.cons_append, unixLines, unixLines, ih (hrest (hrest hst))]
    rfl
  | case3 c rest hcrlf ih =>
    have hsplit := crlf_append hcrlf (t := t) fun hnil hc => hst (by rw [hnil, hc]; rfl)
    rw [List.cons_append, unixLines_cons hsplit, unixLines_cons hcrlf, ih (hrest hst)]
    rfl

/-- A line without boundaries in it. -/
theorem splitLines_line {line : Chars} (hline : ∀ c ∈ line, isLineBreak c = false) :
    splitLines current (line ++ '\n' :: t) = (current ++ line) :: splitLines [] t := by
  induction line generalizing current with
  | nil =>
    rw [List.append_nil]
    rfl
  | cons c line ih =>
    obtain ⟨hc, hrest⟩ := List.forall_mem_cons.mp hline
    have hreturn : c ≠ '\r' := by
      rintro rfl
      exact absurd hc (by decide)
    rw [List.cons_append, splitLines_cons fun _ h _ => hreturn h, hc, if_neg Bool.false_ne_true, ih hrest,
      List.append_assoc]
    rfl

theorem unixLines_spaces (hs : ∀ c ∈ s, isSpace c = true) : ∀ c ∈ unixLines s, isSpace c = true := by
  induction s using unixLines.induct with
  | case1 => exact hs
  | case2 rest ih =>
    have hrest := ih fun c hc => hs c (List.mem_cons_of_mem _ (List.mem_cons_of_mem _ hc))
    exact List.forall_mem_cons.mpr ⟨rfl, hrest⟩
  | case3 c rest hcrlf ih =>
    have hrest := ih fun d hd => hs d (List.mem_cons_of_mem _ hd)
    rw [unixLines_cons hcrlf]
    refine List.forall_mem_cons.mpr ⟨?_, hrest⟩
    split
    · rfl
    · exact hs c List.mem_cons_self

/-! ### Stripping -/

theorem stripWhere_append {p : Char → Bool} (ht : ∀ c ∈ t, p c = true) : stripWhere p (s ++ t) = stripWhere p s := by
  have hr (s : Chars) : (s ++ t).rdropWhile p = s.rdropWhile p := by
    rw [List.rdropWhile, List.reverse_append,
      List.dropWhile_append_of_pos fun c hc => ht c (List.mem_reverse.mp hc), List.rdropWhile]
  rw [stripWhere, List.dropWhile_append]
  split
  · next hs =>
    have hnil : t.dropWhile p = [] := List.dropWhile_eq_nil_iff.mpr ht
    rw [hnil, stripWhere, List.isEmpty_iff.mp hs]
  · exact hr _

theorem stripWhere_between {p : Char → Bool} {front back middle : Chars} {x y : Char}
    (hfront : ∀ c ∈ front, p c = true) (hback : ∀ c ∈ back, p c = true) (hx : p x = false) (hy : p y = false) :
    stripWhere p (front ++ (x :: middle ++ [y]) ++ back) = x :: middle ++ [y] := by
  rw [stripWhere_append hback, stripWhere, List.cons_append, dropWhile_append_cons hx,
    List.dropWhile_eq_nil_iff.mpr hfront, List.nil_append, ← List.cons_append,
    List.rdropWhile_concat_neg _ _ _ (by rw [hy]; exact Bool.false_ne_true)]

end Lines

/-! ### Texts of objects -/

/-- Where a reader of JSON is: between strings, in one, or behind a backslash in one. -/
inductive Scan where
  | outside | inside | escaped
  deriving DecidableEq

def Scan.next : Scan → Char → Scan
  | outside, c => if c = '"' then inside else outside
  | inside, c => if c = '\\' then escaped else if c = '"' then outside else inside
  | escaped, _ => inside

/-- Where the reader is behind a text. -/
def Scan.after (scan : Scan) (s : Chars) : Scan := s.foldl Scan.next scan

/-- The characters of a text and where the reader is in front of each. -/
def scanned : Scan → Chars → List (Scan × Char)
  | _, [] => []
  | scan, c :: s => (scan, c) :: scanned (scan.next c) s

/-- The whitespace of JSON. -/
def isJsonSpace (c : Char) : Bool := c = ' ' || c = '\t' || c = '\n' || c = '\r'

/-- A text from a brace to a brace, with whitespace around; between strings its line boundaries are
whitespace of JSON. -/
structure ObjectText where
  front : Chars
  inner : Chars
  back : Chars
  front_space : ∀ c ∈ front, isJsonSpace c = true
  back_space : ∀ c ∈ back, isJsonSpace c = true
  inner_space : ∀ x ∈ scanned .outside inner, x.1 = .outside → isLineBreak x.2 = true → isJsonSpace x.2 = true

namespace ObjectText

def body (j : ObjectText) : Chars := '\x7b' :: j.inner ++ ['\x7d']

def chars (j : ObjectText) : Chars := j.front ++ j.body ++ j.back

/-- No string has a line boundary in it: of those JSON allows there, U+0085, U+2028 and U+2029. -/
def UnbrokenStrings (j : ObjectText) : Prop :=
  ∀ x ∈ scanned .outside j.inner, x.1 ≠ .outside → isLineBreak x.2 = false

end ObjectText

/-- What is relied on of `orjson.loads`: between strings one run of whitespace is as good as another,
and a raw control character in a string is refused. -/
structure ReadsJson (env : Externals) : Prop where
  respaced : ∀ front run run' back : Chars, Scan.after .outside front = .outside → run ≠ [] → run' ≠ [] →
    (∀ c ∈ run ++ run', isJsonSpace c = true) →
      env.loads (String.ofList (front ++ run ++ back)) = env.loads (String.ofList (front ++ run' ++ back))
  control : ∀ (front : Chars) (c : Char) (back : Chars), Scan.after .outside front ≠ .outside → c.toNat < 32 →
    env.loads (String.ofList (front ++ c :: back)) = none

/-- An answer between markdown fences. -/
def fenced (info j : Chars) : String := String.ofList (fence ++ info ++ '\n' :: j ++ '\n' :: fence)

/-! ### Stripping the fences -/

section Stripping
variable (j : ObjectText)

theorem isSpace_of_isJsonSpace {c : Char} (h : isJsonSpace c = true) : isSpace c = true := by
  simp only [isJsonSpace, Bool.or_eq_true, decide_eq_true_iff] at h
  rcases h with ((rfl | rfl) | rfl) | rfl <;> decide

theorem stripFences_chars : stripFences (String.ofList j.chars) = String.ofList j.body := by
  have hstrip : stripWhere isSpace j.chars = j.body :=
    stripWhere_between (fun c hc => isSpace_of_isJsonSpace (j.front_space c hc))
      (fun c hc => isSpace_of_isJsonSpace (j.back_space c hc)) (by decide) (by decide)
  rw [stripFences, String.toList_ofList]
  simp only [hstrip]
  exact if_neg Bool.false_ne_true

theorem stripWhere_unixLines :
    stripWhere isSpace (unixLines (j.chars ++ ['\n'])) = unixLines j.body := by
  have hfront : ∀ c ∈ unixLines j.front, isSpace c = true :=
    unixLines_spaces fun c hc => isSpace_of_isJsonSpace (j.front_space c hc)
  have hback : ∀ c ∈ unixLines (j.back ++ ['\n']), isSpace c = true :=
    unixLines_spaces (List.forall_mem_append.mpr
      ⟨fun c hc => isSpace_of_isJsonSpace (j.back_space c hc), List.all_iff_forall_prop.mp (by decide)⟩)
  have hbody : unixLines j.body = '\x7b' :: unixLines j.inner ++ ['\x7d'] := by
    rw [ObjectText.body, unixLines_append fun _ => by decide, unixLines_cons fun _ h _ => absurd h (by decide)]
    rfl
  have hparts : unixLines (j.chars ++ ['\n']) =
      unixLines j.front ++ unixLines j.body ++ unixLines (j.back ++ ['\n']) := by
    have hlast : (j.front ++ j.body).getLast? = some '\x7d' := by
      rw [ObjectText.body, ← List.append_assoc, List.getLast?_concat]
    have hhead : j.body.head? ≠ some '\n' := fun h => absurd (Option.some.inj h) (by decide)
    rw [ObjectText.chars, List.append_assoc, unixLines_append fun h => absurd (hlast.symm.trans h) (by decide),
      unixLines_append fun _ => hhead]
  rw [hparts, hbody]
  exact stripWhere_between hfront hback (by decide) (by decide)

theorem stripFences_fenced {info : Chars} (hinfo : ∀ c ∈ info, isLineBreak c = false) :
    stripFences (fenced info j.chars) = String.ofList (unixLines j.body) := by
  have hstrip : stripWhere isSpace (fence ++ info ++ '\n' :: j.chars ++ '\n' :: fence) =
      fence ++ info ++ '\n' :: j.chars ++ '\n' :: fence := by
    refine stripWhere_eq_self ?_ ?_
    · rintro c ⟨⟩
      decide
    · intro c hc
      have hfence : (fence ++ info ++ '\n' :: j.chars ++ '\n' :: fence).getLast? = some '`' := by
        rw [List.getLast?_append]
        rfl
      obtain rfl : '`' = c := Option.some.inj (hfence.symm.trans hc)
      decide
  have hopening : ∀ c ∈ fence ++ info, isLineBreak c = false := List.forall_mem_append.mpr
    ⟨List.all_iff_forall_prop.mp (by decide), hinfo⟩
  have hlines : splitLines [] (fence ++ info ++ '\n' :: j.chars ++ '\n' :: fence) =
      (fence ++ info) :: (splitLines [] (j.chars ++ ['\n']) ++ [fence]) := by
    rw [List.append_assoc, List.cons_append, splitLines_line hopening, splitLines_append]
    rfl
  have hfence (t : Chars) : fence.isPrefixOf (fence ++ t) = true :=
    List.isPrefixOf_iff_prefix.mpr (List.prefix_append _ _)
  have hdropped : dropClosingFence (dropOpeningFence (splitLines []
      (fence ++ info ++ '\n' :: j.chars ++ '\n' :: fence))) = splitLines [] (j.chars ++ ['\n']) := by
    have hspace : (fence ++ info).dropWhile isSpace = fence ++ info := List.dropWhile_cons_of_neg (by decide)
    rw [hlines, dropOpeningFence, hspace, if_pos (hfence info), dropClosingFence, List.getLast?_concat, Option.any_some,
      if_pos (by decide), List.dropLast_concat]
  obtain ⟨last, hspaces, hjoin⟩ := @joinTo_splitLines [] (j.chars ++ ['\n'])
  rw [fenced, stripFences, String.toList_ofList]
  simp only [hstrip, hdropped]
  rw [if_pos (by rw [List.append_assoc, List.append_assoc]; exact hfence _), strip, String.toList_ofList,
    ← stripWhere_append hspaces, ← hjoin, List.nil_append, stripWhere_unixLines]

end Stripping

/-! ### Reading what is left -/

section Reading
variable {env : Externals} (henv : ReadsJson env) {s : Chars}

theorem after_concat (front : Chars) (c : Char) :
    Scan.after .outside (front ++ [c]) = (Scan.after .outside front).next c :=
  List.foldl_concat ..

theorem scanned_append (scan : Scan) (s t : Chars) :
    scanned scan (s ++ t) = scanned scan s ++ scanned (scan.after s) t := by
  induction s generalizing scan with
  | nil => rfl
  | cons c s ih => exact congrArg (List.cons _) (ih _)

theorem Scan.next_of_isLineBreak {c : Char} (h : isLineBreak c = true) : Scan.outside.next c = .outside := by
  refine if_neg ?_
  rintro rfl
  exact absurd h (by decide)

/-- A line boundary between strings leaves the reader between strings. -/
theorem after_break {front : Chars} (houtside : Scan.after .outside front = .outside) {c : Char}
    (hc : isLineBreak c = true) : Scan.after .outside (front ++ [c]) = .outside := by
  rw [after_concat, houtside, Scan.next_of_isLineBreak hc]

include henv

/-- Newlines for the line boundaries between strings are as good. -/
theorem loads_unixLines (front : Chars) (hs : ∀ x ∈ scanned (.after .outside front) s, isLineBreak x.2 = true →
    x.1 = .outside ∧ isJsonSpace x.2 = true) :
    env.loads (String.ofList (front ++ unixLines s)) = env.loads (String.ofList (front ++ s)) := by
  have hstep {front run rest : Chars} (houtside : Scan.after .outside front = .outside) (hne : run ≠ [])
      (hrun : ∀ c ∈ run, isJsonSpace c = true)
      (ih : env.loads (String.ofList (front ++ ['\n'] ++ unixLines rest)) =
        env.loads (String.ofList (front ++ ['\n'] ++ rest))) :
      env.loads (String.ofList (front ++ ['\n'] ++ unixLines rest)) =
        env.loads (String.ofList (front ++ run ++ rest)) :=
    ih.trans (henv.respaced front ['\n'] run rest houtside (by decide) hne
      (List.forall_mem_append.mpr ⟨List.all_iff_forall_prop.mp (by decide), hrun⟩))
  induction s using unixLines.induct generalizing front with
  | case1 => rfl
  | case2 rest ih =>
    have houtside : Scan.after .outside front = .outside := (hs (_, '\r') List.mem_cons_self rfl).1
    have hnewline : Scan.after .outside (front ++ ['\n']) = .outside := after_break houtside (by decide)
    have hrest := ih (front ++ ['\n']) fun x hx => hs x (by
      rw [hnewline] at hx
      rw [houtside]
      exact List.mem_cons_of_mem _ (List.mem_cons_of_mem _ hx))
    have h := hstep houtside (List.cons_ne_nil '\r' ['\n']) (List.all_iff_forall_prop.mp (by decide)) hrest
    simp only [List.append_assoc, List.cons_append, List.nil_append] at h
    exact h
  | case3 c rest hcrlf ih =>
    rw [unixLines_cons hcrlf]
    split
    · next hc =>
      obtain ⟨houtside, hspace⟩ : Scan.after .outside front = .outside ∧ isJsonSpace c = true :=
        hs (_, c) List.mem_cons_self hc
      have hrest := ih (front ++ ['\n']) fun x hx => hs x (by
        rw [after_break houtside (by decide)] at hx
        rw [houtside, scanned, Scan.next_of_isLineBreak hc]
        exact List.mem_cons_of_mem _ hx)
      have h := hstep houtside (List.cons_ne_nil c []) (List.forall_mem_singleton.mpr hspace) hrest
      simp only [List.append_assoc, List.cons_append, List.nil_append] at h
      exact h
    · have hrest := ih (front ++ [c]) fun x hx => hs x (List.mem_cons_of_mem _ (by rwa [after_concat] at hx))
      simp only [List.append_assoc, List.cons_append, List.nil_append] at hrest
      exact hrest

/-- A newline for a line boundary in a string is refused. -/
theorem loads_broken (front : Chars) (hs : ∃ x ∈ scanned (.after .outside front) s, x.1 ≠ .outside ∧
    isLineBreak x.2 = true) : env.loads (String.ofList (front ++ unixLines s)) = none := by
  obtain ⟨x, hx, hinside, hbreak⟩ := hs
  induction s using unixLines.induct generalizing front with
  | case1 => cases hx
  | case2 rest ih =>
    by_cases houtside : Scan.after .outside front = .outside
    · rw [houtside] at hx
      rcases List.mem_cons.mp hx with rfl | hx
      · exact absurd rfl hinside
      rcases List.mem_cons.mp hx with rfl | hx
      · exact absurd rfl hinside
      have hrest := ih (front ++ ['\n']) (by rwa [after_break houtside (by decide)])
      rwa [List.append_assoc] at hrest
    · exact henv.control front '\n' (unixLines rest) houtside (by decide)
  | case3 c rest hcrlf ih =>
    rw [unixLines_cons hcrlf]
    by_cases hcontrol : Scan.after .outside front ≠ .outside ∧ isLineBreak c = true
    · rw [if_pos hcontrol.2]
      exact henv.control front '\n' (unixLines rest) hcontrol.1 (by decide)
    · rcases List.mem_cons.mp hx with rfl | hx
      · exact absurd ⟨hinside, hbreak⟩ hcontrol
      split
      · next hc =>
        have houtside : Scan.after .outside front = .outside := by
          by_contra hne
          exact hcontrol ⟨hne, hc⟩
        rw [houtside, Scan.next_of_isLineBreak hc] at hx
        have hrest := ih (front ++ ['\n']) (by rwa [after_break houtside (by decide)])
        rwa [List.append_assoc] at hrest
      · have hrest := ih (front ++ [c]) (by rwa [after_concat])
        rwa [List.append_assoc] at hrest

end Reading

/-! ### The answer -/

/-- Fences make no difference: the same data, or a refusal. -/
def FencesTransparent (env : Externals) (info j : Chars) : Prop :=
  parseJson env (fenced info j) = parseJson env (String.ofList j) ∧
    (parseAndValidate env (fenced info j)).toOption = (parseAndValidate env (String.ofList j)).toOption

/-- What is accepted, and what is then returned, is settled by `_parse_json` and the target schema. -/
theorem toOption_parseAndValidate (env : Externals) (text : String) :
    (parseAndValidate env text).toOption = (parseJson env text).filter fun data => matchesTarget data := by
  rw [parseAndValidate, parseJson]
  cases env.loads (stripFences text) with
  | none => rfl
  | some doc =>
    cases doc with
    | obj data =>
      dsimp only [Option.bind_some, Json.asObject?]
      rw [Option.filter_some]
      split
      · rfl
      · rfl
    | _ => rfl

/-- The reader goes through the inside of the braces as through the whole. -/
theorem mem_scanned_body {j : ObjectText} {x : Scan × Char} (hbreak : isLineBreak x.2 = true) :
    x ∈ scanned (.after .outside ['\x7b']) (j.inner ++ ['\x7d']) ↔ x ∈ scanned .outside j.inner := by
  rw [show Scan.after .outside ['\x7b'] = .outside from rfl, scanned_append, List.mem_append]
  refine or_iff_left fun hx => ?_
  rw [List.mem_singleton.mp hx] at hbreak
  exact absurd (show isLineBreak '\x7d' = true from hbreak) (by decide)

theorem unixLines_body (j : ObjectText) : unixLines j.body = ['\x7b'] ++ unixLines (j.inner ++ ['\x7d']) :=
  unixLines_cons fun _ h _ => absurd h (by decide)

section
variable {env : Externals} (henv : ReadsJson env) (j : ObjectText)
include henv

theorem loads_unixLines_body (hstrings : j.UnbrokenStrings) :
    env.loads (String.ofList (unixLines j.body)) = env.loads (String.ofList j.body) := by
  rw [unixLines_body]
  refine loads_unixLines henv ['\x7b'] fun x hx hbreak => ?_
  have hinner := (mem_scanned_body hbreak).mp hx
  have houtside : x.1 = .outside := by
    by_contra hinside
    rw [hstrings x hinner hinside] at hbreak
    cases hbreak
  exact ⟨houtside, j.inner_space x hinner houtside hbreak⟩

theorem loads_broken_body (hstrings : ¬ j.UnbrokenStrings) :
    env.loads (String.ofList (unixLines j.body)) = none := by
  simp only [ObjectText.UnbrokenStrings, not_forall, Bool.not_eq_false] at hstrings
  obtain ⟨x, hx, hinside, hbreak⟩ := hstrings
  rw [unixLines_body]
  exact loads_broken henv ['\x7b'] ⟨x, (mem_scanned_body hbreak).mpr hx, hinside, hbreak⟩

/-- **Fences are transparent, unless a string has a line boundary in it** and the text is one of an
object nonetheless. -/
theorem fencesTransparent_iff {info : Chars} (hinfo : ∀ c ∈ info, isLineBreak c = false) :
    FencesTransparent env info j.chars ↔
      j.UnbrokenStrings ∨ (env.loads (String.ofList j.body)).bind Json.asObject? = none := by
  rw [FencesTransparent, toOption_parseAndValidate, toOption_parseAndValidate, parseJson, parseJson,
    stripFences_fenced j hinfo, stripFences_chars]
  by_cases hstrings : j.UnbrokenStrings
  · simp [loads_unixLines_body henv j hstrings, hstrings]
  · rw [loads_broken_body henv j hstrings, or_iff_right hstrings]
    constructor
    · rintro ⟨heq, -⟩
      exact heq.symm
    · intro hnone
      rw [hnone]
      exact ⟨rfl, rfl⟩

end

/-! ### A reader from tables -/

/-- A text without the whitespace between its strings, if no string has a control character in it. -/
def compact : Scan → Chars → Option Chars
  | _, [] => some []
  | scan, c :: s =>
    if scan = .outside ∧ isJsonSpace c then compact scan s
    else if scan ≠ .outside ∧ c.toNat < 32 then none
    else (compact (scan.next c) s).map (c :: ·)

/-- `orjson.loads` of the texts in a table, however they are spaced. -/
def spacedRuntime (documents : List (String × Json)) : Externals :=
  { Externals.ofTables [] [] [] [] with
    loads := fun text => (compact .outside text.toList).bind fun key => documents.lookup (String.ofList key) }

theorem Scan.next_of_isJsonSpace {c : Char} (h : isJsonSpace c = true) : Scan.outside.next c = .outside := by
  refine if_neg ?_
  rintro rfl
  exact absurd h (by decide)

theorem compact_append (scan : Scan) (s t : Chars) :
    compact scan (s ++ t) = (compact scan s).bind fun front => (compact (scan.after s) t).map (front ++ ·) := by
  induction s generalizing scan with
  | nil =>
    rw [List.nil_append, compact, Option.bind_some]
    exact Option.map_id'.symm
  | cons c s ih =>
    rw [List.cons_append, compact, compact, Scan.after, List.foldl_cons, ← Scan.after]
    split
    · next hspace =>
      rw [hspace.1, Scan.next_of_isJsonSpace hspace.2, ih]
    · split
      · rfl
      · rw [ih]
        cases compact (scan.next c) s with
        | none => rfl
        | some front => cases compact ((scan.next c).after s) t <;> rfl

theorem compact_run {run : Chars} (hrun : ∀ c ∈ run, isJsonSpace c = true) :
    compact .outside run = some [] ∧ Scan.after .outside run = .outside := by
  induction run with
  | nil => exact ⟨rfl, rfl⟩
  | cons c run ih =>
    obtain ⟨hc, hrest⟩ := List.forall_mem_cons.mp hrun
    rw [compact, if_pos ⟨rfl, hc⟩, Scan.after, List.foldl_cons, ← Scan.after, Scan.next_of_isJsonSpace hc]
    exact ih hrest

theorem readsJson_spacedRuntime (documents : List (String × Json)) : ReadsJson (spacedRuntime documents) where
  respaced front run run' back houtside _ _ hspace := by
    obtain ⟨hrun, hrun'⟩ := List.forall_mem_append.mp hspace
    have hcompact {run : Chars} (hrun : ∀ c ∈ run, isJsonSpace c = true) :
        compact .outside (front ++ run ++ back) = compact .outside (front ++ back) := by
      obtain ⟨hnone, hafter⟩ := compact_run hrun
      rw [List.append_assoc, compact_append, compact_append, houtside, compact_append, hnone, hafter]
      simp [houtside]
    simp only [spacedRuntime, String.toList_ofList, hcompact hrun, hcompact hrun']
  control front c back hinside hcontrol := by
    have hnone : compact .outside (front ++ c :: back) = none := by
      rw [compact_append, compact, if_neg fun h => hinside h.1, if_pos ⟨hinside, hcontrol⟩]
      cases compact .outside front <;> rfl
    simp only [spacedRuntime, String.toList_ofList, hnone]
    rfl

instance (j : ObjectText) : Decidable j.UnbrokenStrings :=
  inferInstanceAs (Decidable (∀ x ∈ scanned .outside j.inner, x.1 ≠ .outside → isLineBreak x.2 = false))

/-- An object with one field, its value a text, over three lines. -/
def noteText (note : Chars) (hnote : ∀ x ∈ scanned .outside ("\n  \"note\": \"".toList ++ note ++ "\"\n".toList),
    x.1 = .outside → isLineBreak x.2 = true → isJsonSpace x.2 = true) : ObjectText where
  front := []
  inner := "\n  \"note\": \"".toList ++ note ++ "\"\n".toList
  back := ['\n']
  front_space := List.forall_mem_nil _
  back_space := List.all_iff_forall_prop.mp (by decide)
  inner_space := hnote

theorem fencesTransparent_witness :
    FencesTransparent (spacedRuntime [("\x7b\"note\":\"on time\"\x7d", .obj [("note", .str "on time")])]) "json".toList
      (noteText "on time".toList (by decide)).chars :=
  (fencesTransparent_iff (readsJson_spacedRuntime _) (noteText "on time".toList (by decide))
    (List.all_iff_forall_prop.mp (by decide))).mpr (.inl (by decide))

/-- Two words with U+2028 between them. -/
def separated : Chars := "on".toList ++ Char.ofNat 0x2028 :: "time".toList

def separatedRuntime : Externals :=
  spacedRuntime [(String.ofList ("\x7b\"note\":\"".toList ++ separated ++ "\"\x7d".toList),
    .obj [("note", .str (String.ofList separated))])]

/-- A line separator in a string: read as it is, refused between fences. -/
theorem fence_breaks_string :
    parseJson separatedRuntime (String.ofList (noteText separated (by decide)).chars) =
        some [("note", .str (String.ofList separated))] ∧
      parseJson separatedRuntime (fenced "json".toList (noteText separated (by decide)).chars) = none ∧
      ¬ FencesTransparent separatedRuntime "json".toList (noteText separated (by decide)).chars := by
  have hbare : parseJson separatedRuntime (String.ofList (noteText separated (by decide)).chars) =
      some [("note", .str (String.ofList separated))] := by decide +kernel
  have hfenced : parseJson separatedRuntime (fenced "json".toList (noteText separated (by decide)).chars) = none := by
    decide +kernel
  refine ⟨hbare, hfenced, ?_⟩
  rintro ⟨heq, -⟩
  rw [hbare, hfenced] at heq
  cases heq

end WebhookIngestion
