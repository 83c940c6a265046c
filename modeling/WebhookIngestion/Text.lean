import Mathlib.Data.List.Basic
import Mathlib.Data.List.DropRight

/-! # Python's text operations

The string methods the program uses, on lists of characters.  Case mapping covers
every character whose image has an ASCII letter; the others stay as they are, which
no use can tell apart, since every use looks for ASCII text.  What Unicode says of
the other characters (`alnum`, `digit`, `printable`) is a parameter, `Unicode`. -/
namespace WebhookIngestion

/-- The Unicode database, for characters outside ASCII. -/
structure Unicode where
  alnum : Char → Bool
  /-- The value of a decimal digit. -/
  digit : Char → Option Nat
  printable : Char → Bool

namespace Text

abbrev Chars := List Char

/-! ### Character classes -/

/-- `str.isspace` of one character. -/
def isSpace (c : Char) : Bool :=
  (9 ≤ c.toNat && c.toNat ≤ 13) || (28 ≤ c.toNat && c.toNat ≤ 32) || c.toNat = 0x85 ||
    c.toNat = 0xA0 || c.toNat = 0x1680 || (0x2000 ≤ c.toNat && c.toNat ≤ 0x200A) ||
    c.toNat = 0x2028 || c.toNat = 0x2029 || c.toNat = 0x202F || c.toNat = 0x205F || c.toNat = 0x3000

def isAsciiDigit (c : Char) : Bool := '0' ≤ c && c ≤ '9'

def isAsciiUpper (c : Char) : Bool := 'A' ≤ c && c ≤ 'Z'

def isAsciiLower (c : Char) : Bool := 'a' ≤ c && c ≤ 'z'

def isAscii (c : Char) : Bool := c.toNat < 128

/-- The `\d` of a regular expression. -/
def isDigit (u : Unicode) (c : Char) : Bool :=
  if isAscii c then isAsciiDigit c else (u.digit c).isSome

/-- The `\w` of a regular expression. -/
def isWord (u : Unicode) (c : Char) : Bool :=
  if isAscii c then isAsciiDigit c || isAsciiUpper c || isAsciiLower c || c = '_' else u.alnum c

/-! ### Stripping and searching -/

/-- `s.strip()` with the characters to strip given by a test. -/
def stripWhere (p : Char → Bool) (s : Chars) : Chars := (s.dropWhile p).rdropWhile p

/-- `s.strip()`. -/
def strip (s : String) : String := String.ofList (stripWhere isSpace s.toList)

/-- `s.strip(c)` for one character. -/
def stripChar (c : Char) (s : Chars) : Chars := stripWhere (· = c) s

/-- `needle in s`. -/
def contains (needle : Chars) : Chars → Bool
  | [] => needle.isEmpty
  | c :: s => needle.isPrefixOf (c :: s) || contains needle s

/-- `s.split(sep)` for one character. -/
def splitChar (sep : Char) : Chars → List Chars
  | [] => [[]]
  | c :: s =>
    if c = sep then [] :: splitChar sep s
    else match splitChar sep s with
      | part :: parts => (c :: part) :: parts
      | [] => [[c]]

/-- `sep.join(parts)`. -/
def join (sep : Chars) : List Chars → Chars
  | [] => []
  | [part] => part
  | part :: parts => part ++ sep ++ join sep parts

/-- `s.replace(needle, "")`, for a needle that is not empty; `skip` characters are
still part of the occurrence found last. -/
def removeAll (needle : Chars) (skip : Nat) : Chars → Chars
  | [] => []
  | c :: s =>
    match skip with
    | skip + 1 => removeAll needle skip s
    | 0 => if needle.isPrefixOf (c :: s) then removeAll needle (needle.length - 1) s
      else c :: removeAll needle 0 s

/-- What follows the last `c`, or everything: `s.rsplit(c, 1)[-1]`. -/
def afterLast (c : Char) (s : Chars) : Chars := s.rtakeWhile (· ≠ c)

/-! ### Case -/

/-- The upper case of one character, where it has an ASCII letter. -/
def upperChar (c : Char) : Chars :=
  if isAsciiLower c then [Char.ofNat (c.toNat - 32)]
  else match c.toNat with
    | 0xDF => ['S', 'S']
    | 0x131 => ['I']
    | 0x149 => [Char.ofNat 0x2BC, 'N']
    | 0x17F => ['S']
    | 0x1F0 => ['J', Char.ofNat 0x30C]
    | 0x1E96 => ['H', Char.ofNat 0x331]
    | 0x1E97 => ['T', Char.ofNat 0x308]
    | 0x1E98 => ['W', Char.ofNat 0x30A]
    | 0x1E99 => ['Y', Char.ofNat 0x30A]
    | 0x1E9A => ['A', Char.ofNat 0x2BE]
    | 0xFB00 => ['F', 'F']
    | 0xFB01 => ['F', 'I']
    | 0xFB02 => ['F', 'L']
    | 0xFB03 => ['F', 'F', 'I']
    | 0xFB04 => ['F', 'F', 'L']
    | 0xFB05 => ['S', 'T']
    | 0xFB06 => ['S', 'T']
    | _ => [c]

/-- The lower case of one character, where it has an ASCII letter. -/
def lowerChar (c : Char) : Chars :=
  if isAsciiUpper c then [Char.ofNat (c.toNat + 32)]
  else match c.toNat with
    | 0x130 => ['i', Char.ofNat 0x307]
    | 0x212A => ['k']
    | _ => [c]

/-- `s.upper()`. -/
def upper (s : Chars) : Chars := s.flatMap upperChar

/-- `s.lower()`. -/
def lower (s : Chars) : Chars := s.flatMap lowerChar

/-! ### Numbers -/

/-- The value of a decimal digit. -/
def digitValue (u : Unicode) (c : Char) : Option Nat :=
  if isAscii c then if isAsciiDigit c then some (c.toNat - '0'.toNat) else none else u.digit c

/-- The number a run of decimal digits reads; not more than Python converts. -/
def natValue (u : Unicode) (s : Chars) : Option Nat := do
  let digits ← s.mapM (digitValue u)
  if digits = [] ∨ 4300 < digits.length then none else some (digits.foldl (fun n d => 10 * n + d) 0)

/-- `int(s)`; `none` is its `ValueError`. -/
def int? (u : Unicode) (s : Chars) : Option Int :=
  let s := stripWhere isSpace s
  let unsigned := match s with
    | '-' :: rest => rest
    | '+' :: rest => rest
    | _ => s
  -- single underscores may stand between digits
  if (splitChar '_' unsigned).any (· = []) then none
  else (natValue u (unsigned.filter (· ≠ '_'))).map fun n =>
    if s.head? = some '-' then -(n : Int) else n

/-! ### Facts -/

theorem isAsciiUpper_iff {c : Char} : isAsciiUpper c = true ↔ 65 ≤ c.toNat ∧ c.toNat ≤ 90 := by
  rw [isAsciiUpper, Bool.and_eq_true, decide_eq_true_iff, decide_eq_true_iff]
  exact Iff.rfl

theorem not_space_of_isAsciiUpper {c : Char} (h : isAsciiUpper c = true) : isSpace c = false := by
  have hrange := isAsciiUpper_iff.mp h
  simp only [isSpace, Bool.or_eq_false_iff, Bool.and_eq_false_iff, decide_eq_false_iff_not]
  omega

/-- A capital letter is its own upper case. -/
theorem upperChar_of_isAsciiUpper {c : Char} (h : isAsciiUpper c = true) : upperChar c = [c] := by
  have hrange := isAsciiUpper_iff.mp h
  have hlower : isAsciiLower c = false := by
    rw [isAsciiLower, Bool.and_eq_false_iff]
    refine .inl (decide_eq_false fun hle => ?_)
    have : 97 ≤ c.toNat := hle
    omega
  rw [upperChar, if_neg (by rw [hlower]; exact Bool.false_ne_true)]
  split <;> first | omega | rfl

theorem upper_of_isAsciiUpper {s : Chars} (h : s.all isAsciiUpper = true) : upper s = s := by
  induction s with
  | nil => rfl
  | cons c s ih =>
    rw [List.all_cons, Bool.and_eq_true] at h
    have hs := ih h.2
    rw [upper] at hs ⊢
    rw [List.flatMap_cons, upperChar_of_isAsciiUpper h.1, hs]
    rfl

theorem stripWhere_eq_self {p : Char → Bool} {s : Chars} (hhead : ∀ c ∈ s.head?, p c = false)
    (hlast : ∀ c ∈ s.getLast?, p c = false) : stripWhere p s = s := by
  have hleft : s.dropWhile p = s := by
    cases s with
    | nil => rfl
    | cons c s => exact List.dropWhile_cons_of_neg (by rw [hhead c rfl]; exact Bool.false_ne_true)
  rw [stripWhere, hleft, List.rdropWhile_eq_self_iff]
  intro hne
  rw [hlast _ (List.getLast?_eq_getLast_of_ne_nil hne)]
  exact Bool.false_ne_true

theorem dropWhile_append_cons {p : Char → Bool} {x : Char} {front rest : Chars} (hx : p x = false) :
    (front ++ x :: rest).dropWhile p = front.dropWhile p ++ x :: rest := by
  induction front with
  | nil => exact List.dropWhile_cons_of_neg (by rw [hx]; exact Bool.false_ne_true)
  | cons c front ih =>
    rw [List.cons_append, List.dropWhile_cons, List.dropWhile_cons]
    split
    · exact ih
    · rfl

theorem rdropWhile_append_cons {p : Char → Bool} {x : Char} {front back : Chars} (hx : p x = false) :
    (front ++ x :: back).rdropWhile p = front ++ x :: back.rdropWhile p := by
  rw [List.rdropWhile, List.reverse_append, List.reverse_cons, List.append_assoc, List.singleton_append,
    dropWhile_append_cons hx, List.reverse_append, List.reverse_cons, List.reverse_reverse, List.append_assoc]
  rfl

theorem filter_dropWhile {p q : Char → Bool} (hpq : ∀ c, p c = true → q c = false) (s : Chars) :
    (s.dropWhile p).filter q = s.filter q := by
  induction s with
  | nil => rfl
  | cons c s ih =>
    rw [List.dropWhile_cons]
    split
    · next hc => rw [ih, List.filter_cons_of_neg (by rw [hpq c hc]; exact Bool.false_ne_true)]
    · rfl

theorem filter_rdropWhile {p q : Char → Bool} (hpq : ∀ c, p c = true → q c = false) (s : Chars) :
    (s.rdropWhile p).filter q = s.filter q := by
  rw [List.rdropWhile, List.filter_reverse, filter_dropWhile hpq, List.filter_reverse, List.reverse_reverse]

theorem stripWhere_idem (p : Char → Bool) (s : Chars) :
    stripWhere p (stripWhere p s) = stripWhere p s := by
  have hhead : (stripWhere p s).dropWhile p = stripWhere p s := by
    cases hs : stripWhere p s with
    | nil => rfl
    | cons c t =>
      -- the first character left is the first one the left strip kept
      obtain ⟨rest, hrest⟩ : stripWhere p s <+: s.dropWhile p := List.rdropWhile_prefix p _
      rw [hs] at hrest
      have hne : s.dropWhile p ≠ [] := by
        rw [← hrest]
        exact List.cons_ne_nil _ _
      have hc := List.head_dropWhile_not p hne
      simp only [← hrest, List.cons_append, List.head_cons] at hc
      exact List.dropWhile_cons_of_neg (by simp [hc])
  rw [stripWhere, hhead, stripWhere, List.rdropWhile_idempotent]

theorem strip_strip (s : String) : strip (strip s) = strip s := by
  rw [strip, strip, String.toList_ofList, stripWhere_idem]

end Text

end WebhookIngestion
