import Mathlib.Data.List.Sort
import Mathlib.Data.List.Forall2
import Mathlib.Order.WithBot
import Mathlib.Algebra.Order.Ring.Int
import Mathlib.Algebra.Order.Ring.Nat
import Mathlib.Data.Nat.Digits
import TopologyPinning.Python.Unicode

/-!
# Python built-ins used by the topology scripts

The scripts read small text files and turn them into integers with `str.strip`,
`str.split` and `int`, order records with `sorted` and `list.sort`, and take a
`max` of tuple widths. This module gives each of these one definition with
Python's semantics, over `List Char` for strings.

Exceptions are values of `PyExc`; a raising computation is an `Except PyExc`.
`int` follows CPython for base 10: surrounding white space, an optional sign, and
digits with single underscores between them. Characters outside ASCII are never
digits here (`str.isdigit` and `int` also accept other Unicode digits). Both sorts
of the scripts are stable, so a stable insertion sort computes the same list as
Python's Timsort.
-/

set_option autoImplicit false

namespace TopologyPinning.Python

/-- The exception classes the scripts raise or catch. `osError` also stands for
`IOError` (an alias) and `FileNotFoundError` (a subclass). -/
inductive PyExc where
  | osError
  | valueError
  | indexError
  | keyError
  | overflowError
  | memoryError
  deriving DecidableEq, Repr

section Except

variable {α β : Type}

@[simp] theorem ok_bind (a : α) (f : α → Except PyExc β) : (Except.ok a >>= f) = f a := rfl

@[simp] theorem error_bind (e : PyExc) (f : α → Except PyExc β) :
    (Except.error e >>= f) = .error e := rfl

@[simp] theorem pure_eq (a : α) : (pure a : Except PyExc α) = .ok a := rfl

theorem bind_eq_ok {x : Except PyExc α} {g : α → Except PyExc β} {b : β} :
    x >>= g = .ok b ↔ ∃ a, x = .ok a ∧ g a = .ok b := by
  cases x <;> simp

theorem mapM_cons_eq_ok {f : α → Except PyExc β} {a : α} {l : List α} {r : List β} :
    (a :: l).mapM f = .ok r ↔ ∃ b bs, f a = .ok b ∧ l.mapM f = .ok bs ∧ r = b :: bs := by
  simp only [List.mapM_cons, bind_eq_ok, pure_eq, Except.ok.injEq]
  constructor
  · rintro ⟨b, hb, bs, hbs, rfl⟩
    exact ⟨b, bs, hb, hbs, rfl⟩
  · rintro ⟨b, bs, hb, hbs, rfl⟩
    exact ⟨b, hb, bs, hbs, rfl⟩

/-- A list comprehension that may raise returns exactly when every element's
computation does, and then returns their results in order. -/
theorem mapM_ok_iff {f : α → Except PyExc β} (l : List α) :
    ∀ r, l.mapM f = .ok r ↔ List.Forall₂ (fun a b => f a = .ok b) l r := by
  induction l with
  | nil =>
    intro r
    simp only [List.mapM_nil, pure_eq, Except.ok.injEq, List.forall₂_nil_left_iff, eq_comm]
  | cons a l ih =>
    intro r
    rw [mapM_cons_eq_ok]
    cases r with
    | nil => simp
    | cons c r =>
      simp only [List.cons.injEq, List.forall₂_cons, ← ih]
      constructor
      · rintro ⟨b, bs, h1, h2, rfl, rfl⟩; exact ⟨h1, h2⟩
      · rintro ⟨h1, h2⟩; exact ⟨c, r, h1, h2, rfl, rfl⟩

/-- Every result of a comprehension that returned comes from one of its inputs. -/
theorem exists_of_mem_mapM {f : α → Except PyExc β} {l : List α} {r : List β}
    (h : l.mapM f = .ok r) {b : β} (hb : b ∈ r) : ∃ a ∈ l, f a = .ok b := by
  have h2 := (mapM_ok_iff l r).1 h
  clear h
  induction h2 with
  | nil => simp at hb
  | cons hab _ ih =>
    rcases List.mem_cons.1 hb with rfl | hb
    · exact ⟨_, List.mem_cons_self _ _, hab⟩
    · obtain ⟨a, ha, hfa⟩ := ih hb
      exact ⟨a, List.mem_cons_of_mem _ ha, hfa⟩

/-- Every element's computation in a comprehension that returned has returned. -/
theorem ok_of_mem_mapM {f : α → Except PyExc β} {l : List α} {r : List β}
    (h : l.mapM f = .ok r) {a : α} (ha : a ∈ l) : ∃ b, f a = .ok b := by
  have h2 := (mapM_ok_iff l r).1 h
  clear h
  induction h2 with
  | nil => simp at ha
  | cons hab _ ih =>
    rcases List.mem_cons.1 ha with rfl | ha
    · exact ⟨_, hab⟩
    · exact ih ha

/-- A comprehension that returned is the map of any function that agrees with each
element's result. -/
theorem eq_map_of_mapM_ok {f : α → Except PyExc β} {l : List α} {r : List β}
    (h : l.mapM f = .ok r) (g : α → β) (hg : ∀ a b, f a = .ok b → g a = b) : r = l.map g := by
  have h2 := (mapM_ok_iff l r).1 h
  clear h
  induction h2 with
  | nil => rfl
  | cons hab _ ih => rw [List.map_cons, hg _ _ hab, ih]

theorem exists_bind_ok {x : Except PyExc α} {g : α → Except PyExc β} (hx : ∃ a, x = .ok a)
    (hg : ∀ a, ∃ b, g a = .ok b) : ∃ b, x >>= g = .ok b := by
  obtain ⟨a, rfl⟩ := hx
  exact hg a

/-- A comprehension whose every step returns, returns. -/
theorem mapM_ok_of_forall {f : α → Except PyExc β} :
    ∀ {l : List α}, (∀ a ∈ l, ∃ b, f a = .ok b) → ∃ r, l.mapM f = .ok r
  | [], _ => ⟨[], rfl⟩
  | a :: l, h => by
    obtain ⟨b, hb⟩ := h a (List.mem_cons_self _ _)
    obtain ⟨r, hr⟩ := mapM_ok_of_forall fun c hc => h c (List.mem_cons_of_mem _ hc)
    exact ⟨b :: r, mapM_cons_eq_ok.2 ⟨b, r, hb, hr, rfl⟩⟩

/-- A comprehension over mapped inputs whose every step returns. -/
theorem mapM_map_eq_ok {γ : Type} {f : α → Except PyExc β} {g : γ → α} {k : γ → β}
    {l : List γ} (h : ∀ c ∈ l, f (g c) = .ok (k c)) : (l.map g).mapM f = .ok (l.map k) := by
  refine (mapM_ok_iff _ _).2 ?_
  induction l with
  | nil => exact List.Forall₂.nil
  | cons c l ih =>
    exact List.Forall₂.cons (h c (List.mem_cons_self _ _))
      (ih fun c hc => h c (List.mem_cons_of_mem _ hc))

/-- A comprehension whose every step returns. -/
theorem mapM_eq_ok_map {f : α → Except PyExc β} {k : α → β} {l : List α}
    (h : ∀ a ∈ l, f a = .ok (k a)) : l.mapM f = .ok (l.map k) := by
  simpa using mapM_map_eq_ok (g := id) h

theorem exists_error_iff_not_ok (x : Except PyExc α) :
    (∃ e, x = .error e) ↔ ¬ ∃ a, x = .ok a := by
  cases x <;> simp

/-- A comprehension that raised, raised the exception of one of its steps. -/
theorem exists_of_mapM_error {f : α → Except PyExc β} :
    ∀ {l : List α} {e : PyExc}, l.mapM f = .error e → ∃ a ∈ l, f a = .error e
  | [], _, h => by cases h
  | a :: l, e, h => by
    rw [List.mapM_cons] at h
    cases ha : f a with
    | error e' => rw [ha] at h; cases h; exact ⟨a, List.mem_cons_self _ _, ha⟩
    | ok b =>
      rw [ha, ok_bind] at h
      cases hl : l.mapM f with
      | error e' =>
        rw [hl] at h
        cases h
        obtain ⟨c, hc, hfc⟩ := exists_of_mapM_error hl
        exact ⟨c, List.mem_cons_of_mem _ hc, hfc⟩
      | ok r => rw [hl] at h; cases h

/-- A comprehension raises exactly when one of its steps raises. -/
theorem mapM_error_iff {f : α → Except PyExc β} (l : List α) :
    (∃ e, l.mapM f = .error e) ↔ ∃ a ∈ l, ∃ e, f a = .error e := by
  constructor
  · rintro ⟨e, h⟩
    obtain ⟨a, ha, hfa⟩ := exists_of_mapM_error h
    exact ⟨a, ha, e, hfa⟩
  · rintro ⟨a, ha, e, hfa⟩
    cases hl : l.mapM f with
    | error e' => exact ⟨e', rfl⟩
    | ok r =>
      obtain ⟨b, hb⟩ := ok_of_mem_mapM hl ha
      rw [hfa] at hb
      cases hb

end Except

/-! ## Strings -/

/-- `str.strip()` with no argument. -/
def strip (s : List Char) : List Char :=
  ((s.dropWhile isSpace).reverse.dropWhile isSpace).reverse

/-- `str.split(sep)` for a one-character separator: every occurrence splits, so
`n` separators give `n + 1` parts. -/
def split (sep : Char) : List Char → List (List Char)
  | [] => [[]]
  | c :: cs =>
    if c = sep then [] :: split sep cs
    else
      match split sep cs with
      | p :: ps => (c :: p) :: ps
      | [] => [[c]]

/-- `str.split()` with no argument: the maximal runs of non-space characters. -/
def splitWs (s : List Char) : List (List Char) :=
  (split ' ' (s.map fun c => if isSpace c then ' ' else c)).filter (· ≠ [])

theorem split_ne_nil (sep : Char) : ∀ s : List Char, split sep s ≠ []
  | [] => List.cons_ne_nil _ _
  | c :: cs => by
    unfold split
    split
    · exact List.cons_ne_nil _ _
    · split <;> exact List.cons_ne_nil _ _

/-- The first part of a text that does not start with the separator starts with the
text's first character. -/
theorem split_cons_of_ne {sep c : Char} (h : c ≠ sep) (cs : List Char) :
    ∃ p ps, split sep (c :: cs) = (c :: p) :: ps := by
  rw [split, if_neg h]
  cases hs : split sep cs with
  | nil => exact absurd hs (split_ne_nil sep cs)
  | cons p ps => exact ⟨p, ps, rfl⟩

/-- `split` is `List.splitOn`. -/
theorem split_eq_splitOn (sep : Char) : ∀ s : List Char, split sep s = s.splitOn sep
  | [] => rfl
  | c :: cs => by
    have ih := split_eq_splitOn sep cs
    simp only [List.splitOn] at ih ⊢
    rw [split, List.splitOnP_cons, ← ih]
    by_cases h : c = sep
    · simp [h]
    · simp only [h, if_false, beq_iff_eq]
      cases hs : split sep cs with
      | nil => exact absurd hs (split_ne_nil sep cs)
      | cons p ps => rfl

/-- `sep.join(parts).split(sep) == parts` when no part holds `sep`. -/
theorem split_intercalate (sep : Char) {ls : List (List Char)} (hx : ∀ l ∈ ls, sep ∉ l)
    (hls : ls ≠ []) : split sep ([sep].intercalate ls) = ls := by
  rw [split_eq_splitOn, List.splitOn_intercalate ls sep hx hls]

/-- `sep.join(s.split(sep)) == s`. -/
theorem intercalate_split (sep : Char) (s : List Char) : [sep].intercalate (split sep s) = s := by
  rw [split_eq_splitOn, List.intercalate_splitOn s sep]

theorem intercalate_cons_cons (sep : Char) (a b : List Char) (t : List (List Char)) :
    [sep].intercalate (a :: b :: t) = a ++ sep :: [sep].intercalate (b :: t) := by
  simp [List.intercalate, List.intersperse_cons_cons]

theorem mem_intercalate {sep c : Char} : ∀ {ls : List (List Char)},
    c ∈ [sep].intercalate ls → c = sep ∨ ∃ l ∈ ls, c ∈ l
  | [], h => by simp [List.intercalate] at h
  | [a], h => .inr ⟨a, List.mem_singleton_self _, by simpa [List.intercalate] using h⟩
  | a :: b :: t, h => by
    rw [intercalate_cons_cons] at h
    rcases List.mem_append.1 h with h | h
    · exact .inr ⟨a, List.mem_cons_self _ _, h⟩
    rcases List.mem_cons.1 h with h | h
    · exact .inl h
    · rcases mem_intercalate h with h | ⟨l, hl, hc⟩
      · exact .inl h
      · exact .inr ⟨l, List.mem_cons_of_mem _ hl, hc⟩

/-- A join starts with the first text, when that is not empty. -/
theorem head?_intercalate {sep : Char} {b : List Char} (hb : b ≠ []) (t : List (List Char)) :
    ([sep].intercalate (b :: t)).head? = b.head? := by
  cases t with
  | nil => simp [List.intercalate]
  | cons d t => rw [intercalate_cons_cons, List.head?_append_of_ne_nil _ hb]

/-- The last character of a join of non-empty texts is a character of one of them. -/
theorem mem_getLast?_intercalate {sep c : Char} : ∀ {ls : List (List Char)}, (∀ l ∈ ls, l ≠ []) →
    c ∈ ([sep].intercalate ls).getLast? → ∃ l ∈ ls, c ∈ l
  | [], _, h => by simp [List.intercalate] at h
  | [a], _, h => ⟨a, List.mem_singleton_self _, List.mem_of_getLast?_eq_some (by simpa [List.intercalate] using h)⟩
  | a :: b :: t, hne, h => by
    have hb : b ≠ [] := hne b (List.mem_cons_of_mem _ (List.mem_cons_self _ _))
    have hbt : [sep].intercalate (b :: t) ≠ [] := fun h0 => by
      have h1 : ([sep].intercalate (b :: t)).head? = b.head? := head?_intercalate hb t
      rw [h0] at h1
      exact hb (List.head?_eq_none_iff.1 h1.symm)
    obtain ⟨d, ds, hds⟩ := List.exists_cons_of_ne_nil hbt
    rw [intercalate_cons_cons, List.getLast?_append_of_ne_nil _ (List.cons_ne_nil _ _), hds,
      List.getLast?_cons_cons, ← hds] at h
    obtain ⟨l, hl, hc⟩ := mem_getLast?_intercalate (fun l hl => hne l (List.mem_cons_of_mem _ hl)) h
    exact ⟨l, List.mem_cons_of_mem _ hl, hc⟩

/-- `str.split()` of texts without white space, joined by single spaces, gives the texts. -/
theorem splitWs_intercalate {ls : List (List Char)} (hls : ls ≠ [])
    (h : ∀ l ∈ ls, l ≠ [] ∧ ∀ c ∈ l, isSpace c = false) : splitWs ([' '].intercalate ls) = ls := by
  have hmap : ([' '].intercalate ls).map (fun c => if isSpace c then ' ' else c) =
      [' '].intercalate ls := by
    conv_rhs => rw [← List.map_id ([' '].intercalate ls)]
    refine List.map_congr_left fun c hc => ?_
    rcases mem_intercalate hc with rfl | ⟨l, hl, hcl⟩
    · rfl
    · simp [(h l hl).2 c hcl]
  rw [splitWs, hmap, split_intercalate ' ' (fun l hl hsp => absurd ((h l hl).2 ' ' hsp) (by decide)) hls,
    List.filter_eq_self.2 fun l hl => by simpa using (h l hl).1]

/-- `str.isdigit()`: non-empty and every character a digit of some script. -/
def isDigits (s : List Char) : Bool :=
  !s.isEmpty && s.all isDigitChar

theorem mem_of_mem_strip {s : List Char} {c : Char} (h : c ∈ strip s) : c ∈ s := by
  simp only [strip, List.mem_reverse] at h
  exact (List.dropWhile_suffix _).subset (List.mem_reverse.1 ((List.dropWhile_suffix _).subset h))

theorem isSpace_of_isDigit {c : Char} (h : c.isDigit = true) : isSpace c = false :=
  isSpace_of_isDigitChar (isDigitChar_of_decimalValue (decimalValue_of_isDigit h))

theorem dropWhile_eq_self {p : Char → Bool} {s : List Char} (h : ∀ c ∈ s, p c = false) :
    s.dropWhile p = s := by
  cases s with
  | nil => rfl
  | cons c _ => exact List.dropWhile_cons_of_neg (by simp [h c (List.mem_cons_self _ _)])

/-- `strip` leaves a text without white space alone. -/
theorem strip_of_no_space {s : List Char} (h : ∀ c ∈ s, isSpace c = false) : strip s = s := by
  rw [strip, dropWhile_eq_self h, dropWhile_eq_self fun c hc => h c (List.mem_reverse.1 hc),
    List.reverse_reverse]

/-- `strip` removes the white space character that ends a text without other white space,
such as the newline of a file. -/
theorem strip_append_space {s : List Char} {c : Char} (h : ∀ c ∈ s, isSpace c = false)
    (hc : isSpace c = true) : strip (s ++ [c]) = s := by
  have hr : ∀ c ∈ s.reverse, isSpace c = false := fun c h' => h c (List.mem_reverse.1 h')
  cases s with
  | nil => simp [strip, hc]
  | cons a s =>
    rw [strip, List.cons_append, List.dropWhile_cons_of_neg (by simp [h a (List.mem_cons_self _ _)]),
      ← List.cons_append, List.reverse_append, List.reverse_singleton, List.singleton_append,
      List.dropWhile_cons_of_pos hc, dropWhile_eq_self hr, List.reverse_reverse]

/-- `strip` removes a white space character after a text that begins and ends with other
characters, whatever white space the text holds inside. -/
theorem strip_append_of_ends {s : List Char} {c : Char} (hc : isSpace c = true)
    (hhead : ∀ d ∈ s.head?, isSpace d = false) (hlast : ∀ d ∈ s.getLast?, isSpace d = false) :
    strip (s ++ [c]) = s := by
  cases s with
  | nil => simp [strip, hc]
  | cons a t =>
    rw [strip, List.cons_append, List.dropWhile_cons_of_neg (by simp [hhead a rfl]),
      ← List.cons_append, List.reverse_append, List.reverse_singleton, List.singleton_append,
      List.dropWhile_cons_of_pos hc]
    cases hr : (a :: t).reverse with
    | nil => simp at hr
    | cons z u =>
      have hz : isSpace z = false := hlast z (by rw [← List.head?_reverse, hr]; rfl)
      rw [List.dropWhile_cons_of_neg (by simp [hz]), ← hr, List.reverse_reverse]

/-- `strip` leaves a text of digits alone. -/
theorem strip_of_digits {s : List Char} (h : ∀ c ∈ s, c.isDigit = true) : strip s = s :=
  strip_of_no_space fun c hc => isSpace_of_isDigit (h c hc)

theorem mem_dropWhile_of_not {p : Char → Bool} {c : Char} (hc : p c = false) :
    ∀ {s : List Char}, c ∈ s → c ∈ s.dropWhile p
  | a :: s, h => by
    rw [List.dropWhile_cons]
    split
    · exact mem_dropWhile_of_not hc ((List.mem_cons.1 h).resolve_left fun he => by simp_all)
    · exact h

/-- `strip` removes white space only. -/
theorem mem_strip_of_not_space {s : List Char} {c : Char} (hc : c ∈ s) (hs : isSpace c = false) :
    c ∈ strip s := by
  rw [strip, List.mem_reverse]
  exact mem_dropWhile_of_not hs (List.mem_reverse.2 (mem_dropWhile_of_not hs hc))

/-! ## `int`

CPython's `int()` of a `str`, base 10: white space around the literal, an optional sign,
then decimal digits of any script with single underscores between them, at most
`sys.get_int_max_str_digits()` of them. Every failure is a `ValueError`. -/

/-- `sys.get_int_max_str_digits()` at its default: `int()` converts at most 4300 digits. -/
def maxStrDigits : Nat := 4300

/-- The strip of the white space `int()` skips around its literal. -/
def intStrip (s : List Char) : List Char :=
  ((s.dropWhile intSpace).reverse.dropWhile intSpace).reverse

/-- Digits after the first one, each possibly preceded by one underscore; `acc` is the
value read so far. -/
def digitRun (acc : Nat) : List Char → Option Nat
  | [] => some acc
  | '_' :: d :: rest => match decimalValue d with
    | some v => digitRun (10 * acc + v) rest
    | none => none
  | d :: rest => match decimalValue d with
    | some v => digitRun (10 * acc + v) rest
    | none => none

/-- An unsigned base-10 literal: a digit, then `digitRun`. -/
def natLiteral : List Char → Option Nat
  | d :: rest => match decimalValue d with
    | some v => digitRun v rest
    | none => none
  | [] => none

/-- The literal after the sign: `ValueError` unless it is one, or when it has more than
`maxStrDigits` digits. -/
def unsignedLiteral (body : List Char) : Except PyExc Nat :=
  match natLiteral body with
  | some n => if (body.filter (· ≠ '_')).length ≤ maxStrDigits then .ok n else .error .valueError
  | none => .error .valueError

/-- `int(s)` for a `str` argument. -/
def int (s : List Char) : Except PyExc Int :=
  match intStrip s with
  | '-' :: body => (fun n : Nat => -(n : Int)) <$> unsignedLiteral body
  | '+' :: body => (fun n : Nat => (n : Int)) <$> unsignedLiteral body
  | body => (fun n : Nat => (n : Int)) <$> unsignedLiteral body

example : int " 1_0\n".toList = .ok 10 ∧ int "0-1".toList = .error .valueError ∧
    int "\x1c1".toList = .error .valueError ∧ int "-١٢".toList = .ok (-12) :=
  ⟨rfl, rfl, rfl, rfl⟩

@[simp] theorem map_ok {α β : Type} (f : α → β) (a : α) :
    f <$> (Except.ok a : Except PyExc α) = .ok (f a) := rfl

@[simp] theorem map_error {α β : Type} (f : α → β) (e : PyExc) :
    f <$> (Except.error e : Except PyExc α) = .error e := rfl

theorem mem_of_mem_intStrip {s : List Char} {c : Char} (h : c ∈ intStrip s) : c ∈ s := by
  simp only [intStrip, List.mem_reverse] at h
  exact (List.dropWhile_suffix _).subset (List.mem_reverse.1 ((List.dropWhile_suffix _).subset h))

theorem intStrip_of_no_space {s : List Char} (h : ∀ c ∈ s, intSpace c = false) : intStrip s = s := by
  rw [intStrip, dropWhile_eq_self h, dropWhile_eq_self fun c hc => h c (List.mem_reverse.1 hc),
    List.reverse_reverse]

theorem mem_intStrip_of_not_space {s : List Char} {c : Char} (hc : c ∈ s)
    (hs : intSpace c = false) : c ∈ intStrip s := by
  rw [intStrip, List.mem_reverse]
  exact mem_dropWhile_of_not hs (List.mem_reverse.2 (mem_dropWhile_of_not hs hc))

theorem intSpace_of_isDigitChar {c : Char} (h : isDigitChar c = true) : intSpace c = false := by
  cases hs : intSpace c
  · rfl
  · exact absurd (intSpace_isSpace hs) (by simp [isSpace_of_isDigitChar h])

theorem unsignedLiteral_error {body : List Char} {e : PyExc} (h : unsignedLiteral body = .error e) :
    e = .valueError := by
  unfold unsignedLiteral at h
  split at h
  · split at h <;> cases h; rfl
  · cases h; rfl

/-- `int()` of a text that strips to `body` and does not start with a sign. -/
theorem int_of_unsigned {s body : List Char} (hs : intStrip s = body)
    (hsign : ∀ c ∈ body.head?, c ≠ '-' ∧ c ≠ '+') :
    int s = (fun n : Nat => (n : Int)) <$> unsignedLiteral body := by
  unfold int
  split
  · rename_i heq; exact absurd rfl (hsign '-' (by rw [← hs, heq]; rfl)).1
  · rename_i heq; exact absurd rfl (hsign '+' (by rw [← hs, heq]; rfl)).2
  · rw [hs]

/-- `int` of a text without a minus sign is not negative. -/
theorem int_nonneg {s : List Char} {n : Int} (hs : '-' ∉ s) (h : int s = .ok n) : 0 ≤ n := by
  unfold int at h
  split at h
  · rename_i body hstrip
    exact absurd (mem_of_mem_intStrip (hstrip ▸ List.mem_cons_self _ _)) hs
  all_goals cases hu : unsignedLiteral _ <;> rw [hu] at h <;> cases h; exact Int.ofNat_zero_le _

theorem digitRun_cons {acc : Nat} {d : Char} {v : Nat} (hd : decimalValue d = some v)
    (rest : List Char) : digitRun acc (d :: rest) = digitRun (10 * acc + v) rest := by
  have hu : d ≠ '_' := by rintro rfl; cases hd
  rw [digitRun.eq_3 acc d rest fun _ _ h _ => hu h, hd]

/-- A run of decimal digits is read as its value, digit by digit from `acc`. -/
theorem digitRun_of_decimals (f : Char → Nat) : ∀ (acc : Nat) (s : List Char),
    (∀ c ∈ s, decimalValue c = some (f c)) →
      digitRun acc s = some (s.foldl (fun a d => 10 * a + f d) acc)
  | acc, [], _ => rfl
  | acc, d :: rest, h => by
    rw [digitRun_cons (h d (List.mem_cons_self _ _)),
      digitRun_of_decimals f _ rest fun c hc => h c (List.mem_cons_of_mem _ hc)]
    rfl

theorem natLiteral_of_decimals (f : Char → Nat) {s : List Char} (hne : s ≠ [])
    (h : ∀ c ∈ s, decimalValue c = some (f c)) :
    natLiteral s = some (s.foldl (fun a d => 10 * a + f d) 0) := by
  obtain ⟨d, rest, rfl⟩ := List.exists_cons_of_ne_nil hne
  simp only [natLiteral, h d (List.mem_cons_self _ _),
    digitRun_of_decimals f _ rest fun c hc => h c (List.mem_cons_of_mem _ hc)]
  simp

/-- `int()` of a non-empty text of at most `maxStrDigits` decimal digits is its value. -/
theorem int_of_decimals (f : Char → Nat) {s : List Char} (hne : s ≠ [])
    (h : ∀ c ∈ s, decimalValue c = some (f c)) (hlen : s.length ≤ maxStrDigits) :
    int s = .ok (s.foldl (fun a d => 10 * a + f d) 0 : Nat) := by
  have hdig : ∀ c ∈ s, isDigitChar c = true := fun c hc => isDigitChar_of_decimalValue (h c hc)
  have hfilter : s.filter (· ≠ '_') = s :=
    List.filter_eq_self.2 fun c hc => by
      have := hdig c hc
      simp only [decide_eq_true_eq]
      rintro rfl
      exact absurd this (by decide)
  rw [int_of_unsigned (intStrip_of_no_space fun c hc => intSpace_of_isDigitChar (hdig c hc))
    fun c hc => by
      have := hdig c (List.mem_of_mem_head? hc)
      exact ⟨by rintro rfl; exact absurd this (by decide), by rintro rfl; exact absurd this (by decide)⟩,
    unsignedLiteral]
  simp only [natLiteral_of_decimals f hne h, hfilter, if_pos hlen]
  rfl

/-- `int()` of a non-empty text of at most `maxStrDigits` ASCII digits is its value. -/
theorem int_of_digits {s : List Char} (hne : s ≠ []) (h : ∀ c ∈ s, c.isDigit = true)
    (hlen : s.length ≤ maxStrDigits) :
    int s = .ok (s.foldl (fun a d => 10 * a + (d.toNat - 48)) 0 : Nat) :=
  int_of_decimals (·.toNat - 48) hne (fun c hc => decimalValue_of_isDigit (h c hc)) hlen

/-- A character that is neither a decimal digit nor `_` stops a run of digits. -/
theorem digitRun_of_mem {c : Char} (hd : decimalValue c = none) (hu : c ≠ '_') :
    ∀ (acc : Nat) (s : List Char), c ∈ s → digitRun acc s = none := by
  intro acc s h
  induction acc, s using digitRun.induct with
  | case1 => simp at h
  | case2 acc d rest v hv ih =>
    rw [digitRun, hv]
    rcases List.mem_cons.1 h with h | h
    · exact absurd h hu
    rcases List.mem_cons.1 h with h | h
    · subst h; simp_all
    · exact ih h
  | case3 acc d rest hv => rw [digitRun, hv]
  | case4 acc d rest hu' v hv ih =>
    rw [digitRun.eq_3 acc d rest hu', hv]
    rcases List.mem_cons.1 h with h | h
    · subst h; simp_all
    · exact ih h
  | case5 acc d rest hu' hv => rw [digitRun.eq_3 acc d rest hu', hv]

theorem natLiteral_of_mem {c : Char} (hd : decimalValue c = none) (hu : c ≠ '_') {s : List Char}
    (h : c ∈ s) : natLiteral s = none := by
  cases s with
  | nil => rfl
  | cons d rest =>
    rw [natLiteral]
    split
    · rename_i v hv
      exact digitRun_of_mem hd hu _ rest ((List.mem_cons.1 h).resolve_left fun he => by simp_all)
    · rfl

/-- A text of digits converts exactly when every digit is a decimal one and there are at
most `maxStrDigits` of them: a digit such as `²`, which `str.isdigit` accepts, makes
`int()` raise. -/
theorem int_ok_iff_of_isDigits {s : List Char} (h : isDigits s = true) :
    (∃ n, int s = .ok n) ↔ (∀ c ∈ s, (decimalValue c).isSome) ∧ s.length ≤ maxStrDigits := by
  simp only [isDigits, Bool.and_eq_true, Bool.not_eq_true', List.isEmpty_eq_false,
    List.all_eq_true] at h
  constructor
  · rintro ⟨n, hn⟩
    have hu : ∀ c ∈ s, c ≠ '_' := fun c hc => by rintro rfl; exact absurd (h.2 _ hc) (by decide)
    have hfilter : s.filter (· ≠ '_') = s :=
      List.filter_eq_self.2 fun c hc => by simpa using hu c hc
    obtain ⟨d, rest, rfl⟩ := List.exists_cons_of_ne_nil h.1
    have hd := h.2 d (List.mem_cons_self _ _)
    rw [int_of_unsigned (intStrip_of_no_space fun c hc => intSpace_of_isDigitChar (h.2 c hc))
      fun c hc => by
        cases hc
        exact ⟨by rintro rfl; exact absurd hd (by decide), by rintro rfl; exact absurd hd (by decide)⟩,
      unsignedLiteral, hfilter] at hn
    split at hn
    · rename_i m hm
      split at hn
      · refine ⟨fun c hc => ?_, ‹_›⟩
        cases hv : decimalValue c
        · rw [natLiteral_of_mem hv (hu c hc) hc] at hm; cases hm
        · rfl
      · cases hn
    · cases hn
  · rintro ⟨hdec, hlen⟩
    exact ⟨_, int_of_decimals (fun c => (decimalValue c).getD 0) h.1
      (fun c hc => by obtain ⟨v, hv⟩ := Option.isSome_iff_exists.1 (hdec c hc); simp [hv]) hlen⟩

/-- `int()` of a text with a comma raises `ValueError`. -/
theorem int_comma {s : List Char} (h : ',' ∈ s) : int s = .error .valueError := by
  have hs := mem_intStrip_of_not_space h (by decide)
  have hlit : ∀ {body : List Char}, ',' ∈ body → unsignedLiteral body = .error .valueError :=
    fun hb => by rw [unsignedLiteral, natLiteral_of_mem (by decide) (by decide) hb]
  unfold int
  split
  · rename_i heq
    rw [heq] at hs
    rw [hlit ((List.mem_cons.1 hs).resolve_left (by decide))]; rfl
  · rename_i heq
    rw [heq] at hs
    rw [hlit ((List.mem_cons.1 hs).resolve_left (by decide))]; rfl
  · rw [hlit hs]; rfl

/-- `int()` of a range `a-b` of digit strings raises `ValueError`. -/
theorem int_range {a b : List Char} (ha : a ≠ []) (hda : ∀ c ∈ a, c.isDigit = true)
    (hdb : ∀ c ∈ b, c.isDigit = true) : int (a ++ '-' :: b) = .error .valueError := by
  obtain ⟨d, a, rfl⟩ := List.exists_cons_of_ne_nil ha
  have hd := hda d (List.mem_cons_self _ _)
  have hsp : ∀ c, c.isDigit = true → intSpace c = false := fun c hc =>
    intSpace_of_isDigitChar (isDigitChar_of_decimalValue (decimalValue_of_isDigit hc))
  have hstrip : intStrip (d :: a ++ '-' :: b) = d :: a ++ '-' :: b := intStrip_of_no_space fun c hc => by
    rcases List.mem_append.1 hc with hc | hc
    · exact hsp c (hda c hc)
    · rcases List.mem_cons.1 hc with rfl | hc
      · decide
      · exact hsp c (hdb c hc)
  rw [int_of_unsigned hstrip fun c hc => by
      cases hc
      exact ⟨by rintro rfl; exact absurd hd (by decide), by rintro rfl; exact absurd hd (by decide)⟩,
    unsignedLiteral, natLiteral_of_mem (c := '-') (by decide) (by decide) (by simp)]
  rfl

/-! ## The digit limit -/

/-- Each digit read multiplies the bound on the run's value by ten. -/
theorem digit_step_lt {acc v k n : Nat} (hv : v < 10) (h : n < (10 * acc + v + 1) * 10 ^ k) :
    n < (acc + 1) * 10 ^ (k + 1) :=
  calc n < (10 * acc + v + 1) * 10 ^ k := h
    _ ≤ 10 * (acc + 1) * 10 ^ k := Nat.mul_le_mul_right _ (by omega)
    _ = (acc + 1) * 10 ^ (k + 1) := by rw [Nat.pow_succ]; ring

/-- After `k` digits (underscores apart) a run read from `acc` is below
`(acc + 1) * 10 ^ k`. -/
theorem digitRun_lt : ∀ (acc : Nat) (s : List Char) {n : Nat}, digitRun acc s = some n →
    n < (acc + 1) * 10 ^ (s.filter (· ≠ '_')).length := by
  intro acc s
  induction acc, s using digitRun.induct with
  | case1 acc => intro n h; cases h; simp
  | case2 acc d rest v hv ih =>
    intro n h
    rw [digitRun, hv] at h
    have hd : d ≠ '_' := by rintro rfl; cases hv
    simpa [List.filter_cons, hd] using digit_step_lt (decimalValue_lt hv) (ih h)
  | case3 acc d rest hv => intro n h; rw [digitRun, hv] at h; cases h
  | case4 acc d rest hu v hv ih =>
    intro n h
    rw [digitRun.eq_3 acc d rest hu, hv] at h
    have hd : d ≠ '_' := by rintro rfl; cases hv
    simpa [List.filter_cons, hd] using digit_step_lt (decimalValue_lt hv) (ih h)
  | case5 acc d rest hu hv => intro n h; rw [digitRun.eq_3 acc d rest hu, hv] at h; cases h

theorem natLiteral_lt {body : List Char} {n : Nat} (h : natLiteral body = some n) :
    n < 10 ^ (body.filter (· ≠ '_')).length := by
  cases body with
  | nil => cases h
  | cons d rest =>
    rw [natLiteral] at h
    split at h
    · rename_i v hv
      have hd : d ≠ '_' := by rintro rfl; cases hv
      have := @digit_step_lt 0 v _ n (decimalValue_lt hv) (by simpa using digitRun_lt v rest h)
      simpa [List.filter_cons, hd] using this
    · cases h

/-- Every value `int()` returns has at most `maxStrDigits` digits. -/
theorem int_natAbs_lt {s : List Char} {v : Int} (h : int s = .ok v) :
    v.natAbs < 10 ^ maxStrDigits := by
  have hu : ∀ {body : List Char} {n : Nat}, unsignedLiteral body = .ok n → n < 10 ^ maxStrDigits := by
    intro body n h
    unfold unsignedLiteral at h
    split at h
    · split at h
      · cases h
        exact lt_of_lt_of_le (natLiteral_lt ‹_›) (Nat.pow_le_pow_right (by decide) ‹_›)
      · cases h
    · cases h
  unfold int at h
  split at h <;> cases hn : unsignedLiteral _ <;> rw [hn] at h <;> cases h
  all_goals simpa using hu hn

/-! ## `int` reads back `str`

`str(n)` of a natural number is `Nat.toDigits 10 n`, built from the last digit
leftwards; `int` reads it from the left. -/

theorem digitChar_of_lt : ∀ d < 10,
    (Nat.digitChar d).isDigit = true ∧ (Nat.digitChar d).toNat - 48 = d := by
  decide

theorem toDigitsCore_append : ∀ (fuel n : Nat) (ds : List Char),
    Nat.toDigitsCore 10 fuel n ds = Nat.toDigitsCore 10 fuel n [] ++ ds
  | 0, _, _ => rfl
  | fuel + 1, n, ds => by
    simp only [Nat.toDigitsCore]
    split
    · rfl
    · rw [toDigitsCore_append fuel _ (_ :: ds), toDigitsCore_append fuel _ [_], List.append_assoc]
      rfl

/-- With enough fuel the digits of `n` are a non-empty string of ASCII digits whose
value is `n`. -/
theorem toDigitsCore_spec : ∀ fuel n, n < fuel →
    Nat.toDigitsCore 10 fuel n [] ≠ [] ∧ (∀ c ∈ Nat.toDigitsCore 10 fuel n [], c.isDigit = true) ∧
      (Nat.toDigitsCore 10 fuel n []).foldl (fun a d => 10 * a + (d.toNat - 48)) 0 = n
  | 0, _, h => absurd h (Nat.not_lt_zero _)
  | fuel + 1, n, h => by
    have hd := digitChar_of_lt (n % 10) (Nat.mod_lt _ (by decide))
    simp only [Nat.toDigitsCore]
    split
    · refine ⟨List.cons_ne_nil _ _, by simpa using hd.1, ?_⟩
      simp only [List.foldl_cons, List.foldl_nil, hd.2]
      omega
    · obtain ⟨hne, hall, hval⟩ := toDigitsCore_spec fuel (n / 10) (by omega)
      rw [toDigitsCore_append]
      refine ⟨by simp, fun c hc => ?_, ?_⟩
      · rcases List.mem_append.1 hc with hc | hc
        · exact hall c hc
        · simpa [List.mem_singleton.1 hc] using hd.1
      · rw [List.foldl_append, hval]
        simp only [List.foldl_cons, List.foldl_nil, hd.2]
        omega

/-- `n` has at most `k ≥ 1` digits exactly when it is below `10 ^ k`. -/
theorem toDigitsCore_length_le : ∀ fuel n, n < fuel → ∀ k, 1 ≤ k →
    ((Nat.toDigitsCore 10 fuel n []).length ≤ k ↔ n < 10 ^ k)
  | 0, _, h => absurd h (Nat.not_lt_zero _)
  | fuel + 1, n, h => by
    intro k hk
    simp only [Nat.toDigitsCore]
    split
    · have h10 : 10 ≤ 10 ^ k := by simpa using Nat.pow_le_pow_right (by decide : 0 < 10) hk
      simp only [List.length_singleton]
      omega
    · rename_i hn
      have hne := (toDigitsCore_spec fuel (n / 10) (by omega)).1
      rw [toDigitsCore_append, List.length_append, List.length_singleton]
      obtain ⟨k, rfl⟩ := Nat.exists_eq_add_of_le' hk
      rcases Nat.eq_zero_or_pos k with rfl | hk'
      · have := List.length_pos.2 hne
        simp only [Nat.zero_add, pow_one]
        omega
      · rw [Nat.add_le_add_iff_right, toDigitsCore_length_le fuel (n / 10) (by omega) k hk',
          pow_succ]
        omega

theorem toDigits_digits (n : Nat) : Nat.toDigits 10 n ≠ [] ∧ ∀ c ∈ Nat.toDigits 10 n, c.isDigit = true :=
  (toDigitsCore_spec (n + 1) n (Nat.lt_succ_self n)).imp_right And.left

theorem natLiteral_toDigits (n : Nat) : natLiteral (Nat.toDigits 10 n) = some n := by
  obtain ⟨hne, hall, hval⟩ := toDigitsCore_spec (n + 1) n (Nat.lt_succ_self n)
  rw [Nat.toDigits, natLiteral_of_decimals (·.toNat - 48) hne
    fun c hc => decimalValue_of_isDigit (hall c hc), hval]

/-- `str(n)` has at most `maxStrDigits` digits exactly when `n < 10 ^ maxStrDigits`. -/
theorem toDigits_length_le_iff (n : Nat) :
    (Nat.toDigits 10 n).length ≤ maxStrDigits ↔ n < 10 ^ maxStrDigits :=
  toDigitsCore_length_le (n + 1) n (Nat.lt_succ_self n) _ (by decide)

/-- `int(str(n)) == n` for `n` below the digit limit. -/
theorem int_toDigits {n : Nat} (h : n < 10 ^ maxStrDigits) : int (Nat.toDigits 10 n) = .ok n := by
  obtain ⟨hne, hall, hval⟩ := toDigitsCore_spec (n + 1) n (Nat.lt_succ_self n)
  rw [Nat.toDigits, int_of_digits hne hall ((toDigits_length_le_iff n).2 h), hval]

/-- `int(str(n))` raises `ValueError` from `10 ** 4300` on: the digit limit cannot be
dropped from `int_toDigits`. -/
theorem int_toDigits_of_le {n : Nat} (h : 10 ^ maxStrDigits ≤ n) :
    int (Nat.toDigits 10 n) = .error .valueError := by
  obtain ⟨hne, hall⟩ := toDigits_digits n
  have hdig : ∀ c ∈ Nat.toDigits 10 n, isDigitChar c = true := fun c hc =>
    isDigitChar_of_decimalValue (decimalValue_of_isDigit (hall c hc))
  have hfilter : (Nat.toDigits 10 n).filter (· ≠ '_') = Nat.toDigits 10 n :=
    List.filter_eq_self.2 fun c hc => by
      have := hdig c hc
      simp only [decide_eq_true_eq]
      rintro rfl
      exact absurd this (by decide)
  have hlen : ¬ (Nat.toDigits 10 n).length ≤ maxStrDigits := fun hl =>
    absurd ((toDigits_length_le_iff n).1 hl) (not_lt.2 h)
  rw [int_of_unsigned (intStrip_of_no_space fun c hc => intSpace_of_isDigitChar (hdig c hc))
    fun c hc => by
      have := hdig c (List.mem_of_mem_head? hc)
      exact ⟨by rintro rfl; exact absurd this (by decide), by rintro rfl; exact absurd this (by decide)⟩,
    unsignedLiteral]
  simp only [natLiteral_toDigits, hfilter, if_neg hlen]
  rfl

/-- `int(str(v)) == v` for an `int` of either sign below the digit limit. -/
theorem int_toString {v : Int} (h : v.natAbs < 10 ^ maxStrDigits) : int (toString v).toList = .ok v := by
  cases v with
  | ofNat n => exact int_toDigits h
  | negSucc n =>
    have hd := toDigits_digits (n + 1)
    have hlen := (toDigits_length_le_iff (n + 1)).2 h
    show int ('-' :: Nat.toDigits 10 (n + 1)) = _
    have hfilter : (Nat.toDigits 10 (n + 1)).filter (· ≠ '_') = Nat.toDigits 10 (n + 1) :=
      List.filter_eq_self.2 fun c hc => by
        have := hd.2 c hc
        simp only [decide_eq_true_eq]
        rintro rfl
        exact absurd this (by decide)
    rw [int, intStrip_of_no_space fun c hc => ?_]
    · simp only [unsignedLiteral, natLiteral_toDigits, hfilter, if_pos hlen]
      rfl
    · rcases List.mem_cons.1 hc with rfl | hc
      · decide
      · exact intSpace_of_isDigitChar
          (isDigitChar_of_decimalValue (decimalValue_of_isDigit (hd.2 c hc)))

/-- The characters of `str(v)`: a minus sign and ASCII digits. -/
theorem mem_toString_int {c : Char} {v : Int} (h : c ∈ (toString v).toList) :
    c = '-' ∨ c.isDigit = true := by
  cases v with
  | ofNat n => exact .inr ((toDigits_digits n).2 c h)
  | negSucc n =>
    rcases List.mem_cons.1 (show c ∈ '-' :: Nat.toDigits 10 (n + 1) from h) with rfl | h
    · exact .inl rfl
    · exact .inr ((toDigits_digits (n + 1)).2 c h)

/-! ## Lists -/

/-- A comprehension `[g(t) for t in l if P(t)]` written as one `filterMap`. -/
theorem filterMap_ite {α β : Type} (P : α → Bool) (g : α → β) (l : List α) :
    l.filterMap (fun t => if P t then some (g t) else none) = (l.filter P).map g := by
  induction l with
  | nil => rfl
  | cons a l ih => by_cases h : P a <;> simp [List.filter_cons, h, ih]

/-- `sorted(l, key=key)`, and `l.sort(key=key)`: the stable sort by `key`. -/
def sorted {α κ : Type} [LinearOrder κ] (key : α → κ) (l : List α) : List α :=
  l.insertionSort fun a b => key a ≤ key b

theorem sorted_perm {α κ : Type} [LinearOrder κ] (key : α → κ) (l : List α) :
    List.Perm (sorted key l) l :=
  List.perm_insertionSort _ l

@[simp] theorem mem_sorted {α κ : Type} [LinearOrder κ] {key : α → κ} {l : List α} {a : α} :
    a ∈ sorted key l ↔ a ∈ l :=
  List.mem_insertionSort _

section Sorted

variable {α κ : Type} [LinearOrder κ] {key : α → κ}

/-- `sorted` returns a list ordered by `key`. -/
theorem sorted_sorted (l : List α) : (sorted key l).Sorted fun a b => key a ≤ key b := by
  haveI : IsTotal α fun a b => key a ≤ key b := ⟨fun _ _ => le_total _ _⟩
  haveI : IsTrans α fun a b => key a ≤ key b := ⟨fun _ _ _ => le_trans⟩
  exact List.sorted_insertionSort _ l

theorem sorted_eq_self {l : List α} (h : l.Sorted fun a b => key a ≤ key b) :
    sorted key l = l :=
  h.insertionSort_eq

/-- `sorted` is stable: two elements in key order keep their relative order. -/
theorem pair_sublist_sorted {a b : α} {l : List α} (hab : key a ≤ key b)
    (h : List.Sublist [a, b] l) : List.Sublist [a, b] (sorted key l) :=
  List.pair_sublist_insertionSort (r := fun a b => key a ≤ key b) hab h

/-- Inserting an element that comes `T`-before every element of a list sorted by
`key` keeps the list ordered by key, with ties in `T` order. -/
theorem orderedInsert_stable {T : α → α → Prop} {a : α} :
    ∀ {S : List α}, S.Pairwise (fun x y => key x < key y ∨ (key x = key y ∧ T x y)) →
      S.Pairwise (fun x y => key x ≤ key y) → (∀ b ∈ S, T a b) →
      (S.orderedInsert (fun x y => key x ≤ key y) a).Pairwise
        fun x y => key x < key y ∨ (key x = key y ∧ T x y)
  | [], _, _, _ => List.pairwise_singleton _ _
  | b :: S, hR, hle, hT => by
    simp only [List.orderedInsert]
    split
    · rename_i hab
      refine List.Pairwise.cons (fun c hc => ?_) hR
      have hac : key a ≤ key c := by
        rcases List.mem_cons.1 hc with rfl | hc
        · exact hab
        · exact hab.trans (List.rel_of_pairwise_cons hle hc)
      rcases hac.lt_or_eq with h | h
      · exact .inl h
      · exact .inr ⟨h, hT c hc⟩
    · rename_i hab
      refine List.Pairwise.cons (fun c hc => ?_) (orderedInsert_stable hR.of_cons hle.of_cons
        fun c hc => hT c (List.mem_cons_of_mem _ hc))
      rcases (List.mem_orderedInsert _).1 hc with rfl | hc
      · exact .inl (lt_of_not_le hab)
      · exact List.rel_of_pairwise_cons hR hc

/-- `sorted` is stable: on a list in `T` order, elements of equal key stay in `T`
order. -/
theorem sorted_stable {T : α → α → Prop} :
    ∀ {l : List α}, l.Pairwise T →
      (sorted key l).Pairwise fun x y => key x < key y ∨ (key x = key y ∧ T x y)
  | [], _ => List.Pairwise.nil
  | _ :: l, h =>
    orderedInsert_stable (sorted_stable h.of_cons) (sorted_sorted l)
      fun _ hb => List.rel_of_pairwise_cons h (mem_sorted.1 hb)

/-- Sorting the images `g b` by `key` and mapping them back by `f` is sorting the `b` by
`k`, when `f` undoes `g` and `key` of `g b` is `k b`. -/
theorem sorted_map_of_key {β : Type} {k : β → κ} {g : β → α} {f : α → β} (hf : ∀ b, f (g b) = b) (hk : ∀ b, key (g b) = k b) (l : List β) :
    (sorted key (l.map g)).map f = sorted k l := by
  unfold sorted
  rw [List.map_insertionSort (fun a b => key a ≤ key b) (fun a b => k a ≤ k b) f, List.map_map]
  · exact congrArg _ ((List.map_congr_left fun b _ => hf b).trans (List.map_id l))
  · simp only [List.mem_map]
    rintro _ ⟨a, -, rfl⟩ _ ⟨b, -, rfl⟩
    simp only [hk, hf]

/-- Sorting `(key, value)` pairs by their first component and dropping the keys is
sorting the values by `key`. -/
theorem sorted_keyed {β : Type} (k : β → κ) (l : List β) :
    (sorted Prod.fst (l.map fun y => (k y, y))).map Prod.snd = sorted k l := by
  unfold sorted
  rw [List.map_insertionSort (fun a b => a.1 ≤ b.1) (fun a b => k a ≤ k b) Prod.snd, List.map_map]
  · exact congrArg _ (List.map_id' l)
  · simp only [List.mem_map]
    rintro _ ⟨_, -, rfl⟩ _ ⟨_, -, rfl⟩
    rfl

end Sorted

/-- `max()` of an iterable of widths: `ValueError` on an empty one. -/
def max : List Nat → Except PyExc Nat
  | [] => .error .valueError
  | a :: l => .ok (l.foldl Max.max a)

/-- `l[i]` for an `int` index: a negative index counts from the end, and an index
outside `-len(l) .. len(l) - 1` raises `IndexError`. -/
def getItem {α : Type} (l : List α) (i : Int) : Except PyExc α :=
  let j := if i < 0 then i + l.length else i
  match l[j.toNat]? with
  | some a => if 0 ≤ j then .ok a else .error .indexError
  | none => .error .indexError

/-- An index in `0 .. len(l) - 1` reads the element there. -/
theorem getItem_of_lt {α : Type} [Inhabited α] {l : List α} {i : Int} (h0 : 0 ≤ i)
    (h : i < l.length) : getItem l i = .ok (l.getD i.toNat default) := by
  have hlt : i.toNat < l.length := by omega
  simp [getItem, show ¬ i < 0 by omega, List.getElem?_eq_getElem hlt, h0]

/-! ## Dictionaries -/

/-- `d[k] = v` on a dict with integer keys, as an association list in insertion
order: an existing key keeps its place and gets the new value, a new key goes last. -/
def dictSet {β : Type} (d : List (Int × β)) (k : Int) (v : β) : List (Int × β) :=
  if d.any (·.1 == k) then d.map fun p => if p.1 = k then (k, v) else p
  else d ++ [(k, v)]

/-- `d[k].append(x)`: `KeyError` when `k` is not a key. -/
def dictAppend {β : Type} (d : List (Int × List β)) (k : Int) (x : β) :
    Except PyExc (List (Int × List β)) :=
  if d.any (·.1 == k) then .ok (d.map fun p => if p.1 = k then (k, p.2 ++ [x]) else p)
  else .error .keyError

section Dict

variable {β : Type}

theorem any_key_iff (d : List (Int × β)) (k : Int) :
    d.any (·.1 == k) = true ↔ k ∈ d.map Prod.fst := by
  simp only [List.any_eq_true, beq_iff_eq, List.mem_map]

theorem dictSet_fresh {d : List (Int × β)} {k : Int} (hk : k ∉ d.map Prod.fst) (v : β) :
    dictSet d k v = d ++ [(k, v)] := by
  rw [dictSet, if_neg (mt (any_key_iff d k).1 hk)]

/-- Updating values in place keeps the keys. -/
theorem keys_update (d : List (Int × β)) (k : Int) (g : Int × β → β) :
    (d.map fun p => if p.1 = k then (k, g p) else p).map Prod.fst = d.map Prod.fst := by
  induction d with
  | nil => rfl
  | cons p d ih => by_cases h : p.1 = k <;> simp [h, ih]

theorem mem_dictSet {d : List (Int × β)} {k : Int} {v : β} {p : Int × β} (h : p ∈ dictSet d k v) :
    p ∈ d ∨ p = (k, v) := by
  unfold dictSet at h
  split at h
  · obtain ⟨q, hq, rfl⟩ := List.mem_map.1 h
    by_cases hqk : q.1 = k
    · exact .inr (by simp [hqk])
    · exact .inl (by simpa [hqk] using hq)
  · simpa using h

/-- After `d[k] = v` the keys are the old keys and `k`. -/
theorem keys_dictSet (d : List (Int × β)) (k : Int) (v : β) (k' : Int) :
    k' ∈ (dictSet d k v).map Prod.fst ↔ k' ∈ d.map Prod.fst ∨ k' = k := by
  unfold dictSet
  split
  · rename_i hk
    have hkeys := keys_update d k fun _ => v
    simp only at hkeys
    rw [hkeys]
    exact ⟨.inl, fun h => h.elim id fun h' => h' ▸ (any_key_iff d k).1 hk⟩
  · simp only [List.map_append, List.mem_append, List.map_cons, List.map_nil, List.mem_singleton]

theorem dictAppend_mem {d : List (Int × List β)} {k : Int} (hk : k ∈ d.map Prod.fst) (x : β) :
    dictAppend d k x = .ok (d.map fun p => if p.1 = k then (k, p.2 ++ [x]) else p) := by
  rw [dictAppend, if_pos ((any_key_iff d k).2 hk)]

end Dict

/-! ## Exceptions -/

/-- A `try` block with `except (...)` naming the classes `caught`: a caught exception
becomes `none`, any other one propagates. -/
def catching {α : Type} (caught : PyExc → Bool) : Except PyExc α → Except PyExc (Option α)
  | .ok a => .ok (some a)
  | .error e => if caught e then .ok none else .error e

/-- `x` raises, if at all, only exceptions `caught` accepts. -/
def RaisesOnly {α : Type} (caught : PyExc → Bool) (x : Except PyExc α) : Prop :=
  ∀ e, x = .error e → caught e = true

section RaisesOnly

variable {α β : Type} {caught : PyExc → Bool}

theorem raisesOnly_ok (a : α) : RaisesOnly caught (.ok a) := fun _ h => by cases h

theorem raisesOnly_bind {x : Except PyExc α} {f : α → Except PyExc β}
    (hx : RaisesOnly caught x) (hf : ∀ a, RaisesOnly caught (f a)) :
    RaisesOnly caught (x >>= f) := by
  intro e h
  cases hxa : x with
  | error e' => rw [hxa] at h; cases h; exact hx _ hxa
  | ok a => rw [hxa] at h; exact hf a e h

theorem raisesOnly_mapM {f : α → Except PyExc β} (hf : ∀ a, RaisesOnly caught (f a)) :
    ∀ l : List α, RaisesOnly caught (l.mapM f)
  | [] => raisesOnly_ok _
  | a :: l => by
    rw [List.mapM_cons]
    exact raisesOnly_bind (hf a) fun _ => raisesOnly_bind (raisesOnly_mapM hf l) fun _ => raisesOnly_ok _

theorem raisesOnly_map {f : α → β} {x : Except PyExc α} (hx : RaisesOnly caught x) :
    RaisesOnly caught (f <$> x) := by
  intro e h
  cases hxa : x with
  | error e' => rw [hxa] at h; cases h; exact hx _ hxa
  | ok a => rw [hxa] at h; cases h

theorem raisesOnly_mono {caught' : PyExc → Bool} (h : ∀ e, caught e = true → caught' e = true)
    {x : Except PyExc α} (hx : RaisesOnly caught x) : RaisesOnly caught' x :=
  fun e he => h e (hx e he)

/-- A `try` block whose body raises only caught exceptions never raises. -/
theorem catching_ok {x : Except PyExc α} (hx : RaisesOnly caught x) :
    ∃ o, catching caught x = .ok o := by
  cases hxe : x with
  | ok a => exact ⟨some a, rfl⟩
  | error e => exact ⟨none, by simp [catching, hx e hxe]⟩

end RaisesOnly

/-- `int()` raises only `ValueError`. -/
theorem int_raisesOnly (s : List Char) : RaisesOnly (· == .valueError) (int s) := by
  intro e h
  unfold int at h
  split at h <;> cases hu : unsignedLiteral _ <;> rw [hu] at h <;> cases h <;>
    simp [unsignedLiteral_error hu]

@[simp] theorem catching_eq_ok_some {α : Type} {caught : PyExc → Bool} {x : Except PyExc α}
    {a : α} : catching caught x = .ok (some a) ↔ x = .ok a := by
  cases x with
  | ok b => simp [catching]
  | error e => by_cases h : caught e <;> simp [catching, h]

end TopologyPinning.Python
