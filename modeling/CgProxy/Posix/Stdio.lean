import Mathlib.Algebra.Ring.Nat
import Mathlib.Data.Int.Notation
import Mathlib.Data.List.Basic
import Mathlib.Data.List.TakeWhile

/-! # Reading a text piece by piece

Three functions of the C and C++ libraries, each of them given the text that is left and returning what it
has read and what is left after it, or none at the end. `getline` reads a line and drops the newline,
`fgets` reads a line with its newline but no more than its buffer holds, and `fscanf` with the format `%d`
reads a number behind blanks.
-/

namespace Posix.Stdio

/-! ## Lines -/

section Lines

variable {α : Type*} [DecidableEq α] {delim : α} {text line rest buf : List α} {size : ℕ}

/-- The end of the text ends a line as well, unless nothing stands before it. -/
def getline (delim : α) : List α → Option (List α × List α)
  | [] => none
  | text => some (text.takeWhile (· ≠ delim), (text.dropWhile (· ≠ delim)).tail)

theorem getline_append (clean : delim ∉ line) (rest : List α) :
    getline delim (line ++ delim :: rest) = some (line, rest) := by
  have all : ∀ a ∈ line, decide (a ≠ delim) = true := fun a member =>
    decide_eq_true fun same => clean (same ▸ member)
  have some : line ++ delim :: rest ≠ [] := List.append_ne_nil_of_right_ne_nil _ (List.cons_ne_nil _ _)
  rw [getline.eq_2 delim _ some, List.takeWhile_append_of_pos all, List.dropWhile_append_of_pos all,
    List.takeWhile_cons_of_neg (by simp), List.dropWhile_cons_of_neg (by simp), List.append_nil, List.tail_cons]

theorem length_lt_of_getline (read : getline delim text = some (line, rest)) : rest.length < text.length := by
  cases text with
  | nil => contradiction
  | cons c more =>
    simp only [getline, Option.some.injEq, Prod.mk.injEq] at read
    obtain ⟨-, rfl⟩ := read
    have kept := (List.dropWhile_suffix (l := c :: more) fun a => decide (a ≠ delim)).length_le
    rw [List.length_tail, List.length_cons] at *
    omega

/-- So many characters, or fewer if a line ends before that. -/
def chunk (delim : α) : ℕ → List α → List α × List α
  | 0, text => ([], text)
  | _ + 1, [] => ([], [])
  | n + 1, c :: rest =>
      if c = delim then ([c], rest)
      else
        let (buf, left) := chunk delim n rest
        (c :: buf, left)

/-- One place of the buffer is for the terminator. -/
def fgets (delim : α) (size : ℕ) : List α → Option (List α × List α)
  | [] => none
  | text => some (chunk delim (size - 1) text)

theorem fgets_eq_none_iff : fgets delim size text = none ↔ text = [] := by
  cases text with
  | nil => exact iff_of_true rfl rfl
  | cons c rest => exact iff_of_false (Option.some_ne_none _) (List.cons_ne_nil c rest)

theorem chunk_append (delim : α) (n : ℕ) (text : List α) : (chunk delim n text).1 ++ (chunk delim n text).2 = text := by
  induction n generalizing text with
  | zero => rfl
  | succ n ih =>
    cases text with
    | nil => rfl
    | cons c rest =>
      rw [chunk]
      split
      · rfl
      · exact congrArg (c :: ·) (ih rest)

theorem chunk_ne_nil (n : ℕ) (some : text ≠ []) : (chunk delim (n + 1) text).1 ≠ [] := by
  cases text with
  | nil => contradiction
  | cons c rest =>
    rw [chunk]
    split <;> exact List.cons_ne_nil _ _

/-- Wherever the pieces end, nothing is lost between them. -/
theorem append_of_fgets (read : fgets delim size text = some (buf, rest)) : buf ++ rest = text := by
  cases text with
  | nil => contradiction
  | cons c more =>
    have parts := chunk_append delim (size - 1) (c :: more)
    rwa [Option.some.inj read] at parts

/-- A buffer of at least two characters is filled with something. -/
theorem length_lt_of_fgets (room : 1 < size) (read : fgets delim size text = some (buf, rest)) :
    rest.length < text.length := by
  have parts := append_of_fgets read
  cases text with
  | nil => contradiction
  | cons c more =>
    obtain ⟨n, rfl⟩ : ∃ n, size = n + 2 := ⟨size - 2, by omega⟩
    have filled : buf ≠ [] := by
      have some : (chunk delim (n + 1) (c :: more)).1 ≠ [] := chunk_ne_nil n (List.cons_ne_nil c more)
      rwa [show chunk delim (n + 1) (c :: more) = (buf, rest) from Option.some.inj read] at some
    rw [← parts, List.length_append]
    exact Nat.lt_add_of_pos_left (List.length_pos_iff.mpr filled)

end Lines

/-! ## Numbers -/

/-- White space, as `isspace` has it. -/
def isSpace (c : Char) : Bool := c = ' ' || '\t' ≤ c && c ≤ '\r'

/-- A sign in front is taken, whatever follows it. -/
def unsigned : List Char → List Char
  | [] => []
  | c :: rest => if c = '+' ∨ c = '-' then rest else c :: rest

/-- The nearest `long`, of which an `int` keeps the lower half. -/
def stored (negative : Bool) (digits : List Char) : ℤ :=
  let magnitude : ℤ := Nat.ofDigitChars 10 digits 0
  let long := if negative then max (-9223372036854775808) (-magnitude) else min 9223372036854775807 magnitude
  long.bmod 4294967296

/-- The number is missing after a matching failure, which leaves the first character that does not fit. -/
def scanInt (text : List Char) : Option (Option ℤ × List Char) :=
  match text.dropWhile isSpace with
  | [] => none
  | number =>
      let digits := (unsigned number).takeWhile Char.isDigit
      let left := (unsigned number).dropWhile Char.isDigit
      some (if digits = [] then none else some (stored (number.head? = some '-') digits), left)

/-- What stands between blanks. -/
def words (text : List Char) : List (List Char) := (text.splitOnP isSpace).filter (· ≠ [])

/-- Digits, with or without a sign in front, or a sign alone. -/
def numeral (word : List Char) : Bool := (unsigned word).all Char.isDigit

section Words

variable {text word tail rest : List Char} {c : Char} {converted : Option ℤ}

theorem words_append_cons (a b : List Char) (space : isSpace c = true) : words (a ++ c :: b) = words a ++ words b := by
  rw [words, List.splitOnP_append_cons _ _ space, List.filter_append]
  rfl

theorem words_cons (text : List Char) (space : isSpace c = true) : words (c :: text) = words text :=
  words_append_cons [] text space

theorem words_of_clean (some : word ≠ []) (clean : ∀ c ∈ word, isSpace c = false) : words word = [word] := by
  rw [words, List.splitOnP_eq_singleton clean, List.filter_cons_of_pos (by simpa using some), List.filter_nil]

theorem words_dropWhile (text : List Char) : words (text.dropWhile isSpace) = words text := by
  induction text with
  | nil => rfl
  | cons c text ih =>
    cases space : isSpace c with
    | true => rw [List.dropWhile_cons_of_pos space, ih, words_cons text space]
    | false => rw [List.dropWhile_cons_of_neg (Bool.eq_false_iff.mp space)]

/-- The text ends a word before it. -/
def Ending (tail : List Char) : Prop := tail.head?.all isSpace = true

theorem words_append (some : word ≠ []) (clean : ∀ c ∈ word, isSpace c = false) (ending : Ending tail) :
    words (word ++ tail) = word :: words tail := by
  cases tail with
  | nil => rw [List.append_nil, words_of_clean some clean]; rfl
  | cons c tail => rw [words_append_cons word tail ending, words_of_clean some clean, words_cons tail ending]; rfl

/-- The first word of a text. -/
theorem exists_word (some : text.dropWhile isSpace ≠ []) :
    ∃ word tail, text.dropWhile isSpace = word ++ tail ∧ word ≠ [] ∧ (∀ c ∈ word, isSpace c = false) ∧
      Ending tail := by
  refine ⟨(text.dropWhile isSpace).takeWhile fun c => !isSpace c, (text.dropWhile isSpace).dropWhile fun c => !isSpace c,
    List.takeWhile_append_dropWhile.symm, ?_, fun c member => ?_, ?_⟩
  · have first := List.head_dropWhile_not isSpace some
    intro none
    rw [← List.cons_head_tail some, List.takeWhile_cons_of_pos (by rw [first]; rfl)] at none
    contradiction
  · simpa using List.mem_takeWhile_imp member
  · have first := List.head?_dropWhile_not (fun c => !isSpace c) (text.dropWhile isSpace)
    rw [Ending]
    cases found : ((text.dropWhile isSpace).dropWhile fun c => !isSpace c).head? with
    | none => rfl
    | some c =>
      rw [found] at first
      simpa using first

theorem unsigned_append (some : word ≠ []) (tail : List Char) : unsigned (word ++ tail) = unsigned word ++ tail := by
  cases word with
  | nil => contradiction
  | cons c rest =>
    simp only [List.cons_append, unsigned]
    split <;> rfl

theorem unsigned_suffix (word : List Char) : unsigned word <:+ word := by
  cases word with
  | nil => exact List.suffix_rfl
  | cons c rest =>
    rw [unsigned]
    split
    · exact List.suffix_cons c rest
    · exact List.suffix_rfl

theorem isSpace_of_isDigit (digit : c.isDigit = true) : isSpace c = false := by
  have bounds := Char.isDigit_iff_toNat.mp digit
  by_contra space
  simp only [isSpace, Bool.not_eq_false, Bool.or_eq_true, Bool.and_eq_true, decide_eq_true_eq, Char.le_def,
    UInt32.le_iff_toNat_le] at space
  rcases space with rfl | ⟨-, high⟩
  · contradiction
  · exact absurd (bounds.1.trans high) (by decide)

/-- No digit ends a word. -/
theorem dropWhile_isDigit_of_ending (ending : Ending tail) : tail.dropWhile Char.isDigit = tail := by
  cases tail with
  | nil => rfl
  | cons c tail =>
    refine List.dropWhile_cons_of_neg fun digit => ?_
    have space : isSpace c = true := ending
    rw [isSpace_of_isDigit digit] at space
    contradiction

theorem scanInt_of_dropWhile (left : text.dropWhile isSpace = c :: rest) :
    scanInt text =
      some (if (unsigned (c :: rest)).takeWhile Char.isDigit = [] then none
        else some (stored (c = '-') ((unsigned (c :: rest)).takeWhile Char.isDigit)),
        (unsigned (c :: rest)).dropWhile Char.isDigit) := by
  rw [scanInt, left]
  simp only [List.head?_cons, Option.some.injEq]

theorem scanInt_eq_none_iff_dropWhile : scanInt text = none ↔ text.dropWhile isSpace = [] := by
  cases left : text.dropWhile isSpace with
  | nil => exact iff_of_true (by rw [scanInt, left]) rfl
  | cons c rest => exact iff_of_false (by simp [scanInt_of_dropWhile left]) (List.cons_ne_nil c rest)

theorem scanInt_eq_none_iff : scanInt text = none ↔ words text = [] := by
  rw [scanInt_eq_none_iff_dropWhile, ← words_dropWhile]
  constructor
  · intro none
    rw [none]
    rfl
  · intro none
    by_contra some
    obtain ⟨word, tail, shape, some, clean, ending⟩ := exists_word some
    rw [shape, words_append some clean ending] at none
    contradiction

theorem left_of_scanInt (read : scanInt text = some (converted, rest)) :
    text.dropWhile isSpace ≠ [] ∧ rest = (unsigned (text.dropWhile isSpace)).dropWhile Char.isDigit := by
  cases left : text.dropWhile isSpace with
  | nil => simp [scanInt, left] at read
  | cons c more =>
    rw [scanInt_of_dropWhile left, Option.some.injEq, Prod.mk.injEq] at read
    exact ⟨List.cons_ne_nil c more, read.2.symm⟩

theorem suffix_of_scanInt (read : scanInt text = some (converted, rest)) : rest <:+ text := by
  rw [(left_of_scanInt read).2]
  exact (List.dropWhile_suffix _).trans ((unsigned_suffix _).trans (List.dropWhile_suffix _))

/-- A call goes on to the first character of the word that does not belong to a number. -/
theorem rest_of_scanInt (read : scanInt text = some (converted, rest)) :
    ∃ word tail, words text = word :: words tail ∧ (∀ c ∈ word, isSpace c = false) ∧ Ending tail ∧
      rest = (unsigned word).dropWhile Char.isDigit ++ tail := by
  obtain ⟨some, reached⟩ := left_of_scanInt read
  obtain ⟨word, tail, shape, some, clean, ending⟩ := exists_word some
  rw [shape] at reached
  refine ⟨word, tail, ?_, clean, ending, ?_⟩
  · rw [← words_dropWhile, shape, words_append some clean ending]
  · rw [reached, unsigned_append some, List.dropWhile_append, dropWhile_isDigit_of_ending ending]
    split
    · next all => rw [List.isEmpty_iff.mp all, List.nil_append]
    · rfl

theorem dropWhile_isDigit_eq_nil_iff : (unsigned word).dropWhile Char.isDigit = [] ↔ numeral word = true := by
  rw [List.dropWhile_eq_nil_iff, numeral, List.all_eq_true]

/-- Numbers are taken one for one. -/
theorem words_of_scanInt (read : scanInt text = some (converted, rest)) (numerals : (words text).all numeral = true) :
    ∃ word, words text = word :: words rest := by
  obtain ⟨word, tail, shape, -, -, rfl⟩ := rest_of_scanInt read
  rw [shape, List.all_cons, Bool.and_eq_true] at numerals
  rw [dropWhile_isDigit_eq_nil_iff.mpr numerals.1]
  exact ⟨word, shape⟩

/-- One call for each word, and another if one of them is not a number. -/
def demand (text : List Char) : ℕ := (words text).length + if (words text).all numeral then 0 else 1

/-- A word that is not a number takes a second call, for what is left of it. -/
theorem demand_le_of_scanInt (read : scanInt text = some (converted, rest)) : demand text ≤ demand rest + 1 := by
  obtain ⟨word, tail, shape, clean, ending, rfl⟩ := rest_of_scanInt read
  rw [demand, shape, List.length_cons, List.all_cons]
  cases number : numeral word with
  | true =>
    rw [dropWhile_isDigit_eq_nil_iff.mpr number, List.nil_append, Bool.true_and, demand]
    omega
  | false =>
    have left : (unsigned word).dropWhile Char.isDigit ≠ [] := fun none => by
      rw [dropWhile_isDigit_eq_nil_iff.mp none] at number
      contradiction
    have part := (List.dropWhile_suffix Char.isDigit).trans (unsigned_suffix word)
    rw [demand, words_append left (fun c member => clean c (part.mem member)) ending, List.length_cons,
      Bool.false_and, if_neg Bool.false_ne_true]
    omega

/-- The characters that a call can take. -/
def numeric (c : Char) : Bool := isSpace c || c.isDigit || c = '+' || c = '-'

theorem isSpace_of_numeric (foreign : numeric c = false) : isSpace c = false := by
  simp only [numeric, Bool.or_eq_false_iff] at foreign
  exact foreign.1.1.1

theorem mem_dropWhile_of_false {p : Char → Bool} (foreign : p c = false) (member : c ∈ text) : c ∈ text.dropWhile p := by
  rw [← List.takeWhile_append_dropWhile (l := text) (p := p), List.mem_append] at member
  refine member.resolve_left fun taken => ?_
  rw [List.mem_takeWhile_imp taken] at foreign
  contradiction

/-- Any other stays where it is. -/
theorem mem_of_scanInt (read : scanInt text = some (converted, rest)) (foreign : numeric c = false)
    (member : c ∈ text) : c ∈ rest := by
  simp only [numeric, Bool.or_eq_false_iff, decide_eq_false_iff_not] at foreign
  obtain ⟨⟨⟨space, digit⟩, plus⟩, minus⟩ := foreign
  rw [(left_of_scanInt read).2]
  refine mem_dropWhile_of_false digit ?_
  have shown := mem_dropWhile_of_false space member
  cases left : text.dropWhile isSpace with
  | nil => simp [left] at shown
  | cons d more =>
    rw [left] at shown
    rw [unsigned]
    split
    · next sign =>
      refine (List.mem_cons.mp shown).resolve_left ?_
      rintro rfl
      exact sign.elim plus minus
    · exact shown

theorem length_lt_of_scanInt (read : scanInt text = some (converted, rest)) (own : text.all numeric = true) :
    rest.length < text.length := by
  obtain ⟨some, rfl⟩ := left_of_scanInt read
  have kept := (List.dropWhile_suffix (l := text) isSpace).length_le
  have first := List.head_dropWhile_not isSpace some
  have allowed := List.all_eq_true.mp own _ ((List.dropWhile_suffix isSpace).mem (List.head_mem some))
  cases left : text.dropWhile isSpace with
  | nil => contradiction
  | cons d more =>
    simp only [left, List.head_cons] at first allowed
    have taken : (unsigned (d :: more)).dropWhile Char.isDigit <:+ more := by
      rw [unsigned]
      split
      · exact List.dropWhile_suffix _
      · next unsigned =>
        have digit : d.isDigit = true := by simpa [numeric, first, not_or.mp unsigned] using allowed
        rw [List.dropWhile_cons_of_pos digit]
        exact List.dropWhile_suffix _
    have less := taken.length_le
    rw [left, List.length_cons] at kept
    omega

/-- Only zero is printed with a zero in front. -/
theorem head?_toDigits_eq_zero_iff (n : ℕ) : (Nat.toDigits 10 n).head? = some '0' ↔ n = 0 := by
  have digit : ∀ d < 10, Nat.digitChar d = '0' ↔ d = 0 := by decide
  induction n using Nat.strongRecOn with
  | ind n ih =>
    by_cases small : n < 10
    · rw [Nat.toDigits_of_lt_base small, List.head?_cons, Option.some.injEq, digit n small]
    · have quotient := ih (n / 10) (by omega)
      rw [Nat.toDigits_of_base_le (by decide) (by omega), List.head?_append_of_ne_nil _ Nat.toDigits_ne_nil]
      exact quotient.trans (by omega)

theorem stored_toDigits {n : ℕ} (small : n < 2147483648) : stored false (Nat.toDigits 10 n) = n := by
  have long : min (9223372036854775807 : ℤ) n = n := by omega
  rw [stored, Nat.ofDigitChars_ten_toDigits, if_neg Bool.false_ne_true, long]
  exact Int.bmod_eq_of_le (by omega) (by omega)

/-- Digits are taken whole. -/
theorem takeWhile_isDigit_append (digits : ∀ c ∈ word, c.isDigit = true) (ending : Ending tail) :
    (word ++ tail).takeWhile Char.isDigit = word := by
  have parts := List.takeWhile_append_dropWhile (l := tail) (p := Char.isDigit)
  rw [dropWhile_isDigit_of_ending ending, List.append_left_eq_self] at parts
  rw [List.takeWhile_append_of_pos digits, parts, List.append_nil]

/-- A printed number is read back, behind any blanks. -/
theorem scanInt_toDigits {blanks : List Char} (blank : ∀ c ∈ blanks, isSpace c = true) {n : ℕ} (small : n < 2147483648)
    (ending : Ending tail) : scanInt (blanks ++ (Nat.toDigits 10 n ++ tail)) = some (some (n : ℤ), tail) := by
  have digits (c : Char) (member : c ∈ Nat.toDigits 10 n) : c.isDigit = true :=
    Nat.isDigit_of_mem_toDigits (by decide) (by decide) member
  have shown : Nat.toDigits 10 n ≠ [] := Nat.toDigits_ne_nil
  have value := stored_toDigits small
  generalize Nat.toDigits 10 n = printed at *
  cases printed with
  | nil => exact absurd rfl shown
  | cons c more =>
    have first := digits c List.mem_cons_self
    have bare : unsigned (c :: (more ++ tail)) = c :: more ++ tail := by
      rw [unsigned, if_neg, List.cons_append]
      rintro (rfl | rfl) <;> contradiction
    have positive : c ≠ '-' := by
      rintro rfl
      contradiction
    have left : (blanks ++ (c :: more ++ tail)).dropWhile isSpace = c :: (more ++ tail) := by
      rw [List.dropWhile_append_of_pos blank, List.cons_append,
        List.dropWhile_cons_of_neg (by rw [isSpace_of_isDigit first]; exact Bool.false_ne_true)]
    rw [scanInt_of_dropWhile left, bare, takeWhile_isDigit_append digits ending, if_neg shown, decide_eq_false positive, value,
      List.dropWhile_append_of_pos digits, dropWhile_isDigit_of_ending ending]

end Words

end Posix.Stdio
