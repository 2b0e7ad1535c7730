import CgProxy.ToMathlib.LabeledRun
import Mathlib.Algebra.Ring.Nat
import Mathlib.Data.List.DropRight

/-! # Command lines

A scanner collects the tokens of a line: words, newlines and operators. The letters of a word remember
whether they were quoted. `argumentVector` has a value for lines that are one simple command which
consists of words alone, and whose words stand for themselves: it has none for lines with an operator or
an assignment, and for words that the shell expands. A line gives back the arguments it was joined from
exactly when all of them are plain; otherwise characters are missing or words are, and `Measured` counts
them.
-/

namespace Posix.Shell

/-! ## Tokens -/

def backslash : Char := '\x5c'
def singleQuote : Char := '\x27'
def doubleQuote : Char := '\x22'
def backquote : Char := '\x60'

/-- What an unquoted character means to the scanner. -/
inductive Class where
  | null
  | blank
  | newline
  | operator
  | escape
  | single
  | double
  | expansion
  | ordinary
deriving DecidableEq

def classify (c : Char) : Class :=
  if c = '\x00' then .null
  else if c = ' ' ∨ c = '\t' then .blank
  else if c = '\n' then .newline
  else if c ∈ [';', '&', '|', '<', '>', '(', ')'] then .operator
  else if c = backslash then .escape
  else if c = singleQuote then .single
  else if c = doubleQuote then .double
  else if c = '$' ∨ c = backquote then .expansion
  else .ordinary

structure Letter where
  char : Char
  quoted : Bool
deriving DecidableEq

abbrev Word := List Letter

/-- The word after quote removal. -/
def text (w : Word) : List Char := w.map Letter.char

/-- A word written without quotes. -/
def unquoted (a : List Char) : Word := a.map fun c => ⟨c, false⟩

/-- An operator of two characters counts twice. -/
inductive Token where
  | word (w : Word)
  | newline
  | operator
deriving DecidableEq

inductive Mode where
  | plain
  | escaped
  | single
  | double
  | doubleEscaped
  | comment
deriving DecidableEq

/-- The word that is being read, if any, and the tokens before it. -/
structure Scanner where
  mode : Mode := .plain
  word : Option Word := none
  tokens : List Token := []
deriving DecidableEq

namespace Scanner

/-- The word ends here. -/
def delimited (s : Scanner) : Scanner :=
  match s.word with
  | none => s
  | some w => { s with word := none, tokens := s.tokens ++ [.word w] }

def push (s : Scanner) (t : Token) : Scanner := { s with tokens := s.tokens ++ [t] }

def letter (s : Scanner) (c : Char) (quoted : Bool) : Scanner :=
  { s with word := some (s.word.getD [] ++ [⟨c, quoted⟩]) }

/-- A quotation begins, and with it a word. -/
def quoting (s : Scanner) (mode : Mode) : Scanner := { s with mode, word := some (s.word.getD []) }

/-- Outside of quotations and comments. -/
def plainStep (s : Scanner) (c : Char) : Option Scanner :=
  match classify c with
  | .null | .expansion => none
  | .blank => some s.delimited
  | .newline => some (s.delimited.push .newline)
  | .operator => some (s.delimited.push .operator)
  | .escape => some { s with mode := .escaped }
  | .single => some (s.quoting .single)
  | .double => some (s.quoting .double)
  | .ordinary => some (if c = '#' ∧ s.word = none then { s with mode := .comment } else s.letter c false)

/-- One character. There is no state after an expansion that begins. -/
def step (s : Scanner) (c : Char) : Option Scanner :=
  match s.mode with
  | .plain => s.plainStep c
  | .escaped => some { (if c = '\n' then s else s.letter c true) with mode := .plain }
  | .single => some (if c = singleQuote then { s with mode := .plain } else s.letter c true)
  | .double =>
      match classify c with
      | .null | .expansion => none
      | .double => some { s with mode := .plain }
      | .escape => some { s with mode := .doubleEscaped }
      | _ => some (s.letter c true)
  | .doubleEscaped =>
      some { (if c = '\n' then s
        else if c ∈ ['$', backquote, doubleQuote, backslash] then s.letter c true
        else (s.letter backslash true).letter c true) with mode := .double }
  | .comment => some (if c = '\n' then { s.push .newline with mode := .plain } else s)

/-- What the end of the line makes of the state. POSIX gives no meaning to a quotation that does not end. -/
def finish (s : Scanner) : Option (List Token) :=
  match s.mode with
  | .plain | .comment => some s.delimited.tokens
  | _ => none

end Scanner

def tokenize (line : List Char) : Option (List Token) := (LabeledRun.run Scanner.step {} line).bind Scanner.finish

/-! ## Simple commands -/

def Token.word? : Token → Option Word
  | .word w => some w
  | _ => none

/-- The words of a command, with nothing around them but newlines. -/
def commandWords (tokens : List Token) : Option (List Word) :=
  ((tokens.dropWhile (· = .newline)).rdropWhile (· = .newline)).mapM Token.word?

/-- The last four are reserved by some shells only. -/
def reservedWords : List (List Char) :=
  ["!", "\x7b", "\x7d", "case", "do", "done", "elif", "else", "esac", "fi", "for", "if", "in", "then", "until",
    "while", "[[", "]]", "function", "select"].map String.toList

def nameStart (c : Char) : Bool := c.isAlpha || c = '_'

/-- The name of a variable. -/
def isName : List Char → Bool
  | [] => false
  | c :: cs => nameStart c && cs.all fun c => nameStart c || c.isDigit

/-- The first word of a line is a command, not a reserved word and not an assignment. -/
def isCommand (w : Word) : Bool :=
  let name := w.takeWhile (· ≠ ⟨'=', false⟩)
  !((w.all (!·.quoted) && reservedWords.contains (text w)) ||
    (name.length < w.length && name.all (!·.quoted) && isName (text name)))

/-- An unquoted bracket that another one closes, with something in between and no slash. -/
def isBracket : Word → Bool
  | [] => false
  | l :: rest =>
      (l = ⟨'[', false⟩ &&
        ((if rest.head? = some ⟨'!', false⟩ then rest.tail else rest).takeWhile (·.char ≠ '/')).tail.any
          (· = ⟨']', false⟩)) || isBracket rest

/-- The shell replaces the word by a home directory or by the names of files. -/
def expands (w : Word) : Bool :=
  (w.head? = some ⟨'~', false⟩ && (w.takeWhile (· ≠ ⟨'/', false⟩)).all (!·.quoted)) ||
    w.any (fun l => l = ⟨'*', false⟩ || l = ⟨'?', false⟩) || isBracket w

/-- What the shell executes for a line, when that is one simple command. -/
def argumentVector (line : List Char) : Option (List (List Char)) :=
  ((tokenize line).bind commandWords).bind fun words =>
    if words.head?.any isCommand && words.all (!expands ·) then some (words.map text) else none

/-- A C program passes a line up to the first NUL. -/
def cString (line : List Char) : List Char := line.takeWhile (· ≠ '\x00')

/-! ## What a line costs -/

/-- The characters a token needs, and the one that ends it. -/
def Token.cost : Token → ℕ
  | .word w => w.length + 1
  | _ => 0

def cost (tokens : List Token) : ℕ := (tokens.map Token.cost).sum

/-- The characters that a quotation or a comment has taken without giving a letter. -/
def Mode.slack : Mode → ℕ
  | .plain => 0
  | .doubleEscaped => 2
  | _ => 1

/-- A text that is read as one word. -/
structure Literal (a : List Char) : Prop where
  nonempty : a ≠ []
  ordinary : ∀ c ∈ a, classify c = .ordinary
  noComment : a.head? ≠ some '#'

/-- A text that means itself. -/
structure Plain (a : List Char) : Prop extends Literal a where
  unexpanded : expands (unquoted a) = false

theorem plain_iff {a : List Char} :
    Plain a ↔ a ≠ [] ∧ a.all (classify · = .ordinary) ∧ a.head? ≠ some '#' ∧ expands (unquoted a) = false := by
  simp only [List.all_eq_true, decide_eq_true_eq]
  exact ⟨fun plain => ⟨plain.nonempty, plain.ordinary, plain.noComment, plain.unexpanded⟩,
    fun ⟨nonempty, ordinary, noComment, unexpanded⟩ => ⟨⟨nonempty, ordinary, noComment⟩, unexpanded⟩⟩

instance (a : List Char) : Decidable (Plain a) := decidable_of_iff _ plain_iff.symm

namespace Scanner

def weight (s : Scanner) : ℕ := cost s.tokens + (s.word.map List.length).getD 0

/-- All words so far were literals. -/
def Tight (s : Scanner) : Prop :=
  ∀ w, .word w ∈ s.tokens ∨ s.word = some w → ∃ a, w = unquoted a ∧ Literal a

/-- After `n` characters: none has been lost only if all words were literals. -/
def Measured (n : ℕ) (s : Scanner) : Prop :=
  s.weight + s.mode.slack ≤ n ∧ (s.weight = n → s.Tight)

variable {s t : Scanner} {c : Char} {n : ℕ} {quoted : Bool}

theorem cost_append (first second : List Token) : cost (first ++ second) = cost first + cost second := by
  simp [cost]

theorem weight_letter : (s.letter c quoted).weight = s.weight + 1 := by
  cases word : s.word with
  | none => simp [weight, letter, word]
  | some w => simp [weight, letter, word, Nat.add_assoc]

theorem weight_delimited : s.delimited.weight = s.weight + if s.word = none then 0 else 1 := by
  cases word : s.word with
  | none => simp [delimited, word]
  | some w => simp [weight, delimited, word, cost, Token.cost, Nat.add_assoc]

theorem mode_delimited : s.delimited.mode = s.mode := by
  cases word : s.word with
  | none => simp [delimited, word]
  | some w => simp [delimited, word]

theorem Tight.delimited (tight : s.Tight) : s.delimited.Tight := by
  cases word : s.word with
  | none => simpa [Scanner.delimited, word] using tight
  | some w =>
    intro v member
    apply tight
    simp only [Scanner.delimited, word, List.mem_append, List.mem_singleton, Token.word.injEq, reduceCtorEq,
      or_false] at member
    exact member.imp_right fun same => by rw [word, same]

theorem Tight.letter (tight : s.Tight) (ordinary : classify c = .ordinary)
    (noComment : s.word = none → c ≠ '#') : (s.letter c false).Tight := by
  intro w member
  rcases member with finished | current
  · exact tight w (.inl finished)
  · cases word : s.word with
    | none =>
      simp only [Scanner.letter, word, Option.getD_none, List.nil_append, Option.some.injEq] at current
      refine ⟨[c], current.symm, by simp, by simpa using ordinary, by simpa using noComment word⟩
    | some v =>
      simp only [Scanner.letter, word, Option.getD_some, Option.some.injEq] at current
      obtain ⟨a, rfl, literal⟩ := tight v (.inr word)
      refine ⟨a ++ [c], by simp [← current, unquoted], by simp, ?_, ?_⟩
      · exact List.forall_mem_append.mpr ⟨literal.ordinary, List.forall_mem_singleton.mpr ordinary⟩
      · rw [List.head?_append_of_ne_nil _ literal.nonempty]
        exact literal.noComment

theorem Measured.delimited (measured : s.Measured n) (mode : s.mode = .plain) : s.delimited.Measured (n + 1) := by
  obtain ⟨bound, tight⟩ := measured
  have ends := @weight_delimited s
  rw [mode, Mode.slack] at bound
  rw [Measured, mode_delimited, mode, Mode.slack]
  constructor
  · split at ends <;> omega
  · intro whole
    refine (tight ?_).delimited
    split at ends <;> omega

theorem weight_push {token : Token} (free : token.cost = 0) : (s.push token).weight = s.weight := by
  simp [weight, push, cost, free]

theorem Measured.push (measured : s.Measured n) {token : Token} (free : token.cost = 0) :
    (s.push token).Measured n := by
  rw [Measured, weight_push free]
  refine ⟨measured.1, fun whole w member => ?_⟩
  apply measured.2 whole
  rcases member with finished | current
  · rcases List.mem_append.mp finished with before | last
    · exact .inl before
    · rw [← List.mem_singleton.mp last, Token.cost] at free
      omega
  · exact .inr current

theorem Measured.letter (measured : s.Measured n) (ordinary : classify c = .ordinary)
    (noComment : s.word = none → c ≠ '#') : (s.letter c false).Measured (n + 1) := by
  obtain ⟨bound, tight⟩ := measured
  have bound' : (s.letter c false).weight + s.mode.slack ≤ n + 1 := by
    rw [weight_letter]
    omega
  refine ⟨bound', fun whole => (tight ?_).letter ordinary noComment⟩
  rw [weight_letter] at whole
  omega

/-- A state that has lost a character is measured by its weight and its mode alone. -/
theorem Measured.of_lost {slack weight : ℕ} (mode : t.mode.slack = slack) (same : t.weight = weight)
    (bound : weight + slack ≤ n) (lost : weight < n) : t.Measured n := by
  rw [Measured, mode, same]
  exact ⟨bound, fun whole => absurd whole lost.ne⟩

theorem weight_quoting (mode : Mode) : (s.quoting mode).weight = s.weight := by
  cases word : s.word with
  | none => simp [weight, quoting, word]
  | some w => simp [weight, quoting, word]

theorem Measured.plainStep (measured : s.Measured n) (mode : s.mode = .plain) (taken : s.plainStep c = some t) :
    t.Measured (n + 1) := by
  have bound := measured.1
  have slack : s.mode.slack = 0 := congrArg Mode.slack mode
  rw [Scanner.plainStep] at taken
  cases kind : classify c with
  | null | expansion => simp [kind] at taken
  | blank =>
    rw [kind] at taken
    cases taken
    exact measured.delimited mode
  | newline | operator =>
    rw [kind] at taken
    cases taken
    exact (measured.delimited mode).push rfl
  | escape =>
    rw [kind] at taken
    cases taken
    exact .of_lost (rfl : _ = 1) (rfl : _ = s.weight) (by omega) (by omega)
  | single | double =>
    rw [kind] at taken
    cases taken
    exact .of_lost (rfl : _ = 1) (weight_quoting _) (by omega) (by omega)
  | ordinary =>
    rw [kind] at taken
    cases taken
    split
    · exact .of_lost (rfl : _ = 1) (rfl : _ = s.weight) (by omega) (by omega)
    · next noComment => exact measured.letter kind fun word same => noComment ⟨same, word⟩

theorem Measured.step (measured : s.Measured n) (taken : s.step c = some t) : t.Measured (n + 1) := by
  have bound := measured.1
  rw [Scanner.step] at taken
  cases mode : s.mode with
  | plain =>
    rw [mode] at taken
    exact measured.plainStep mode taken
  | escaped =>
    have slack : s.mode.slack = 1 := congrArg Mode.slack mode
    rw [mode] at taken
    cases taken
    split
    · exact .of_lost (rfl : _ = 0) (rfl : _ = s.weight) (by omega) (by omega)
    · exact .of_lost (rfl : _ = 0) (@weight_letter s c true) (by omega) (by omega)
  | single =>
    have slack : s.mode.slack = 1 := congrArg Mode.slack mode
    rw [mode] at taken
    cases taken
    split
    · exact .of_lost (rfl : _ = 0) (rfl : _ = s.weight) (by omega) (by omega)
    · exact .of_lost slack weight_letter (by omega) (by omega)
  | double =>
    have slack : s.mode.slack = 1 := congrArg Mode.slack mode
    rw [mode] at taken
    dsimp only at taken
    split at taken
    · contradiction
    · contradiction
    · cases taken
      exact .of_lost (rfl : _ = 0) (rfl : _ = s.weight) (by omega) (by omega)
    · cases taken
      exact .of_lost (rfl : _ = 2) (rfl : _ = s.weight) (by omega) (by omega)
    · cases taken
      exact .of_lost slack weight_letter (by omega) (by omega)
  | doubleEscaped =>
    have slack : s.mode.slack = 2 := congrArg Mode.slack mode
    rw [mode] at taken
    cases taken
    split
    · exact .of_lost (rfl : _ = 1) (rfl : _ = s.weight) (by omega) (by omega)
    · split
      · exact .of_lost (rfl : _ = 1) (@weight_letter s c true) (by omega) (by omega)
      · have twice : ((s.letter backslash true).letter c true).weight = s.weight + 1 + 1 := by
          rw [weight_letter, weight_letter]
        exact .of_lost (rfl : _ = 1) twice (by omega) (by omega)
  | comment =>
    have slack : s.mode.slack = 1 := congrArg Mode.slack mode
    rw [mode] at taken
    cases taken
    split
    · exact .of_lost (rfl : _ = 0) (@weight_push s .newline rfl) (by omega) (by omega)
    · exact .of_lost slack rfl (by omega) (by omega)

theorem word_delimited : s.delimited.word = none := by
  cases word : s.word with
  | none => simp [delimited, word]
  | some w => simp [delimited, word]

/-- What the tokens of a line cost, and when that is all there is. -/
theorem Measured.finish {tokens : List Token} (measured : s.Measured n) (ended : s.finish = some tokens) :
    cost tokens ≤ n + 1 ∧ (cost tokens = n + 1 → ∀ w, .word w ∈ tokens → ∃ a, w = unquoted a ∧ Literal a) := by
  have bound := measured.1
  have last : s.delimited.tokens = tokens := by
    unfold Scanner.finish at ended
    split at ended
    · exact Option.some.inj ended
    · exact Option.some.inj ended
    · contradiction
  have weight : cost tokens = s.weight + if s.word = none then 0 else 1 := by
    rw [← weight_delimited, Scanner.weight, word_delimited, last]
    rfl
  constructor
  · split at weight <;> omega
  · intro whole w member
    have tight : s.Tight := by
      apply measured.2
      split at weight <;> omega
    apply tight.delimited w
    rw [last]
    exact .inl member

end Scanner

/-- The tokens of a line have at most its characters, each word together with a separator. -/
theorem cost_tokenize {line : List Char} {tokens : List Token} (read : tokenize line = some tokens) :
    cost tokens ≤ line.length + 1 ∧
      (cost tokens = line.length + 1 → ∀ w, .word w ∈ tokens → ∃ a, w = unquoted a ∧ Literal a) := by
  obtain ⟨s, scanned, ended⟩ := Option.bind_eq_some_iff.mp read
  have initial : Scanner.Measured 0 {} := ⟨Nat.le_refl 0, fun _ w member => by simp at member⟩
  have measured : s.Measured (0 + line.length) :=
    LabeledRun.run_counted (fun _ _ _ _ measured taken => measured.step taken) initial scanned
  rw [Nat.zero_add] at measured
  exact measured.finish ended

/-! ## Words of a command -/

section Words

variable {tokens : List Token} {words : List Word} {line : List Char} {args : List (List Char)}

theorem mapM_word?_eq_some_iff : tokens.mapM Token.word? = some words ↔ tokens = words.map .word := by
  induction tokens generalizing words with
  | nil => cases words <;> simp
  | cons t rest ih =>
    cases t with
    | word w =>
      cases words with
      | nil => simp [Token.word?, Option.bind_eq_some_iff]
      | cons v vs => simp [Token.word?, Option.bind_eq_some_iff, ih, and_comm]
    | newline | operator => cases words <;> simp [Token.word?]

theorem commandWords_map_word : commandWords (words.map .word) = some words := by
  have first : (words.map Token.word).dropWhile (· = .newline) = words.map .word := by
    cases words <;> simp
  have last : (words.map Token.word).rdropWhile (· = .newline) = words.map .word := by
    rw [List.rdropWhile_eq_self_iff]
    intro some
    simp
  rw [commandWords, first, last, mapM_word?_eq_some_iff]

/-- The words of a command are among the tokens, and the rest costs nothing. -/
theorem commandWords_eq_some (found : commandWords tokens = some words) :
    cost (words.map .word) ≤ cost tokens ∧ ∀ w ∈ words, .word w ∈ tokens := by
  rw [commandWords, mapM_word?_eq_some_iff] at found
  have front : tokens.takeWhile (· = .newline) ++ tokens.dropWhile (· = .newline) = tokens :=
    List.takeWhile_append_dropWhile
  have back : words.map .word ++ (tokens.dropWhile (· = .newline)).rtakeWhile (· = .newline) =
      tokens.dropWhile (· = .newline) := by
    rw [← found]
    exact List.rdropWhile_append_rtakeWhile
  constructor
  · rw [← front, ← back, Scanner.cost_append, Scanner.cost_append]
    omega
  · intro w member
    rw [← front, ← back]
    simp [member]

theorem text_unquoted (a : List Char) : text (unquoted a) = a := by
  simp [text, unquoted, Function.comp_def]

theorem cost_map_word (words : List Word) : cost (words.map .word) = (words.map fun w => (text w).length + 1).sum := by
  simp [cost, Token.cost, text, Function.comp_def]

theorem argumentVector_eq_some_iff :
    argumentVector line = some args ↔ ∃ words, (tokenize line).bind commandWords = some words ∧
      words.map text = args ∧ words.head?.any isCommand = true ∧ ∀ w ∈ words, expands w = false := by
  rw [argumentVector, Option.bind_eq_some_iff]
  refine exists_congr fun words => and_congr_right fun _ => ?_
  simp only [Option.ite_none_right_eq_some, Bool.and_eq_true, List.all_eq_true, Bool.not_eq_true',
    Option.some.injEq]
  tauto

/-- A line that has no more characters than its arguments need consists of plain ones. -/
theorem plain_of_argumentVector (short : line.length + 1 ≤ (args.map fun a => a.length + 1).sum)
    (read : argumentVector line = some args) :
    (∀ a ∈ args, Plain a) ∧ args.head?.any (fun a => isCommand (unquoted a)) = true := by
  obtain ⟨words, found, rfl, command, unexpanded⟩ := argumentVector_eq_some_iff.mp read
  obtain ⟨tokens, scanned, collected⟩ := Option.bind_eq_some_iff.mp found
  obtain ⟨cheap, among⟩ := commandWords_eq_some collected
  obtain ⟨bound, tight⟩ := cost_tokenize scanned
  rw [cost_map_word] at cheap
  rw [List.map_map, Function.comp_def] at short
  have literal : ∀ w ∈ words, ∃ a, w = unquoted a ∧ Literal a :=
    fun w member => tight (by omega) w (among w member)
  have same : ∀ w ∈ words, unquoted (text w) = w := by
    intro w member
    obtain ⟨a, rfl, -⟩ := literal w member
    rw [text_unquoted]
  constructor
  · intro a member
    obtain ⟨w, among, rfl⟩ := List.mem_map.mp member
    obtain ⟨b, rfl, literal⟩ := literal w among
    rw [text_unquoted]
    exact ⟨literal, unexpanded _ among⟩
  · cases words with
    | nil => exact command
    | cons w rest =>
      have first := same w List.mem_cons_self
      simpa [first] using command

end Words

/-! ## Plain words -/

section Plain

variable {a : List Char} {args : List (List Char)} (tokens : List Token)

/-- Ordinary characters continue a word. -/
theorem run_ordinary (w : Word) (ordinary : ∀ c ∈ a, classify c = .ordinary) :
    LabeledRun.run Scanner.step { word := some w, tokens } a = some { word := some (w ++ unquoted a), tokens } := by
  induction a generalizing w with
  | nil => simp [unquoted]
  | cons c rest ih =>
    have taken : Scanner.step { word := some w, tokens } c = some { word := some (w ++ [⟨c, false⟩]), tokens } := by
      simp [Scanner.step, Scanner.plainStep, ordinary c List.mem_cons_self, Scanner.letter]
    rw [LabeledRun.run, taken, Option.bind_some, ih _ fun d member => ordinary d (List.mem_cons_of_mem _ member)]
    simp [unquoted]

theorem run_literal (literal : Literal a) :
    LabeledRun.run Scanner.step { tokens } a = some { word := some (unquoted a), tokens } := by
  obtain ⟨c, rest, rfl⟩ := List.exists_cons_of_ne_nil literal.nonempty
  have noComment : c ≠ '#' := fun same => literal.noComment (by rw [same, List.head?_cons])
  have taken : Scanner.step { tokens } c = some { word := some [⟨c, false⟩], tokens } := by
    simp [Scanner.step, Scanner.plainStep, literal.ordinary c List.mem_cons_self, Scanner.letter, noComment]
  rw [LabeledRun.run, taken, Option.bind_some,
    run_ordinary tokens _ fun d member => literal.ordinary d (List.mem_cons_of_mem _ member)]
  rfl

theorem classify_space : classify ' ' = .blank := by decide

/-- Literals with blanks between them are read as they stand. -/
theorem finish_run_intercalate (some : args ≠ []) (literal : ∀ a ∈ args, Literal a) :
    (LabeledRun.run Scanner.step { tokens } ([' '].intercalate args)).bind Scanner.finish =
      .some (tokens ++ args.map fun a => .word (unquoted a)) := by
  induction args generalizing tokens with
  | nil => contradiction
  | cons a rest ih =>
    have first := run_literal tokens (literal a List.mem_cons_self)
    cases rest with
    | nil =>
      rw [List.intercalate_singleton, first]
      rfl
    | cons b others =>
      have blank : Scanner.step { tokens, word := .some (unquoted a) } ' ' =
          .some { tokens := tokens ++ [.word (unquoted a)] } := by
        simp [Scanner.step, Scanner.plainStep, classify_space, Scanner.delimited]
      have later := ih (tokens ++ [.word (unquoted a)]) (List.cons_ne_nil b others)
        (fun c member => literal c (List.mem_cons_of_mem a member))
      rw [List.intercalate_cons_cons, List.append_assoc, LabeledRun.run_append, first, Option.bind_some,
        List.singleton_append, LabeledRun.run, blank, Option.bind_some, later]
      simp

theorem argumentVector_intercalate (plain : ∀ a ∈ args, Plain a)
    (command : args.head?.any (fun a => isCommand (unquoted a)) = true) :
    argumentVector ([' '].intercalate args) = some args := by
  have some : args ≠ [] := by
    rintro rfl
    contradiction
  have read : tokenize ([' '].intercalate args) = .some ((args.map unquoted).map .word) := by
    rw [tokenize, finish_run_intercalate [] some fun a member => (plain a member).toLiteral]
    simp
  refine argumentVector_eq_some_iff.mpr ⟨args.map unquoted, by rw [read]; exact commandWords_map_word, ?_, ?_, ?_⟩
  · simp [Function.comp_def, text_unquoted]
  · cases args with
    | nil => contradiction
    | cons a rest => exact command
  · intro w member
    obtain ⟨a, among, rfl⟩ := List.mem_map.mp member
    exact (plain a among).unexpanded

theorem length_intercalate (some : args ≠ []) :
    ([' '].intercalate args).length + 1 = (args.map fun a => a.length + 1).sum := by
  induction args with
  | nil => contradiction
  | cons a rest ih =>
    cases rest with
    | nil => simp
    | cons b others =>
      have later := ih (List.cons_ne_nil b others)
      simp only [List.intercalate_cons_cons, List.length_append, List.length_singleton, List.map_cons,
        List.sum_cons] at later ⊢
      omega

theorem intercalate_concat (words : List (List Char)) (a : List Char) :
    [' '].intercalate (words ++ [a]) = words.flatMap (· ++ [' ']) ++ a := by
  induction words with
  | nil => simp
  | cons w rest ih =>
    have some : rest ++ [a] ≠ [] := by simp
    rw [List.cons_append, List.intercalate_cons_of_ne_nil some, ih]
    simp

theorem notMem_intercalate {c : Char} (other : c ≠ ' ') (free : ∀ a ∈ args, c ∉ a) :
    c ∉ [' '].intercalate args := by
  induction args with
  | nil => simp
  | cons a rest ih =>
    have first := free a List.mem_cons_self
    cases rest with
    | nil => simpa using first
    | cons b others =>
      have later := ih fun d member => free d (List.mem_cons_of_mem a member)
      simp only [List.intercalate_cons_cons, List.mem_append, List.mem_singleton, first, other, later, or_self,
        not_false_iff]

theorem Plain.noNull (plain : Plain a) : '\x00' ∉ a := by
  intro member
  have ordinary := plain.ordinary _ member
  contradiction

end Plain

/-- A command that is given to the shell with blanks between its words arrives exactly if they are plain,
the first one being a command to the shell. -/
theorem argumentVector_cString_iff (args : List (List Char)) :
    argumentVector (cString ([' '].intercalate args)) = some args ↔
      (∀ a ∈ args, Plain a) ∧ args.head?.any (fun a => isCommand (unquoted a)) = true := by
  constructor
  · intro read
    have some : args ≠ [] := by
      rintro rfl
      contradiction
    refine plain_of_argumentVector ?_ read
    have shorter : (cString ([' '].intercalate args)).length ≤ ([' '].intercalate args).length :=
      (List.takeWhile_prefix _).length_le
    have whole := length_intercalate some
    omega
  · rintro ⟨plain, command⟩
    have uncut : cString ([' '].intercalate args) = [' '].intercalate args := by
      rw [cString, List.takeWhile_eq_self_iff]
      intro c member
      have uncut := notMem_intercalate (by decide) fun a among => (plain a among).noNull
      simpa using ne_of_mem_of_not_mem member uncut
    rw [uncut]
    exact argumentVector_intercalate plain command

end Posix.Shell
