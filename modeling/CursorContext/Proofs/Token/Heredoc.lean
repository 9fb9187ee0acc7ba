import CursorContext.Proofs.Token.Steady
import Mathlib.Data.List.TakeWhile

/-!
Heredocs when other text follows them. The opener is cut into its parts, and the closing label is
looked for line by line. A break makes a word end where it stands, so it could make a label out of the
front of a longer word; but then no later label would have been found before it.
-/
namespace CursorContext

namespace Lexeme

open Text

/-! ### The opener -/

theorem dropWhile_append_of_ne_nil {q : Char → Bool} {p : List Char} (stops : p.dropWhile q ≠ [])
    (x : List Char) : (p ++ x).dropWhile q = p.dropWhile q ++ x := by
  rw [List.dropWhile_append, if_neg (by simpa using stops)]

theorem dropWhile_append_of_nil {q : Char → Bool} {p : List Char} (passes : p.dropWhile q = [])
    (x : List Char) : (p ++ x).dropWhile q = x.dropWhile q := by
  rw [List.dropWhile_append, if_pos (by simpa using passes)]

theorem dropWhile_append_of_head {q : Char → Bool} {body rest : List Char}
    (inside : ∀ c ∈ body, q c = true) (stops : rest.head?.any q = false) :
    (body ++ rest).dropWhile q = rest := by
  rw [List.dropWhile_append_of_pos inside]
  cases rest with
  | nil => rfl
  | cons c rest => simp_all

theorem takeWhile_append_of_head {q : Char → Bool} {body rest : List Char}
    (inside : ∀ c ∈ body, q c = true) (stops : rest.head?.any q = false) :
    (body ++ rest).takeWhile q = body := by
  rw [List.takeWhile_append_of_pos inside]
  cases rest with
  | nil => simp
  | cons c rest => simp_all

theorem atWordEnd_iff (cs : List Char) : atWordEnd cs = true ↔ cs.head?.any isWord = false := by
  cases cs <;> simp [atWordEnd]

def isLabelQuote (c : Char) : Bool := c == '\x22' || c == '\x27'

/-- An opener cut into its parts, with what follows it. -/
structure Opener (cs label after : List Char) : Prop where
  parts : ∃ indent quote, cs = indent ++ (quote ++ (label ++ (quote ++ after))) ∧
    (∀ c ∈ indent, isIndent c = true) ∧
    (quote = [] ∧ atWordEnd after = true ∨ ∃ mark, isLabelQuote mark = true ∧ quote = [mark])
  starts : startsName label = true
  word : ∀ c ∈ label, isWord c = true

theorem ne_of_isNameStart {c d : Char} (start : isNameStart c = true)
    (other : isNameStart d = false) : c ≠ d := by
  rintro rfl
  simp [start] at other

/-- A character that begins a name is none of the signs of an opener. -/
theorem plain_of_isNameStart {c : Char} (start : isNameStart c = true) :
    isIndent c = false ∧ isLabelQuote c = false := by
  have space : c ≠ ' ' := ne_of_isNameStart start (by decide)
  have tab : c ≠ '\t' := ne_of_isNameStart start (by decide)
  have double : c ≠ '\x22' := ne_of_isNameStart start (by decide)
  have single : c ≠ '\x27' := ne_of_isNameStart start (by decide)
  simp [isIndent, isLabelQuote, space, tab, double, single]

theorem plain_of_isLabelQuote {c : Char} (quote : isLabelQuote c = true) :
    isIndent c = false ∧ isWord c = false := by
  simp only [isLabelQuote, Bool.or_eq_true, beq_iff_eq] at quote
  rcases quote with rfl | rfl <;> decide

theorem heredocLabel?_of_opener {cs label after : List Char} (opener : Opener cs label after) :
    heredocLabel? cs = some (label, after) := by
  obtain ⟨⟨indent, quote, rfl, blank, marked⟩, starts, word⟩ := opener
  cases label with
  | nil => cases starts
  | cons first rest =>
    have starts' (x : List Char) : startsName (first :: rest ++ x) = true := starts
    rcases marked with ⟨rfl, ends⟩ | ⟨mark, quoted, rfl⟩
    · obtain ⟨notIndent, notQuote⟩ := plain_of_isNameStart starts
      have stops := (atWordEnd_iff after).mp ends
      have noQuote : ((first :: rest ++ after).take 1).filter isLabelQuote = [] := by
        simp [notQuote]
      rw [List.nil_append, List.nil_append]
      unfold heredocLabel?
      rw [dropWhile_append_of_head blank (by simp [notIndent])]
      dsimp only
      rw [show (fun c => c == '\x22' || c == '\x27') = isLabelQuote from rfl, noQuote,
        List.length_nil, List.drop_zero, dropWhile_append_of_head word stops,
        takeWhile_append_of_head word stops, starts']
      rfl
    · obtain ⟨notIndent, notWord⟩ := plain_of_isLabelQuote quoted
      have stops : ([mark] ++ after).head?.any isWord = false := by simp [notWord]
      have oneQuote (x : List Char) : (([mark] ++ x).take 1).filter isLabelQuote = [mark] := by
        simp [quoted]
      unfold heredocLabel?
      rw [dropWhile_append_of_head blank (by simp [notIndent])]
      dsimp only
      rw [show (fun c => c == '\x22' || c == '\x27') = isLabelQuote from rfl, oneQuote,
        List.drop_left, dropWhile_append_of_head word stops, takeWhile_append_of_head word stops,
        starts', List.drop_left]
      simp

theorem startsName_takeWhile {cs : List Char} (start : startsName cs = true) :
    startsName (cs.takeWhile isWord) = true := by
  cases cs with
  | nil => cases start
  | cons c rest =>
    rw [List.takeWhile_cons_of_pos (isWord_of_isNameStart start)]
    exact start

theorem atWordEnd_dropWhile (cs : List Char) : atWordEnd (cs.dropWhile isWord) = true := by
  induction cs with
  | nil => rfl
  | cons c rest ih =>
    cases word : isWord c with
    | false => simp [word, atWordEnd]
    | true =>
      rw [List.dropWhile_cons_of_pos word]
      exact ih

theorem opener_of_heredocLabel? {cs label after : List Char}
    (found : heredocLabel? cs = some (label, after)) : Opener cs label after := by
  have front := (List.takeWhile_append_dropWhile (p := isIndent) (l := cs)).symm
  have blank : ∀ c ∈ cs.takeWhile isIndent, isIndent c = true := fun c => List.mem_takeWhile_imp
  unfold heredocLabel? at found
  dsimp only at found
  rw [show (fun c => c == '\x22' || c == '\x27') = isLabelQuote from rfl] at found
  generalize cs.dropWhile isIndent = body at front found
  split at found
  next holds =>
    obtain ⟨starts, quoted⟩ := Bool.and_eq_true_iff.mp holds
    simp only [Option.some.injEq, Prod.mk.injEq] at found
    obtain ⟨rfl, rfl⟩ := found
    cases body with
    | nil => simp [startsName] at starts
    | cons first rest =>
      rw [List.take_succ_cons, List.take_zero] at starts quoted ⊢
      cases mark : isLabelQuote first with
      | true =>
        have quote : [first].filter isLabelQuote = [first] := by simp [mark]
        rw [quote] at starts quoted ⊢
        simp only [List.length_singleton, List.drop_succ_cons, List.drop_zero] at starts quoted ⊢
        -- Behind the label stands the same mark again.
        obtain ⟨tail, behind⟩ := List.isPrefixOf_iff_prefix.mp quoted
        refine ⟨⟨_, [first], ?_, blank, .inr ⟨first, mark, rfl⟩⟩, startsName_takeWhile starts,
          fun c => List.mem_takeWhile_imp⟩
        have cut : (rest.dropWhile isWord).drop 1 = tail := by
          rw [← behind]
          rfl
        rw [cut, behind, List.takeWhile_append_dropWhile]
        exact front
      | false =>
        have quote : [first].filter isLabelQuote = [] := by simp [mark]
        rw [quote] at starts ⊢
        refine ⟨⟨_, [], ?_, blank, .inl ⟨rfl, atWordEnd_dropWhile _⟩⟩, startsName_takeWhile starts,
          fun c => List.mem_takeWhile_imp⟩
        rw [List.nil_append, List.nil_append, List.length_nil, List.drop_zero, List.drop_zero,
          List.takeWhile_append_dropWhile]
        exact front
  · cases found

/-! ### The end of a heredoc -/

theorem closingLabel?_pos {label cs : List Char} {start : Bool} {length : Nat} (some : label ≠ [])
    (found : closingLabel? label start cs = .some length) : 0 < length := by
  cases cs with
  | nil => cases found
  | cons c rest =>
    rw [closingLabel?] at found
    split at found
    · cases found
      have := List.length_pos_iff.mpr some
      omega
    · obtain ⟨n, -, rfl⟩ := Option.map_eq_some_iff.mp found
      omega

/-- On the rest of a line that has begun, no label closes a heredoc. -/
theorem lt_closingLabel? {label p b : List Char} {length : Nat} (line : '\n' ∉ p)
    (found : closingLabel? label false (p ++ b) = some length) : p.length < length := by
  induction p generalizing length with
  | nil =>
    cases b with
    | nil => cases found
    | cons c b =>
      rw [List.nil_append, closingLabel?, Bool.false_and, if_neg (by simp)] at found
      obtain ⟨n, -, rfl⟩ := Option.map_eq_some_iff.mp found
      exact Nat.succ_pos n
  | cons d p ih =>
    have same : (d == '\n') = false := by
      simp only [List.mem_cons, not_or] at line
      simpa using fun equal => line.1 equal.symm
    rw [List.cons_append, closingLabel?, Bool.false_and, if_neg (by simp), same] at found
    obtain ⟨n, inner, rfl⟩ := Option.map_eq_some_iff.mp found
    have later := ih (fun member => line (List.mem_cons_of_mem d member)) inner
    rw [List.length_cons]
    omega

theorem isPrefixOf_append {label p : List Char} (fits : label.length ≤ p.length) (x : List Char) :
    label.isPrefixOf (p ++ x) = label.isPrefixOf p := by
  rw [Bool.eq_iff_iff, List.isPrefixOf_iff_prefix, List.isPrefixOf_iff_prefix]
  constructor
  · intro isPrefix
    exact List.prefix_of_prefix_length_le isPrefix (List.prefix_append p x) fits
  · intro isPrefix
    exact isPrefix.trans (List.prefix_append p x)

/-- Whether a line begins with the label, when a break comes after as many characters as the label
has. -/
theorem opensWith_break {label line b x : List Char} {s : Char} (isBreak : s ∈ breaks)
    (some : label ≠ []) (fits : label.length ≤ (line.dropWhile isIndent).length) :
    opensWith label (line ++ s :: x) = true ↔
      opensWith label (line ++ b) = true ∨ line.dropWhile isIndent = label := by
  have stops : line.dropWhile isIndent ≠ [] := by
    intro none
    rw [none] at fits
    exact some (List.eq_nil_of_length_eq_zero (Nat.le_zero.mp fits))
  have body (y : List Char) : opensWith label (line ++ y) = true ↔
      label.isPrefixOf (line.dropWhile isIndent) = true ∧
        atWordEnd ((line.dropWhile isIndent).drop label.length ++ y) = true := by
    rw [opensWith, dropWhile_append_of_ne_nil stops, isPrefixOf_append fits,
      List.drop_append_of_le_length fits, Bool.and_eq_true]
  rw [body, body, List.isPrefixOf_iff_prefix]
  cases rest : (line.dropWhile isIndent).drop label.length with
  | nil =>
    have whole : label <+: line.dropWhile isIndent ↔ line.dropWhile isIndent = label := by
      constructor
      · intro isPrefix
        have length := List.drop_eq_nil_iff.mp rest
        exact (isPrefix.eq_of_length (by omega)).symm
      · intro same
        exact same ▸ List.prefix_rfl
    have ends : atWordEnd ([] ++ s :: x) = true := by
      simp [atWordEnd, isWord_of_mem_breaks s isBreak]
    rw [whole]
    constructor
    · exact fun holds => .inr holds.1
    · rintro (⟨same, -⟩ | same)
      · exact ⟨same, ends⟩
      · exact ⟨same, ends⟩
  | cons c rest' =>
    constructor
    · exact .inl
    · rintro (holds | same)
      · exact holds
      · rw [same, List.drop_length] at rest
        cases rest

theorem length_dropWhile_add_run (q : Char → Bool) (cs : List Char) :
    (cs.dropWhile q).length + run q cs = cs.length := by
  have both := congrArg List.length (List.takeWhile_append_dropWhile (p := q) (l := cs))
  rw [List.length_append] at both
  rw [run]
  omega

theorem newline_not_mem_line {label line : List Char} (word : ∀ c ∈ label, isWord c = true)
    (same : line.dropWhile isIndent = label) : '\n' ∉ line := by
  intro member
  rw [← List.takeWhile_append_dropWhile (p := isIndent) (l := line), List.mem_append] at member
  rcases member with blank | other
  · exact absurd (List.mem_takeWhile_imp blank) (by decide)
  · rw [same] at other
    exact absurd (word _ other) (by decide)

/-- What begins with the label only once a break ends the word there is no more than one line. -/
theorem newline_not_mem_of_opensWith {label line b x : List Char} {s : Char} (isBreak : s ∈ breaks)
    (word : ∀ c ∈ label, isWord c = true) (some : label ≠ [])
    (opens : opensWith label (line ++ s :: x) = true) (not : opensWith label (line ++ b) = false) :
    '\n' ∉ line := by
  by_cases stops : line.dropWhile isIndent = []
  · intro member
    exact absurd (List.dropWhile_eq_nil_iff.mp stops _ member) (by decide)
  · by_cases fits : label.length ≤ (line.dropWhile isIndent).length
    · rcases (opensWith_break isBreak some fits).mp opens with old | same
      · rw [not] at old
        cases old
      · exact newline_not_mem_line word same
    · -- The label would have to hold the break.
      rw [opensWith, dropWhile_append_of_ne_nil stops] at opens
      obtain ⟨tail, split⟩ := List.isPrefixOf_iff_prefix.mp (Bool.and_eq_true_iff.mp opens).1
      have held := congrArg (·[(line.dropWhile isIndent).length]?) split
      rw [List.getElem?_append_left (by omega), List.getElem?_append_right (Nat.le_refl _),
        Nat.sub_self, List.getElem?_cons_zero] at held
      have wrong := word s (List.mem_of_getElem? held)
      rw [isWord_of_mem_breaks s isBreak] at wrong
      cases wrong

theorem closingLabel?_within {label p b : List Char} {start : Bool} {length : Nat}
    (word : ∀ c ∈ label, isWord c = true) (some : label ≠ [])
    (found : closingLabel? label start (p ++ b) = .some length) (within : length ≤ p.length)
    {s : Char} (isBreak : s ∈ breaks) (x : List Char) :
    closingLabel? label start (p ++ s :: x) = .some length := by
  induction p generalizing start length with
  | nil =>
    have positive := closingLabel?_pos some found
    rw [List.length_nil] at within
    omega
  | cons d p ih =>
    have unfolded (y : List Char) : closingLabel? label start (d :: p ++ y) =
        if start && opensWith label (d :: p ++ y) then
          .some (run isIndent (d :: p ++ y) + label.length)
        else (closingLabel? label (d == '\n') (p ++ y)).map (· + 1) := rfl
    rw [unfolded] at found ⊢
    split at found
    next opens =>
      cases found
      have positive := List.length_pos_iff.mpr some
      have inside : run isIndent (d :: p ++ b) = run isIndent (d :: p) := run_of_within (by omega)
      have rest := length_dropWhile_add_run isIndent (d :: p)
      obtain ⟨lineStart, opens⟩ := Bool.and_eq_true_iff.mp opens
      have opens' := (opensWith_break (x := x) isBreak some (by omega)).mpr (.inl opens)
      rw [lineStart, opens', inside, run_append_of_lt (by omega)]
      rfl
    next goesOn =>
      obtain ⟨n, inner, rfl⟩ := Option.map_eq_some_iff.mp found
      rw [List.length_cons] at within
      rw [ih inner (by omega), Option.map_some, if_neg]
      intro opens
      -- A label that only the break makes would be all there is up to the place, on one line.
      obtain ⟨lineStart, opens⟩ := Bool.and_eq_true_iff.mp opens
      have not : opensWith label (d :: p ++ b) = false := by simpa [lineStart] using goesOn
      have line := newline_not_mem_of_opensWith isBreak word some opens not
      have same : (d == '\n') = false := by
        simp only [List.mem_cons, not_or] at line
        simpa using fun equal => line.1 equal.symm
      rw [same] at inner
      have beyond := lt_closingLabel? (fun member => line (List.mem_cons_of_mem d member)) inner
      omega

/-! ### A heredoc as a whole -/

/-- The rest of the line on which an opener stands, and the lines after it. -/
theorem lines_append {after : List Char} (some : (after.dropWhile (· != '\n')).drop 1 ≠ []) :
    ∃ first, first ≠ [] ∧ after = first ++ (after.dropWhile (· != '\n')).drop 1 ∧
      ∀ x, ((first ++ x).dropWhile (· != '\n')).drop 1 = x := by
  cases rest : after.dropWhile (· != '\n') with
  | nil => simp [rest] at some
  | cons c lines =>
    have newline : (c != '\n') = false := by
      have stops := List.head?_dropWhile_not (· != '\n') after
      simpa [rest] using stops
    refine ⟨after.takeWhile (· != '\n') ++ [c], by simp, ?_, ?_⟩
    · have both := List.takeWhile_append_dropWhile (p := (· != '\n')) (l := after)
      rw [rest] at both
      simpa using both.symm
    · intro x
      rw [List.append_assoc, dropWhile_append_of_head (fun c => List.mem_takeWhile_imp)
        (by simp [newline])]
      rfl

/-- A heredoc that finds its end. After two more marks come an opener, the rest of its line, and the
lines, in which the label closes it after `stop` characters. -/
structure Closed (rest front label first lines : List Char) (stop : Nat) : Prop where
  text : rest = ['<', '<'] ++ (front ++ (first ++ lines))
  opener : Opener (front ++ (first ++ lines)) label (first ++ lines)
  some : first ≠ []
  line : ∀ x, ((first ++ x).dropWhile (· != '\n')).drop 1 = x
  closes : closingLabel? label true lines = .some stop
  ends : stop < lines.length

theorem Opener.front {cs label after : List Char} (opener : Opener cs label after) :
    ∃ front, cs = front ++ after := by
  obtain ⟨⟨indent, quote, rfl, -⟩, -, -⟩ := opener
  exact ⟨indent ++ (quote ++ (label ++ quote)), by simp⟩

/-- What follows an opener can be replaced behind its first character. -/
theorem Opener.replace {front label first lines : List Char}
    (opener : Opener (front ++ (first ++ lines)) label (first ++ lines)) (some : first ≠ [])
    (x : List Char) : Opener (front ++ (first ++ x)) label (first ++ x) := by
  obtain ⟨⟨indent, quote, cut, blank, marked⟩, starts, word⟩ := opener
  refine ⟨⟨indent, quote, ?_, blank, ?_⟩, starts, word⟩
  · have same : front = indent ++ (quote ++ (label ++ quote)) := by
      have assoc : indent ++ (quote ++ (label ++ (quote ++ (first ++ lines)))) =
          indent ++ (quote ++ (label ++ quote)) ++ (first ++ lines) := by simp
      rw [assoc] at cut
      exact List.append_cancel_right cut
    simp [same]
  · rcases marked with ⟨none, ends⟩ | quoted
    · refine .inl ⟨none, ?_⟩
      cases first with
      | nil => exact absurd rfl some
      | cons c first => exact ends
    · exact .inr quoted

theorem closed_of_heredoc? {c : Char} {rest : List Char} {found : Lexeme}
    (there : heredoc? c rest = some found) (ends : found.more < rest.length) :
    c = '<' ∧ ∃ front label first lines stop, Closed rest front label first lines stop ∧
      found = { kind := .string, more := 2 + front.length + first.length + stop } := by
  unfold heredoc? at there
  split at there
  next opens =>
    obtain ⟨isLess, marked⟩ := Bool.and_eq_true_iff.mp opens
    obtain ⟨⟨label, after⟩, labelled, made⟩ := Option.map_eq_some_iff.mp there
    dsimp only at made
    split at made
    next stop closes =>
      have opener := opener_of_heredocLabel? labelled
      obtain ⟨front, tail⟩ := opener.front
      have some : (after.dropWhile (· != '\n')).drop 1 ≠ [] := by
        intro none
        rw [none] at closes
        cases closes
      obtain ⟨first, begun, cut, line⟩ := lines_append some
      clear some
      generalize (after.dropWhile (· != '\n')).drop 1 = lines at closes made cut
      subst cut made
      have text : rest = ['<', '<'] ++ (front ++ (first ++ lines)) := by
        obtain ⟨body, rfl⟩ := List.isPrefixOf_iff_prefix.mp marked
        rw [← tail]
        rfl
      have length : rest.length = 2 + front.length + first.length + lines.length := by
        simp only [text, List.length_append, List.length_cons, List.length_nil]
        omega
      refine ⟨eq_of_beq isLess, front, label, first, lines, stop, ?_, ?_⟩
      · refine ⟨text, tail ▸ opener, begun, line, closes, ?_⟩
        dsimp only at ends
        omega
      · simp only [Lexeme.mk.injEq, true_and, and_true]
        dsimp only at ends
        omega
    next unclosed =>
      subst made
      exact absurd ends (Nat.lt_irrefl _)
  · cases there

theorem heredoc?_of_closed {rest front label first lines : List Char} {stop : Nat}
    (closed : Closed rest front label first lines stop) :
    heredoc? '<' rest =
      some { kind := .string, more := 2 + front.length + first.length + stop } := by
  have body : (['<', '<'] ++ (front ++ (first ++ lines))).drop 2 = front ++ (first ++ lines) := rfl
  have opens : ('<' == '<' && ['<', '<'].isPrefixOf
      (['<', '<'] ++ (front ++ (first ++ lines)))) = true := rfl
  have ends := closed.ends
  unfold heredoc?
  rw [closed.text, if_pos opens, body, heredocLabel?_of_opener closed.opener, Option.map_some]
  simp only [closed.line, closed.closes, Option.some.injEq, Lexeme.mk.injEq, true_and, and_true,
    List.length_append, List.length_cons, List.length_nil]
  omega

theorem append_split {p b front back : List Char} (same : p ++ b = front ++ back)
    (long : b.length ≤ back.length) : ∃ middle, p = front ++ middle ∧ back = middle ++ b := by
  rcases List.append_eq_append_iff.mp same with ⟨middle, whole, rest⟩ | ⟨middle, whole, rest⟩
  · have none : middle = [] := by
      rw [rest, List.length_append] at long
      exact List.eq_nil_of_length_eq_zero (by omega)
    subst none
    exact ⟨[], by simpa using whole.symm, by simpa using rest.symm⟩
  · exact ⟨middle, whole, rest⟩

/-- A heredoc that ends before the place ends there whatever follows a break. -/
theorem heredoc?_within {c : Char} {p b : List Char} {found : Lexeme} (some : b ≠ [])
    (there : heredoc? c (p ++ b) = .some found) (within : found.more ≤ p.length)
    {s : Char} (isBreak : s ∈ breaks) (x : List Char) :
    heredoc? c (p ++ s :: x) = .some found := by
  have length := List.length_pos_iff.mpr some
  obtain ⟨rfl, front, label, first, lines, stop, closed, rfl⟩ :=
    closed_of_heredoc? there (by rw [List.length_append]; omega)
  have named : label ≠ [] := by
    rintro rfl
    cases closed.opener.starts
  -- Everything up to the closing label stands before the place.
  have whole : p ++ b = (['<', '<'] ++ front ++ first) ++ lines := by simp [closed.text]
  have total := congrArg List.length closed.text
  simp only [List.length_append, List.length_cons, List.length_nil] at total within
  have ends := closed.ends
  obtain ⟨inside, before, rfl⟩ := append_split whole (by omega)
  have closes := closed.closes
  rw [List.length_append] at total ends
  have closes' := closingLabel?_within closed.opener.word named closes (by omega) isBreak x
  refine heredoc?_of_closed ⟨?_, closed.opener.replace closed.some _, closed.some, closed.line,
    closes', ?_⟩
  · simp [before]
  · rw [List.length_append, List.length_cons]
    omega

theorem isSome_heredocLabel? (cs : List Char) :
    (heredocLabel? cs).isSome =
      (startsName ((cs.dropWhile isIndent).drop
          (((cs.dropWhile isIndent).take 1).filter isLabelQuote).length) &&
        (((cs.dropWhile isIndent).take 1).filter isLabelQuote).isPrefixOf
          (((cs.dropWhile isIndent).drop
            (((cs.dropWhile isIndent).take 1).filter isLabelQuote).length).dropWhile isWord)) := by
  unfold heredocLabel?
  dsimp only
  rw [show (fun c => c == '\x22' || c == '\x27') = isLabelQuote from rfl]
  split
  next holds => rw [holds]; rfl
  next fails => rw [Bool.eq_false_iff.mpr fails]; rfl

/-- A space makes no opener where there was none. -/
theorem heredocLabel?_spaced {p b : List Char} (absent : heredocLabel? (p ++ b) = none) :
    heredocLabel? (p ++ ' ' :: b) = none := by
  rw [← Option.isNone_iff_eq_none, ← Option.not_isSome, Bool.not_eq_true'] at absent ⊢
  rw [isSome_heredocLabel?] at absent ⊢
  cases indent : p.dropWhile isIndent with
  | nil =>
    rw [dropWhile_append_of_nil indent] at absent ⊢
    exact absent
  | cons first rest =>
    have stops : p.dropWhile isIndent ≠ [] := by simp [indent]
    rw [dropWhile_append_of_ne_nil stops, indent] at absent ⊢
    rw [List.cons_append, List.take_succ_cons, List.take_zero] at absent ⊢
    cases mark : isLabelQuote first with
    | false =>
      have quote : [first].filter isLabelQuote = [] := by simp [mark]
      rw [quote] at absent ⊢
      simpa [startsName] using absent
    | true =>
      have quote : [first].filter isLabelQuote = [first] := by simp [mark]
      rw [quote] at absent ⊢
      simp only [List.length_singleton, List.drop_succ_cons, List.drop_zero] at absent ⊢
      by_cases named : rest = []
      · subst named
        rfl
      · rw [startsName_append named (' ' :: b) b]
        by_cases label : rest.dropWhile isWord = []
        · -- The space would have to be the second mark.
          have other : (first == ' ') = false := by
            have := (plain_of_isLabelQuote mark).1
            simp only [isIndent, Bool.or_eq_false_iff] at this
            exact this.1
          rw [dropWhile_append_of_nil label, List.dropWhile_cons_of_neg (by decide)]
          simp [List.isPrefixOf, other]
        · rw [dropWhile_append_of_ne_nil label] at absent ⊢
          cases tail : rest.dropWhile isWord with
          | nil => exact absurd tail label
          | cons c tail =>
            rw [tail] at absent
            simpa [List.isPrefixOf] using absent

theorem heredoc?_none {c : Char} {p b : List Char} (absent : heredoc? c (p ++ b) = none) :
    heredoc? c (p ++ ' ' :: b) = none := by
  unfold heredoc? at absent ⊢
  by_cases isLess : (c == '<') = true
  · rw [isLess, Bool.true_and] at absent ⊢
    rcases p with _ | ⟨first, _ | ⟨second, p⟩⟩
    · rfl
    · simp
    · have same : ['<', '<'].isPrefixOf (first :: second :: p ++ ' ' :: b) =
          ['<', '<'].isPrefixOf (first :: second :: p ++ b) := rfl
      rw [same]
      split at absent
      next opens =>
        rw [if_pos opens]
        rw [Option.map_eq_none_iff] at absent ⊢
        exact heredocLabel?_spaced absent
      next plain => rw [if_neg plain]
  · rw [if_neg (by simp [isLess])]

end Lexeme

end CursorContext
