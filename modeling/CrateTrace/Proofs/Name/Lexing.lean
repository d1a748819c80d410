import CrateTrace.Name.Printer
import Mathlib.Data.List.Chain

/-!
# Spelled lexemes are cut out again

The lexer gives only words that are identifiers and no keywords. A text of such lexemes is cut
where they were joined, if no word part stands right behind a word or a lifetime.
-/

namespace CrateTrace.Name

def isIdentifier (text : String) : Bool :=
  match text.toList with
  | [] => false
  | c :: rest => isWordStart c && rest.all isWordPart

/-- A lexeme that some text is cut into. -/
def Lexeme.Lexical : Lexeme → Prop
  | .word text => isIdentifier text = true ∧ text ∉ ["as", "for", "impl"]
  | .lifetime name => isLifetimeName name = true
  | _ => True

/-! ## What the lexer gives -/

theorem lexical_ofWord {text : String} (h : isIdentifier text = true) :
    (Lexeme.ofWord text).Lexical := by
  unfold Lexeme.ofWord
  split
  · trivial
  · split
    · trivial
    · split
      · trivial
      · exact ⟨h, by simp_all⟩

theorem lexical_frontLifetime {rest : List Char} {l : Lexeme} {n : Nat}
    (h : frontLifetime rest = .ok (l, n)) : l.Lexical := by
  unfold frontLifetime at h
  split at h
  · cases h
  · split at h
    · next hname =>
      split at h
      · cases h
        exact hname
      · cases h
    · cases h

theorem lexical_frontClosure {rest : List Char} {l : Lexeme} {n : Nat}
    (h : frontClosure rest = .ok (l, n)) : l.Lexical := by
  unfold frontClosure at h
  dsimp only at h
  split at h
  · cases h
    trivial
  · split at h
    · cases h
      trivial
    · cases h

theorem isIdentifier_takeWhile {c : Char} (hc : isWordStart c = true) (rest : List Char) :
    isIdentifier (String.ofList (c :: rest.takeWhile isWordPart)) = true := by
  unfold isIdentifier
  simp [hc]

theorem lexical_front {c : Char} {rest : List Char} {l : Lexeme} {n : Nat}
    (h : front c rest = .ok (l, n)) : l.Lexical := by
  unfold front at h
  split at h
  · split at h
    · cases h
      trivial
    · cases h
  · cases h; trivial
  · cases h; trivial
  · cases h; trivial
  · cases h; trivial
  · exact lexical_frontLifetime h
  · exact lexical_frontClosure h
  · split at h
    · next hc =>
      cases h
      exact lexical_ofWord (isIdentifier_takeWhile hc rest)
    · cases h

theorem lexical_tokensFrom {start : Nat} {input : List Char} {ts : List Token}
    (h : tokensFrom start input = .ok ts) : ∀ t ∈ ts, t.lexeme.Lexical := by
  induction start, input using tokensFrom.induct generalizing ts with
  | case1 start =>
    rw [tokensFrom] at h
    cases h
    simp
  | case2 start c rest hblank ih =>
    rw [tokensFrom, if_pos hblank] at h
    exact ih h
  | case3 start c rest hblank misfit hfront =>
    rw [tokensFrom, if_neg hblank, hfront] at h
    cases h
  | case4 start c rest hblank l more hfront e hrest ih =>
    rw [tokensFrom, if_neg hblank, hfront] at h
    simp [hrest] at h
  | case5 start c rest hblank l more hfront ts' hrest ih =>
    rw [tokensFrom, if_neg hblank, hfront] at h
    simp only [hrest] at h
    cases h
    simpa using ⟨lexical_front hfront, ih hrest⟩

/-- An input is cut in the same way wherever it starts. -/
theorem tokensFrom_shift {start : Nat} {input : List Char} {ts : List Token}
    (h : tokensFrom start input = .ok ts) (start' : Nat) :
    ∃ ts', tokensFrom start' input = .ok ts' ∧ ts'.map (·.lexeme) = ts.map (·.lexeme) := by
  induction start, input using tokensFrom.induct generalizing ts start' with
  | case1 start =>
    rw [tokensFrom] at h
    cases h
    exact ⟨[], by rw [tokensFrom], rfl⟩
  | case2 start c rest hblank ih =>
    rw [tokensFrom, if_pos hblank] at h
    rw [tokensFrom, if_pos hblank]
    exact ih h (start' + 1)
  | case3 start c rest hblank misfit hfront =>
    rw [tokensFrom, if_neg hblank, hfront] at h
    cases h
  | case4 start c rest hblank l more hfront e hrest ih =>
    rw [tokensFrom, if_neg hblank, hfront] at h
    simp [hrest] at h
  | case5 start c rest hblank l more hfront ts' hrest ih =>
    rw [tokensFrom, if_neg hblank, hfront] at h
    simp only [hrest] at h
    cases h
    obtain ⟨ts, hts, hlexemes⟩ := ih hrest (start' + 1 + more)
    refine ⟨⟨l, start', start' + 1 + more⟩ :: ts, ?_, by simp [hlexemes]⟩
    rw [tokensFrom, if_neg hblank, hfront]
    simp only [hts]

/-! ## One spelled lexeme -/

def Lexeme.isWord : Lexeme → Bool
  | .word _ | .asWord | .forWord | .implWord => true
  | _ => false

/-- A word part right behind this lexeme would belong to it. -/
def Lexeme.sticks : Lexeme → Bool
  | .lifetime _ => true
  | l => l.isWord

/-- The lexer, on a text that starts with `text`, cuts out just this. -/
def CutsAs (l : Lexeme) (text rest : List Char) : Prop :=
  ∃ c more, text = c :: more ∧ isBlank c = false ∧ front c (more ++ rest) = .ok (l, more.length)

theorem not_blank_of_wordStart {c : Char} (hc : isWordStart c = true) : isBlank c = false := by
  unfold isBlank
  simp only [Bool.or_eq_false_iff, beq_eq_false_iff_ne]
  refine ⟨⟨⟨⟨?_, ?_⟩, ?_⟩, ?_⟩, ?_⟩ <;> rintro rfl <;> revert hc <;> decide

theorem front_wordStart {c : Char} (hc : isWordStart c = true) (rest : List Char) :
    front c rest =
      .ok (.ofWord (String.ofList (c :: rest.takeWhile isWordPart)),
        (rest.takeWhile isWordPart).length) := by
  unfold front
  split <;> first | exact absurd hc (by decide) | simp [hc]

theorem takeWhile_wordParts {rest : List Char} (more : List Char) (hmore : ∀ c ∈ more, isWordPart c = true)
    (hrest : ∀ c ∈ rest.head?, isWordPart c = false) :
    (more ++ rest).takeWhile isWordPart = more := by
  rw [List.takeWhile_append_of_pos hmore]
  cases rest with
  | nil => simp
  | cons c rest =>
    have hc := hrest c rfl
    simp [hc]

theorem cuts_word (text : String) {rest : List Char} (htext : isIdentifier text = true)
    (hrest : ∀ c ∈ rest.head?, isWordPart c = false) :
    CutsAs (.ofWord text) text.toList rest := by
  unfold isIdentifier at htext
  split at htext
  · cases htext
  · next c more hchars =>
    simp only [Bool.and_eq_true, List.all_eq_true] at htext
    obtain ⟨hc, hmore⟩ := htext
    refine ⟨c, more, hchars, not_blank_of_wordStart hc, ?_⟩
    rw [front_wordStart hc, takeWhile_wordParts more hmore hrest, ← hchars, String.ofList_toList]

theorem ofWord_of_lexical {text : String} (h : (Lexeme.word text).Lexical) :
    Lexeme.ofWord text = .word text := by
  have hkeyword := h.2
  simp only [List.mem_cons, List.not_mem_nil, or_false, not_or] at hkeyword
  unfold Lexeme.ofWord
  rw [if_neg hkeyword.1, if_neg hkeyword.2.1, if_neg hkeyword.2.2]

theorem cuts_lifetime {name : Char} {rest : List Char} (hname : isLifetimeName name = true)
    (hrest : ∀ c ∈ rest.head?, isWordPart c = false) :
    CutsAs (.lifetime name) ['\'', name] rest := by
  refine ⟨'\'', [name], rfl, rfl, ?_⟩
  have hnone := takeWhile_wordParts [] (by simp) hrest
  simp only [List.nil_append] at hnone
  simp [front, frontLifetime, hname, hnone]

theorem closureIndex_repr (index : UInt32) :
    closureIndex (Nat.toDigits 10 index.toNat) = some index := by
  have hvalue : Decimal.decimalValue (Nat.toDigits 10 index.toNat) = index.toNat :=
    Nat.ofDigitChars_ten_toDigits
  unfold closureIndex
  rw [hvalue, if_pos index.toNat_lt]
  simp

theorem takeWhile_digits {digits : List Char} (hdigits : ∀ c ∈ digits, c.isDigit = true)
    (rest : List Char) : (digits ++ '\x7d' :: rest).takeWhile Char.isDigit = digits := by
  rw [List.takeWhile_append_of_pos hdigits]
  simp

theorem frontClosure_digits {digits : List Char} (hdigits : ∀ c ∈ digits, c.isDigit = true)
    (hne : digits ≠ []) (rest : List Char) :
    frontClosure ("closure#".toList ++ (digits ++ '\x7d' :: rest)) =
      .ok (.closure (closureIndex digits), "closure#".length + digits.length + 1) := by
  have hdrop : ("closure#".toList ++ (digits ++ '\x7d' :: rest)).drop "closure#".length =
    digits ++ '\x7d' :: rest := rfl
  unfold frontClosure
  dsimp only
  rw [hdrop, takeWhile_digits hdigits, if_neg (by simp), if_pos]
  refine ⟨by simp, hne, ?_⟩
  have hlength : "closure#".length = 8 := rfl
  rw [List.getElem?_append_right (by simp [hlength])]
  simp [hlength]

theorem cuts_digits {digits : List Char} (hdigits : ∀ c ∈ digits, c.isDigit = true)
    (hne : digits ≠ []) (rest : List Char) :
    CutsAs (.closure (closureIndex digits))
      ('\x7b' :: ("closure#".toList ++ (digits ++ ['\x7d']))) rest := by
  refine ⟨'\x7b', "closure#".toList ++ (digits ++ ['\x7d']), rfl, rfl, ?_⟩
  simp only [front, List.append_assoc, List.singleton_append, List.length_append,
    List.length_singleton]
  exact frontClosure_digits hdigits hne rest

theorem cuts_closure (index : UInt32) (rest : List Char) :
    CutsAs (.closure (some index)) (Lexeme.closure (some index)).spelling.toList rest := by
  have hdigits : ∀ c ∈ Nat.toDigits 10 index.toNat, c.isDigit = true := fun c hc =>
    Nat.isDigit_of_mem_toDigits (by decide) (by decide) hc
  have hcuts := cuts_digits hdigits Nat.toDigits_ne_nil rest
  rw [closureIndex_repr] at hcuts
  simpa [Lexeme.spelling] using hcuts

theorem cuts_spelling {l : Lexeme} {rest : List Char} (hl : l.Lexical)
    (hrest : l.sticks = true → ∀ c ∈ rest.head?, isWordPart c = false) :
    CutsAs l l.spelling.toList rest := by
  cases l with
  | pathSeparator => exact ⟨':', [':'], rfl, rfl, rfl⟩
  | less => exact ⟨'<', [], rfl, rfl, rfl⟩
  | greater => exact ⟨'>', [], rfl, rfl, rfl⟩
  | comma => exact ⟨',', [], rfl, rfl, rfl⟩
  | ampersand => exact ⟨'&', [], rfl, rfl, rfl⟩
  | asWord => exact cuts_word "as" (by decide) (hrest rfl)
  | forWord => exact cuts_word "for" (by decide) (hrest rfl)
  | implWord => exact cuts_word "impl" (by decide) (hrest rfl)
  | lifetime name =>
    simpa [Lexeme.spelling] using cuts_lifetime hl (hrest rfl)
  | word text =>
    have hcuts := cuts_word text hl.1 (hrest rfl)
    rwa [ofWord_of_lexical hl] at hcuts
  | closure index =>
    cases index with
    | none => exact ⟨'\x7b', "\x7bclosure\x7d\x7d".toList, rfl, rfl, rfl⟩
    | some index => exact cuts_closure index rest

/-! ## A spelled text -/

def lexemes : List Piece → List Lexeme
  | [] => []
  | .lexeme l :: pieces => l :: lexemes pieces
  | .blank :: pieces => lexemes pieces

def Piece.isWord : Piece → Bool
  | .lexeme l => l.isWord
  | .blank => false

def Piece.sticks : Piece → Bool
  | .lexeme l => l.sticks
  | .blank => false

/-- No word stands right behind another word or a lifetime. -/
def Apart (pieces : List Piece) : Prop :=
  pieces.IsChain fun a b => a.sticks = true → b.isWord = false

theorem spell_cons (piece : Piece) (pieces : List Piece) :
    (spell (piece :: pieces)).toList = piece.spelling.toList ++ (spell pieces).toList := by
  simp [spell, String.join_cons]

/-- Only words start with a word part. -/
theorem spelling_start {l : Lexeme} {rest : List Char} (hl : l.Lexical) (hword : l.isWord = false) :
    ∀ c ∈ (l.spelling.toList ++ rest).head?, isWordPart c = false := by
  cases l with
  | word text => cases hword
  | asWord | forWord | implWord => cases hword
  | lifetime name => simp [Lexeme.spelling, isWordPart]
  | closure index => cases index <;> simp [Lexeme.spelling, isWordPart]
  | _ => simp [Lexeme.spelling, isWordPart]

theorem tokensFrom_text {l : Lexeme} {text rest : List Char} (h : CutsAs l text rest)
    (start : Nat) :
    tokensFrom start (text ++ rest) =
      (tokensFrom (start + text.length) rest).map (⟨l, start, start + text.length⟩ :: ·) := by
  obtain ⟨c, more, rfl, hblank, hfront⟩ := h
  have hstop : start + 1 + more.length = start + (c :: more).length := by
    rw [List.length_cons]
    omega
  rw [List.cons_append, tokensFrom, hblank, hfront]
  simp only [List.drop_left, hstop, Bool.false_eq_true, if_false]
  cases tokensFrom (start + (c :: more).length) rest <;> rfl

theorem tokensFrom_cut {l : Lexeme} {text rest : List Char} {start : Nat} {ts : List Token}
    (h : CutsAs l text rest) (hrest : tokensFrom (start + text.length) rest = .ok ts) :
    tokensFrom start (text ++ rest) = .ok (⟨l, start, start + text.length⟩ :: ts) := by
  rw [tokensFrom_text h, hrest]
  rfl

/-- What comes behind a lexeme that sticks does not belong to it. -/
theorem next_apart {piece : Piece} {pieces : List Piece}
    (hlexical : ∀ l ∈ lexemes (piece :: pieces), l.Lexical) (hword : piece.isWord = false) :
    ∀ c ∈ (spell (piece :: pieces)).toList.head?, isWordPart c = false := by
  rw [spell_cons]
  cases piece with
  | blank => simp [Piece.spelling, isWordPart]
  | lexeme l => exact spelling_start (hlexical l (by simp [lexemes])) hword

theorem tokensFrom_spell {pieces : List Piece} (hlexical : ∀ l ∈ lexemes pieces, l.Lexical)
    (hapart : Apart pieces) (start : Nat) :
    ∃ ts, tokensFrom start (spell pieces).toList = .ok ts ∧
      ts.map (·.lexeme) = lexemes pieces := by
  induction pieces generalizing start with
  | nil => exact ⟨[], by simp [spell, tokensFrom], rfl⟩
  | cons piece pieces ih =>
    obtain ⟨hnext, htail⟩ := List.isChain_cons.mp hapart
    cases piece with
    | blank =>
      obtain ⟨ts, hts, hlexemes⟩ := ih hlexical htail (start + 1)
      refine ⟨ts, ?_, hlexemes⟩
      rw [spell_cons, show Piece.blank.spelling.toList = [' '] from rfl, List.singleton_append,
        tokensFrom, if_pos (by decide), hts]
    | lexeme l =>
      simp only [lexemes, List.forall_mem_cons] at hlexical
      obtain ⟨hl, hlexical⟩ := hlexical
      have hcuts : CutsAs l l.spelling.toList (spell pieces).toList := by
        refine cuts_spelling hl fun hsticks => ?_
        cases pieces with
        | nil => simp [spell]
        | cons next pieces => exact next_apart hlexical (hnext next rfl hsticks)
      obtain ⟨ts, hts, hlexemes⟩ := ih hlexical htail (start + l.spelling.toList.length)
      refine ⟨⟨l, start, start + l.spelling.toList.length⟩ :: ts, ?_, by simp [lexemes, hlexemes]⟩
      rw [spell_cons]
      exact tokensFrom_cut hcuts hts

end CrateTrace.Name
