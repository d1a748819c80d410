import CrateTrace.Name.Parser
import CrateTrace.Proofs.Name.Lexing
import Mathlib.Data.List.TakeWhile

/-!
# How a name is tiled by its tokens

Which texts a lexeme may have, and how such texts and blanks fill an input that is cut. Nothing is
said here about the order in which the lexer looks at the characters.
-/

namespace CrateTrace.Name

/-! ## The texts of one lexeme -/

inductive Spells : Lexeme → List Char → Prop where
  | sign {l : Lexeme} (hsign : l ∈ [.pathSeparator, .less, .greater, .comma, .ampersand]) :
      Spells l l.spelling.toList
  | lifetime {name : Char} (hname : isLifetimeName name = true) :
      Spells (.lifetime name) ['\'', name]
  | word {text : String} (htext : isIdentifier text = true) : Spells (.ofWord text) text.toList
  | closure : Spells (.closure none) "\x7b\x7bclosure\x7d\x7d".toList
  | numbered {digits : List Char} (hdigits : ∀ c ∈ digits, c.isDigit = true) (hne : digits ≠ []) :
      Spells (.closure (closureIndex digits))
        ('\x7b' :: ("closure#".toList ++ (digits ++ ['\x7d'])))

theorem sticks_ofWord (text : String) : (Lexeme.ofWord text).sticks = true := by
  unfold Lexeme.ofWord
  repeat' split
  all_goals rfl

/-- `c` and `n` more characters are a text of the lexeme, and no word goes on behind them. -/
def SpellsFront (l : Lexeme) (c : Char) (n : Nat) (rest : List Char) : Prop :=
  ∃ more behind, rest = more ++ behind ∧ more.length = n ∧ Spells l (c :: more) ∧
    (l.sticks = true → ∀ c ∈ behind.head?, isWordPart c = false)

theorem spells_frontLifetime {rest : List Char} {l : Lexeme} {n : Nat}
    (h : frontLifetime rest = .ok (l, n)) : SpellsFront l '\'' n rest := by
  unfold frontLifetime at h
  split at h
  · cases h
  · next name rest =>
    split at h
    · next hname =>
      split at h
      · next hnone =>
        cases h
        refine ⟨[name], rest, rfl, rfl, .lifetime hname, fun _ c hc => ?_⟩
        have hnot := List.head?_dropWhile_not isWordPart rest
        rw [← List.takeWhile_append_dropWhile (p := isWordPart) (l := rest), hnone] at hc
        rw [List.nil_append, Option.mem_def] at hc
        rw [hc] at hnot
        exact hnot
      · cases h
    · cases h

theorem spells_frontClosure {rest : List Char} {l : Lexeme} {n : Nat}
    (h : frontClosure rest = .ok (l, n)) : SpellsFront l '\x7b' n rest := by
  unfold frontClosure at h
  dsimp only at h
  split at h
  · next hstarts =>
    cases h
    obtain ⟨behind, rfl⟩ := List.isPrefixOf_iff_prefix.mp hstarts
    exact ⟨_, behind, rfl, rfl, .closure, fun hsticks => by cases hsticks⟩
  · split at h
    · next hnumbered =>
      cases h
      obtain ⟨hstarts, hne, hbrace⟩ := hnumbered
      obtain ⟨behind, rfl⟩ := List.isPrefixOf_iff_prefix.mp hstarts
      have hdrop : ("closure#".toList ++ behind).drop "closure#".length = behind :=
        List.drop_left
      rw [hdrop] at hne hbrace ⊢
      generalize hdigits : behind.takeWhile Char.isDigit = digits at hne hbrace ⊢
      obtain ⟨tail, rfl⟩ : ∃ tail, behind = digits ++ tail := by
        rw [← hdigits]
        exact ⟨_, List.takeWhile_append_dropWhile.symm⟩
      have hfront : "closure#".length = "closure#".toList.length := rfl
      rw [hfront, List.getElem?_append_right (by omega), Nat.add_sub_cancel_left,
        List.getElem?_append_right (by omega), Nat.sub_self] at hbrace
      obtain ⟨last, rfl⟩ : ∃ last, tail = '\x7d' :: last := by
        cases tail with
        | nil => simp at hbrace
        | cons c last =>
          obtain rfl : c = '\x7d' := by simpa using hbrace
          exact ⟨last, rfl⟩
      refine ⟨"closure#".toList ++ (digits ++ ['\x7d']), last, by simp, ?_,
        .numbered (fun c hc => ?_) hne, fun hsticks => by cases hsticks⟩
      · rw [List.length_append, List.length_append, hfront]
        rfl
      · rw [← hdigits] at hc
        exact List.mem_takeWhile_imp hc
    · cases h

theorem spells_front {c : Char} {rest : List Char} {l : Lexeme} {n : Nat}
    (h : front c rest = .ok (l, n)) : SpellsFront l c n rest := by
  unfold front at h
  split at h
  · split at h
    · next hcolon =>
      cases h
      obtain ⟨behind, rfl⟩ : ∃ behind, rest = ':' :: behind :=
        ⟨rest.tail, (List.cons_head?_tail hcolon).symm⟩
      exact ⟨[':'], behind, rfl, rfl, .sign (by simp), fun hsticks => by cases hsticks⟩
    · cases h
  case h_2 | h_3 | h_4 | h_5 =>
    cases h
    exact ⟨[], rest, rfl, rfl, .sign (by simp), fun hsticks => by cases hsticks⟩
  case h_6 => exact spells_frontLifetime h
  case h_7 => exact spells_frontClosure h
  · split at h
    · next hc =>
      cases h
      have hspells := Spells.word (isIdentifier_takeWhile hc rest)
      rw [String.toList_ofList] at hspells
      refine ⟨_, rest.dropWhile isWordPart, List.takeWhile_append_dropWhile.symm, rfl, hspells,
        fun _ c hc => ?_⟩
      have hnot := List.head?_dropWhile_not isWordPart rest
      rw [Option.mem_def.mp hc] at hnot
      exact hnot
    · cases h

/-- What the lexer cuts out is a text of its lexeme, and behind a word or a lifetime no word goes
on. -/
theorem cutsAs_iff {l : Lexeme} {text rest : List Char} :
    CutsAs l text rest ↔
      Spells l text ∧ (l.sticks = true → ∀ c ∈ rest.head?, isWordPart c = false) := by
  constructor
  · rintro ⟨c, more, rfl, -, hfront⟩
    obtain ⟨more', behind, hsplit, hlength, hspells, hnext⟩ := spells_front hfront
    obtain ⟨rfl, rfl⟩ := List.append_inj hsplit hlength.symm
    exact ⟨hspells, hnext⟩
  · rintro ⟨hspells, hrest⟩
    cases hspells with
    | sign hsign =>
      have hl : l.Lexical := by
        simp only [List.mem_cons, List.not_mem_nil, or_false] at hsign
        rcases hsign with rfl | rfl | rfl | rfl | rfl <;> trivial
      exact cuts_spelling hl hrest
    | lifetime hname => exact cuts_lifetime hname (hrest rfl)
    | word htext => exact cuts_word _ htext (hrest (sticks_ofWord _))
    | closure => exact ⟨'\x7b', "\x7bclosure\x7d\x7d".toList, rfl, rfl, rfl⟩
    | numbered hdigits hne => exact cuts_digits hdigits hne rest

/-! ## Widths -/

theorem byteLength_cons (c : Char) (a : List Char) :
    byteLength (c :: a) = c.utf8Size + byteLength a := rfl

theorem byteLength_eq_zero {a : List Char} : byteLength a = 0 ↔ a = [] := by
  cases a with
  | nil => simp [byteLength]
  | cons c a =>
    have hpos := c.utf8Size_pos
    rw [byteLength_cons]
    simp only [reduceCtorEq, iff_false]
    omega

theorem byteLength_append (a b : List Char) :
    byteLength (a ++ b) = byteLength a + byteLength b := by
  induction a with
  | nil => simp [byteLength]
  | cons c a ih =>
    rw [List.cons_append, byteLength_cons, byteLength_cons, ih, Nat.add_assoc]

theorem byteLength_toList (text : String) : byteLength text.toList = text.utf8ByteSize := by
  obtain ⟨chars, rfl⟩ : ∃ chars, text = String.ofList chars := ⟨_, String.ofList_toList.symm⟩
  rw [String.toList_ofList]
  induction chars with
  | nil => rfl
  | cons c chars ih =>
    rw [String.ofList_cons, String.utf8ByteSize_append, String.utf8ByteSize_singleton,
      byteLength_cons, ih]

theorem byteLength_ascii {text : List Char} (h : ∀ c ∈ text, c.utf8Size = 1) :
    byteLength text = text.length := by
  induction text with
  | nil => rfl
  | cons c text ih =>
    rw [List.forall_mem_cons] at h
    rw [byteLength_cons, h.1, ih h.2, List.length_cons, Nat.add_comm]

theorem isWordPart_cases {c : Char} (h : isWordPart c = true) :
    c.isUpper = true ∨ c.isLower = true ∨ c.isDigit = true ∨ c = '_' := by
  obtain halphanum | hunderscore := (Bool.or_eq_true _ _).mp h
  · obtain halpha | hdigit := (Bool.or_eq_true _ _).mp halphanum
    · obtain hupper | hlower := (Bool.or_eq_true _ _).mp halpha
      · exact .inl hupper
      · exact .inr (.inl hlower)
    · exact .inr (.inr (.inl hdigit))
  · exact .inr (.inr (.inr (beq_iff_eq.mp hunderscore)))

theorem utf8Size_wordPart {c : Char} (h : isWordPart c = true) : c.utf8Size = 1 := by
  rw [Char.utf8Size_eq_one_iff]
  obtain h | h | h | rfl := isWordPart_cases h
  · exact UInt32.le_trans (of_decide_eq_true h).2 (by decide)
  · exact UInt32.le_trans (of_decide_eq_true ((Bool.and_eq_true _ _).mp h).2) (by decide)
  · exact UInt32.le_trans (of_decide_eq_true ((Bool.and_eq_true _ _).mp h).2) (by decide)
  · decide

theorem utf8Size_blank {c : Char} (h : isBlank c = true) : c.utf8Size = 1 := by
  simp only [isBlank, Bool.or_eq_true, beq_iff_eq] at h
  rcases h with (((rfl | rfl) | rfl) | rfl) | rfl <;> decide

theorem isWordPart_of_isWordStart {c : Char} (h : isWordStart c = true) : isWordPart c = true := by
  simp only [isWordStart, isWordPart, Char.isAlphanum, Bool.or_eq_true] at h ⊢
  exact h.imp_left .inl

theorem isWordPart_of_isLifetimeName {c : Char} (h : isLifetimeName c = true) :
    isWordPart c = true := by
  obtain hlower | hunderscore := (Bool.or_eq_true _ _).mp h
  · have halpha : c.isAlpha = true := (Bool.or_eq_true _ _).mpr (.inr hlower)
    have halphanum : c.isAlphanum = true := (Bool.or_eq_true _ _).mpr (.inl halpha)
    exact (Bool.or_eq_true _ _).mpr (.inl halphanum)
  · exact (Bool.or_eq_true _ _).mpr (.inr hunderscore)

theorem isWordPart_of_isDigit {c : Char} (h : c.isDigit = true) : isWordPart c = true := by
  simp [isWordPart, Char.isAlphanum, h]

theorem isWordPart_of_isIdentifier {text : String} (h : isIdentifier text = true) :
    ∀ c ∈ text.toList, isWordPart c = true := by
  unfold isIdentifier at h
  split at h
  · cases h
  · next c rest htext =>
    simp only [Bool.and_eq_true, List.all_eq_true] at h
    rw [htext, List.forall_mem_cons]
    exact ⟨isWordPart_of_isWordStart h.1, h.2⟩

theorem ascii_of_all {text : List Char} (h : text.all (·.utf8Size == 1) = true) :
    ∀ c ∈ text, c.utf8Size = 1 := by
  simpa using h

theorem Spells.ascii {l : Lexeme} {text : List Char} (h : Spells l text) :
    ∀ c ∈ text, c.utf8Size = 1 := by
  cases h with
  | sign hsign =>
    simp only [List.mem_cons, List.not_mem_nil, or_false] at hsign
    rcases hsign with rfl | rfl | rfl | rfl | rfl <;> exact ascii_of_all rfl
  | lifetime hname =>
    have hquote : Char.utf8Size '\'' = 1 := rfl
    simpa using ⟨hquote, utf8Size_wordPart (isWordPart_of_isLifetimeName hname)⟩
  | word htext => exact fun c hc => utf8Size_wordPart (isWordPart_of_isIdentifier htext c hc)
  | closure => exact ascii_of_all rfl
  | numbered hdigits hne =>
    have hopen : ∀ c ∈ "closure#".toList, c.utf8Size = 1 := ascii_of_all rfl
    rw [List.forall_mem_cons, List.forall_mem_append, List.forall_mem_append]
    exact ⟨rfl, hopen, fun c hc => utf8Size_wordPart (isWordPart_of_isDigit (hdigits c hc)),
      ascii_of_all rfl⟩

/-- A text of a lexeme takes as many bytes as characters. -/
theorem Spells.byteLength_eq {l : Lexeme} {text : List Char} (h : Spells l text) :
    byteLength text = text.length :=
  byteLength_ascii h.ascii

theorem Spells.length_pos {l : Lexeme} {text : List Char} (h : Spells l text) :
    0 < text.length := by
  have hcuts : CutsAs l text [] := cutsAs_iff.mpr ⟨h, fun _ => by simp⟩
  obtain ⟨c, more, rfl, -, -⟩ := hcuts
  simp

/-! ## A whole input -/

/-- Blanks and texts of lexemes, one behind the other, fill the input. -/
inductive Tiled : Nat → List Char → List Token → Prop where
  | nil (start : Nat) : Tiled start [] []
  | blank {start : Nat} {c : Char} {rest : List Char} {ts : List Token} (hblank : isBlank c = true)
      (hrest : Tiled (start + 1) rest ts) : Tiled start (c :: rest) ts
  | token {start : Nat} {l : Lexeme} {text rest : List Char} {ts : List Token}
      (hcuts : CutsAs l text rest) (hrest : Tiled (start + text.length) rest ts) :
      Tiled start (text ++ rest) (⟨l, start, start + text.length⟩ :: ts)

theorem Tiled.of_tokensFrom {start : Nat} {input : List Char} {ts : List Token}
    (h : tokensFrom start input = .ok ts) : Tiled start input ts := by
  induction start, input using tokensFrom.induct generalizing ts with
  | case1 start =>
    rw [tokensFrom] at h
    cases h
    exact .nil start
  | case2 start c rest hblank ih =>
    rw [tokensFrom, if_pos hblank] at h
    exact .blank hblank (ih h)
  | case3 start c rest hblank misfit hfront =>
    rw [tokensFrom, if_neg hblank, hfront] at h
    cases h
  | case4 start c rest hblank l more hfront e hrest ih =>
    rw [tokensFrom, if_neg hblank, hfront] at h
    simp [hrest] at h
  | case5 start c rest hblank l more hfront ts' hrest ih =>
    rw [tokensFrom, if_neg hblank, hfront] at h
    simp only [hrest] at h
    cases h
    obtain ⟨text, behind, rfl, rfl, hspells, hnext⟩ := spells_front hfront
    rw [List.drop_left] at hrest
    have hcuts := cutsAs_iff.mpr ⟨hspells, hnext⟩
    rw [List.drop_left] at ih
    have hstop : start + 1 + text.length = start + (c :: text).length := by
      rw [List.length_cons]
      omega
    rw [hstop] at ih hrest ⊢
    exact .token hcuts (ih hrest)

theorem tokensFrom_iff {start : Nat} {input : List Char} {ts : List Token} :
    tokensFrom start input = .ok ts ↔ Tiled start input ts := by
  refine ⟨Tiled.of_tokensFrom, fun h => ?_⟩
  induction h with
  | nil start => rw [tokensFrom]
  | blank hblank hrest ih => rw [tokensFrom, if_pos hblank, ih]
  | token hcuts hrest ih => exact tokensFrom_cut hcuts ih

/-- A tiled input in front of another one is cut by itself, unless a word goes on in the other. -/
theorem Tiled.tokensFrom_append {start : Nat} {a b : List Char} {ts : List Token}
    (h : Tiled start a ts) (hb : ∀ c ∈ b.head?, isWordPart c = false) :
    tokensFrom start (a ++ b) =
      (tokensFrom (start + byteLength a) b).map (ts ++ ·) := by
  induction h with
  | nil start =>
    cases htail : tokensFrom start b <;> simp [byteLength, Except.map, htail]
  | @blank start c rest ts hblank hrest ih =>
    rw [List.cons_append, tokensFrom, if_pos hblank, ih]
    rw [byteLength_cons, utf8Size_blank hblank, Nat.add_assoc]
  | @token start l text rest ts hcuts hrest ih =>
    obtain ⟨hspells, hnext⟩ := cutsAs_iff.mp hcuts
    have hcuts' : CutsAs l text (rest ++ b) := by
      refine cutsAs_iff.mpr ⟨hspells, fun hsticks => ?_⟩
      cases rest with
      | nil => exact hb
      | cons c rest => exact hnext hsticks
    rw [List.append_assoc, tokensFrom_text hcuts', ih, byteLength_append, hspells.byteLength_eq,
      Nat.add_assoc]
    cases tokensFrom (start + (text.length + byteLength rest)) b <;> rfl

/-! ## Lexemes without their places -/

/-- The lexemes that an input is cut into. -/
def CutInto (input : List Char) (text : List Lexeme) : Prop :=
  ∃ ts, tokens input = .ok ts ∧ ts.map (·.lexeme) = text

theorem cutInto_of_tokensFrom {start : Nat} {input : List Char} {ts : List Token}
    (h : tokensFrom start input = .ok ts) : CutInto input (ts.map (·.lexeme)) :=
  tokensFrom_shift h 0

theorem cutInto_iff_of_tokens {start : Nat} {input rest : List Char} {front : List Token}
    (h : tokens input = (tokensFrom start rest).map (front ++ ·)) (all : List Lexeme) :
    CutInto input all ↔
      ∃ behind, CutInto rest behind ∧ all = front.map (·.lexeme) ++ behind := by
  constructor
  · rintro ⟨ts, hts, rfl⟩
    rw [h] at hts
    cases hbehind : tokensFrom start rest with
    | error e => simp [hbehind, Except.map] at hts
    | ok behind =>
      obtain rfl : front ++ behind = ts := by simpa [hbehind, Except.map] using hts
      exact ⟨_, cutInto_of_tokensFrom hbehind, by simp⟩
  · rintro ⟨_, ⟨ts, hts, rfl⟩, rfl⟩
    obtain ⟨behind, hbehind, hlexemes⟩ := tokensFrom_shift hts start
    refine ⟨front ++ behind, ?_, by simp [hlexemes]⟩
    rw [h, hbehind]
    rfl

theorem cutInto_append_iff {a b : List Char} {text : List Lexeme} (h : CutInto a text)
    (hnext : ∀ c ∈ b.head?, isWordPart c = false) (all : List Lexeme) :
    CutInto (a ++ b) all ↔ ∃ behind, CutInto b behind ∧ all = text ++ behind := by
  obtain ⟨front, hfront, rfl⟩ := h
  exact cutInto_iff_of_tokens ((Tiled.of_tokensFrom hfront).tokensFrom_append hnext) all

theorem cutInto_text_iff {l : Lexeme} {text rest : List Char} (h : CutsAs l text rest)
    (all : List Lexeme) :
    CutInto (text ++ rest) all ↔ ∃ behind, CutInto rest behind ∧ all = l :: behind := by
  have hcut : tokens (text ++ rest) =
      (tokensFrom (0 + text.length) rest).map ([⟨l, 0, 0 + text.length⟩] ++ ·) :=
    tokensFrom_text h 0
  exact cutInto_iff_of_tokens hcut all

/-! ## Where the tokens are -/

theorem Tiled.start_le {start : Nat} {input : List Char} {ts : List Token}
    (h : Tiled start input ts) : ∀ t ∈ ts, start ≤ t.start ∧ t.start < t.stop := by
  induction h with
  | nil start => simp
  | blank hblank hrest ih =>
    intro t ht
    have hbehind := ih t ht
    omega
  | @token start l text rest ts hcuts hrest ih =>
    have hpos := (cutsAs_iff.mp hcuts).1.length_pos
    rw [List.forall_mem_cons]
    refine ⟨⟨Nat.le_refl _, by dsimp only; omega⟩, fun t ht => ?_⟩
    have hbehind := ih t ht
    omega

/-- Tokens come in the order of the input and do not overlap. -/
theorem Tiled.pairwise {start : Nat} {input : List Char} {ts : List Token}
    (h : Tiled start input ts) : ts.Pairwise (·.stop ≤ ·.start) := by
  induction h with
  | nil start => exact .nil
  | blank hblank hrest ih => exact ih
  | token hcuts hrest ih => exact .cons (fun t ht => (hrest.start_le t ht).1) ih

/-- A token covers a text of its lexeme. -/
theorem Tiled.exists_text {start : Nat} {input : List Char} {ts : List Token}
    (h : Tiled start input ts) : ∀ t ∈ ts, ∃ a text b, input = a ++ text ++ b ∧
      t.start = start + byteLength a ∧ t.stop = t.start + byteLength text ∧
      Spells t.lexeme text := by
  induction h with
  | nil start => simp
  | @blank start c rest ts hblank hrest ih =>
    intro t ht
    obtain ⟨a, text, b, rfl, hstart, hstop, hspells⟩ := ih t ht
    refine ⟨c :: a, text, b, rfl, ?_, hstop, hspells⟩
    rw [hstart, byteLength_cons, utf8Size_blank hblank, Nat.add_assoc]
  | @token start l text rest ts hcuts hrest ih =>
    have hspells := (cutsAs_iff.mp hcuts).1
    intro t ht
    obtain rfl | ht := List.mem_cons.mp ht
    · exact ⟨[], text, rest, rfl, rfl, by rw [hspells.byteLength_eq], hspells⟩
    · obtain ⟨a, text', b, rfl, hstart, hstop, hspells'⟩ := ih t ht
      refine ⟨text ++ a, text', b, by simp, ?_, hstop, hspells'⟩
      rw [hstart, byteLength_append, hspells.byteLength_eq, Nat.add_assoc]

/-- What comes after a part of the rest is of no account. -/
theorem CutsAs.of_append {l : Lexeme} {text a b : List Char} (h : CutsAs l text (a ++ b)) :
    CutsAs l text a := by
  obtain ⟨hspells, hnext⟩ := cutsAs_iff.mp h
  refine cutsAs_iff.mpr ⟨hspells, fun hsticks => ?_⟩
  cases a with
  | nil => simp
  | cons c a => exact hnext hsticks

theorem prefix_of_byteLength_le {a b text rest : List Char} (h : a ++ b = text ++ rest)
    (hle : byteLength text ≤ byteLength a) : ∃ more, a = text ++ more ∧ rest = more ++ b := by
  obtain ⟨more, rfl, rfl⟩ | ⟨more, rfl, rfl⟩ := List.append_eq_append_iff.mp h
  · rw [byteLength_append] at hle
    obtain rfl : more = [] := byteLength_eq_zero.mp (by omega)
    exact ⟨[], by simp, by simp⟩
  · exact ⟨more, rfl, rfl⟩

/-- An input that is divided between two tokens is divided into two tiled ones. -/
theorem Tiled.split {start : Nat} {a b : List Char} {ts ts' : List Token}
    (h : Tiled start (a ++ b) (ts ++ ts')) (hbefore : ∀ t ∈ ts, t.stop ≤ start + byteLength a)
    (hbehind : ∀ t ∈ ts', start + byteLength a ≤ t.start) :
    Tiled start a ts ∧ Tiled (start + byteLength a) b ts' := by
  generalize hinput : a ++ b = input at h
  generalize hall : ts ++ ts' = all at h
  induction h generalizing a ts with
  | nil start =>
    obtain ⟨rfl, rfl⟩ := List.append_eq_nil_iff.mp hinput
    obtain ⟨rfl, rfl⟩ := List.append_eq_nil_iff.mp hall
    exact ⟨.nil start, .nil _⟩
  | @blank start c rest all hblank hrest ih =>
    cases a with
    | nil =>
      obtain rfl : c :: rest = b := hinput.symm
      cases ts with
      | nil =>
        obtain rfl : ts' = all := hall
        exact ⟨.nil start, .blank hblank hrest⟩
      | cons t ts =>
        have hstop := hbefore t (by simp)
        have hstart := hrest.start_le t (by simp [← hall])
        simp only [byteLength, List.foldr_nil] at hstop
        omega
    | cons c' a =>
      obtain ⟨rfl, rfl⟩ : c' = c ∧ a ++ b = rest := by simpa using hinput
      have hwidth : start + byteLength (c' :: a) = start + 1 + byteLength a := by
        rw [byteLength_cons, utf8Size_blank hblank, Nat.add_assoc]
      rw [hwidth] at hbefore hbehind ⊢
      obtain ⟨ha, hb⟩ := ih hbefore hbehind rfl hall
      exact ⟨.blank hblank ha, hb⟩
  | @token start l text rest all hcuts hrest ih =>
    cases ts with
    | nil =>
      subst hall
      have hstart := hbehind _ List.mem_cons_self
      obtain rfl : a = [] := byteLength_eq_zero.mp (by dsimp only at hstart; omega)
      rw [List.nil_append] at hinput
      exact ⟨.nil start, hinput ▸ .token hcuts hrest⟩
    | cons t ts =>
      obtain ⟨rfl, rfl⟩ : t = _ ∧ ts ++ ts' = all := by simpa using hall
      rw [List.forall_mem_cons] at hbefore
      have hwidth := (cutsAs_iff.mp hcuts).1.byteLength_eq
      have hle : byteLength text ≤ byteLength a := by
        have hstop := hbefore.1
        dsimp only at hstop
        omega
      obtain ⟨more, rfl, rfl⟩ := prefix_of_byteLength_le hinput hle
      rw [byteLength_append, hwidth, ← Nat.add_assoc] at hbefore hbehind ⊢
      obtain ⟨ha, hb⟩ := ih hbefore.2 hbehind rfl rfl
      exact ⟨.token hcuts.of_append ha, hb⟩

end CrateTrace.Name
