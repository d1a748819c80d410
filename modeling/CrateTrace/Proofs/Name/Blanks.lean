import CrateTrace.Proofs.Name.Tiling

/-!
# Blanks between tokens

Blanks may stand before, between and behind the tokens of a name, as many as one likes. Main
statement: more of them change neither the declaration nor what is said of a fault.
-/

namespace CrateTrace.Name

/-- `wider` is `text`, which starts at byte `start`, with more blanks. None of these stands inside
one of the tokens. -/
inductive Widens (ts : List Token) : Nat → List Char → List Char → Prop where
  | nil (start : Nat) : Widens ts start [] []
  | keep {start : Nat} (c : Char) {text wider : List Char}
      (h : Widens ts (start + c.utf8Size) text wider) : Widens ts start (c :: text) (c :: wider)
  | blank {start : Nat} {c : Char} {text wider : List Char} (hblank : isBlank c = true)
      (houtside : ∀ t ∈ ts, start ≤ t.start ∨ t.stop ≤ start) (h : Widens ts start text wider) :
      Widens ts start text (c :: wider)

/-! ## What a wider text looks like -/

section Widens

variable {ts : List Token} {start : Nat} {c : Char} {text rest wider : List Char}

theorem Widens.of_nil (h : Widens ts start [] wider) : ∀ c ∈ wider, isBlank c = true := by
  generalize hinput : ([] : List Char) = input at h
  induction h with
  | nil => simp
  | keep c h => cases hinput
  | blank hblank houtside h ih => exact List.forall_mem_cons.mpr ⟨hblank, ih hinput⟩

theorem Widens.of_cons (h : Widens ts start (c :: text) wider) :
    ∃ blanks behind, wider = blanks ++ c :: behind ∧ (∀ b ∈ blanks, isBlank b = true) ∧
      Widens ts (start + c.utf8Size) text behind := by
  generalize hinput : c :: text = input at h
  induction h with
  | nil => cases hinput
  | keep c' h =>
    obtain ⟨rfl, rfl⟩ := List.cons.inj hinput
    exact ⟨[], _, rfl, by simp, h⟩
  | @blank start b input wider hblank houtside h ih =>
    obtain ⟨blanks, behind, rfl, hblanks, hbehind⟩ := ih hinput
    exact ⟨b :: blanks, behind, rfl, List.forall_mem_cons.mpr ⟨hblank, hblanks⟩, hbehind⟩

/-- Behind its first character a token stays in one piece. -/
theorem Widens.of_inside {t : Token} (ht : t ∈ ts) (hstart : t.start < start)
    (hstop : t.stop = start + byteLength text) (h : Widens ts start (text ++ rest) wider) :
    ∃ behind, wider = text ++ behind ∧ Widens ts t.stop rest behind := by
  induction text generalizing start wider with
  | nil =>
    obtain rfl : t.stop = start := hstop
    exact ⟨wider, rfl, h⟩
  | cons c text ih =>
    rw [byteLength_cons] at hstop
    have hpos := c.utf8Size_pos
    cases h with
    | keep c h =>
      obtain ⟨behind, rfl, hbehind⟩ := ih (by omega) (by omega) h
      exact ⟨behind, rfl, hbehind⟩
    | blank hblank houtside h =>
      have hout := houtside t ht
      omega

theorem Widens.of_token {t : Token} (ht : t ∈ ts) (hstart : t.start = start)
    (hstop : t.stop = start + byteLength text) (hne : text ≠ [])
    (h : Widens ts start (text ++ rest) wider) :
    ∃ blanks behind, wider = blanks ++ (text ++ behind) ∧ (∀ b ∈ blanks, isBlank b = true) ∧
      Widens ts t.stop rest behind := by
  obtain ⟨c, text, rfl⟩ := List.exists_cons_of_ne_nil hne
  obtain ⟨blanks, more, rfl, hblanks, hmore⟩ := h.of_cons
  rw [byteLength_cons] at hstop
  have hpos := c.utf8Size_pos
  obtain ⟨behind, rfl, hbehind⟩ := hmore.of_inside ht (by omega) (by omega)
  exact ⟨blanks, behind, rfl, hblanks, hbehind⟩

theorem not_isWordPart_of_isBlank (h : isBlank c = true) : isWordPart c = false := by
  simp only [isBlank, Bool.or_eq_true, beq_iff_eq] at h
  rcases h with (((rfl | rfl) | rfl) | rfl) | rfl <;> decide

/-- A blank ends a word as well as what stood there before. -/
theorem Widens.next_apart (h : Widens ts start text wider)
    (hnext : ∀ c ∈ text.head?, isWordPart c = false) :
    ∀ c ∈ wider.head?, isWordPart c = false := by
  cases h with
  | nil => simp
  | keep c h => exact hnext
  | blank hblank houtside h => simpa using not_isWordPart_of_isBlank hblank

end Widens

/-! ## A wider text is cut as before -/

theorem CutInto.behind_blanks {blanks text : List Char} {all : List Lexeme}
    (hblanks : ∀ b ∈ blanks, isBlank b = true) (h : CutInto text all) :
    CutInto (blanks ++ text) all := by
  induction blanks with
  | nil => exact h
  | cons b blanks ih =>
    rw [List.forall_mem_cons] at hblanks
    obtain ⟨ts, hts, hlexemes⟩ := ih hblanks.2
    obtain ⟨ts', hts', hshifted⟩ := tokensFrom_shift hts (0 + 1)
    refine ⟨ts', ?_, hshifted.trans hlexemes⟩
    rw [List.cons_append, tokens, tokensFrom, if_pos hblanks.1, hts']

/-- The induction goes over the tokens that are left, but no blank stands inside any token of the
whole. -/
theorem Tiled.cutInto_wider {all ts : List Token} {start : Nat} {text wider : List Char}
    (h : Tiled start text ts) (hall : ∀ t ∈ ts, t ∈ all) (hwider : Widens all start text wider) :
    CutInto wider (ts.map (·.lexeme)) := by
  induction h generalizing wider with
  | nil start =>
    have hempty : CutInto [] [] := ⟨[], by rw [tokens, tokensFrom], rfl⟩
    simpa using hempty.behind_blanks hwider.of_nil
  | @blank start c rest ts hblank hrest ih =>
    obtain ⟨blanks, behind, rfl, hblanks, hbehind⟩ := hwider.of_cons
    rw [utf8Size_blank hblank] at hbehind
    have hone : ∀ b ∈ [c], isBlank b = true := by simpa using hblank
    exact ((ih hall hbehind).behind_blanks hone).behind_blanks hblanks
  | @token start l text rest ts hcuts hrest ih =>
    rw [List.forall_mem_cons] at hall
    obtain ⟨hspells, hnext⟩ := cutsAs_iff.mp hcuts
    have hne : text ≠ [] := List.ne_nil_of_length_pos hspells.length_pos
    have hstop : start + text.length = start + byteLength text := by rw [hspells.byteLength_eq]
    obtain ⟨blanks, behind, rfl, hblanks, hbehind⟩ := hwider.of_token hall.1 rfl hstop hne
    have hcuts' : CutsAs l text behind :=
      cutsAs_iff.mpr ⟨hspells, fun hsticks => hbehind.next_apart (hnext hsticks)⟩
    have hcut := (cutInto_text_iff hcuts' _).mpr ⟨_, ih hall.2 hbehind, rfl⟩
    exact hcut.behind_blanks hblanks

/-! ## Names -/

/-- The parser reads lexemes only. -/
theorem parse_of_cutInto {name name' : String} {all : List Lexeme} (h : CutInto name.toList all)
    (h' : CutInto name'.toList all) :
    (parse name').mapError (·.cause.message) = (parse name).mapError (·.cause.message) := by
  obtain ⟨ts, hts, hlexemes⟩ := h
  obtain ⟨ts', hts', hlexemes'⟩ := h'
  unfold parse
  rw [hts, hts']
  dsimp only
  rw [hlexemes, hlexemes']
  cases declaration all <;> rfl

/-- Blanks before, between and behind the tokens of a name make no difference: it stands for the same
declaration, or is refused with the same message. -/
theorem parse_insert_blanks {name wider : String} {ts : List Token}
    (hts : tokens name.toList = .ok ts) (hwider : Widens ts 0 name.toList wider.toList) :
    (parse wider).mapError (·.cause.message) = (parse name).mapError (·.cause.message) := by
  have hcut : CutInto name.toList (ts.map (·.lexeme)) := ⟨ts, hts, rfl⟩
  exact parse_of_cutInto hcut ((Tiled.of_tokensFrom hts).cutInto_wider (fun _ ht => ht) hwider)

/-- Blanks move the fault, but the message stays. -/
theorem parse_insert_blanks_unclosed :
    parse "f<'a" = .error ⟨.unclosed, "<'a", 1⟩ ∧
      parse " f <'a\n" = .error ⟨.unclosed, "<'a\n", 3⟩ ∧
      (parse " f <'a\n").mapError (·.cause.message) =
        (parse "f<'a").mapError (·.cause.message) := by
  have hts : tokens "f<'a".toList =
      .ok [⟨.word "f", 0, 1⟩, ⟨.less, 1, 2⟩, ⟨.lifetime 'a', 2, 4⟩] := by decide +kernel
  have hwider : Widens [⟨.word "f", 0, 1⟩, ⟨.less, 1, 2⟩, ⟨.lifetime 'a', 2, 4⟩] 0 "f<'a".toList
      " f <'a\n".toList :=
    .blank rfl (by decide) <| .keep 'f' <| .blank rfl (by decide) <| .keep '<' <| .keep '\'' <|
      .keep 'a' <| .blank rfl (by decide) <| .nil _
  exact ⟨by decide +kernel, by decide +kernel, parse_insert_blanks hts hwider⟩

end CrateTrace.Name
