import CrateTrace.Proofs.Name.Bytewise

/-!
# No character is dropped or read twice

The tokens of a name lie one behind the other, with nothing but blanks between them, and the part of
the name that a token covers is cut into this one token when it stands alone.
-/

namespace CrateTrace.Name

def Token.Covers (t : Token) (pos : Nat) : Prop := t.start ≤ pos ∧ pos < t.stop

/-- A piece of text that is one token. -/
def IsOneToken (l : Lexeme) (piece : String) : Prop :=
  tokens piece.toList = .ok [⟨l, 0, piece.utf8ByteSize⟩]

structure TilesText (text : String) (ts : List Token) : Prop where
  inside : ∀ t ∈ ts, t.start < t.stop ∧ t.stop ≤ text.utf8ByteSize
  ascending : ts.Pairwise fun t u => t.start < u.start ∧ t.stop ≤ u.start
  blanks : ∀ pos < text.utf8ByteSize, (∀ t ∈ ts, ¬ t.Covers pos) →
    ∃ c, byteAt? text pos = some c ∧ isBlank c = true
  pieces : ∀ t ∈ ts, ∃ piece, part? text t.start t.stop = some piece ∧ IsOneToken t.lexeme piece

theorem isOneToken_of_spells {l : Lexeme} {piece : List Char} (h : Spells l piece) :
    IsOneToken l (String.ofList piece) := by
  have hcuts : CutsAs l piece [] := by
    rw [cutsAs_iff]
    exact ⟨h, by simp⟩
  have hcut : tokensFrom 0 (piece ++ []) = .ok [⟨l, 0, 0 + piece.length⟩] :=
    tokensFrom_cut hcuts (by rw [tokensFrom])
  unfold IsOneToken tokens
  rw [← byteLength_toList, String.toList_ofList, h.byteLength_eq]
  simpa using hcut

section

variable {text : String} {start : Nat} {a input : List Char} {ts : List Token}

/-- What the tokens leave out of the rest of a text is blank. -/
theorem Tiled.blank_outside (h : Tiled start input ts) (htext : text.toList = a ++ input)
    (hstart : byteLength a = start) {pos : Nat} (hpos : start ≤ pos)
    (hend : pos < text.utf8ByteSize) (houtside : ∀ t ∈ ts, ¬ t.Covers pos) :
    ∃ c, byteAt? text pos = some c ∧ isBlank c = true := by
  induction h generalizing a with
  | nil start =>
    rw [← byteLength_toList, htext, List.append_nil] at hend
    omega
  | @blank start c rest ts hblank hrest ih =>
    by_cases hhere : pos = start
    · obtain ⟨b, hbyte, hleads⟩ := byteAt?_cons htext
      rw [hstart, ← hhere] at hbyte
      exact ⟨b, hbyte, (isBlank_of_leads hleads).trans hblank⟩
    · apply ih (a := a ++ [c])
      · simpa using htext
      · rw [byteLength_append, byteLength_cons, utf8Size_blank hblank, hstart]
        rfl
      · omega
      · exact houtside
  | @token start l word rest ts hcuts hrest ih =>
    obtain ⟨hspells, -⟩ := cutsAs_iff.1 hcuts
    rw [List.forall_mem_cons] at houtside
    obtain ⟨hword, hmore⟩ := houtside
    unfold Token.Covers at hword
    apply ih (a := a ++ word)
    · simpa using htext
    · rw [byteLength_append, hspells.byteLength_eq, hstart]
    · dsimp only at hword
      omega
    · exact hmore

theorem Tiled.part_isOneToken (h : Tiled 0 text.toList ts) {t : Token} (ht : t ∈ ts) :
    ∃ piece, part? text t.start t.stop = some piece ∧ IsOneToken t.lexeme piece := by
  obtain ⟨a, piece, b, htext, hstart, hstop, hspells⟩ := h.exists_text t ht
  rw [Nat.zero_add] at hstart
  refine ⟨String.ofList piece, ?_, isOneToken_of_spells hspells⟩
  rw [hstop, hstart]
  exact part?_eq htext

theorem Tiled.tilesText (h : Tiled 0 text.toList ts) : TilesText text ts where
  inside := by
    intro t ht
    obtain ⟨a, piece, b, htext, hstart, hstop, -⟩ := h.exists_text t ht
    obtain ⟨-, hlt⟩ := h.start_le t ht
    rw [← byteLength_toList, htext, byteLength_append, byteLength_append]
    omega
  ascending := by
    refine h.pairwise.imp_of_mem ?_
    intro t u ht _ hbehind
    obtain ⟨-, hlt⟩ := h.start_le t ht
    omega
  blanks := by
    intro pos hend houtside
    exact h.blank_outside (a := []) rfl rfl (Nat.zero_le pos) hend houtside
  pieces := fun t ht => h.part_isOneToken ht

/-- Reading a name by characters or by bytes, its tokens and blanks make up the whole of it. -/
theorem tokens_tile (h : tokens text.toList = .ok ts) :
    tokensAt? text 0 = some (.ok ts) ∧ TilesText text ts := by
  have hbytes : tokensAt? text 0 = some (tokensFrom 0 text.toList) := tokensAt?_eq (a := []) rfl
  refine ⟨?_, (Tiled.of_tokensFrom h).tilesText⟩
  rw [hbytes]
  exact congrArg some h

end

/-- The blank inside and the two at the end belong to no token. -/
theorem tokens_tile_closure :
    let ts : List Token := [⟨.ampersand, 0, 1⟩, ⟨.lifetime 'a', 1, 3⟩, ⟨.word "f", 4, 5⟩,
      ⟨.pathSeparator, 5, 7⟩, ⟨.closure (some 12), 7, 19⟩]
    tokens "&'a f::\x7bclosure#12\x7d\t\n".toList = .ok ts ∧
      TilesText "&'a f::\x7bclosure#12\x7d\t\n" ts := by
  intro ts
  have htokens : tokens "&'a f::\x7bclosure#12\x7d\t\n".toList = .ok ts := by decide +kernel
  exact ⟨htokens, (tokens_tile htokens).2⟩

end CrateTrace.Name
