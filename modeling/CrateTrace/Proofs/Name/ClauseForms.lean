import CrateTrace.Proofs.Name.Brackets
import CrateTrace.Proofs.Name.Skeleton
import CrateTrace.Proofs.Name.Tiling

/-!
# Two ways to write a trait clause

A name may start with `<Type as Trait>` or with `<Trait for Type>`. Whatever stands behind the `>`,
both are read as the same declaration, or neither is a name.
-/

namespace CrateTrace.Name

/-! ## Printed trees are balanced -/

@[simp] theorem depthBehind_less (depth : Nat) (text : List Lexeme) :
    depthBehind depth (.less :: text) = depthBehind (depth + 1) text := rfl

@[simp] theorem depthBehind_greater (depth : Nat) (text : List Lexeme) :
    depthBehind (depth + 1) (.greater :: text) = depthBehind depth text := rfl

@[simp] theorem depthBehind_forWord (depth : Nat) (text : List Lexeme) :
    depthBehind (depth + 1) (.forWord :: text) = depthBehind (depth + 1) text := rfl

theorem depthBehind_plain {l : Lexeme} (h : l ∉ [.less, .greater, .asWord, .forWord])
    (depth : Nat) (text : List Lexeme) :
    depthBehind depth (l :: text) = depthBehind depth text := by
  rw [← List.singleton_append, depthBehind_append, balanced_plain h 0 depth (Nat.zero_le depth)]
  rfl

theorem depth_printRef (byRef : Bool) (rest : List Piece) (depth : Nat) :
    depthBehind depth (lexemes (printRef byRef rest)) = depthBehind depth (lexemes rest) := by
  cases byRef with
  | false => rfl
  | true => exact depthBehind_plain (by simp) depth _

theorem Lifetime.depth_print (lifetime : Lifetime) (rest : List Piece) (depth : Nat) :
    depthBehind depth (lexemes (lifetime.print rest)) = depthBehind depth (lexemes rest) := by
  rw [Lifetime.print, depth_printRef]
  exact depthBehind_plain (by simp) depth _

theorem Lifetime.depth_printMore (lifetimes : List Lifetime) (rest : List Piece) (depth : Nat) :
    depthBehind depth (lexemes (Lifetime.printMore lifetimes rest)) =
      depthBehind depth (lexemes rest) := by
  induction lifetimes with
  | nil => rfl
  | cons lifetime lifetimes ih =>
    have hmore : lexemes (Lifetime.printMore (lifetime :: lifetimes) rest) =
      .comma :: lexemes (lifetime.print (Lifetime.printMore lifetimes rest)) := rfl
    rw [hmore, depthBehind_plain (by simp), Lifetime.depth_print, ih]

mutual

theorem Segment.depth_print (s : Segment) (rest : List Piece) (depth : Nat) :
    depthBehind depth (lexemes (s.print rest)) = depthBehind depth (lexemes rest) := by
  cases s with
  | mk kind args =>
    rw [Segment.print, kind.depth_print]
    cases args with
    | none => rfl
    | some args => exact args.depth_print rest depth

theorem SegmentKind.depth_print (kind : SegmentKind) (rest : List Piece) (depth : Nat) :
    depthBehind depth (lexemes (kind.print rest)) = depthBehind depth (lexemes rest) := by
  cases kind with
  | name text => exact depthBehind_plain (by simp) depth _
  | closure index => exact depthBehind_plain (by simp) depth _
  | inherentImpl type =>
    simp only [SegmentKind.print, lexemes, depthBehind_less]
    rw [depthBehind_plain (by simp), type.depth_print]
    exact depthBehind_greater depth _
  | traitImpl clause =>
    obtain ⟨implementedTrait, type⟩ := clause
    simp only [SegmentKind.print, lexemes, depthBehind_less]
    rw [depthBehind_plain (by simp), Segment.depth_printPath]
    simp only [lexemes, depthBehind_forWord]
    rw [type.depth_print]
    exact depthBehind_greater depth _

theorem TypeRef.depth_print (type : TypeRef) (rest : List Piece) (depth : Nat) :
    depthBehind depth (lexemes (type.print rest)) = depthBehind depth (lexemes rest) := by
  cases type with
  | mk byRef path => rw [TypeRef.print, depth_printRef, Segment.depth_printPath]

theorem Generics.depth_print (args : Generics) (rest : List Piece) (depth : Nat) :
    depthBehind depth (lexemes (args.print rest)) = depthBehind depth (lexemes rest) := by
  obtain ⟨types, lifetimes⟩ := args
  cases lifetimes with
  | nil =>
    cases types with
    | nil => rfl
    | cons type types =>
      simp only [Generics.print, TypeArgument.printList, lexemes, depthBehind_less]
      rw [type.depth_print, TypeArgument.depth_printMore]
      exact depthBehind_greater depth _
  | cons lifetime lifetimes =>
    simp only [Generics.print, lexemes, depthBehind_less]
    rw [lifetime.depth_print, Lifetime.depth_printMore, TypeArgument.depth_printMore]
    exact depthBehind_greater depth _

theorem TypeArgument.depth_print (type : TypeArgument) (rest : List Piece) (depth : Nat) :
    depthBehind depth (lexemes (type.print rest)) = depthBehind depth (lexemes rest) := by
  cases type with
  | param name byRef =>
    rw [TypeArgument.print, depth_printRef]
    exact depthBehind_plain (by simp) depth _
  | concrete type => exact type.depth_print rest depth

theorem TypeArgument.depth_printMore (types : List TypeArgument) (rest : List Piece)
    (depth : Nat) :
    depthBehind depth (lexemes (TypeArgument.printMore types rest)) =
      depthBehind depth (lexemes rest) := by
  cases types with
  | nil => rfl
  | cons type types =>
    rw [TypeArgument.printMore, lexemes, lexemes, depthBehind_plain (by simp), type.depth_print,
      TypeArgument.depth_printMore]

theorem Segment.depth_printPath (path : List Segment) (rest : List Piece) (depth : Nat) :
    depthBehind depth (lexemes (Segment.printPath path rest)) =
      depthBehind depth (lexemes rest) := by
  cases path with
  | nil => rfl
  | cons first path => rw [Segment.printPath, first.depth_print, Segment.depth_printMore]

theorem Segment.depth_printMore (path : List Segment) (rest : List Piece) (depth : Nat) :
    depthBehind depth (lexemes (Segment.printMore path rest)) =
      depthBehind depth (lexemes rest) := by
  cases path with
  | nil => rfl
  | cons first path =>
    rw [Segment.printMore, lexemes, depthBehind_plain (by simp), first.depth_print,
      Segment.depth_printMore]

end

/-- A path does not start with `impl`, even if the segment that it starts with could never be
read. -/
theorem printPath_start (path : List Segment) :
    (lexemes (Segment.printPath path [])).head? ≠ some .implWord := by
  cases path with
  | nil => simp [Segment.printPath, lexemes]
  | cons first path =>
    obtain ⟨kind, args⟩ := first
    rw [Segment.printPath, Segment.print]
    cases kind with
    | name text => simp [SegmentKind.print, lexemes]
    | closure index => simp [SegmentKind.print, lexemes]
    | inherentImpl type => simp [SegmentKind.print, lexemes]
    | traitImpl clause =>
      cases clause
      simp [SegmentKind.print, lexemes]

/-! ## A printed text in front of any other -/

theorem lexemes_append (pieces pieces' : List Piece) :
    lexemes (pieces ++ pieces') = lexemes pieces ++ lexemes pieces' := by
  induction pieces with
  | nil => rfl
  | cons piece pieces ih => cases piece <;> simp [lexemes, ih]

theorem spell_append (pieces pieces' : List Piece) :
    spell (pieces ++ pieces') = spell pieces ++ spell pieces' := by
  simp [spell, String.join_append]

theorem Cuttable.append {pieces pieces' : List Piece} (h : Cuttable pieces)
    (h' : Closing pieces') : Cuttable (pieces ++ pieces') := by
  refine ⟨?_, List.isChain_append.mpr ⟨h.apart, h'.cuttable.apart, ?_⟩⟩
  · rw [lexemes_append, List.forall_mem_append]
    exact ⟨h.lexical, h'.cuttable.lexical⟩
  · exact fun _ _ next hnext _ => h'.start next hnext

theorem Cuttable.cutInto {pieces : List Piece} (h : Cuttable pieces) :
    CutInto (spell pieces).toList (lexemes pieces) :=
  tokensFrom_spell h.lexical h.apart 0

/-- Behind a `>` any text is cut on its own. -/
theorem parse_behind_greater {pieces : List Piece} (h : Cuttable pieces) (rest : String)
    (d : Declaration) :
    parse (spell pieces ++ ">" ++ rest) = .ok d ↔
      ∃ behind, CutInto rest.toList behind ∧
        DerivesDeclaration d (lexemes pieces ++ .greater :: behind) := by
  have hclose : CutsAs .greater ['>'] rest.toList := ⟨'>', [], rfl, rfl, rfl⟩
  have hinput : (spell pieces ++ ">" ++ rest).toList =
    (spell pieces).toList ++ (['>'] ++ rest.toList) := by simp
  have hcut : ∀ all, CutInto (spell pieces ++ ">" ++ rest).toList all ↔
      ∃ behind, CutInto rest.toList behind ∧ all = lexemes pieces ++ .greater :: behind := by
    intro all
    rw [hinput, cutInto_append_iff h.cutInto (by simp; decide)]
    simp only [cutInto_text_iff hclose]
    constructor
    · rintro ⟨_, ⟨behind, hbehind, rfl⟩, rfl⟩
      exact ⟨behind, hbehind, rfl⟩
    · rintro ⟨behind, hbehind, rfl⟩
      exact ⟨_, ⟨behind, hbehind, rfl⟩, rfl⟩
  constructor
  · intro hparse
    obtain ⟨ts, hts, hd⟩ := derives_of_parse hparse
    obtain ⟨behind, hbehind, hall⟩ := (hcut _).mp ⟨ts, hts, rfl⟩
    exact ⟨behind, hbehind, hall ▸ hd⟩
  · rintro ⟨behind, hbehind, hd⟩
    obtain ⟨ts, hts, hall⟩ := (hcut _).mpr ⟨behind, hbehind, rfl⟩
    exact parse_of_derives hts (hall ▸ hd)

/-! ## The two forms -/

/-- The canonical text of a path. -/
def displayPath (path : List Segment) : String := spell (Segment.printPath path [])

/-- `<first mark second`, without the `>`. -/
def clausePieces (first : List Piece) (mark : Lexeme) (second : List Piece) : List Piece :=
  .lexeme .less :: (first ++ .blank :: .lexeme mark :: .blank :: second)

theorem lexemes_clausePieces (first : List Piece) (mark : Lexeme) (second : List Piece) :
    lexemes (clausePieces first mark second) =
      .less :: lexemes first ++ mark :: lexemes second := by
  simp [clausePieces, lexemes, lexemes_append]

theorem spell_as (rest : List Piece) :
    spell (.blank :: .lexeme .asWord :: .blank :: rest) = " as " ++ spell rest := by
  rw [spell_blank, spell_lexeme, spell_blank, ← String.append_assoc, ← String.append_assoc]
  rfl

theorem spell_asClause (type : TypeRef) (implementedTrait : List Segment) :
    spell (clausePieces (type.print []) .asWord (Segment.printPath implementedTrait [])) =
      "<" ++ type.display ++ " as " ++ displayPath implementedTrait := by
  simp [clausePieces, spell_lexeme, spell_append, spell_as, Lexeme.spelling, TypeRef.display,
    displayPath, String.append_assoc]

theorem spell_forClause (type : TypeRef) (implementedTrait : List Segment) :
    spell (clausePieces (Segment.printPath implementedTrait []) .forWord (type.print [])) =
      "<" ++ displayPath implementedTrait ++ " for " ++ type.display := by
  simp [clausePieces, spell_lexeme, spell_append, spell_for, Lexeme.spelling, TypeRef.display,
    displayPath, String.append_assoc]

theorem cuttable_clausePieces {first second : List Piece} (hfirst : Cuttable first)
    (hsecond : Cuttable second) {mark : Lexeme} (hmark : mark.Lexical) :
    Cuttable (clausePieces first mark second) := by
  have hbehind := (hsecond.blank.lexeme mark hmark).blank
  exact ((hfirst.append hbehind).sign .less rfl).cuttable

/-- `<Type as Trait>` and `<Trait for Type>` say the same in front of any text: both are read, as
the same declaration, or both are refused. -/
theorem parse_as_iff_parse_for {type : TypeRef} {implementedTrait : List Segment}
    (htype : ∀ s ∈ type.nested, s.Worded)
    (htrait : ∀ s ∈ Segment.nestedPath implementedTrait, s.Worded) (rest : String)
    (d : Declaration) :
    parse ("<" ++ type.display ++ " as " ++ displayPath implementedTrait ++ ">" ++ rest) = .ok d ↔
      parse ("<" ++ displayPath implementedTrait ++ " for " ++ type.display ++ ">" ++ rest) =
        .ok d := by
  have hcuttype := type.cuttable_print htype closing_nil
  have hcuttrait := Segment.cuttable_printPath implementedTrait htrait closing_nil
  have hbalanced : BalancedFrom 0 (lexemes (type.print [])) :=
    fun depth _ => type.depth_print [] depth
  have hbalanced' : BalancedFrom 0 (lexemes (Segment.printPath implementedTrait [])) :=
    fun depth _ => Segment.depth_printPath implementedTrait [] depth
  have has := cuttable_clausePieces hcuttype hcuttrait (show Lexeme.asWord.Lexical from trivial)
  have hfor := cuttable_clausePieces hcuttrait hcuttype (show Lexeme.forWord.Lexical from trivial)
  rw [← spell_asClause, ← spell_forClause, parse_behind_greater has, parse_behind_greater hfor]
  simp only [lexemes_clausePieces,
    derivesDeclaration_as_iff_for hbalanced hbalanced' (printPath_start implementedTrait)]

/-- The trait clause of `indexMethod` can be turned round. -/
theorem parse_as_iff_parse_for_indexMethod :
    parse "<&Vec<'a, T> as Index<&u8>>::<impl Fn<K2> for Set>::\x7bclosure#7\x7d" =
        .ok (indexMethod true) ∧
      parse "<Index<&u8> for &Vec<'a, T>>::<impl Fn<K2> for Set>::\x7bclosure#7\x7d" =
        .ok (indexMethod true) := by
  have hwritten := (wellFormed_of_parse (parse_indexMethod true)).nested
  have hclause := (Declaration.forall_nested.mp hwritten).2 _ rfl
  simp only [TraitClause.nested, List.forall_mem_append] at hclause
  have hiff := parse_as_iff_parse_for (fun s hs => (hclause.2 s hs).worded)
    (fun s hs => (hclause.1 s hs).worded) "::<impl Fn<K2> for Set>::\x7bclosure#7\x7d"
    (indexMethod true)
  have has : parse "<&Vec<'a, T> as Index<&u8>>::<impl Fn<K2> for Set>::\x7bclosure#7\x7d" =
    .ok (indexMethod true) := by decide +kernel
  exact ⟨has, hiff.mp has⟩

end CrateTrace.Name
